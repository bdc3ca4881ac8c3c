import ToolDock.Toml.Number
import ToolDock.Toml.Text
import ToolDock.Toml.Value

namespace ToolDock.Toml

def skipBlank (cs : List Char) : List Char := cs.dropWhile fun c ↦ c == ' ' || c == '\t'

def afterComment? : List Char → Option (List Char)
  | [] => some []
  | c :: cs =>
    match Text.afterNewline? (c :: cs) with
    | some _ => some (c :: cs)
    | none => if Text.isControl c then none else afterComment? cs

def skipLines? : Nat → List Char → Option (List Char)
  | 0, cs => some cs
  | fuel + 1, cs =>
    match skipBlank cs with
    | '#' :: cs => do skipLines? fuel (← afterComment? cs)
    | cs =>
      match Text.afterNewline? cs with
      | some cs => skipLines? fuel cs
      | none => some cs

def endLine? (cs : List Char) : Option (List Char) := do
  let rest ← match skipBlank cs with
    | '#' :: cs => afterComment? cs
    | cs => some cs
  if rest.isEmpty then some [] else Text.afterNewline? rest

def isBare (c : Char) : Bool := c.isAlphanum || c == '-' || c == '_'

def readKey? (cs : List Char) : Option (String × List Char) :=
  match Text.readLine? cs with
  | some read => some read
  | none =>
    let key := cs.takeWhile isBare
    if key.isEmpty then none else some (String.ofList key, cs.dropWhile isBare)

def readKeys? : Nat → List Char → Option (List String × List Char)
  | 0, _ => none
  | count + 1, cs => do
    let (key, rest) ← readKey? (skipBlank cs)
    match skipBlank rest with
    | '.' :: rest =>
      let (path, rest) ← readKeys? count rest
      return (key :: path, rest)
    | rest => return ([key], rest)

def readPath? (cs : List Char) : Option (List String × List Char) := readKeys? Value.maxDepth cs

def delimiters : List Char := ['=', ',', '[', ']', '{', '}', ' ', '\t', '#', '\r', '\n']

def isWordChar (c : Char) : Bool := !delimiters.contains c

/-- A word, with the word behind a space that could be the time of a date. -/
def spanWord (cs : List Char) : List Char × List Char :=
  let word := cs.takeWhile isWordChar
  let rest := cs.dropWhile isWordChar
  match Moment.readDate? word, rest with
  | some (_, []), ' ' :: c :: more =>
    if c.isDigit then
      (word ++ ' ' :: (c :: more).takeWhile isWordChar, (c :: more).dropWhile isWordChar)
    else (word, rest)
  | _, _ => (word, rest)

def ofWord? (word : List Char) : Option Value :=
  if word == "true".toList then some (.boolean true)
  else if word == "false".toList then some (.boolean false)
  else
    match Number.readInteger? word, Moment.read? word with
    | some n, _ => some (.integer n)
    | none, some m => some (.moment m)
    | none, none =>
      if Number.isFraction word then some (.fraction (String.ofList word)) else none

def readWord? (cs : List Char) : Option (Value × List Char) :=
  let (word, rest) := spanWord cs
  (ofWord? word).map fun v ↦ (v, rest)

namespace Value

mutual

def read? : Nat → List Char → Option (Value × List Char)
  | 0, _ => none
  | fuel + 1, cs =>
    match cs with
    | '[' :: cs => do
      let (items, rest) ← readItems? fuel cs
      return (array items, rest)
    | '{' :: cs => do
      let (entries, rest) ← readEntries? fuel [] cs
      return (table .inline entries, rest)
    | cs =>
      match Text.read? cs with
      | some (s, rest) => some (text s, rest)
      | none => readWord? cs

def readItems? : Nat → List Char → Option (List Value × List Char)
  | 0, _ => none
  | fuel + 1, cs => do
    match ← skipLines? cs.length cs with
    | ']' :: rest => return ([], rest)
    | cs =>
      let (v, rest) ← read? fuel cs
      match ← skipLines? rest.length rest with
      | ',' :: rest =>
        let (vs, rest) ← readItems? fuel rest
        return (v :: vs, rest)
      | ']' :: rest => return ([v], rest)
      | _ => none

/-- The entries of an inline table after those in `es`, to its closing brace, over any number of
lines. -/
def readEntries? : Nat → Entries → List Char → Option (Entries × List Char)
  | 0, _, _ => none
  | fuel + 1, es, cs => do
    match ← skipLines? cs.length cs with
    | '}' :: rest => return (es, rest)
    | cs =>
      let (path, rest) ← readPath? cs
      match ← skipLines? rest.length rest with
      | '=' :: rest =>
        let (v, rest) ← read? fuel (← skipLines? rest.length rest)
        let es ← es.assign path v
        match ← skipLines? rest.length rest with
        | ',' :: rest => readEntries? fuel es rest
        | '}' :: rest => return (es, rest)
        | _ => none
      | _ => none

end

end Value

end ToolDock.Toml
