import ToolDock.Notation.Extensions
import ToolDock.Notation.Literal
import ToolDock.Notation.Numeral
import ToolDock.Notation.Value

/-!
Reading values of the object notation. The readers take a text without spacing at its head and
return what follows the value; spacing may stand wherever one part of a value ends.
-/

namespace ToolDock.Notation.Value

/-- Names that stand alone: truth values, the absence of a value, and numbers. -/
def keywords : List String :=
  ["true", "false", "None", "inf", "NaN", "inff32", "inff64", "NaNf32", "NaNf64"]

def readScalar? : List Char → Option (Value × List Char)
  | [] => none
  | c :: cs =>
    if Numeral.isStart c then (Numeral.read? (c :: cs)).map fun (s, rest) ↦ (number s, rest)
    else if c = '"' ∨ c = 'r' then
      (Literal.readText? (c :: cs)).map fun (s, rest) ↦ (text s, rest)
    else if c = '\'' then
      (Literal.readCharacter? (c :: cs)).map fun (x, rest) ↦ (character x, rest)
    else if cs.head? = some '\'' then (Literal.afterByte? (c :: cs)).map fun rest ↦ (bytes, rest)
    else (Literal.afterBytes? (c :: cs)).map fun rest ↦ (bytes, rest)

def holdsFields? (cs : List Char) : Option Bool :=
  match Name.read? cs with
  | some (_, rest) => do return (← Spacing.skip? rest).head? = some ':'
  | none => some false

inductive Content where
  | nothing
  | fields
  | single
  | several
deriving DecidableEq, Repr

namespace Content

def afterLiterals (cs : List Char) : List Char :=
  let cs := ((Literal.readCharacter? cs).map (·.2)).getD cs
  let cs := ((Literal.readText? cs).map (·.2)).getD cs
  (Literal.afterBytes? cs).getD cs

/-- Whether a comma that another value follows stands in the parentheses, `depth` levels above. At
most `fuel` characters are passed over. -/
def scan? : Nat → Nat → List Char → Option Content
  | 0, _, _ => none
  | fuel + 1, depth, cs => do
    match afterLiterals (← Spacing.skip? cs) with
    | [] => none
    | c :: rest =>
      if c = '(' ∨ c = '[' ∨ c = '{' then scan? fuel (depth + 1) rest
      else if c = ')' ∨ c = ']' ∨ c = '}' then
        match depth with
        | 0 => return single
        | depth + 1 => scan? fuel depth rest
      else if c = ',' ∧ depth = 0 then
        return if (← Spacing.skip? rest).head? = some ')' then single else several
      else scan? fuel depth rest

def of? (cs : List Char) : Option Content :=
  if cs.head? = some ')' then some nothing
  else
    match Name.read? cs with
    | some (_, rest) => do
      match ← Spacing.skip? rest with
      | ':' :: _ => return fields
      | ')' :: _ => return single
      | rest => scan? (rest.length + 1) 0 rest
    | none => scan? (cs.length + 1) 0 cs

end Content

def afterClosing? (cs : List Char) : Option (List Char) := do
  let cs ← match ← Spacing.skip? cs with
    | ',' :: rest => Spacing.skip? rest
    | rest => some rest
  match cs with
  | ')' :: rest => some rest
  | _ => none

mutual

/-- The value at the head of a text; at most `fuel` readers call each other. -/
def readWith? (exts : Extensions) : Nat → List Char → Option (Value × List Char)
  | 0, _ => none
  | fuel + 1, cs =>
    match Name.read? cs with
    | some (name, rest) =>
      if !name.raw && keywords.contains name.text then some (ident false name.text, rest)
      else do
        let next ← Spacing.skip? rest
        if !name.raw && name.text == "Some" then readOption? exts fuel next
        else
          match next with
          | '(' :: next => readGroup? exts fuel (some name.text) next
          | _ => some (ident name.raw name.text, rest)
    | none =>
      match cs with
      | '(' :: ')' :: rest => some (unit, rest)
      | '(' :: rest => readGroup? exts fuel none rest
      | '[' :: rest => do
        let (items, rest) ← readItems? exts fuel ']' rest
        return (list items, rest)
      | '{' :: rest => do
        let (entries, rest) ← readEntries? exts fuel rest
        return (map entries, rest)
      | cs => readScalar? cs

def readOption? (exts : Extensions) : Nat → List Char → Option (Value × List Char)
  | 0, _ => none
  | fuel + 1, '(' :: cs => do
    let cs ← Spacing.skip? cs
    match ← if exts.unwrapVariants then Content.of? cs else some .single with
    | .nothing => return (option false unit, cs.tail)
    | .fields =>
      let (fields, rest) ← readFields? exts fuel cs
      return (option false (record none fields), rest)
    | .several =>
      let (items, rest) ← readItems? exts fuel ')' cs
      return (option false (tuple none items), rest)
    | .single =>
      let (v, rest) ← readWith? exts fuel cs
      return (option true v, ← afterClosing? rest)
  | fuel + 1, cs =>
    if exts.implicitSome then do
      let (v, rest) ← readWith? exts fuel cs
      return (option false v, rest)
    else none

def readGroup? (exts : Extensions) :
    Nat → Option String → List Char → Option (Value × List Char)
  | 0, _, _ => none
  | fuel + 1, name, cs => do
    let cs ← Spacing.skip? cs
    if ← holdsFields? cs then
      let (fields, rest) ← readFields? exts fuel cs
      return (record name fields, rest)
    else
      let (items, rest) ← readItems? exts fuel ')' cs
      return (tuple name items, rest)

def readItems? (exts : Extensions) :
    Nat → Char → List Char → Option (List Value × List Char)
  | 0, _, _ => none
  | fuel + 1, closing, cs => do
    let cs ← Spacing.skip? cs
    if cs.head? = some closing then return ([], cs.tail)
    let (v, rest) ← readWith? exts fuel cs
    match ← Spacing.skip? rest with
    | ',' :: rest =>
      let (vs, rest) ← readItems? exts fuel closing rest
      return (v :: vs, rest)
    | c :: rest => if c = closing then return ([v], rest) else none
    | [] => none

def readEntries? (exts : Extensions) :
    Nat → List Char → Option (List (Value × Value) × List Char)
  | 0, _ => none
  | fuel + 1, cs => do
    let cs ← Spacing.skip? cs
    if cs.head? = some '}' then return ([], cs.tail)
    let (key, rest) ← readWith? exts fuel cs
    match ← Spacing.skip? rest with
    | ':' :: rest =>
      let (v, rest) ← readWith? exts fuel (← Spacing.skip? rest)
      match ← Spacing.skip? rest with
      | ',' :: rest =>
        let (entries, rest) ← readEntries? exts fuel rest
        return ((key, v) :: entries, rest)
      | '}' :: rest => return ([(key, v)], rest)
      | _ => none
    | _ => none

def readFields? (exts : Extensions) :
    Nat → List Char → Option (List (String × Value) × List Char)
  | 0, _ => none
  | fuel + 1, cs => do
    let cs ← Spacing.skip? cs
    if cs.head? = some ')' then return ([], cs.tail)
    let (name, rest) ← Name.read? cs
    match ← Spacing.skip? rest with
    | ':' :: rest =>
      let (v, rest) ← readWith? exts fuel (← Spacing.skip? rest)
      match ← Spacing.skip? rest with
      | ',' :: rest =>
        let (fields, rest) ← readFields? exts fuel rest
        return ((name.text, v) :: fields, rest)
      | ')' :: rest => return ([(name.text, v)], rest)
      | _ => none
    | _ => none

end

def read? (s : String) : Option (Extensions × Value) := do
  let cs ← Spacing.skip? s.toList
  let (exts, cs) ← Extensions.none.read? cs.length cs
  let (v, rest) ← readWith? exts (4 * cs.length + 4) cs
  if (← Spacing.skip? rest).isEmpty && v.depth ≤ maxDepth then some (exts, v) else none

end ToolDock.Notation.Value
