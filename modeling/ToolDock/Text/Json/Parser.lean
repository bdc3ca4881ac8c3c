import ToolDock.Number.Written
import ToolDock.Text.Json

namespace ToolDock.Json

def skipBlank (cs : List Char) : List Char :=
  cs.dropWhile fun c ↦ c == ' ' || c == '\t' || c == '\n' || c == '\r'

def readUnit? : List Char → Option (Nat × List Char)
  | a :: b :: c :: d :: cs => do return (← Digits.read? 16 [a, b, c, d], cs)
  | _ => none

def readCodePoint? (cs : List Char) : Option (Char × List Char) := do
  let (high, cs) ← readUnit? cs
  if high.isValidChar then return (Char.ofNat high, cs)
  match cs with
  | '\\' :: 'u' :: cs =>
    let (low, cs) ← readUnit? cs
    if high < 0xdc00 ∧ 0xdc00 ≤ low ∧ low < 0xe000 then
      return (Char.ofNat (0x10000 + (high - 0xd800) * 0x400 + (low - 0xdc00)), cs)
    none
  | _ => none

def readEscape? : List Char → Option (Char × List Char)
  | '"' :: cs => some ('"', cs)
  | '\\' :: cs => some ('\\', cs)
  | '/' :: cs => some ('/', cs)
  | 'b' :: cs => some ('\x08', cs)
  | 'f' :: cs => some ('\x0c', cs)
  | 'n' :: cs => some ('\n', cs)
  | 'r' :: cs => some ('\r', cs)
  | 't' :: cs => some ('\t', cs)
  | 'u' :: cs => readCodePoint? cs
  | _ => none

/-- The rest of a text, the opening quote gone; at most `fuel` characters, which are put in front of
`acc` in reverse. -/
def readText? (acc : List Char) : Nat → List Char → Option (String × List Char)
  | _ + 1, '"' :: cs => some (String.ofList acc.reverse, cs)
  | fuel + 1, '\\' :: cs => do
    let (c, cs) ← readEscape? cs
    readText? (c :: acc) fuel cs
  | fuel + 1, c :: cs => if c.toNat < 0x20 then none else readText? (c :: acc) fuel cs
  | _, _ => none

def isNumberChar (c : Char) : Bool :=
  c.isDigit || c == '+' || c == '-' || c == '.' || c == 'e' || c == 'E'

def splitSign : List Char → Bool × List Char
  | '-' :: cs => (true, cs)
  | cs => (false, cs)

def readNumber? (cs : List Char) : Option (Json × List Char) :=
  let text := cs.takeWhile isNumberChar
  let digits := (splitSign text).2
  if (digits.head?.any (·.isDigit)) && (Written.read? digits).isSome then
    some (number (String.ofList text), cs.dropWhile isNumberChar)
  else none

mutual

def readWith : Nat → List Char → Option (Json × List Char)
  | 0, _ => none
  | fuel + 1, cs =>
    match skipBlank cs with
    | '"' :: cs => do
      let (s, rest) ← readText? [] (cs.length + 1) cs
      return (string s, rest)
    | '[' :: cs =>
      match skipBlank cs with
      | ']' :: rest => some (array [], rest)
      | cs => do
        let (items, rest) ← readItems? fuel cs
        return (array items, rest)
    | '{' :: cs =>
      match skipBlank cs with
      | '}' :: rest => some (object [], rest)
      | cs => do
        let (fields, rest) ← readFields? fuel cs
        return (object fields, rest)
    | 't' :: 'r' :: 'u' :: 'e' :: rest => some (bool true, rest)
    | 'f' :: 'a' :: 'l' :: 's' :: 'e' :: rest => some (bool false, rest)
    | 'n' :: 'u' :: 'l' :: 'l' :: rest => some (null, rest)
    | cs => readNumber? cs

def readItems? : Nat → List Char → Option (List Json × List Char)
  | 0, _ => none
  | fuel + 1, cs => do
    let (j, rest) ← readWith fuel cs
    match skipBlank rest with
    | ',' :: rest =>
      let (items, rest) ← readItems? fuel rest
      return (j :: items, rest)
    | ']' :: rest => return ([j], rest)
    | _ => none

def readFields? : Nat → List Char → Option (List (String × Json) × List Char)
  | 0, _ => none
  | fuel + 1, cs => do
    match skipBlank cs with
    | '"' :: cs =>
      let (key, rest) ← readText? [] (cs.length + 1) cs
      match skipBlank rest with
      | ':' :: rest =>
        let (j, rest) ← readWith fuel rest
        match skipBlank rest with
        | ',' :: rest =>
          let (fields, rest) ← readFields? fuel rest
          return ((key, j) :: fields, rest)
        | '}' :: rest => return ([(key, j)], rest)
        | _ => none
      | _ => none
    | _ => none

end

def read? (s : String) : Option Json := do
  let cs := s.toList
  let (j, rest) ← readWith (2 * cs.length + 2) cs
  if (skipBlank rest).isEmpty then some j else none

def text? : Json → Option String
  | string s => some s
  | _ => none

def flag? : Json → Option Bool
  | bool b => some b
  | _ => none

def items? : Json → Option (List Json)
  | array items => some items
  | _ => none

def fields? : Json → Option (List (String × Json))
  | object fields => some fields
  | _ => none

def field? (j : Json) (key : String) : Option Json := do (← j.fields?).lookup key

def get (j : Json) (key : String) : Json := (j.field? key).getD null

def integer? : Json → Option Int
  | number text =>
    match text.toList with
    | '-' :: digits => (Digits.read? 10 digits).map (-↑·)
    | digits => (Digits.read? 10 digits).map (↑·)
  | _ => none

def written? : Json → Option (Bool × Written)
  | number text =>
    let (negative, digits) := splitSign text.toList
    (Written.read? digits).map fun w ↦ (negative, w)
  | _ => none

end ToolDock.Json
