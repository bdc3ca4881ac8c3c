import ToolDock.Number.Digits
import ToolDock.Text.Lossy

namespace ToolDock.Notation.Literal

inductive Escape where
  /-- A character with a short name. -/
  | short (c : Char)
  | byte (n : Nat)
  | codePoint (c : Char)
deriving DecidableEq, Repr

def readByte? : List Char → Option (Nat × List Char)
  | a :: b :: cs => do return (← Digits.read? 16 [a, b], cs)
  | _ => none

def readCodePoint? (cs : List Char) : Option (Char × List Char) := do
  let digits := cs.takeWhile (· != '}')
  if 6 < digits.length then none
  let n ← Digits.read? 16 digits
  let rest ← (cs.dropWhile (· != '}')).tail?
  if n.isValidChar then some (Char.ofNat n, rest) else none

def readEscape? : List Char → Option (Escape × List Char)
  | '\'' :: cs => some (.short '\'', cs)
  | '"' :: cs => some (.short '"', cs)
  | '\\' :: cs => some (.short '\\', cs)
  | 'n' :: cs => some (.short '\n', cs)
  | 'r' :: cs => some (.short '\r', cs)
  | 't' :: cs => some (.short '\t', cs)
  | '0' :: cs => some (.short '\x00', cs)
  | 'x' :: cs => do
    let (n, cs) ← readByte? cs
    return (.byte n, cs)
  | 'u' :: '{' :: cs => do
    let (c, cs) ← readCodePoint? cs
    return (.codePoint c, cs)
  | _ => none

def completeCharacter (begun : Lossy.Begun) : Nat → List Char → Option (Char × List Char)
  | fuel + 1, '\\' :: 'x' :: cs => do
    let (byte, cs) ← readByte? cs
    match Lossy.step (some begun) byte with
    | ([c], none) => some (c, cs)
    | ([], some more) => completeCharacter more fuel cs
    | _ => none
  | _, _ => none

/-- The character that an escape in a text stands for. Escaped bytes stand for the character that
they encode together. -/
def readTextEscape? (cs : List Char) : Option (Char × List Char) := do
  match ← readEscape? cs with
  | (.short c, cs) | (.codePoint c, cs) => some (c, cs)
  | (.byte n, cs) =>
    if n < 0x80 then some (Char.ofNat n, cs)
    else
      match Lossy.start n with
      | (_, some begun) => completeCharacter begun 3 cs
      | _ => none

/-- The character that an escape in a character stands for; no bytes above ASCII. -/
def readCharacterEscape? (cs : List Char) : Option (Char × List Char) := do
  match ← readEscape? cs with
  | (.short c, cs) | (.codePoint c, cs) => some (c, cs)
  | (.byte n, cs) => if n < 0x80 then some (Char.ofNat n, cs) else none

def readByteEscape? (cs : List Char) : Option (Nat × List Char) := do
  match ← readEscape? cs with
  | (.short c, cs) => some (c.toNat, cs)
  | (.byte n, cs) => some (n, cs)
  | (.codePoint _, _) => none

def readQuoted? : Nat → List Char → Option (List Char × List Char)
  | fuel + 1, '\\' :: cs => do
    let (c, cs) ← readTextEscape? cs
    let (s, rest) ← readQuoted? fuel cs
    return (c :: s, rest)
  | _ + 1, '"' :: cs => some ([], cs)
  | fuel + 1, c :: cs => do
    let (s, rest) ← readQuoted? fuel cs
    return (c :: s, rest)
  | _, _ => none

def readUntil? (ending : List Char) : List Char → Option (List Char × List Char)
  | [] => if ending.isEmpty then some ([], []) else none
  | c :: cs =>
    if ending.isPrefixOf (c :: cs) then some ([], (c :: cs).drop ending.length)
    else (readUntil? ending cs).map fun (s, rest) ↦ (c :: s, rest)

def readRaw? (cs : List Char) : Option (List Char × List Char) :=
  let hashes := cs.takeWhile (· == '#')
  match cs.dropWhile (· == '#') with
  | '"' :: cs => readUntil? ('"' :: hashes) cs
  | _ => none

def readText? : List Char → Option (String × List Char)
  | '"' :: cs => do
    let (s, rest) ← readQuoted? cs.length cs
    return (String.ofList s, rest)
  | 'r' :: cs => do
    let (s, rest) ← readRaw? cs
    return (String.ofList s, rest)
  | _ => none

def readCharacter? : List Char → Option (Char × List Char)
  | '\'' :: '\\' :: cs => do
    match ← readCharacterEscape? cs with
    | (c, '\'' :: cs) => some (c, cs)
    | _ => none
  | '\'' :: c :: '\'' :: cs => some (c, cs)
  | _ => none

def afterQuotedBytes? : Nat → List Char → Option (List Char)
  | fuel + 1, '\\' :: cs => do afterQuotedBytes? fuel (← readEscape? cs).2
  | _ + 1, '"' :: cs => some cs
  | fuel + 1, _ :: cs => afterQuotedBytes? fuel cs
  | _, _ => none

def afterBytes? : List Char → Option (List Char)
  | 'b' :: '"' :: cs => afterQuotedBytes? cs.length cs
  | 'b' :: 'r' :: cs => (readRaw? cs).map (·.2)
  | _ => none

def afterByte? : List Char → Option (List Char)
  | 'b' :: '\'' :: '\\' :: cs => do
    match ← readByteEscape? cs with
    | (_, '\'' :: cs) => some cs
    | _ => none
  | 'b' :: '\'' :: c :: '\'' :: cs => if c.toNat < 0x80 then some cs else none
  | _ => none

end ToolDock.Notation.Literal
