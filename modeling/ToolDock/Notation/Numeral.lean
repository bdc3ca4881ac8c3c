import ToolDock.Fault
import ToolDock.Number.Single

/-!
The numerals of the object notation: integers in four bases and decimal numbers, with underscores
between digits and an optional suffix that names a type. Octal and hexadecimal integers have no
suffix.
-/

namespace ToolDock.Notation.Numeral

structure Parts where
  negative : Bool
  base : Nat
  digits : List Char
  suffix : List Char

def isIntegerChar (c : Char) : Bool := (Digits.value? c).isSome || c == '_'

def isDecimalChar (c : Char) : Bool :=
  c.isDigit || c == 'e' || c == 'E' || c == '.' || c == '+' || c == '-' || c == '_'

def splitSign : List Char → Bool × List Char
  | '-' :: cs => (true, cs)
  | '+' :: cs => (false, cs)
  | cs => (false, cs)

def splitBase : List Char → Nat × List Char
  | '0' :: 'b' :: cs => (2, cs)
  | '0' :: 'o' :: cs => (8, cs)
  | '0' :: 'x' :: cs => (16, cs)
  | cs => (10, cs)

def parts (cs : List Char) : Parts :=
  let (negative, cs) := splitSign cs
  let (base, cs) := splitBase cs
  ⟨negative, base, cs.takeWhile isIntegerChar, cs.dropWhile isIntegerChar⟩

def allowsSuffix (base : Nat) : Bool := base == 2 || base == 10

def Parts.value? (p : Parts) : Option Int :=
  if p.digits.head? = some '_' || !p.suffix.isEmpty && !allowsSuffix p.base then none
  else (Digits.read? p.base (p.digits.filter (· != '_'))).map fun n ↦
    if p.negative then -(n : Int) else n

def readInt32? (text : String) : Option Int32 := do
  let p := parts text.toList
  if p.suffix.isEmpty || p.suffix == "i32".toList then
    (Checked.fit32 .addOverflow (← p.value?)).toOption
  else none

/-- The digits and signs of a decimal numeral without its underscores. An underscore stands behind
a digit, an exponent mark or another one. -/
def dropUnderscores (allowed : Bool) : List Char → Option (List Char)
  | [] => some []
  | c :: rest =>
    if c = '_' then if allowed then dropUnderscores true rest else none
    else if c.isDigit ∨ c = 'e' ∨ c = 'E' then (dropUnderscores true rest).map (c :: ·)
    else if c = '.' then (dropUnderscores false rest).map (c :: ·)
    else (dropUnderscores allowed rest).map (c :: ·)

def special? (cs : List Char) : Option Weight :=
  let (negative, name) := splitSign cs
  let w? :=
    if name == "inf".toList then some Weight.infinity
    else if name == "NaN".toList then some Weight.nan
    else none
  w?.map fun w ↦ if negative then -w else w

def readDecimal? (suffixes : List String) (text : String) : Option Weight :=
  let cs := text.toList
  let named := suffixes.findSome? fun s ↦
    if s.toList.isSuffixOf cs then special? (cs.take (cs.length - s.length)) else none
  match named with
  | some w => some w
  | none => do
    let suffix := cs.dropWhile isDecimalChar
    if suffixes.any (·.toList == suffix) then
      Weight.read? (← dropUnderscores false (cs.takeWhile isDecimalChar))
    else none

def readWeight? (text : String) : Option Weight := readDecimal? ["", "f32"] text

def integerTypes : List (String × Int × Int) :=
  [("i8", -128, 127), ("i16", -32768, 32767), ("i32", -2147483648, 2147483647),
    ("i64", -9223372036854775808, 9223372036854775807), ("u8", 0, 255), ("u16", 0, 65535),
    ("u32", 0, 4294967295), ("u64", 0, 18446744073709551615),
    ("", -9223372036854775808, 18446744073709551615)]

def isNumeral (text : String) : Bool :=
  let p := parts text.toList
  let isInteger := match p.value? with
    | some n => integerTypes.any fun t ↦ t.1.toList == p.suffix && t.2.1 ≤ n && n ≤ t.2.2
    | none => false
  isInteger || (readDecimal? ["", "f32", "f64"] text).isSome

def isStart (c : Char) : Bool := c.isDigit || c == '+' || c == '-' || c == '.'

def isPart (c : Char) : Bool := isStart c || c == '_' || c.isAlpha

def read? (cs : List Char) : Option (String × List Char) :=
  let text := String.ofList (cs.takeWhile isPart)
  if isNumeral text then some (text, cs.dropWhile isPart) else none

end ToolDock.Notation.Numeral
