import ToolDock.Number.Digits

/-!
Numbers in settings files: integers in four bases, and numbers with a fraction or an exponent, with
single underscores between digits.

The form of an integer is wider than its digits: a prefix that names the base may stand alone, and
what follows the first underscore of a decimal integer is held to little. Such words are integers
without a value.
-/

namespace ToolDock.Toml.Number

def isAnyDigit (c : Char) : Bool := (Digits.value? c).isSome

/-- The characters without underscores, each of which has to stand between two digits of any
base. -/
def dropUnderscores : List Char → Option (List Char)
  | [] => some []
  | '_' :: _ => none
  | [c] => some [c]
  | c :: '_' :: d :: cs =>
    if isAnyDigit c && isAnyDigit d then (dropUnderscores (d :: cs)).map (c :: ·) else none
  | [_, '_'] => none
  | c :: cs => (dropUnderscores cs).map (c :: ·)

def readDigits? (base : Nat) (cs : List Char) : Option Nat := do
  Digits.read? base (← dropUnderscores cs)

/-- A decimal number without a sign, whose first digit is no idle zero. -/
def readNatural? (cs : List Char) : Option Nat :=
  if cs.head? == some '0' && cs.length != 1 then none else readDigits? 10 cs

def isGrouped (cs : List Char) : Bool :=
  cs.head?.any (fun c ↦ c.isDigit && c != '0') && (cs.dropWhile Char.isDigit).head? == some '_'
    && !cs.any fun c ↦ c == '.' || c == 'e' || c == 'E' || c == ' '

def readDecimal? (cs : List Char) : Option (Option Nat) :=
  if isGrouped cs then (dropUnderscores cs).map (Digits.read? 10)
  else (readNatural? cs).map some

def readBased? (base : Nat) (cs : List Char) : Option (Option Nat) := do
  let digits ← dropUnderscores cs
  if digits.isEmpty then return none
  return some (← Digits.read? base digits)

def readInteger? : List Char → Option (Option Int)
  | '+' :: cs => (readDecimal? cs).map (·.map (↑·))
  | '-' :: cs => (readDecimal? cs).map (·.map (-↑·))
  | '0' :: 'x' :: cs => (readBased? 16 cs).map (·.map (↑·))
  | '0' :: 'o' :: cs => (readBased? 8 cs).map (·.map (↑·))
  | '0' :: 'b' :: cs => (readBased? 2 cs).map (·.map (↑·))
  | cs => (readDecimal? cs).map (·.map (↑·))

def isRun (cs : List Char) : Bool := (readDigits? 10 cs).isSome

def dropSign : List Char → List Char
  | '+' :: cs | '-' :: cs => cs
  | cs => cs

def splitAt (p : Char → Bool) (cs : List Char) : List Char × Option (List Char) :=
  (cs.takeWhile fun c ↦ !p c, (cs.dropWhile fun c ↦ !p c).tail?)

/-- Whether a word is a number that is no integer: an infinity, no number at all, or a number with a
fraction, an exponent, or both. -/
def isFraction (word : List Char) : Bool :=
  let cs := dropSign word
  let (mantissa, exponent) := splitAt (fun c ↦ c == 'e' || c == 'E') cs
  let (whole, fraction) := splitAt (· == '.') mantissa
  cs == "inf".toList || cs == "nan".toList
    || ((fraction.isSome || exponent.isSome) && (readNatural? whole).isSome
      && fraction.all isRun && exponent.all fun e ↦ isRun (dropSign e))

end ToolDock.Toml.Number
