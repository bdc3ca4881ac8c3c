import ToolDock.Number.Shortest
import ToolDock.Number.Written

/-!
Single-precision numbers as text. One record describes each of the written forms; numbers are
read by the usual grammar and rounded to nearest.
-/

namespace ToolDock

/-- A share of the space along an anchor: a single-precision number, kept as its bit pattern.
Equality tells patterns apart, also the signs of zeros and of not-a-numbers; `equals` compares
numbers. -/
structure Weight where
  bits : UInt32
deriving DecidableEq, Repr

namespace Weight

def toFloat (w : Weight) : Float32 := Float32.ofBits w.bits

def ofFloat (x : Float32) : Weight := ⟨x.toBits⟩

instance : Add Weight := ⟨fun a b ↦ ofFloat (a.toFloat + b.toFloat)⟩

instance : Sub Weight := ⟨fun a b ↦ ofFloat (a.toFloat - b.toFloat)⟩

instance : Div Weight := ⟨fun a b ↦ ofFloat (a.toFloat / b.toFloat)⟩

instance : Neg Weight := ⟨fun a ↦ ⟨a.bits ^^^ 0x80000000⟩⟩

def ofInt (n : Int) : Weight := ⟨(Float32.Model.ofInt n).toBits⟩

def ofDecimal (negative : Bool) (m : Nat) (e : Int) : Weight :=
  let w : Weight := ⟨(Float32.Model.ofScientific m e).toBits⟩
  if negative then -w else w

def infinity : Weight := ⟨0x7f800000⟩

def nan : Weight := ⟨0x7fc00000⟩

structure Parts where
  negative : Bool
  exponent : Nat
  fraction : Nat
deriving DecidableEq, Repr

def fractionCount : Nat := 8388608

def parts (w : Weight) : Parts :=
  let bits := w.bits.toNat
  { negative := bits / fractionCount / 256 = 1
    exponent := bits / fractionCount % 256
    fraction := bits % fractionCount }

def isNaN (w : Weight) : Bool := w.parts.exponent == 255 && w.parts.fraction != 0

def isZero (w : Weight) : Bool := w.parts.exponent == 0 && w.parts.fraction == 0

/-- Whether two weights are one number. The two zeros are, and a not-a-number is none. -/
def equals (a b : Weight) : Bool := !a.isNaN && !b.isNaN && (a == b || a.isZero && b.isZero)

theorem equals_self (w : Weight) : w.equals w = !w.isNaN := by simp [equals]

def Parts.shortest (p : Parts) (tie : Shortest.Tie) : Shortest.Decimal :=
  if p.exponent = 0 ∧ p.fraction = 0 then ⟨0, 0⟩
  else
    let m := if p.exponent = 0 then p.fraction else fractionCount + p.fraction
    let q : Int := (if p.exponent = 0 then 1 else p.exponent : Nat) - 150
    let narrow := p.fraction = 0 ∧ 1 < p.exponent
    Shortest.onFirstGrid tie (.around m q narrow) (-50) 90

structure Format where
  tie : Shortest.Tie
  /-- Whole numbers have a fraction of one zero. -/
  showsFraction : Bool
  /-- The exponents of the first digit for which no exponent is written; all if there is none. -/
  positional : Option (Int × Int)
  infinity : String
  negativeInfinity : String
  nan : String
  /-- A not-a-number has a sign, which not every form shows. -/
  negativeNan : String

def positionalText (showsFraction : Bool) (digits : List Char) (exponent : Int) : List Char :=
  let whole := if showsFraction then ['.', '0'] else []
  if 0 ≤ exponent then digits ++ List.replicate exponent.toNat '0' ++ whole
  else
    let places := (-exponent).toNat
    if digits.length ≤ places then
      '0' :: '.' :: List.replicate (places - digits.length) '0' ++ digits
    else
      digits.take (digits.length - places) ++ '.' :: digits.drop (digits.length - places)

def exponentText (digits : List Char) (first : Int) : List Char :=
  let mantissa := match digits with
    | d :: e :: rest => d :: '.' :: e :: rest
    | short => short
  mantissa ++ 'e' :: (if first < 0 then '-' else '+') :: Digits.decimal first.natAbs

def text (f : Format) (w : Weight) : String :=
  let p := w.parts
  if p.exponent = 255 then
    if p.fraction ≠ 0 then if p.negative then f.negativeNan else f.nan
    else if p.negative then f.negativeInfinity else f.infinity
  else
    let d := p.shortest f.tie
    let digits := Digits.decimal d.digits
    let first := d.exponent + digits.length - 1
    let isPositional := match f.positional with
      | none => true
      | some (least, most) => d.digits == 0 || (least ≤ first && first ≤ most)
    let unsigned :=
      if isPositional then positionalText f.showsFraction digits d.exponent
      else exponentText digits first
    String.ofList (if p.negative then '-' :: unsigned else unsigned)

def plain : Format := ⟨.upward, false, none, "inf", "-inf", "NaN", "NaN"⟩

def readUnsigned? (negative : Bool) (cs : List Char) : Option Weight :=
  ((Written.read? cs).bind Written.scaled?).map fun (m, e) ↦ ofDecimal negative m e

def read? : List Char → Option Weight
  | '+' :: cs => readUnsigned? false cs
  | '-' :: cs => readUnsigned? true cs
  | cs => readUnsigned? false cs

end Weight

end ToolDock
