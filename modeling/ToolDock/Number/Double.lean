import ToolDock.Number.Written

/-!
Doubles from written numbers in one step: the digits that fit in 64 bits make an integer, and one
multiplication or division by a power of ten brings it to its size. This is close to the number that
is written, but not always the closest double.
-/

namespace ToolDock.Written

/-- An integer of at most 64 bits and the power of ten that it is multiplied by. -/
structure Scaled where
  significand : Nat
  exponent : Int
deriving DecidableEq, Repr

def maxSignificand : Nat := 18446744073709551615

namespace Scaled

def zero : Scaled := ⟨0, 0⟩

def extended (s : Scaled) (digit : Char) : Nat :=
  s.significand * 10 + (Digits.value? digit).getD 0

/-- Takes up the digits before the point. The first that does not fit, and all behind it, count as
powers of ten only. -/
def takeWhole (s : Scaled) : List Char → Scaled
  | [] => s
  | c :: cs =>
    if s.extended c ≤ maxSignificand then takeWhole ⟨s.extended c, s.exponent⟩ cs
    else ⟨s.significand, s.exponent + (c :: cs).length⟩

def takeFraction (s : Scaled) : List Char → Scaled
  | [] => s
  | c :: cs =>
    if s.extended c ≤ maxSignificand then takeFraction ⟨s.extended c, s.exponent - 1⟩ cs else s

def maxExponent : Nat := 308

def tenTo (n : Nat) : Float := Float.ofScientific 1 false n

/-- A number divided by ten to the power of `n`, in at most `fuel` divisions; what has not come to
its size by then is zero. -/
def shrink : Nat → Float → Nat → Float
  | 0, _, _ => 0
  | fuel + 1, x, n =>
    if n ≤ maxExponent then x / tenTo n else shrink fuel (x / tenTo maxExponent) (n - maxExponent)

def toFloat? (s : Scaled) : Option Float :=
  let x := Float.ofScientific s.significand false 0
  if s.significand = 0 then some 0
  else if s.exponent < 0 then some (shrink 3 x s.exponent.natAbs)
  else if maxExponent < s.exponent then none
  else
    let product := x * tenTo s.exponent.natAbs
    if product.isFinite then some product else none

end Scaled

def toFloat? (w : Written) : Option Float :=
  let s := (Scaled.zero.takeWhole w.whole).takeFraction w.fraction
  { s with exponent := s.exponent + w.exponent }.toFloat?

end ToolDock.Written
