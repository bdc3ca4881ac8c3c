/-!
Faults: what stops a computation for good. Coordinates and orders are 32-bit and areas 64-bit
integers; a result that does not fit is a fault and not a wrapped number. So is clamping into a
range that ends before it starts. Main statements: `fit32_eq_ok_iff`, `add32_eq_ok_iff` say when a
checked result exists and what it is.
-/

namespace ToolDock

inductive Fault where
  | addOverflow
  | subOverflow
  | mulOverflow
  /-- The range to clamp into ends before it starts. -/
  | emptyRange
  /-- A key was followed whose entry has been removed. -/
  | staleKey
deriving DecidableEq, Repr

def Fault.message : Fault → String
  | .addOverflow => "attempt to add with overflow"
  | .subOverflow => "attempt to subtract with overflow"
  | .mulOverflow => "attempt to multiply with overflow"
  | .emptyRange => "assertion failed: min <= max"
  | .staleKey => "invalid SlotMap key used"

/-- A computation that may end in a fault. -/
abbrev Checked := Except Fault

namespace Checked

def fit32 (f : Fault) (n : Int) : Checked Int32 :=
  if -2147483648 ≤ n ∧ n ≤ 2147483647 then .ok (Int32.ofInt n) else .error f

def fit64 (f : Fault) (n : Int) : Checked Int :=
  if -9223372036854775808 ≤ n ∧ n ≤ 9223372036854775807 then .ok n else .error f

def add32 (a b : Int32) : Checked Int32 := fit32 .addOverflow (a.toInt + b.toInt)

def sub32 (a b : Int32) : Checked Int32 := fit32 .subOverflow (a.toInt - b.toInt)

def add64 (a b : Int) : Checked Int := fit64 .addOverflow (a + b)

def mul64 (a b : Int) : Checked Int := fit64 .mulOverflow (a * b)

def clamp32 (a low high : Int32) : Checked Int32 :=
  if high < low then .error .emptyRange
  else .ok (if a < low then low else if high < a then high else a)

variable {f : Fault} {n : Int} {a b c : Int32}

theorem toInt_mem_range (a : Int32) : -2147483648 ≤ a.toInt ∧ a.toInt ≤ 2147483647 :=
  ⟨Int32.le_toInt a, by have := Int32.toInt_lt a; omega⟩

theorem toInt_ofInt_of_mem (h : -2147483648 ≤ n ∧ n ≤ 2147483647) :
    (Int32.ofInt n).toInt = n :=
  Int32.toInt_ofInt_of_le h.1 (by omega)

theorem fit32_eq_ok_iff : fit32 f n = .ok c ↔ n = c.toInt := by
  unfold fit32
  split
  case isTrue h =>
    constructor
    · intro hc
      cases hc
      exact (toInt_ofInt_of_mem h).symm
    · rintro rfl
      rw [Int32.ofInt_toInt]
  case isFalse h =>
    constructor
    · intro hc
      cases hc
    · rintro rfl
      exact absurd (toInt_mem_range c) h

theorem add32_eq_ok_iff : add32 a b = .ok c ↔ a.toInt + b.toInt = c.toInt := fit32_eq_ok_iff

theorem sub32_eq_ok_iff : sub32 a b = .ok c ↔ a.toInt - b.toInt = c.toInt := fit32_eq_ok_iff

end Checked

end ToolDock
