/-!
Shortest decimals: among the decimals that round to a given binary number, those with the fewest
digits, and of these the one nearest to the number.

A positive binary number is `m * 2 ^ q`. The numbers that round to it lie between its midpoints
with its two neighbours; a midpoint itself belongs to the number with the even `m`.
-/

namespace ToolDock.Shortest

structure Decimal where
  digits : Nat
  exponent : Int
deriving DecidableEq, Repr

inductive Tie where
  | upward
  | toEven
deriving DecidableEq, Repr

/-- The numbers that round to one binary number, in units of `1 / scale`. -/
structure Interval where
  low : Nat
  value : Nat
  high : Nat
  scale : Nat
  /-- Whether the two ends belong to it. -/
  closed : Bool
deriving DecidableEq, Repr

/-- The interval around `m * 2 ^ q`. Below a power of two the neighbour is half as far, except
where `narrow` is not set. -/
def Interval.around (m : Nat) (q : Int) (narrow : Bool) : Interval :=
  let unit := Nat.pow 2 (q - 2).toNat
  { low := (4 * m - (if narrow then 1 else 2)) * unit
    value := 4 * m * unit
    high := (4 * m + 2) * unit
    scale := Nat.pow 2 (2 - q).toNat
    closed := m % 2 = 0 }

def Interval.onGrid (i : Interval) (k : Int) : Interval × Nat :=
  let up := Nat.pow 10 (-k).toNat
  ({ i with low := i.low * up, value := i.value * up, high := i.high * up },
    Nat.pow 10 k.toNat * i.scale)

def Interval.contains (i : Interval) (x : Nat) : Bool :=
  if i.closed then i.low ≤ x && x ≤ i.high else i.low < x && x < i.high

def nearestMultiple? (tie : Tie) (i : Interval) (k : Int) : Option Nat :=
  let (j, step) := i.onGrid k
  let below := j.value / step
  let above := below + 1
  let hasBelow := below ≠ 0 ∧ j.contains (below * step)
  let hasAbove := j.contains (above * step)
  if hasBelow then
    if hasAbove then
      let down := j.value - below * step
      let up := above * step - j.value
      if up < down ∨ (up = down ∧ (tie = .upward ∨ above % 2 = 0)) then some above else some below
    else some below
  else if hasAbove then some above
  else none

/-- The first grid from `10 ^ (lowest + n)` downward with a point in the interval. -/
def onFirstGrid (tie : Tie) (i : Interval) (lowest : Int) : Nat → Decimal
  | 0 => ⟨(nearestMultiple? tie i lowest).getD 0, lowest⟩
  | n + 1 =>
    match nearestMultiple? tie i (lowest + (n + 1)) with
    | some d => ⟨d, lowest + (n + 1)⟩
    | none => onFirstGrid tie i lowest n

end ToolDock.Shortest
