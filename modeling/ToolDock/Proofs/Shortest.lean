import ToolDock.Proofs.Rounding

namespace ToolDock.Shortest

open Rounding

variable {tie : Tie} {i : Interval} {k lowest q : ℤ} {m d : ℕ}

theorem contains_of_nearestMultiple? (h : nearestMultiple? tie i k = some d) :
    (i.onGrid k).1.contains (d * (i.onGrid k).2) := by
  simp only [nearestMultiple?] at h
  split at h
  case isTrue hbelow =>
    split at h
    case isTrue habove =>
      split at h
      case isTrue => cases h; exact habove
      case isFalse => cases h; exact hbelow.2
    case isFalse => cases h; exact hbelow.2
  case isFalse =>
    split at h
    case isTrue habove => cases h; exact habove
    case isFalse => cases h

theorem contains_onFirstGrid (h : (nearestMultiple? tie i lowest).isSome) (n : ℕ) :
    (i.onGrid (onFirstGrid tie i lowest n).exponent).1.contains
      ((onFirstGrid tie i lowest n).digits *
        (i.onGrid (onFirstGrid tie i lowest n).exponent).2) := by
  induction n with
  | zero =>
    obtain ⟨d, hd⟩ := Option.isSome_iff_exists.1 h
    simp only [onFirstGrid, hd, Option.getD_some]
    exact contains_of_nearestMultiple? hd
  | succ n ih =>
    unfold onFirstGrid
    split
    case h_1 d hd => exact contains_of_nearestMultiple? hd
    case h_2 => exact ih

theorem contains_iff {x : ℕ} : i.contains x ↔
    i.low ≤ x ∧ x ≤ i.high ∧ (i.closed = false → i.low ≠ x ∧ x ≠ i.high) := by
  unfold Interval.contains
  split
  case isTrue h => simp [h]
  case isFalse h =>
    rw [Bool.not_eq_true] at h
    simp only [Bool.and_eq_true, decide_eq_true_eq, h, forall_const]
    omega

theorem contains_of_lt {x : ℕ} (hlow : i.low < x) (hhigh : x < i.high) : i.contains x :=
  contains_iff.2 ⟨hlow.le, hhigh.le, fun _ ↦ ⟨hlow.ne, hhigh.ne⟩⟩

theorem isSome_nearestMultiple? (hpos : 0 < (i.onGrid k).2)
    (hstep : (i.onGrid k).1.low + (i.onGrid k).2 ≤ (i.onGrid k).1.value)
    (hhigh : (i.onGrid k).1.value < (i.onGrid k).1.high) : (nearestMultiple? tie i k).isSome := by
  have hbelow : (i.onGrid k).1.value / (i.onGrid k).2 ≠ 0 := by
    rw [Nat.div_ne_zero_iff]
    omega
  have hmod := Nat.div_add_mod (i.onGrid k).1.value (i.onGrid k).2
  have hlt := Nat.mod_lt (i.onGrid k).1.value hpos
  rw [Nat.mul_comm] at hmod
  have hcontains : (i.onGrid k).1.contains
      ((i.onGrid k).1.value / (i.onGrid k).2 * (i.onGrid k).2) :=
    contains_of_lt (by omega) (by omega)
  simp only [nearestMultiple?, if_pos (And.intro hbelow hcontains)]
  split
  · split <;> rfl
  · rfl

theorem zpow_eq_div {b : ℚ} (hb : b ≠ 0) (k : ℤ) : b ^ k = b ^ k.toNat / b ^ (-k).toNat := by
  rw [← zpow_natCast, ← zpow_natCast, ← zpow_sub₀ hb]
  congr 1
  omega

theorem four_mul_eq_div (d : ℕ) (k q : ℤ) : 4 * ((d : ℚ) * 10 ^ k / 2 ^ q) =
    (d * (10 ^ k.toNat * 2 ^ (2 - q).toNat) : ℕ) / (2 ^ (q - 2).toNat * 10 ^ (-k).toNat : ℕ) := by
  have hfour : (2 : ℚ) ^ q = 4 * 2 ^ (q - 2) := by
    rw [zpow_sub₀ two_ne_zero]
    norm_num
    ring
  rw [hfour, zpow_eq_div two_ne_zero (q - 2), zpow_eq_div (by norm_num) k, neg_sub]
  push_cast
  field_simp

theorem le_four_mul_iff (c : ℕ) : (c : ℚ) ≤ 4 * (d * 10 ^ k / 2 ^ q) ↔
    c * 2 ^ (q - 2).toNat * 10 ^ (-k).toNat ≤ d * (10 ^ k.toNat * 2 ^ (2 - q).toNat) := by
  rw [four_mul_eq_div, le_div_iff₀ (by positivity), mul_assoc]
  exact_mod_cast Iff.rfl

theorem four_mul_le_iff (c : ℕ) : 4 * ((d : ℚ) * 10 ^ k / 2 ^ q) ≤ c ↔
    d * (10 ^ k.toNat * 2 ^ (2 - q).toNat) ≤ c * 2 ^ (q - 2).toNat * 10 ^ (-k).toNat := by
  rw [four_mul_eq_div, div_le_iff₀ (by positivity), mul_assoc]
  exact_mod_cast Iff.rfl

theorem nearest_of_contains {narrow : Bool} (hpos : 0 < m)
    (hnarrow : m = 2 ^ 23 → -149 < q → narrow)
    (h : ((Interval.around m q narrow).onGrid k).1.contains
      (d * ((Interval.around m q narrow).onGrid k).2)) :
    Nearest ((d : ℚ) * 10 ^ k / 2 ^ q) m q := by
  obtain ⟨hlow, hhigh, hends⟩ := contains_iff.1 h
  simp only [Interval.onGrid, Interval.around, Nat.pow_eq, decide_eq_false_iff_not]
    at hlow hhigh hends
  have hlowest := le_four_mul_iff (d := d) (k := k) (q := q) (4 * m - if narrow then 1 else 2)
  have hlowest' := four_mul_le_iff (d := d) (k := k) (q := q) (4 * m - if narrow then 1 else 2)
  have hhighest := four_mul_le_iff (d := d) (k := k) (q := q) (4 * m + 2)
  have hhighest' := le_four_mul_iff (d := d) (k := k) (q := q) (4 * m + 2)
  generalize (d : ℚ) * 10 ^ k / 2 ^ q = x at *
  have hcast : ((4 * m - if narrow then 1 else 2 : ℕ) : ℚ) = 4 * m - if narrow then 1 else 2 := by
    split <;> push_cast [show 1 ≤ 4 * m by omega, show 2 ≤ 4 * m by omega] <;> rfl
  rw [hcast] at hlowest hlowest'
  push_cast at hhighest hhighest'
  have hmin := hlowest.2 hlow
  have hmax := hhighest.2 hhigh
  have hwidth : (if narrow then 1 else 2 : ℚ) ≤ 2 := by split <;> norm_num
  refine ⟨by linarith, by linarith, fun hx ↦ ?_, fun hm hq ↦ ?_⟩
  · -- the interval of an odd integer has no ends
    refine Nat.even_iff.2 (by_contra fun hodd ↦ ?_)
    obtain ⟨hne, hne'⟩ := hends hodd
    obtain hx | hx := hx
    · exact hne (hlow.antisymm (hlowest'.1 (by linarith)))
    · exact hne' (hhigh.antisymm (hhighest'.1 (by linarith)))
  · rw [if_pos (hnarrow hm hq)] at hmin
    linarith

/-- The decimal that is found among the grids from `10 ^ -50` upward lies nearest to the number. -/
theorem nearest_onFirstGrid {narrow : Bool} (tie : Tie) (hc : Canonical m q)
    (hnarrow : m = 2 ^ 23 → -149 < q → narrow) (n : ℕ) :
    Nearest ((onFirstGrid tie (.around m q narrow) (-50) n).digits *
      10 ^ (onFirstGrid tie (.around m q narrow) (-50) n).exponent / 2 ^ q) m q := by
  have hpos := hc.pos
  refine nearest_of_contains hpos hnarrow
    (contains_onFirstGrid (isSome_nearestMultiple? ?_ ?_ ?_) n)
  · exact Nat.mul_pos (by decide) (Nat.pow_pos two_pos)
  · have hstep : (2 : ℕ) ^ (2 - q).toNat ≤ 2 ^ (q - 2).toNat * 10 ^ 50 := by
      have hlowest := hc.lowest
      calc (2 : ℕ) ^ (2 - q).toNat ≤ 2 ^ 151 := Nat.pow_le_pow_right two_pos (by omega)
        _ ≤ 1 * 10 ^ 50 := by norm_num
        _ ≤ 2 ^ (q - 2).toNat * 10 ^ 50 := Nat.mul_le_mul_right _ (Nat.pow_pos two_pos)
    have hlow : 4 * m - (if narrow then 1 else 2) + 1 ≤ 4 * m := by split <;> omega
    have hgrid := Nat.mul_le_mul_right (2 ^ (q - 2).toNat * 10 ^ 50) hlow
    rw [Nat.add_mul, one_mul] at hgrid
    have hexponent : (-(-50 : ℤ)).toNat = 50 := rfl
    have hzero : (-50 : ℤ).toNat = 0 := rfl
    simp only [Interval.onGrid, Interval.around, Nat.pow_eq, hexponent, hzero, pow_zero, one_mul]
    rw [mul_assoc, mul_assoc (4 * m)]
    exact le_trans (Nat.add_le_add_left hstep _) hgrid
  · have hexponent : (-(-50 : ℤ)).toNat = 50 := rfl
    simp only [Interval.onGrid, Interval.around, Nat.pow_eq, hexponent]
    gcongr
    omega

end ToolDock.Shortest
