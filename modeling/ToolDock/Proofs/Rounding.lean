import Mathlib.Algebra.Order.Field.Power
import Mathlib.Data.Rat.Cast.Order
import Mathlib.Tactic.FieldSimp
import Mathlib.Tactic.Linarith
import Mathlib.Tactic.Positivity
import Mathlib.Tactic.Ring
import ToolDock.Number.Single

/-!
Rounding to single precision. A quotient is cut off to an integer and an accuracy, shifted to the
exponent of its size, and rounded to nearest. Whatever lies nearest to a number of single precision
is rounded to it. Main statement: `ofScientific_of_nearest`.
-/

namespace ToolDock.Rounding

open Float.Model Float.Model.UnpackedFloat

variable {x : ℚ} {m n : ℕ} {em : ExtendedMantissa}

/-- An integer that was cut off a rational number, and an accuracy that tells what was lost. -/
def Describes (x : ℚ) (m : ℕ) : Accuracy → Prop
  | .exact => x = m
  | .inexact .lt => m < x ∧ x < m + 1 / 2
  | .inexact .eq => x = m + 1 / 2
  | .inexact .gt => m + 1 / 2 < x ∧ x < m + 1

theorem Describes.bounds {a : Accuracy} (h : Describes x m a) : m ≤ x ∧ x < m + 1 := by
  unfold Describes at h
  split at h
  · exact ⟨h.ge, by linarith⟩
  · exact ⟨h.1.le, by linarith⟩
  · exact ⟨by linarith, by linarith⟩
  · exact ⟨by linarith, h.2⟩

theorem describes_div {d : ℕ} (hd : 0 < d) :
    Describes ((n : ℚ) / d) (n / d) (accuracyOfFraction (n % d) d) := by
  have hpos : (0 : ℚ) < d := by exact_mod_cast hd
  have hsplit : (n : ℚ) = d * (n / d : ℕ) + (n % d : ℕ) := by
    exact_mod_cast (Nat.div_add_mod n d).symm
  have heq : (n : ℚ) / d = (n / d : ℕ) + (n % d : ℕ) / d := by
    rw [div_eq_iff hpos.ne', add_mul, div_mul_cancel₀ _ hpos.ne', mul_comm, ← hsplit]
  have hlt : (n % d : ℕ) / (d : ℚ) < 1 := by
    rw [div_lt_one hpos]
    exact_mod_cast Nat.mod_lt n hd
  unfold accuracyOfFraction
  split
  case isTrue h =>
    rw [heq, h, Nat.cast_zero, zero_div, add_zero]
    rfl
  case isFalse h =>
    have hlost : 0 < (n % d : ℕ) / (d : ℚ) := div_pos (by exact_mod_cast Nat.pos_of_ne_zero h) hpos
    rw [heq]
    cases hc : compare (2 * (n % d)) d with
    | lt =>
      have hhalf : (n % d : ℕ) / (d : ℚ) < 1 / 2 := by
        rw [div_lt_div_iff₀ hpos two_pos]
        exact_mod_cast (by have := Nat.compare_eq_lt.1 hc; omega : n % d * 2 < 1 * d)
      exact ⟨by linarith, by linarith⟩
    | eq =>
      have hhalf : (n % d : ℕ) / (d : ℚ) = 1 / 2 := by
        rw [div_eq_div_iff hpos.ne' two_ne_zero]
        exact_mod_cast (by have := Nat.compare_eq_eq.1 hc; omega : n % d * 2 = 1 * d)
      exact congrArg _ hhalf
    | gt =>
      have hhalf : 1 / 2 < (n % d : ℕ) / (d : ℚ) := by
        rw [div_lt_div_iff₀ two_pos hpos]
        exact_mod_cast (by have := Nat.compare_eq_gt.1 hc; omega : 1 * d < n % d * 2)
      exact ⟨by linarith, by linarith⟩

theorem describes_ofMantissaAndAccuracy {a : Accuracy} (h : Describes x m a) :
    Describes x (ExtendedMantissa.ofMantissaAndAccuracy m a).mantissa
      (ExtendedMantissa.ofMantissaAndAccuracy m a).accuracy := by
  cases a with
  | exact => exact h
  | inexact o => cases o <;> exact h

theorem describes_shiftRightOne (h : Describes x em.mantissa em.accuracy) :
    Describes (x / 2) em.shiftRightOne.mantissa em.shiftRightOne.accuracy := by
  obtain ⟨m, round, sticky⟩ := em
  obtain ⟨hlow, hhigh⟩ := h.bounds
  -- nothing was lost before exactly if the two bits are clear
  have hexact : (round || sticky) = false → x = m := by
    cases round <;> cases sticky <;> simp only [Bool.or_self, Bool.or_true, Bool.or_false,
      reduceCtorEq, false_implies, forall_const]
    exact h
  have hinexact : (round || sticky) = true → (m : ℚ) < x := by
    cases round <;> cases sticky <;> simp only [Bool.or_self, Bool.or_true, Bool.or_false,
      reduceCtorEq, false_implies, forall_const]
    · exact h.1
    · exact h.symm ▸ by linarith
    · linarith [h.1]
  obtain ⟨k, rfl | rfl⟩ := m.even_or_odd'
  · have heq : (ExtendedMantissa.mk (2 * k) round sticky).shiftRightOne =
        ⟨k, false, round || sticky⟩ := by
      simp [ExtendedMantissa.shiftRightOne]
    push_cast at hhigh hexact hinexact
    rw [heq]
    cases hlost : round || sticky with
    | false => exact show x / 2 = k by rw [hexact hlost]; ring
    | true => exact ⟨by linarith [hinexact hlost], by linarith⟩
  · have heq : (ExtendedMantissa.mk (2 * k + 1) round sticky).shiftRightOne =
        ⟨k, true, round || sticky⟩ := by
      simp only [ExtendedMantissa.shiftRightOne, ExtendedMantissa.mk.injEq, bne_iff_ne, and_true]
      omega
    push_cast at hhigh hexact hinexact
    rw [heq]
    cases hlost : round || sticky with
    | false => exact show x / 2 = k + 1 / 2 by rw [hexact hlost]; ring
    | true => exact ⟨by linarith [hinexact hlost], by linarith⟩

theorem describes_shiftRight {k : ℕ} (h : Describes x em.mantissa em.accuracy) :
    Describes (x / 2 ^ k) (em >>> k).mantissa (em >>> k).accuracy := by
  induction k with
  | zero => simpa [HShiftRight.hShiftRight, Nat.repeat] using h
  | succ k ih =>
    rw [pow_succ, ← div_div]
    exact describes_shiftRightOne ih

theorem roundedMantissa_of_nearest (h : Describes x em.mantissa em.accuracy)
    (hlow : (m : ℚ) - 1 / 2 ≤ x) (hhigh : x ≤ m + 1 / 2)
    (heven : x = m - 1 / 2 ∨ x = m + 1 / 2 → Even m) : em.roundedMantissa = m := by
  obtain ⟨k, round, sticky⟩ := em
  unfold ExtendedMantissa.roundedMantissa
  generalize ExtendedMantissa.accuracy _ = a at h ⊢
  simp only at h ⊢
  obtain ⟨hk, hk'⟩ := h.bounds
  have hge : m < k + 1 + 1 := by exact_mod_cast (by linarith : (m : ℚ) < k + 1 + 1)
  have hle : k < m + 1 := by exact_mod_cast (by linarith : (k : ℚ) < m + 1)
  unfold Describes at h
  split at h
  case h_1 =>
    have hlt : m < k + 1 := by exact_mod_cast (by linarith : (m : ℚ) < k + 1)
    simp only [Accuracy.roundToNearestEven]
    omega
  case h_2 =>
    have hlt : m < k + 1 := by exact_mod_cast (by linarith : (m : ℚ) < k + 1)
    simp only [Accuracy.roundToNearestEven]
    omega
  case h_3 =>
    simp only [Accuracy.roundToNearestEven]
    obtain rfl | rfl : m = k ∨ m = k + 1 := by omega
    · have := Nat.even_iff.1 (heven (.inr h))
      omega
    · have := Nat.even_iff.1 (heven (.inl (by rw [h]; push_cast; ring)))
      omega
  case h_4 =>
    have hlt : k < m := by exact_mod_cast (by linarith : (k : ℚ) < m)
    simp only [Accuracy.roundToNearestEven]
    omega

variable {a b d e q : ℤ}

theorem exponent_lt (h : (2 : ℚ) ^ a ≤ x * 2 ^ d) (hx : x < 2 ^ b) : a < b + d := by
  rw [← zpow_lt_zpow_iff_right₀ (one_lt_two (α := ℚ)), zpow_add₀ two_ne_zero]
  have hpos : (0 : ℚ) < 2 ^ d := by positivity
  exact h.trans_lt (mul_lt_mul_of_pos_right hx hpos)

theorem lt_exponent (h : x * 2 ^ d < (2 : ℚ) ^ a) (hx : 2 ^ b ≤ x) : b + d < a := by
  rw [← zpow_lt_zpow_iff_right₀ (one_lt_two (α := ℚ)), zpow_add₀ two_ne_zero]
  have hpos : (0 : ℚ) < 2 ^ d := by positivity
  exact (mul_le_mul_of_nonneg_right hx hpos.le).trans_lt h

/-- The numbers `m * 2 ^ q` of single precision, zero apart, each with one exponent. -/
structure Canonical (m : ℕ) (q : ℤ) : Prop where
  pos : 0 < m
  lt : m < 2 ^ 24
  lowest : -149 ≤ q
  full : 2 ^ 23 ≤ m ∨ q = -149

/-- The numbers `x * 2 ^ q` to which none is nearer than `m * 2 ^ q`. The one below a power of two
is half as far, except at the lowest exponent. -/
structure Nearest (x : ℚ) (m : ℕ) (q : ℤ) : Prop where
  low : (m : ℚ) - 1 / 2 ≤ x
  high : x ≤ m + 1 / 2
  even : x = m - 1 / 2 ∨ x = m + 1 / 2 → Even m
  narrow : m = 2 ^ 23 → -149 < q → (m : ℚ) - 1 / 4 ≤ x

namespace Nearest

theorem half_le (hn : Nearest x m q) (hc : Canonical m q) : 1 / 2 ≤ x := by
  have hpos : (1 : ℚ) ≤ m := by exact_mod_cast hc.pos
  linarith [hn.low]

theorem lt_two_pow (hn : Nearest x m q) (hc : Canonical m q) : x < 2 ^ 24 := by
  have hlt : (m : ℚ) + 1 ≤ 2 ^ 24 := by exact_mod_cast hc.lt
  linarith [hn.high]

theorem eq_two_pow (hn : Nearest x m q) (hfull : 2 ^ 23 ≤ m) (hx : x < 2 ^ 23) : m = 2 ^ 23 := by
  have hle : m < 2 ^ 23 + 1 := by
    exact_mod_cast (by linarith [hn.low] : (m : ℚ) < 2 ^ 23 + 1)
  omega

theorem two_pow_le (hn : Nearest x m q) (hm : m = 2 ^ 23) (hq : -149 < q) : 2 ^ 22 ≤ x := by
  have hnarrow := hn.narrow hm hq
  rw [hm] at hnarrow
  push_cast at hnarrow
  linarith

end Nearest

theorem targetExponent_totalExponent (k : ℕ) (e : ℤ) :
    Format.binary32.targetExponent (totalExponent k e) = max (k.log2 + 1 + e - 24) (-149) := rfl

/-- A number is shifted to the exponent of the one nearest to it, or to one less where that is a
power of two above it. -/
theorem targetExponent_of_nearest {k : ℕ} (hc : Canonical m q) (hn : Nearest x m q)
    (hk : k ≤ x * 2 ^ (q - e) ∧ x * 2 ^ (q - e) < k + 1)
    (he : e ≤ Format.binary32.targetExponent (totalExponent k e)) :
    Format.binary32.targetExponent (totalExponent k e) = q ∨
      Format.binary32.targetExponent (totalExponent k e) = q - 1 ∧ m = 2 ^ 23 ∧ x < 2 ^ 23 := by
  rw [targetExponent_totalExponent] at he ⊢
  have hlowest := hc.lowest
  have hbelow : x * 2 ^ (q - e) < (2 : ℚ) ^ ((k.log2 : ℤ) + 1) := by
    refine hk.2.trans_le ?_
    exact_mod_cast (Nat.lt_log2_self : k < 2 ^ (k.log2 + 1))
  by_cases hzero : k = 0
  · -- no bit is left, so the exponent is the lowest
    subst hzero
    have hone : x * 2 ^ (q - e) < (2 : ℚ) ^ (0 : ℤ) := by simpa using hk.2
    have hmin := lt_exponent (b := -1) hone (by simpa using hn.half_le hc)
    simp only [Nat.log2_zero, Nat.cast_zero] at he ⊢
    omega
  have habove : (2 : ℚ) ^ (k.log2 : ℤ) ≤ x * 2 ^ (q - e) := by
    refine le_trans ?_ hk.1
    exact_mod_cast Nat.log2_self_le hzero
  have hmax := exponent_lt (b := 24) habove (by exact_mod_cast hn.lt_two_pow hc)
  obtain hfull | hq := hc.full
  · by_cases hx : x < 2 ^ 23
    · -- only a number just below a power of two is shorter than the one nearest to it
      have hm := hn.eq_two_pow hfull hx
      by_cases hq : -149 < q
      · have hlow := lt_exponent (b := 22) hbelow (by exact_mod_cast hn.two_pow_le hm hq)
        have hhigh := exponent_lt (b := 23) habove (by exact_mod_cast hx)
        exact .inr ⟨by omega, hm, hx⟩
      · exact .inl (by omega)
    · have hlow := lt_exponent (b := 23) hbelow (by exact_mod_cast not_lt.1 hx)
      exact .inl (by omega)
  · exact .inl (by omega)

theorem shiftToTargetExponent_of_lt (hm : m < 2 ^ 24) (hq : -149 ≤ q) :
    shiftToTargetExponent .binary32 m q .exact = (⟨m, false, false⟩, q) := by
  have hlog : m.log2 ≤ 23 := by
    by_cases hzero : m = 0
    · rw [hzero, Nat.log2_zero]
      omega
    · exact Nat.le_of_lt_succ ((Nat.log2_lt hzero).2 hm)
  have hshift : (Format.binary32.targetExponent (totalExponent m q) - q).toNat = 0 := by
    rw [targetExponent_totalExponent]
    omega
  rw [shiftToTargetExponent, shiftToExponent, hshift, Nat.cast_zero, add_zero]
  rfl

theorem shiftToTargetExponent_carry (hq : -149 < q) :
    shiftToTargetExponent .binary32 (2 ^ 24) (q - 1) .exact = (⟨2 ^ 23, false, false⟩, q) := by
  have hshift : (Format.binary32.targetExponent (totalExponent (2 ^ 24) (q - 1)) - (q - 1)).toNat =
      1 := by
    rw [targetExponent_totalExponent, Nat.log2_two_pow]
    omega
  rw [shiftToTargetExponent, shiftToExponent, hshift, Nat.cast_one, sub_add_cancel]
  rfl

theorem roundWithAccuracy_of_nearest {k : ℕ} {a : Accuracy} (hc : Canonical m q)
    (hn : Nearest x m q) (hd : Describes (x * 2 ^ (q - e)) k a)
    (he : e ≤ Format.binary32.targetExponent (totalExponent k e)) (s : Sign) :
    roundWithAccuracy .binary32 s k e a = .finite s m q hc.pos := by
  have hlowest := hc.lowest
  obtain ⟨t, ht⟩ := Int.eq_ofNat_of_zero_le (sub_nonneg.2 he)
  have hshift : shiftToTargetExponent .binary32 k e a =
      (ExtendedMantissa.ofMantissaAndAccuracy k a >>> t, e + t) := by
    rw [shiftToTargetExponent, shiftToExponent, ht, Int.toNat_natCast]
  have hshifted := describes_shiftRight (k := t) (describes_ofMantissaAndAccuracy hd)
  have hpow : (2 : ℚ) ^ t = 2 ^ (t : ℤ) := (zpow_natCast 2 t).symm
  rw [mul_div_assoc, hpow, ← zpow_sub₀ two_ne_zero] at hshifted
  unfold roundWithAccuracy
  rw [hshift]
  dsimp only
  obtain hq | ⟨hq, hm, hx⟩ := targetExponent_of_nearest hc hn hd.bounds he
  · have hexponent : e + t = q := by omega
    have hzero : q - e - t = 0 := by omega
    rw [hzero, zpow_zero, mul_one] at hshifted
    rw [roundedMantissa_of_nearest hshifted hn.low hn.high hn.even, hexponent,
      shiftToTargetExponent_of_lt hc.lt hlowest, dif_neg hc.pos.ne']
  · -- one bit more is kept, and rounding carries into the next power of two
    have hexponent : e + t = q - 1 := by omega
    have hone : q - e - t = 1 := by omega
    rw [hone, zpow_one] at hshifted
    have habove : -149 < q := by
      rw [targetExponent_totalExponent] at hq
      omega
    subst hm
    have hnarrow := hn.narrow rfl habove
    push_cast at hnarrow
    have hrounded := roundedMantissa_of_nearest (m := 2 ^ 24) hshifted (by push_cast; linarith)
      (by push_cast; linarith) fun _ ↦ ⟨2 ^ 23, by norm_num⟩
    rw [hrounded, hexponent, shiftToTargetExponent_carry habove]
    rfl

theorem zpow_log2_sub_le_div {d : ℕ} (hpos : 0 < n) (hd : 0 < d) :
    (2 : ℚ) ^ ((n.log2 : ℤ) - d.log2 - 1) ≤ n / d := by
  have hn : (2 : ℚ) ^ (n.log2 : ℤ) ≤ n := by exact_mod_cast Nat.log2_self_le hpos.ne'
  have hd' : (d : ℚ) ≤ 2 ^ ((d.log2 : ℤ) + 1) := by
    exact_mod_cast (Nat.lt_log2_self : d < 2 ^ (d.log2 + 1)).le
  rw [le_div_iff₀ (by exact_mod_cast hd)]
  calc (2 : ℚ) ^ ((n.log2 : ℤ) - d.log2 - 1) * d
      ≤ 2 ^ ((n.log2 : ℤ) - d.log2 - 1) * 2 ^ ((d.log2 : ℤ) + 1) := by gcongr
    _ = 2 ^ (n.log2 : ℤ) := by
      rw [← zpow_add₀ two_ne_zero]
      congr 1
      ring
    _ ≤ n := hn

theorem div_of_nearest {d : ℕ} (hpos : 0 < n) (hd : 0 < d) (hc : Canonical m q)
    (hn : Nearest ((n : ℚ) / d / 2 ^ q) m q) :
    div .binary32 (.finite .positive n 0 hpos) (.finite .positive d 0 hd) =
      .finite .positive m q hc.pos := by
  have htarget : Format.binary32.targetExponent (totalExponent n 0 - totalExponent d 0) =
      max ((n.log2 : ℤ) - d.log2 - 24) (-149) := by
    have hbits : (Format.binary32.mantissaBits : ℤ) = 24 := rfl
    refine congrArg (max · (-149)) ?_
    rw [hbits, totalExponent, totalExponent]
    ring
  obtain ⟨s, hs⟩ := Int.exists_eq_neg_ofNat (min_le_left (0 - 0 : ℤ)
    (Format.binary32.targetExponent (totalExponent n 0 - totalExponent d 0)))
  have hcut : divCore .binary32 n 0 d 0 =
      (n <<< s / d, -(s : ℤ), accuracyOfFraction (n <<< s % d) d) := by
    simp only [divCore, hs]
    simp
  have hvalue : (n : ℚ) / d / 2 ^ q * 2 ^ (q - -(s : ℤ)) = (n <<< s : ℕ) / d := by
    rw [sub_neg_eq_add, zpow_add₀ two_ne_zero, zpow_natCast, Nat.shiftLeft_eq]
    push_cast
    field_simp
  have hdescribes := describes_div (n := n <<< s) hd
  rw [← hvalue] at hdescribes
  have hbelow : (n : ℚ) / d * 2 ^ (s : ℤ) < (2 : ℚ) ^ (((n <<< s / d).log2 : ℤ) + 1) := by
    have hq : (2 : ℚ) ^ q ≠ 0 := by positivity
    have heq : (n : ℚ) / d * 2 ^ (s : ℤ) = n / d / 2 ^ q * 2 ^ (q - -(s : ℤ)) := by
      rw [sub_neg_eq_add, zpow_add₀ two_ne_zero]
      field_simp
    rw [heq]
    refine hdescribes.bounds.2.trans_le ?_
    exact_mod_cast (Nat.lt_log2_self : n <<< s / d < 2 ^ ((n <<< s / d).log2 + 1))
  have hsize := lt_exponent hbelow (zpow_log2_sub_le_div hpos hd)
  have he : -(s : ℤ) ≤ Format.binary32.targetExponent (totalExponent (n <<< s / d) (-s)) := by
    rw [targetExponent_totalExponent]
    omega
  have hdiv : div .binary32 (.finite .positive n 0 hpos) (.finite .positive d 0 hd) =
      roundWithAccuracy .binary32 .positive (divCore .binary32 n 0 d 0).1
        (divCore .binary32 n 0 d 0).2.1 (divCore .binary32 n 0 d 0).2.2 := rfl
  rw [hdiv, hcut]
  exact roundWithAccuracy_of_nearest hc hn hdescribes he _

/-- A decimal with a fraction is read as the number of single precision nearest to it. -/
theorem ofScientific_of_nearest {k : ℕ} (hk : 0 < k) (hc : Canonical m q)
    (hn : Nearest ((n : ℚ) / 10 ^ k / 2 ^ q) m q) :
    UnpackedFloat.ofScientific .binary32 n (-k) = .finite .positive m q hc.pos := by
  have hhalf := hn.half_le hc
  have hpos : 0 < n := by
    rw [pos_iff_ne_zero]
    rintro rfl
    norm_num at hhalf
  have hsize : (2 : ℚ) ^ ((k : ℤ) - 150) ≤ n := by
    rw [le_div_iff₀ (by positivity), le_div_iff₀ (by positivity)] at hhalf
    have hlowest : (2 : ℚ) ^ (-149 : ℤ) ≤ 2 ^ q :=
      zpow_le_zpow_right₀ one_le_two hc.lowest
    have hten : (2 : ℚ) ^ (k : ℤ) ≤ 10 ^ k := by
      rw [zpow_natCast]
      exact pow_le_pow_left₀ two_pos.le (by norm_num) k
    calc (2 : ℚ) ^ ((k : ℤ) - 150) = 1 / 2 * 2 ^ (-149 : ℤ) * 2 ^ (k : ℤ) := by
          rw [zpow_sub₀ two_ne_zero]
          norm_num
          ring
      _ ≤ 1 / 2 * 2 ^ q * 10 ^ k := by gcongr
      _ ≤ n := hhalf
  have hlog : (n : ℚ) < 2 ^ ((n.log2 : ℤ) + 1) := by
    exact_mod_cast (Nat.lt_log2_self : n < 2 ^ (n.log2 + 1))
  have hdigits := (zpow_lt_zpow_iff_right₀ (one_lt_two (α := ℚ))).1 (hsize.trans_lt hlog)
  have hbits : (2 : ℤ) ^ Format.binary32.exponentBits = 256 := rfl
  unfold UnpackedFloat.ofScientific
  rw [dif_neg hpos.ne', if_neg (by omega), if_neg (by omega), if_neg (by omega)]
  have hplaces : (-(-(k : ℤ))).toNat = k := by rw [neg_neg, Int.toNat_natCast]
  refine div_of_nearest hpos (Nat.pow_pos (by decide)) hc ?_
  rw [hplaces]
  exact_mod_cast hn

end ToolDock.Rounding
