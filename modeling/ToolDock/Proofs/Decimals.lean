import ToolDock.Layout.Stored
import ToolDock.Proofs.Rereading
import ToolDock.Proofs.Shortest

namespace ToolDock

open Rounding Notation

namespace Weight

open Float.Model Float.Model.UnpackedFloat

variable {w : Weight}

namespace Parts

variable {p : Parts}

def significand (p : Parts) : ℕ := if p.exponent = 0 then p.fraction else 2 ^ 23 + p.fraction

def scale (p : Parts) : ℤ := (if p.exponent = 0 then 1 else p.exponent : ℕ) - 150

end Parts

theorem fraction_lt (w : Weight) : w.parts.fraction < 2 ^ 23 := Nat.mod_lt _ (by decide)

theorem toNat_bits (w : Weight) : w.bits.toNat =
    (if w.parts.negative then 2 ^ 31 else 0) + w.parts.exponent * 2 ^ 23 + w.parts.fraction := by
  have hlt : w.bits.toNat < 2 ^ 32 := w.bits.toNat_lt
  simp only [parts, fractionCount]
  by_cases h : w.bits.toNat / 8388608 / 256 = 1
  · simp only [h, decide_true, if_true]
    omega
  · simp only [h, decide_false, Bool.false_eq_true, if_false]
    omega

theorem eq_of_toNat_bits {v : Weight} (h : v.bits.toNat = w.bits.toNat) : v = w := by
  cases v
  cases w
  exact congrArg _ (UInt32.toNat_inj.1 h)

theorem canonical_parts (h : w.parts.exponent < 255) (hz : w.parts.significand ≠ 0) :
    Canonical w.parts.significand w.parts.scale := by
  have hf := fraction_lt w
  unfold Parts.significand Parts.scale at *
  split at hz
  case isTrue he =>
    simp only [he, if_true]
    exact ⟨Nat.pos_of_ne_zero hz, by omega, by norm_num, .inr (by norm_num)⟩
  case isFalse he =>
    simp only [he, if_false]
    exact ⟨by omega, by omega, by omega, .inl (by omega)⟩

theorem toNat_packComponents (s : Sign) (e : BitVec 8) (f : BitVec 23) :
    (packComponents .binary32 s e f).toNat =
      s.toBitVec.toNat * 2 ^ 31 + e.toNat * 2 ^ 23 + f.toNat := by
  unfold packComponents
  simp only [BitVec.toNat_append]
  rw [← Nat.shiftLeft_add_eq_or_of_lt f.isLt, ← Nat.shiftLeft_add_eq_or_of_lt e.isLt]
  simp only [Nat.shiftLeft_eq]
  ring

theorem toNat_pack {m : ℕ} {q : ℤ} (hc : Canonical m q) (hq : q ≤ 104) :
    (UnpackedFloat.pack .binary32 (.finite .positive m q hc.pos)).toNat =
      if m < 2 ^ 23 then m else (q + 150).toNat * 2 ^ 23 + (m - 2 ^ 23) := by
  have hlowest := hc.lowest
  have hlt := hc.lt
  have hbiased : (q + Format.binary32.exponentBias +
      Format.binary32.mantissaBitsWithoutImplicit).toNat = (q + 150).toNat := by
    have hbias : (Format.binary32.exponentBias : ℤ) = 127 := rfl
    rw [hbias]
    exact congrArg Int.toNat (by push_cast; ring)
  have hlog : m.log2 + 1 = 24 ↔ ¬ m < 2 ^ 23 := by
    rw [← Nat.log2_lt hc.pos.ne']
    have := (Nat.log2_lt hc.pos.ne').2 hlt
    omega
  unfold UnpackedFloat.pack
  simp only [hbiased]
  rw [if_neg (by norm_num; omega)]
  split
  case isTrue h =>
    rw [if_neg (hlog.1 h), toNat_packComponents, BitVec.toNat_ofNat, BitVec.toNat_ofNat]
    have hle := hlog.1 h
    have hsign : Sign.positive.toBitVec.toNat = 0 := rfl
    norm_num
    omega
  case isFalse h =>
    have hsmall : m < 2 ^ 23 := not_not.1 (mt hlog.2 h)
    rw [if_pos hsmall, toNat_packComponents, BitVec.toNat_ofNat, BitVec.toNat_ofNat,
      Nat.mod_eq_of_lt hsmall]
    exact Nat.zero_add m

theorem xor_two_pow_of_lt {n i : ℕ} (h : n < 2 ^ i) : n ^^^ 2 ^ i = 2 ^ i + n := by
  have hor := Nat.two_pow_add_eq_or_of_lt h 1
  rw [mul_one] at hor
  rw [hor]
  refine Nat.eq_of_testBit_eq fun j ↦ ?_
  rw [Nat.testBit_xor, Nat.testBit_or, Nat.testBit_two_pow]
  by_cases hj : i = j
  · subst hj
    simp [Nat.testBit_lt_two_pow h]
  · simp [hj]

theorem toNat_bits_neg (v : Weight) : (-v).bits.toNat = v.bits.toNat ^^^ 2 ^ 31 :=
  UInt32.toNat_xor _ _

theorem ofDecimal_of_nearest {n k : ℕ} (h : w.parts.exponent < 255) (hz : w.parts.significand ≠ 0)
    (hk : 0 < k)
    (hn : Nearest ((n : ℚ) / 10 ^ k / 2 ^ w.parts.scale) w.parts.significand w.parts.scale) :
    ofDecimal w.parts.negative n (-k) = w := by
  have hc := canonical_parts h hz
  have hscale : w.parts.scale ≤ 104 := by
    unfold Parts.scale
    split <;> omega
  have hbits : (ofDecimal false n (-k)).bits.toNat =
      w.parts.exponent * 2 ^ 23 + w.parts.fraction := by
    have hread : (ofDecimal false n (-k)).bits.toNat =
        (UnpackedFloat.pack .binary32 (UnpackedFloat.ofScientific .binary32 n (-k))).toNat := rfl
    rw [hread, ofScientific_of_nearest hk hc hn, toNat_pack hc hscale]
    have hf := fraction_lt w
    unfold Parts.significand Parts.scale
    by_cases he : w.parts.exponent = 0
    · rw [if_pos he, if_pos hf, he, Nat.zero_mul, Nat.zero_add]
    · rw [if_neg he, if_neg he, if_neg (by omega)]
      omega
  have hlt := fraction_lt w
  have htotal := toNat_bits w
  refine eq_of_toNat_bits ?_
  cases hneg : w.parts.negative with
  | false => rw [hbits, htotal, hneg, if_neg Bool.false_ne_true, Nat.zero_add]
  | true =>
    have hopposite : ofDecimal true n (-k) = -ofDecimal false n (-k) := rfl
    rw [hopposite, toNat_bits_neg, hbits, xor_two_pow_of_lt (by omega), htotal, hneg, if_pos rfl,
      Nat.add_assoc]

theorem nearest_shortest (tie : Shortest.Tie) (h : w.parts.exponent < 255)
    (hz : w.parts.significand ≠ 0) :
    Nearest ((w.parts.shortest tie).digits * 10 ^ (w.parts.shortest tie).exponent /
      2 ^ w.parts.scale) w.parts.significand w.parts.scale := by
  have hf := fraction_lt w
  have hnot : ¬ (w.parts.exponent = 0 ∧ w.parts.fraction = 0) := by
    rintro ⟨he, hf⟩
    exact hz ((if_pos he).trans hf)
  have heq : w.parts.shortest tie = Shortest.onFirstGrid tie (.around w.parts.significand
      w.parts.scale (w.parts.fraction = 0 ∧ 1 < w.parts.exponent)) (-50) 90 := if_neg hnot
  rw [heq]
  refine Shortest.nearest_onFirstGrid tie (canonical_parts h hz) (fun hm hq ↦ ?_) 90
  unfold Parts.significand at hm
  unfold Parts.scale at hq
  rw [decide_eq_true_eq]
  by_cases he : w.parts.exponent = 0
  · rw [if_pos he] at hm
    omega
  · rw [if_neg he] at hm hq
    omega

theorem ofDecimal_zero (negative : Bool) (e : ℤ) :
    ofDecimal negative 0 e = ⟨if negative then 0x80000000 else 0⟩ := by
  cases negative with
  | false => rfl
  | true => exact show Weight.mk (0 ^^^ 0x80000000) = _ by decide

/-- The number that has the value of the shortest decimal of `w` is read as `w`. -/
theorem ofDecimal_of_eq_shortest (tie : Shortest.Tie) {n k : ℕ} (h : w.parts.exponent < 255)
    (hk : 0 < k) (hn : (n : ℚ) / 10 ^ k =
      (w.parts.shortest tie).digits * 10 ^ (w.parts.shortest tie).exponent) :
    ofDecimal w.parts.negative n (-k) = w := by
  by_cases hz : w.parts.significand = 0
  · have hparts : w.parts.exponent = 0 ∧ w.parts.fraction = 0 := by
      unfold Parts.significand at hz
      split at hz <;> omega
    have hzero : n = 0 := by
      rw [show w.parts.shortest tie = ⟨0, 0⟩ from if_pos hparts, Nat.cast_zero, zero_mul,
        div_eq_zero_iff] at hn
      exact_mod_cast hn.resolve_right (by positivity)
    have htotal := toNat_bits w
    rw [hparts.1, hparts.2] at htotal
    refine eq_of_toNat_bits ?_
    rw [hzero, ofDecimal_zero, htotal]
    cases w.parts.negative <;> rfl
  · have hnearest := nearest_shortest tie h hz
    rw [← hn] at hnearest
    exact ofDecimal_of_nearest h hz hk hnearest

theorem readFrom_zeros (acc n : ℕ) :
    Digits.readFrom 10 acc (List.replicate n '0') = some (acc * 10 ^ n) := by
  induction n generalizing acc with
  | zero => exact congrArg some (Nat.mul_one acc).symm
  | succ n ih =>
    have hstep : Digits.readFrom 10 acc (List.replicate (n + 1) '0') =
        Digits.readFrom 10 (acc * 10) (List.replicate n '0') := rfl
    rw [hstep, ih, pow_succ', Nat.mul_assoc]

theorem isDigit_of_mem_zeros {n : ℕ} {c : Char} (h : c ∈ List.replicate n '0') : c.isDigit := by
  rw [List.eq_of_mem_replicate h]
  rfl

structure Spells (whole fraction : List Char) (x : ℚ) : Prop where
  whole_ne : whole ≠ []
  fraction_pos : 0 < fraction.length
  digits : ∀ c ∈ whole ++ fraction, c.isDigit
  value : ∃ n, Digits.readFrom 10 0 (whole ++ fraction) = some n ∧
    (n : ℚ) / 10 ^ fraction.length = x

theorem readFrom_decimal (d : ℕ) : Digits.readFrom 10 0 (Digits.decimal d) = some d :=
  Digits.readFrom_toDigits (by decide) (by decide) d

theorem spells_append_zeros (d e : ℕ) :
    Spells (Digits.decimal d ++ List.replicate e '0') (List.replicate 1 '0') (d * 10 ^ e) where
  whole_ne h := Nat.toDigits_ne_nil (List.append_eq_nil_iff.1 h).1
  fraction_pos := Nat.one_pos
  digits := by
    simp only [List.forall_mem_append]
    exact ⟨⟨fun _ ↦ Digits.isDigit_of_mem_decimal, fun _ ↦ isDigit_of_mem_zeros⟩,
      fun _ ↦ isDigit_of_mem_zeros⟩
  value := by
    refine ⟨d * 10 ^ e * 10 ^ 1, ?_, ?_⟩
    · simp only [Digits.readFrom_append, readFrom_decimal, readFrom_zeros, Option.bind_some]
    · rw [List.length_replicate]
      push_cast
      field_simp

theorem spells_zeros_append {d k : ℕ} (hk : 0 < k) (h : (Digits.decimal d).length ≤ k) :
    Spells ['0'] (List.replicate (k - (Digits.decimal d).length) '0' ++ Digits.decimal d)
      (d / 10 ^ k) := by
  have hlength : (List.replicate (k - (Digits.decimal d).length) '0' ++
      Digits.decimal d).length = k := by
    rw [List.length_append, List.length_replicate]
    omega
  refine ⟨List.cons_ne_nil _ _, hlength.symm ▸ hk, ?_, d, ?_, by rw [hlength]⟩
  · simp only [List.forall_mem_append]
    exact ⟨List.all_iff_forall_prop.1 (by decide), fun _ ↦ isDigit_of_mem_zeros,
      fun _ ↦ Digits.isDigit_of_mem_decimal⟩
  · have hzero : Digits.readFrom 10 0 ['0'] = some 0 := rfl
    simp only [Digits.readFrom_append, hzero, readFrom_zeros, Option.bind_some, Nat.zero_mul,
      readFrom_decimal]

theorem spells_take_drop {d k : ℕ} (hk : 0 < k) (h : k < (Digits.decimal d).length) :
    Spells ((Digits.decimal d).take ((Digits.decimal d).length - k))
      ((Digits.decimal d).drop ((Digits.decimal d).length - k)) (d / 10 ^ k) := by
  have hlength : ((Digits.decimal d).drop ((Digits.decimal d).length - k)).length = k := by
    rw [List.length_drop]
    omega
  refine ⟨fun hnil ↦ ?_, hlength.symm ▸ hk, ?_, d, ?_, by rw [hlength]⟩
  · have hzero := congrArg List.length hnil
    rw [List.length_take, List.length_nil] at hzero
    omega
  · rw [List.take_append_drop]
    exact fun _ ↦ Digits.isDigit_of_mem_decimal
  · rw [List.take_append_drop, readFrom_decimal]

theorem exists_positionalText (d : ℕ) (e : ℤ) : ∃ whole fraction,
    positionalText true (Digits.decimal d) e = whole ++ '.' :: fraction ∧
      Spells whole fraction (d * 10 ^ e) := by
  unfold positionalText
  simp only [if_true]
  split
  case isTrue he =>
    obtain ⟨e, rfl⟩ := Int.eq_ofNat_of_zero_le he
    rw [zpow_natCast]
    exact ⟨_, _, rfl, spells_append_zeros d e⟩
  case isFalse he =>
    obtain ⟨k, hk⟩ := Int.eq_ofNat_of_zero_le (neg_nonneg.2 (not_le.1 he).le)
    have hpos : 0 < k := by omega
    have hvalue : (d : ℚ) * 10 ^ e = d / 10 ^ k := by
      rw [← neg_neg e, hk, zpow_neg, zpow_natCast, div_eq_mul_inv]
    rw [hk, Int.toNat_natCast, hvalue]
    split
    case isTrue hle => exact ⟨_, _, rfl, spells_zeros_append hpos hle⟩
    case isFalse hlt => exact ⟨_, _, rfl, spells_take_drop hpos (not_le.1 hlt)⟩

theorem readUnsigned?_point {whole fraction : List Char} {n : ℕ} (negative : Bool)
    (hwhole : whole ≠ []) (hdigits : ∀ c ∈ whole ++ fraction, c.isDigit)
    (hread : Digits.readFrom 10 0 (whole ++ fraction) = some n) :
    readUnsigned? negative (whole ++ '.' :: fraction) =
      some (ofDecimal negative n (-(fraction.length : ℤ))) := by
  rw [List.forall_mem_append] at hdigits
  have hspan : Written.spanDigits (whole ++ '.' :: fraction) = (whole, '.' :: fraction) := by
    rw [Written.spanDigits, List.span_eq_takeWhile_dropWhile,
      List.takeWhile_append_of_pos hdigits.1, List.dropWhile_append_of_pos hdigits.1]
    simp
  have hspan' : Written.spanDigits fraction = (fraction, []) := by
    rw [Written.spanDigits, List.span_eq_takeWhile_dropWhile,
      List.takeWhile_eq_self_iff.2 hdigits.2, List.dropWhile_eq_nil_iff.2 hdigits.2]
  have hempty : whole.isEmpty = false := by rwa [List.isEmpty_eq_false_iff]
  have hwritten : Written.read? (whole ++ '.' :: fraction) = some ⟨whole, fraction, 0⟩ := by
    simp only [Written.read?, hspan, hspan', hempty, Bool.false_and]
    rfl
  have hscaled : Written.scaled? ⟨whole, fraction, 0⟩ = some (n, -(fraction.length : ℤ)) := by
    have hne : whole ++ fraction ≠ [] := fun h ↦ hwhole (List.append_eq_nil_iff.1 h).1
    rw [Written.scaled?, Digits.read?_of_ne_nil hne, hread, Option.map_some, zero_sub]
  rw [readUnsigned?, hwritten, Option.bind_some, hscaled]
  rfl

end Weight

namespace Notation.Numeral

variable {cs : List Char}

theorem dropUnderscores_of_not_mem (h : '_' ∉ cs) (allowed : Bool) :
    dropUnderscores allowed cs = some cs := by
  induction cs generalizing allowed with
  | nil => rfl
  | cons c cs ih =>
    obtain ⟨hc, hcs⟩ := not_or.1 (mt List.mem_cons.2 h)
    simp only [dropUnderscores, if_neg (Ne.symm hc), ih hcs, Option.map_some]
    split
    · rfl
    · split <;> rfl

theorem special?_eq_none (h : ∀ c ∈ cs, isDecimalChar c) : special? cs = none := by
  have hsign : ∀ c ∈ (splitSign cs).2, isDecimalChar c := by
    unfold splitSign
    split
    · exact fun c hc ↦ h c (.tail _ hc)
    · exact fun c hc ↦ h c (.tail _ hc)
    · exact h
  have hinf : ((splitSign cs).2 == "inf".toList) = false := beq_eq_false_iff_ne.2 fun heq ↦ by
    exact absurd (hsign 'i' (heq ▸ by decide)) (by decide)
  have hnan : ((splitSign cs).2 == "NaN".toList) = false := beq_eq_false_iff_ne.2 fun heq ↦ by
    exact absurd (hsign 'N' (heq ▸ by decide)) (by decide)
  simp only [special?, hinf, hnan]
  rfl

theorem readDecimal?_of_decimal {suffixes : List String} (hs : "" ∈ suffixes)
    (h : ∀ c ∈ cs, isDecimalChar c) (hno : '_' ∉ cs) :
    readDecimal? suffixes (String.ofList cs) = Weight.read? cs := by
  have hnamed : (suffixes.findSome? fun s ↦
      if s.toList.isSuffixOf cs then special? (cs.take (cs.length - s.length)) else none) =
      none := by
    refine List.findSome?_eq_none_iff.2 fun s _ ↦ ?_
    rw [special?_eq_none fun c hc ↦ h c (List.mem_of_mem_take hc), ite_self]
  have hsuffix : suffixes.any (·.toList == []) := List.any_eq_true.2 ⟨"", hs, rfl⟩
  simp only [readDecimal?, String.toList_ofList, hnamed, List.dropWhile_eq_nil_iff.2 h, hsuffix,
    List.takeWhile_eq_self_iff.2 h, dropUnderscores_of_not_mem hno, if_true]
  rfl

end Notation.Numeral

namespace Weight

open Notation.Numeral

variable {w : Weight}

theorem exists_text (h : w.parts.exponent < 255) : ∃ whole fraction,
    (w.text storedNumber).toList =
      (if w.parts.negative then ['-'] else []) ++ (whole ++ '.' :: fraction) ∧
      whole ≠ [] ∧ (∀ c ∈ whole ++ fraction, c.isDigit) ∧
      readUnsigned? w.parts.negative (whole ++ '.' :: fraction) = some w := by
  obtain ⟨whole, fraction, heq, hspells⟩ :=
    exists_positionalText (w.parts.shortest storedNumber.tie).digits
      (w.parts.shortest storedNumber.tie).exponent
  obtain ⟨n, hread, hvalue⟩ := hspells.value
  refine ⟨whole, fraction, ?_, hspells.whole_ne, hspells.digits, ?_⟩
  · have hpositional : storedNumber.positional = none := rfl
    have hshows : storedNumber.showsFraction = true := rfl
    simp only [text, if_neg h.ne, hpositional, hshows, if_true, heq, String.toList_ofList]
    split <;> rfl
  · rw [readUnsigned?_point _ hspells.whole_ne hspells.digits hread,
      ofDecimal_of_eq_shortest storedNumber.tie h hspells.fraction_pos hvalue]

theorem mem_of_mem_text (h : w.parts.exponent < 255) {c : Char}
    (hc : c ∈ (w.text storedNumber).toList) : c ∈ "0123456789-.".toList := by
  obtain ⟨whole, fraction, htext, -, hdigits, -⟩ := exists_text h
  have hdigit : c ∈ whole ++ fraction → c ∈ "0123456789-.".toList := fun hc ↦
    List.mem_append_left "-.".toList (Digits.mem_digits_of_isDigit (hdigits c hc))
  rw [htext, List.mem_append, List.mem_append, List.mem_cons] at hc
  obtain hc | hc | rfl | hc := hc
  · split at hc
    · rw [List.mem_singleton.1 hc]
      decide
    · cases hc
  · exact hdigit (List.mem_append_left _ hc)
  · decide
  · exact hdigit (List.mem_append_right _ hc)

theorem readDecimal?_text {suffixes : List String} (hs : "" ∈ suffixes)
    (h : w.parts.exponent < 255) : readDecimal? suffixes (w.text storedNumber) = some w := by
  have hall : ∀ c ∈ "0123456789-.".toList, isDecimalChar c ∧ c ≠ '_' :=
    List.all_iff_forall_prop.1 (by decide)
  have hdecimal : ∀ c ∈ (w.text storedNumber).toList, isDecimalChar c := fun c hc ↦
    (hall c (mem_of_mem_text h hc)).1
  have hplain : '_' ∉ (w.text storedNumber).toList := fun hc ↦ (hall _ (mem_of_mem_text h hc)).2 rfl
  obtain ⟨whole, fraction, htext, hwhole, hdigits, hread⟩ := exists_text h
  have hreads := readDecimal?_of_decimal hs hdecimal hplain
  rw [String.ofList_toList, htext] at hreads
  rw [hreads]
  cases hneg : w.parts.negative with
  | true => rwa [hneg] at hread
  | false =>
    rw [hneg] at hread
    obtain ⟨c, whole, rfl⟩ := List.exists_cons_of_ne_nil hwhole
    have hc : c.isDigit := hdigits c (.head _)
    rw [← hread]
    simp only [Bool.false_eq_true, if_false, List.nil_append, List.cons_append]
    unfold Weight.read?
    split
    case h_1 heq =>
      obtain ⟨rfl, -⟩ := List.cons.inj heq
      exact absurd hc (by decide)
    case h_2 heq =>
      obtain ⟨rfl, -⟩ := List.cons.inj heq
      exact absurd hc (by decide)
    case h_3 => rfl

theorem infinite_cases (h : w.isNaN = false) (he : ¬ w.parts.exponent < 255) :
    w = infinity ∨ w = -infinity := by
  have hexponent : w.parts.exponent = 255 := by
    have hlt : w.parts.exponent < 256 := Nat.mod_lt _ (by decide)
    omega
  have hfraction : w.parts.fraction = 0 := by simpa [isNaN, hexponent] using h
  have htotal := toNat_bits w
  rw [hexponent, hfraction] at htotal
  cases hneg : w.parts.negative with
  | false =>
    rw [hneg] at htotal
    exact .inl (eq_of_toNat_bits htotal)
  | true =>
    rw [hneg] at htotal
    exact .inr (eq_of_toNat_bits htotal)

theorem ofValue?_toValue (h : w.isNaN = false) : ofValue? w.toValue = some w := by
  by_cases he : w.parts.exponent < 255
  · rw [toValue, if_neg fun hinf ↦ he.ne hinf.1]
    exact readDecimal?_text (by decide) he
  · obtain rfl | rfl := infinite_cases h he <;> decide +kernel

theorem isNumber_text (h : w.parts.exponent < 255) : Value.IsNumber (w.text storedNumber) := by
  have hstart : ∀ c ∈ "0123456789-.".toList, isStart c := List.all_iff_forall_prop.1 (by decide)
  refine .of_isStart (fun c hc ↦ hstart c (mem_of_mem_text h hc)) ?_
  simp only [isNumeral, readDecimal?_text (show "" ∈ ["", "f32", "f64"] by decide) h,
    Option.isSome_some, Bool.or_true]

theorem plain_toValue (h : w.isNaN = false) : w.toValue.Plain := by
  by_cases he : w.parts.exponent < 255
  · rw [toValue, if_neg fun hinf ↦ he.ne hinf.1]
    exact .number (isNumber_text he)
  · obtain rfl | rfl := infinite_cases h he
    · exact show Value.Plain (.ident false "inf") from
        .ident (isName_of_isAlpha (by decide) (by decide)) (by decide)
    · exact show Value.Plain (.number "-inf") from
        .number ⟨⟨'-', rfl, by decide⟩, List.all_iff_forall_prop.1 (by decide), by decide +kernel⟩

end Weight

end ToolDock
