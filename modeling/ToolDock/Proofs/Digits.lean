import Mathlib.Data.Bool.AllAny
import Mathlib.Data.List.TakeWhile
import ToolDock.Notation.Numeral

namespace ToolDock

open Notation

namespace Digits

variable {base : Nat} {c : Char} {cs ds : List Char}

theorem value?_digitChar {d : Nat} (h : d < 16) : value? d.digitChar = some d := by
  revert d
  decide

theorem readFrom_append (base acc : Nat) (cs ds : List Char) :
    readFrom base acc (cs ++ ds) = (readFrom base acc cs).bind (readFrom base · ds) := by
  induction cs generalizing acc with
  | nil => rfl
  | cons c cs ih =>
    simp only [List.cons_append, readFrom]
    split
    · split
      · exact ih _
      · rfl
    · rfl

theorem readFrom_digitChar {d : Nat} (acc : Nat) (hd : d < base) (hb : base ≤ 16) :
    readFrom base acc [d.digitChar] = some (acc * base + d) := by
  simp only [readFrom, value?_digitChar (Nat.lt_of_lt_of_le hd hb), if_pos hd]

theorem readFrom_toDigits (h : 1 < base) (hb : base ≤ 16) (n : Nat) :
    readFrom base 0 (Nat.toDigits base n) = some n := by
  induction n using Nat.strongRecOn with
  | ind n ih =>
    rw [Nat.toDigits_eq_if h]
    split
    case isTrue hn => rw [readFrom_digitChar 0 hn hb, Nat.zero_mul, Nat.zero_add]
    case isFalse hn =>
      have hpos : 0 < n := by omega
      rw [readFrom_append, ih _ (Nat.div_lt_self hpos h), Option.bind_some,
        readFrom_digitChar _ (Nat.mod_lt _ (by omega)) hb, Nat.mul_comm, Nat.div_add_mod]

theorem read?_of_ne_nil (hc : cs ≠ []) : read? base cs = readFrom base 0 cs := by
  cases cs with
  | nil => exact absurd rfl hc
  | cons c cs => rfl

theorem read?_toDigits (h : 1 < base) (hb : base ≤ 16) (n : Nat) :
    read? base (Nat.toDigits base n) = some n :=
  (read?_of_ne_nil Nat.toDigits_ne_nil).trans (readFrom_toDigits h hb n)

theorem read?_decimal (n : Nat) : read? 10 (decimal n) = some n :=
  read?_toDigits (by decide) (by decide) n

theorem read?_hexadecimal (n : Nat) : read? 16 (hexadecimal n) = some n :=
  read?_toDigits (by decide) (by decide) n

theorem isDigit_of_mem_decimal {n : Nat} (h : c ∈ decimal n) : c.isDigit :=
  Nat.isDigit_of_mem_toDigits (by decide) (by decide) h

theorem isSome_value?_of_readFrom {acc n : Nat} (h : readFrom base acc cs = some n) (hc : c ∈ cs) :
    (value? c).isSome := by
  induction cs generalizing acc with
  | nil => cases hc
  | cons d cs ih =>
    simp only [readFrom] at h
    split at h
    case h_1 v hv =>
      split at h
      case isTrue => exact (List.mem_cons.1 hc).elim (fun hd ↦ by rw [hd, hv]; rfl) (ih h)
      case isFalse => cases h
    case h_2 => cases h

theorem isSome_value?_of_mem_hexadecimal {n : Nat} (h : c ∈ hexadecimal n) : (value? c).isSome :=
  isSome_value?_of_readFrom (readFrom_toDigits (by decide) (by decide) n) h

theorem mem_digits_of_isDigit (h : c.isDigit) : c ∈ "0123456789".toList := by
  obtain ⟨hlow, hhigh⟩ := Char.isDigit_iff_toNat.1 h
  have hall : ∀ n < 58, 48 ≤ n → Char.ofNat n ∈ "0123456789".toList := by decide
  rw [← Char.ofNat_toNat c]
  exact hall _ (Nat.lt_succ_of_le hhigh) hlow

theorem isSome_value?_of_isDigit (h : c.isDigit) : (value? c).isSome := by
  have hall : ∀ c ∈ "0123456789".toList, (value? c).isSome :=
    List.all_iff_forall_prop.1 (by decide)
  exact hall c (mem_digits_of_isDigit h)

end Digits

namespace Notation.Numeral

open Digits

variable {cs : List Char}

theorem splitSign_of_isDigit (h : ∀ c ∈ cs.head?, c.isDigit) : splitSign cs = (false, cs) := by
  unfold splitSign
  split
  case h_1 => cases h '-' rfl
  case h_2 => cases h '+' rfl
  case h_3 => rfl

theorem splitBase_of_isDigit (h : ∀ c ∈ cs, c.isDigit) : splitBase cs = (10, cs) := by
  unfold splitBase
  split
  case h_1 => cases h 'b' (.tail _ (.head _))
  case h_2 => cases h 'o' (.tail _ (.head _))
  case h_3 => cases h 'x' (.tail _ (.head _))
  case h_4 => rfl

theorem parts_integer (n : Int) :
    parts (integer n).toList = ⟨decide (n < 0), 10, decimal n.natAbs, []⟩ := by
  have hdigits : ∀ c ∈ decimal n.natAbs, c.isDigit := fun c hc ↦ isDigit_of_mem_decimal hc
  have hinteger : ∀ c ∈ decimal n.natAbs, isIntegerChar c := fun c hc ↦ by
    simp only [isIntegerChar, isSome_value?_of_isDigit (hdigits c hc), Bool.true_or]
  have hsign : splitSign (integer n).toList = (decide (n < 0), decimal n.natAbs) := by
    unfold integer
    split
    case isTrue hn => rw [String.toList_ofList, decide_eq_true hn]; rfl
    case isFalse hn =>
      rw [String.toList_ofList, decide_eq_false hn]
      exact splitSign_of_isDigit fun c hc ↦ hdigits c (List.mem_of_mem_head? hc)
  simp only [parts, hsign, splitBase_of_isDigit hdigits, List.takeWhile_eq_self_iff.2 hinteger,
    List.dropWhile_eq_nil_iff.2 hinteger]

theorem value?_integer (n : Int) :
    (Parts.mk (decide (n < 0)) 10 (decimal n.natAbs) []).value? = some n := by
  have hnot : ∀ c ∈ decimal n.natAbs, c ≠ '_' := by
    rintro c hc rfl
    cases isDigit_of_mem_decimal hc
  have hhead : (decimal n.natAbs).head? ≠ some '_' := fun h ↦
    hnot '_' (List.mem_of_mem_head? h) rfl
  have hfilter : (decimal n.natAbs).filter (· != '_') = decimal n.natAbs :=
    List.filter_eq_self.2 fun c hc ↦ bne_iff_ne.2 (hnot c hc)
  have hvalue : (if decide (n < 0) then -(n.natAbs : Int) else n.natAbs) = n := by
    split
    case isTrue hn =>
      have hn := of_decide_eq_true hn
      omega
    case isFalse hn =>
      have hn : ¬ n < 0 := mt decide_eq_true hn
      omega
  simp only [Parts.value?, hhead, hfilter, read?_decimal]
  exact congrArg some hvalue

theorem readInt32?_integer (n : Int32) : readInt32? (integer n.toInt) = some n := by
  have hfit : Checked.fit32 .addOverflow n.toInt = .ok n := Checked.fit32_eq_ok_iff.2 rfl
  simp only [readInt32?, parts_integer, value?_integer, List.isEmpty_nil, Bool.true_or, if_true,
    Option.bind_eq_bind, Option.bind_some, hfit]
  rfl

theorem isNumeral_integer (n : Int32) : isNumeral (integer n.toInt) := by
  have hrange := Checked.toInt_mem_range n
  simp only [isNumeral, parts_integer, value?_integer]
  refine Bool.or_eq_true_iff.2 (.inl (List.any_eq_true.2 ⟨("", -9223372036854775808,
    18446744073709551615), by decide, ?_⟩))
  simp only [Bool.and_eq_true, decide_eq_true_eq]
  exact ⟨⟨rfl, by omega⟩, by omega⟩

end Notation.Numeral

end ToolDock
