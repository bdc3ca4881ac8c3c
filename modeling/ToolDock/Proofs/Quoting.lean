import ToolDock.Notation.Literal
import ToolDock.Proofs.Digits
import ToolDock.Text.Quoted

namespace ToolDock.Notation.Literal

open Quoted

variable {c : Char} {cs rest : List Char}

theorem readCodePoint?_hexadecimal (c : Char) (rest : List Char) :
    readCodePoint? (Digits.hexadecimal c.toNat ++ '}' :: rest) = some (c, rest) := by
  have hdigits : ∀ d ∈ Digits.hexadecimal c.toNat, (d != '}') = true := fun d hd ↦ by
    rw [bne_iff_ne]
    rintro rfl
    cases Digits.isSome_value?_of_mem_hexadecimal hd
  have hlength : (Digits.hexadecimal c.toNat).length ≤ 6 := by
    rw [Digits.hexadecimal, Nat.length_toDigits_le_iff (by decide) (by decide)]
    have hvalid := c.valid
    simp only [UInt32.isValidChar, Nat.isValidChar] at hvalid
    simp only [Char.toNat]
    omega
  have hvalid : c.toNat.isValidChar := c.valid
  simp only [readCodePoint?, List.takeWhile_append_of_pos hdigits,
    List.dropWhile_append_of_pos hdigits, List.takeWhile_cons, List.dropWhile_cons,
    bne_self_eq_false, Bool.false_eq_true, if_false, List.append_nil, Nat.not_lt.2 hlength,
    Digits.read?_hexadecimal, List.tail?_cons, Option.bind_eq_bind, Option.bind_some,
    if_pos hvalid, Char.ofNat_toNat]

theorem escape_cases (c : Char) :
    (c ≠ '"' ∧ c ≠ '\\' ∧ escape true c = [c]) ∨
      ∃ cs, escape true c = '\\' :: cs ∧ ∀ rest, readTextEscape? (cs ++ rest) = some (c, rest) := by
  unfold escape
  split
  case isTrue h => exact .inr ⟨['"'], rfl, fun _ ↦ by rw [h]; rfl⟩
  case isFalse hquote =>
    split
    case isTrue h => exact .inr ⟨['\\'], rfl, fun _ ↦ by rw [h]; rfl⟩
    case isFalse hbackslash =>
      by_cases hn : c = '\n'
      · exact .inr ⟨['n'], if_pos hn, fun _ ↦ by rw [hn]; rfl⟩
      by_cases hr : c = '\r'
      · exact .inr ⟨['r'], by rw [if_neg hn, if_pos hr], fun _ ↦ by rw [hr]; rfl⟩
      by_cases ht : c = '\t'
      · exact .inr ⟨['t'], by rw [if_neg hn, if_neg hr, if_pos ht], fun _ ↦ by rw [ht]; rfl⟩
      by_cases h0 : c = '\x00'
      · exact .inr ⟨['0'], by rw [if_neg hn, if_neg hr, if_neg ht, if_pos h0],
          fun _ ↦ by rw [h0]; rfl⟩
      rw [if_neg hn, if_neg hr, if_neg ht, if_neg h0]
      split
      case isTrue h => exact .inr ⟨['\''], rfl, fun _ ↦ by rw [h.1]; rfl⟩
      case isFalse =>
        split
        case isTrue => exact .inl ⟨hquote, hbackslash, rfl⟩
        case isFalse =>
          refine .inr ⟨'u' :: '{' :: (Digits.hexadecimal c.toNat ++ ['}']), rfl, fun rest ↦ ?_⟩
          simp only [List.cons_append, List.append_assoc, List.nil_append, readTextEscape?,
            readEscape?, readCodePoint?_hexadecimal]
          rfl

theorem readQuoted?_escaped (fuel : Nat) (s rest : List Char) (h : s.length < fuel) :
    readQuoted? fuel (s.flatMap (escape true) ++ '"' :: rest) = some (s, rest) := by
  induction s generalizing fuel with
  | nil =>
    obtain ⟨fuel, rfl⟩ := Nat.exists_eq_succ_of_ne_zero (Nat.ne_of_gt h)
    rfl
  | cons c s ih =>
    obtain ⟨fuel, rfl⟩ := Nat.exists_eq_succ_of_ne_zero (Nat.ne_of_gt (Nat.zero_lt_of_lt h))
    have hs := ih fuel (Nat.lt_of_succ_lt_succ h)
    rw [List.flatMap_cons, List.append_assoc]
    obtain ⟨hquote, hbackslash, heq⟩ | ⟨cs, heq, hread⟩ := escape_cases c
    · rw [heq]
      simp only [List.cons_append, List.nil_append, readQuoted?, hs]
      rfl
    · rw [heq]
      simp only [List.cons_append, readQuoted?, hread, Option.bind_eq_bind, Option.bind_some, hs]
      rfl

theorem length_le_flatMap_escape (s : List Char) : s.length ≤ (s.flatMap (escape true)).length := by
  induction s with
  | nil => exact Nat.zero_le _
  | cons c s ih =>
    have hpos : 1 ≤ (escape true c).length := by
      obtain ⟨-, -, heq⟩ | ⟨cs, heq, -⟩ := escape_cases c <;> rw [heq] <;> simp
    simp only [List.flatMap_cons, List.length_append, List.length_cons]
    omega

theorem readText?_encode (s : String) (rest : List Char) :
    readText? (encode true s ++ rest) = some (s, rest) := by
  have hlength := length_le_flatMap_escape s.toList
  have hread := readQuoted?_escaped (s.toList.flatMap (escape true) ++ '"' :: rest).length s.toList
    rest (by simp only [List.length_append, List.length_cons]; omega)
  simp only [encode, List.cons_append, List.append_assoc, List.nil_append, readText?, hread]
  exact congrArg some (congrArg (·, rest) String.ofList_toList)

end ToolDock.Notation.Literal
