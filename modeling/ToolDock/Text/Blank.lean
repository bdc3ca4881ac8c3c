namespace ToolDock.Blank

/-- The code points of white space, as ranges. -/
def ranges : List (Nat × Nat) :=
  [(0x09, 0x0d), (0x20, 0x20), (0x85, 0x85), (0xa0, 0xa0), (0x1680, 0x1680), (0x2000, 0x200a),
    (0x2028, 0x2029), (0x202f, 0x202f), (0x205f, 0x205f), (0x3000, 0x3000)]

def isBlank (c : Char) : Bool := ranges.any fun r ↦ r.1 ≤ c.toNat && c.toNat ≤ r.2

def strip (p : Char → Bool) (cs : List Char) : List Char :=
  ((cs.dropWhile p).reverse.dropWhile p).reverse

def trim (cs : List Char) : List Char := strip isBlank cs

/-- The core is what is left of a text without the characters around it that satisfy `p`. -/
structure Strips (p : Char → Bool) (cs core : List Char) : Prop where
  around : ∃ before after, cs = before ++ (core ++ after) ∧
    (∀ c ∈ before, p c = true) ∧ ∀ c ∈ after, p c = true
  first : ∀ c ∈ core.head?, p c = false
  last : ∀ c ∈ core.getLast?, p c = false

variable {p : Char → Bool} {cs core : List Char}

theorem dropWhile_of_head? (h : ∀ c ∈ cs.head?, p c = false) : cs.dropWhile p = cs := by
  cases cs with
  | nil => rfl
  | cons c cs => exact List.dropWhile_cons_of_neg (by simp [h c rfl])

theorem head?_dropWhile (p : Char → Bool) (cs : List Char) :
    ∀ c ∈ (cs.dropWhile p).head?, p c = false := by
  intro c hc
  have hnot := List.head?_dropWhile_not p cs
  rw [Option.mem_def.1 hc] at hnot
  simpa using hnot

theorem exists_strip_append (p : Char → Bool) (cs : List Char) :
    ∃ after, cs.dropWhile p = strip p cs ++ after ∧ ∀ c ∈ after, p c = true := by
  refine ⟨((cs.dropWhile p).reverse.takeWhile p).reverse, ?_, fun c hc ↦ ?_⟩
  · rw [strip, ← List.reverse_append, List.takeWhile_append_dropWhile, List.reverse_reverse]
  · exact List.all_eq_true.1 List.all_takeWhile c (List.mem_reverse.1 hc)

theorem strips_strip (p : Char → Bool) (cs : List Char) : Strips p cs (strip p cs) := by
  obtain ⟨after, hdrop, hafter⟩ := exists_strip_append p cs
  refine ⟨⟨cs.takeWhile p, after, ?_, List.all_eq_true.1 List.all_takeWhile, hafter⟩, ?_, ?_⟩
  · rw [← hdrop, List.takeWhile_append_dropWhile]
  · intro c hc
    refine head?_dropWhile p cs c ?_
    rw [hdrop, List.head?_append, Option.mem_def.1 hc]
    rfl
  · rw [strip, List.getLast?_reverse]
    exact head?_dropWhile p _

theorem Strips.strip_eq (h : Strips p cs core) : strip p cs = core := by
  obtain ⟨before, after, rfl, hbefore, hafter⟩ := h.around
  rw [strip, List.dropWhile_append_of_pos hbefore]
  cases core with
  | nil =>
    -- nothing stops the first pass, which leaves nothing to the second one
    have hnone : (after ++ []).dropWhile p = [] := List.dropWhile_append_of_pos hafter
    rw [List.append_nil] at hnone
    rw [List.nil_append, hnone]
    rfl
  | cons c cs =>
    have hfirst : ∀ c' ∈ (c :: cs ++ after).head?, p c' = false := h.first
    have hlast : ∀ c' ∈ (c :: cs).reverse.head?, p c' = false := by
      rw [List.head?_reverse]
      exact h.last
    rw [dropWhile_of_head? hfirst, List.reverse_append,
      List.dropWhile_append_of_pos (by simpa using hafter), dropWhile_of_head? hlast,
      List.reverse_reverse]

theorem strips_iff : Strips p cs core ↔ strip p cs = core :=
  ⟨Strips.strip_eq, fun h ↦ h ▸ strips_strip p cs⟩

end ToolDock.Blank
