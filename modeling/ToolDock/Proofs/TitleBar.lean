import Mathlib.Data.List.Nodup
import ToolDock.WindowButtons

/-!
Texts that say which buttons stand in the title bar. Such a text has one colon between two sides, a
side is parts with commas between them, and a part that is the name of a button, but for blanks
around it, names the button. So every text with one colon names buttons on either side, in one way,
and it is read as a layout just if it names none of them twice. Main statements: `names_iff`,
`onSide_iff`, `describes_iff` and `parse?_exact`.
-/

namespace ToolDock

namespace WindowButton

/-- What is left of the part without the blanks around it is the name of the button. -/
def IsNamedBy (b : WindowButton) (part : List Char) : Prop :=
  Blank.Strips Blank.isBlank part b.name.toList

theorem ofName?_eq_some_iff {s : String} {b : WindowButton} : ofName? s = some b ↔ s = b.name := by
  constructor
  · intro h
    unfold ofName? at h
    have hname := List.find?_some h
    exact (beq_iff_eq.1 hname).symm
  · rintro rfl
    cases b <;> decide

def ofPart? (part : List Char) : Option WindowButton :=
  ofName? (String.ofList (Blank.trim part))

theorem ofPart?_eq_some_iff {part : List Char} {b : WindowButton} :
    ofPart? part = some b ↔ b.IsNamedBy part := by
  rw [ofPart?, ofName?_eq_some_iff, IsNamedBy, Blank.strips_iff, Blank.trim, ← String.toList_inj,
    String.toList_ofList]

end WindowButton

namespace ButtonLayout

inductive Names : List (List Char) → List WindowButton → Prop
  | nil : Names [] []
  | button {part : List Char} {parts : List (List Char)} {b : WindowButton} {bs : List WindowButton}
    (h : b.IsNamedBy part) (hrest : Names parts bs) : Names (part :: parts) (b :: bs)
  | other {part : List Char} {parts : List (List Char)} {bs : List WindowButton}
    (h : ∀ b : WindowButton, ¬ b.IsNamedBy part) (hrest : Names parts bs) : Names (part :: parts) bs

def OnSide (side : List Char) (bs : List WindowButton) : Prop :=
  ∃ parts, parts ≠ [] ∧ (∀ part ∈ parts, ',' ∉ part) ∧ side = [','].intercalate parts ∧
    Names parts bs

/-- The text has just one colon, the first buttons left of it and the others right of it. -/
def Describes (s : String) (left right : List WindowButton) : Prop :=
  ∃ leftSide rightSide, s.toList = leftSide ++ ':' :: rightSide ∧
    ':' ∉ leftSide ∧ ':' ∉ rightSide ∧ OnSide leftSide left ∧ OnSide rightSide right

variable {s : String} {separator : Char} {cs part side leftSide rightSide : List Char}
  {parts : List (List Char)} {bs left right : List WindowButton} {layout : ButtonLayout}

theorem splitAt_eq_splitOn (separator : Char) (cs : List Char) :
    splitAt separator cs = cs.splitOn separator := by
  induction cs with
  | nil => simp [splitAt]
  | cons c cs ih =>
    rw [splitAt, ih, List.splitOn_cons_eq_if_modifyHead]
    obtain ⟨part, parts, hparts⟩ := List.exists_cons_of_ne_nil (List.splitOn_ne_nil separator cs)
    simp [hparts]

theorem not_mem_of_mem_splitAt (h : part ∈ splitAt separator cs) : separator ∉ part := by
  induction cs generalizing part with
  | nil => simp_all [splitAt]
  | cons c cs ih =>
    rw [splitAt] at h
    split at h
    case isTrue hc =>
      rcases List.mem_cons.1 h with rfl | h
      · exact List.not_mem_nil
      · exact ih h
    case isFalse hc =>
      split at h
      case h_1 first rest hfirst =>
        rcases List.mem_cons.1 h with rfl | h
        · have hnot := ih (hfirst ▸ List.mem_cons_self ..)
          simp [hnot, Ne.symm hc]
        · exact ih (hfirst ▸ List.mem_cons_of_mem _ h)
      case h_2 hnil =>
        rw [splitAt_eq_splitOn] at hnil
        exact absurd hnil (List.splitOn_ne_nil separator cs)

theorem splitAt_eq_iff :
    splitAt separator cs = parts ↔
      parts ≠ [] ∧ (∀ part ∈ parts, separator ∉ part) ∧ cs = [separator].intercalate parts := by
  constructor
  · rintro rfl
    refine ⟨?_, fun part h ↦ not_mem_of_mem_splitAt h, ?_⟩
    · rw [splitAt_eq_splitOn]
      exact List.splitOn_ne_nil separator cs
    · rw [splitAt_eq_splitOn, List.intercalate_splitOn]
  · rintro ⟨hne, hparts, rfl⟩
    rw [splitAt_eq_splitOn, List.splitOn_intercalate separator hparts hne]

theorem splitAt_eq_pair_iff :
    splitAt separator cs = [leftSide, rightSide] ↔
      cs = leftSide ++ separator :: rightSide ∧ separator ∉ leftSide ∧ separator ∉ rightSide := by
  have hjoined : [separator].intercalate [leftSide, rightSide] =
      leftSide ++ separator :: rightSide := by
    rw [List.intercalate_cons_cons, List.intercalate_singleton, List.append_assoc]
    rfl
  rw [splitAt_eq_iff, hjoined]
  constructor
  · rintro ⟨-, hparts, heq⟩
    exact ⟨heq, hparts _ (by simp), hparts _ (by simp)⟩
  · rintro ⟨heq, hleft, hright⟩
    exact ⟨List.cons_ne_nil _ _, by simp [hleft, hright], heq⟩

theorem count_eq_one_iff :
    cs.count separator = 1 ↔ ∃ leftSide rightSide, cs = leftSide ++ separator :: rightSide ∧
      separator ∉ leftSide ∧ separator ∉ rightSide := by
  constructor
  · intro h
    have hmem : separator ∈ cs := List.count_pos_iff.1 (by omega)
    obtain ⟨leftSide, rightSide, rfl, hleft⟩ := List.eq_append_cons_of_mem hmem
    refine ⟨leftSide, rightSide, rfl, hleft, fun hright ↦ ?_⟩
    have hpos := List.count_pos_iff.2 hright
    rw [List.count_append, List.count_cons_self] at h
    omega
  · rintro ⟨leftSide, rightSide, rfl, hleft, hright⟩
    rw [List.count_append, List.count_cons_self, List.count_eq_zero.2 hleft,
      List.count_eq_zero.2 hright]

theorem names_iff : Names parts bs ↔ parts.filterMap WindowButton.ofPart? = bs := by
  constructor
  · intro h
    induction h with
    | nil => rfl
    | button h _ ih => rw [List.filterMap_cons_some (WindowButton.ofPart?_eq_some_iff.2 h), ih]
    | other h _ ih =>
      refine (List.filterMap_cons_none ?_).trans ih
      exact Option.eq_none_iff_forall_ne_some.2 fun b hb ↦
        h b (WindowButton.ofPart?_eq_some_iff.1 hb)
  · rintro rfl
    induction parts with
    | nil => exact .nil
    | cons part parts ih =>
      cases hpart : WindowButton.ofPart? part with
      | none =>
        rw [List.filterMap_cons_none hpart]
        refine .other (fun b hb ↦ ?_) ih
        rw [WindowButton.ofPart?_eq_some_iff.2 hb] at hpart
        cases hpart
      | some b =>
        rw [List.filterMap_cons_some hpart]
        exact .button (WindowButton.ofPart?_eq_some_iff.1 hpart) ih

theorem onSide_iff : OnSide side bs ↔ sideButtons side = bs := by
  constructor
  · rintro ⟨parts, hne, hparts, hside, hnames⟩
    rw [sideButtons, splitAt_eq_iff.2 ⟨hne, hparts, hside⟩]
    exact names_iff.1 hnames
  · intro h
    obtain ⟨hne, hparts, hside⟩ := splitAt_eq_iff.1 (rfl : splitAt ',' side = _)
    exact ⟨_, hne, hparts, hside, names_iff.2 h⟩

theorem describes_iff :
    Describes s left right ↔ ∃ leftSide rightSide, splitAt ':' s.toList = [leftSide, rightSide] ∧
      sideButtons leftSide = left ∧ sideButtons rightSide = right := by
  simp only [Describes, splitAt_eq_pair_iff, onSide_iff, and_assoc]

theorem exists_describes_iff : (∃ left right, Describes s left right) ↔ s.toList.count ':' = 1 := by
  simp [count_eq_one_iff, Describes, onSide_iff]

theorem parse?_eq_some_iff :
    parse? s = some layout ↔ ∃ left right, Describes s left right ∧ (left ++ right).Nodup ∧
      layout = ⟨left.isEmpty || !right.isEmpty, left ++ right⟩ := by
  simp only [describes_iff]
  unfold parse?
  split
  case h_1 leftSide rightSide hsplit =>
    simp [hsplit, eq_comm]
  case h_2 hno =>
    constructor
    · intro h
      cases h
    · rintro ⟨_, _, ⟨leftSide, rightSide, hsplit, -, -⟩, -⟩
      exact absurd hsplit (hno _ _)

theorem Describes.unique {left' right' : List WindowButton} (h : Describes s left right)
    (h' : Describes s left' right') : left = left' ∧ right = right' := by
  obtain ⟨leftSide, rightSide, hsplit, rfl, rfl⟩ := describes_iff.1 h
  obtain ⟨_, _, hsplit', rfl, rfl⟩ := describes_iff.1 h'
  rw [hsplit] at hsplit'
  cases hsplit'
  exact ⟨rfl, rfl⟩

/-- The texts with one colon name buttons on either side of it, and such a text is read as a layout
just if it names none twice, on both sides together. The layout then has the buttons left of the
colon and behind them those right of it, in the order of their names and none twice, and is not in
the right position just if there are buttons on the left side only. -/
theorem parse?_exact (s : String) :
    (s.toList.count ':' = 1 ↔ ∃ left right, Describes s left right) ∧
    ((parse? s).isSome = true ↔
      ∃ left right, Describes s left right ∧ ∀ b, left.count b + right.count b ≤ 1) ∧
    ∀ layout left right, parse? s = some layout → Describes s left right →
      layout.buttons = left ++ right ∧ layout.buttons.Nodup ∧
        (layout.rightPosition = false ↔ left ≠ [] ∧ right = []) := by
  have honce : ∀ left right : List WindowButton,
      (left ++ right).Nodup ↔ ∀ b, left.count b + right.count b ≤ 1 := fun left right ↦ by
    simp only [List.nodup_iff_count_le_one, List.count_append]
  refine ⟨exists_describes_iff.symm, ⟨fun h ↦ ?_, ?_⟩, fun layout left right hparse h ↦ ?_⟩
  · obtain ⟨layout, hparse⟩ := Option.isSome_iff_exists.1 h
    obtain ⟨left, right, h, hnodup, -⟩ := parse?_eq_some_iff.1 hparse
    exact ⟨left, right, h, (honce left right).1 hnodup⟩
  · rintro ⟨left, right, h, hcount⟩
    have hparse := parse?_eq_some_iff.2 ⟨left, right, h, (honce left right).2 hcount, rfl⟩
    exact Option.isSome_iff_exists.2 ⟨_, hparse⟩
  · obtain ⟨_, _, h', hnodup, rfl⟩ := parse?_eq_some_iff.1 hparse
    obtain ⟨rfl, rfl⟩ := h'.unique h
    exact ⟨rfl, hnodup, by simp⟩

/-- Blanks, an empty part and parts that name nothing, on the left side and on the right. -/
theorem parse?_exact_left :
    let s := " close ,, menu,minimize: Close"
    parse? s = some ⟨false, [.close, .minimize]⟩ ∧ Describes s [.close, .minimize] [] ∧
      [WindowButton.close, .minimize].Nodup := by
  intro s
  have hparse : parse? s = some ⟨false, [.close, .minimize]⟩ := by decide
  have h : Describes s [.close, .minimize] [] := describes_iff.2
    ⟨" close ,, menu,minimize".toList, " Close".toList, by decide, by decide, by decide⟩
  exact ⟨hparse, h, ((parse?_exact s).2.2 _ _ _ hparse h).2.1⟩

/-- A button that is named on both sides. -/
example : parse? "close,minimize:maximize, close" = none := by decide

end ButtonLayout

end ToolDock
