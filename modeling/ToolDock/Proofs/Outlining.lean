import Mathlib.Data.List.Forall2
import Mathlib.Data.List.Induction
import Mathlib.Data.List.Nodup
import ToolDock.Command.Run
import ToolDock.Proofs.Batching
import ToolDock.Proofs.Digits

/-!
The outline of a layout. Its buckets, over all panes, anchors and split flags, are a partition of
the windows, each sorted for painting; the tree has them as its leaves, and it is printed with one
row for each node and each window. Main statement: `outline_exact`.
-/

namespace ToolDock

section Lists

variable {α : Type} [BEq α] [LawfulBEq α] {xs : List α} {a b : α}

theorem sublist_of_idxOf_lt (h : xs.idxOf a < xs.idxOf b) (hb : b ∈ xs) : [a, b].Sublist xs := by
  induction xs with
  | nil => cases hb
  | cons x xs ih =>
    by_cases hxb : x = b
    · -- Nothing comes before the first element.
      subst hxb
      rw [List.idxOf_cons_self] at h
      omega
    · have hmem : b ∈ xs := (List.mem_cons.1 hb).resolve_left (Ne.symm hxb)
      rw [List.idxOf_cons_ne _ hxb] at h
      by_cases hxa : x = a
      · subst hxa
        exact .cons_cons x (List.singleton_sublist.2 hmem)
      · rw [List.idxOf_cons_ne _ hxa] at h
        exact .cons x (ih (by omega) hmem)

theorem idxOf_lt_of_sublist (hxs : xs.Nodup) (h : [a, b].Sublist xs) :
    xs.idxOf a < xs.idxOf b := by
  induction xs with
  | nil => cases h
  | cons x xs ih =>
    obtain ⟨hx, hnodup⟩ := List.nodup_cons.1 hxs
    cases h with
    | cons _ h =>
      have ha : x ≠ a := fun heq ↦ hx (heq ▸ h.subset (by simp))
      have hb : x ≠ b := fun heq ↦ hx (heq ▸ h.subset (by simp))
      rw [List.idxOf_cons_ne _ ha, List.idxOf_cons_ne _ hb]
      exact Nat.succ_lt_succ (ih hnodup h)
    | cons_cons _ h =>
      have hb : a ≠ b := fun heq ↦ hx (heq ▸ List.singleton_sublist.1 h)
      rw [List.idxOf_cons_self, List.idxOf_cons_ne _ hb]
      omega

theorem pairwise_idxOf_eraseDups (xs : List α) :
    xs.eraseDups.Pairwise fun a b ↦ xs.idxOf a < xs.idxOf b := by
  induction xs using List.reverseRecOn with
  | nil => exact .nil
  | append_singleton xs x ih =>
    have hsame : ∀ a ∈ xs.eraseDups, (xs ++ [x]).idxOf a = xs.idxOf a := fun a ha ↦
      List.idxOf_append_of_mem (List.mem_eraseDups.1 ha)
    rw [List.eraseDups_append, List.pairwise_append]
    refine ⟨ih.imp_of_mem fun ha hb h ↦ by rwa [hsame _ ha, hsame _ hb], ?_, ?_⟩
    · by_cases hx : x ∈ xs
      · simp [List.removeAll, hx]
      · simp [List.removeAll, hx, List.eraseDups_cons]
    · intro a ha b hb
      have hb' : b = x ∧ b ∉ xs := by
        rw [List.mem_eraseDups, List.removeAll, List.mem_filter] at hb
        simpa using hb
      obtain ⟨rfl, hnew⟩ := hb'
      rw [hsame a ha, List.idxOf_append_of_notMem hnew]
      exact Nat.lt_of_lt_of_le (List.idxOf_lt_length_of_mem (List.mem_eraseDups.1 ha))
        (Nat.le_add_right ..)

theorem pairwise_mergeSort_stable (le : α → α → Bool) (hxs : xs.Nodup)
    (htrans : ∀ a b c, le a b → le b c → le a c) (htotal : ∀ a b, le a b || le b a) :
    (xs.mergeSort le).Pairwise fun a b ↦ le a b ∧ (le b a → xs.idxOf a < xs.idxOf b) := by
  refine List.pairwise_iff_forall_sublist.2 fun {a b} hab ↦ ⟨?_, fun hle ↦ ?_⟩
  · exact List.pairwise_iff_forall_sublist.1 (List.pairwise_mergeSort htrans htotal xs) hab
  · have hsorted : (xs.mergeSort le).Nodup := (List.mergeSort_perm xs le).nodup_iff.2 hxs
    have hlt := idxOf_lt_of_sublist hsorted hab
    have ha : a ∈ xs := List.mem_mergeSort.1 (hab.subset (by simp))
    have hb : b ∈ xs := List.mem_mergeSort.1 (hab.subset (by simp))
    by_contra hge
    -- Were they the other way round before, the sort would have kept them so.
    have hne : xs.idxOf a ≠ xs.idxOf b := by
      intro heq
      rw [List.idxOf_inj ha] at heq
      subst heq
      exact absurd hlt (Nat.lt_irrefl _)
    have hba : [b, a].Sublist xs := sublist_of_idxOf_lt (by omega) ha
    have hgt := idxOf_lt_of_sublist hsorted
      (List.pair_sublist_mergeSort htrans htotal hle hba)
    omega

end Lists

namespace Layout

variable {l : Layout} {a b w : WindowInfo} {slot : Slot} {pane : String} {anchor : Anchor}
  {split : Bool}

def slots (l : Layout) : List Slot :=
  l.panes.flatMap fun pane ↦ Anchor.all.flatMap fun anchor ↦
    [false, true].map fun split ↦ ⟨pane, anchor, split⟩

/-- By order, then by position in the layout; windows without an order come after the others. -/
def Precedes (l : Layout) (a b : WindowInfo) : Prop :=
  a.hasOrder ∧ ¬ b.hasOrder ∨ a.hasOrder = b.hasOrder ∧ (a.order < b.order ∨
    a.order = b.order ∧ l.windows.idxOf a < l.windows.idxOf b)

theorem nodup_windows (l : Layout) : l.windows.Nodup := l.nodup.of_map _

theorem mem_panes : pane ∈ l.panes ↔ ∃ w ∈ l.windows, w.pane = pane := by
  rw [panes, List.mem_eraseDups, List.mem_map]

theorem mem_bucket : w ∈ l.bucket slot ↔ w ∈ l.windows ∧ w.slot = slot := by
  rw [bucket, List.mem_mergeSort, List.mem_filter, beq_iff_eq]

theorem nodup_bucket (l : Layout) (slot : Slot) : (l.bucket slot).Nodup :=
  (List.mergeSort_perm ..).nodup_iff.2 (l.nodup_windows.filter _)

theorem mem_slots : slot ∈ l.slots ↔ slot.pane ∈ l.panes := by
  obtain ⟨pane, anchor, split⟩ := slot
  simp only [slots, List.mem_flatMap, List.mem_map, Slot.mk.injEq]
  constructor
  · intro h
    obtain ⟨_, hpane, _, _, _, _, rfl, _⟩ := h
    exact hpane
  · intro h
    exact ⟨pane, h, anchor, anchor.mem_all, split, by cases split <;> simp, rfl, rfl, rfl⟩

theorem nodup_slots (l : Layout) : l.slots.Nodup := by
  have hanchors : Anchor.all.Nodup := by decide
  have hflags : [false, true].Nodup := by decide
  refine List.nodup_flatMap.2 ⟨fun pane _ ↦ List.nodup_flatMap.2 ⟨fun anchor _ ↦ ?_, ?_⟩, ?_⟩
  · refine hflags.map ?_
    intro s t hst
    exact congrArg Slot.split hst
  · refine hanchors.imp ?_
    intro anchor anchor' hne slot h h'
    obtain ⟨_, -, rfl⟩ := List.mem_map.1 h
    obtain ⟨_, -, heq⟩ := List.mem_map.1 h'
    exact hne (congrArg Slot.anchor heq).symm
  · refine (nodup_eraseDups _).imp ?_
    intro pane pane' hne slot h h'
    simp only [List.mem_flatMap, List.mem_map] at h h'
    obtain ⟨_, -, _, -, rfl⟩ := h
    obtain ⟨_, -, _, -, heq⟩ := h'
    exact hne (congrArg Slot.pane heq).symm

theorem perm_flatMap_bucket (l : Layout) : (l.slots.flatMap l.bucket).Perm l.windows := by
  rw [List.perm_ext_iff_of_nodup ?_ l.nodup_windows]
  · intro w
    rw [List.mem_flatMap]
    constructor
    · intro h
      obtain ⟨slot, _, hw⟩ := h
      exact (mem_bucket.1 hw).1
    · intro hw
      exact ⟨w.slot, mem_slots.2 (mem_panes.2 ⟨w, hw, rfl⟩), mem_bucket.2 ⟨hw, rfl⟩⟩
  · rw [List.nodup_flatMap]
    refine ⟨fun slot _ ↦ nodup_bucket l slot, l.nodup_slots.imp ?_⟩
    intro s t hne w hs ht
    exact hne ((mem_bucket.1 hs).2.symm.trans (mem_bucket.1 ht).2)

theorem order_of_not_hasOrder (h : w.hasOrder = false) : w.order = unassignedOrder := by
  rw [WindowInfo.hasOrder, bne_eq_false_iff_eq] at h
  exact h

theorem paintsBefore_iff : paintsBefore a b ↔
    ¬ b.hasOrder ∨ a.hasOrder ∧ a.order.toInt ≤ b.order.toInt := by
  unfold paintsBefore
  rw [← Int32.le_iff_toInt_le]
  cases a.hasOrder <;> cases b.hasOrder <;> simp

theorem paintsBefore_trans {a b c : WindowInfo} (hab : paintsBefore a b) (hbc : paintsBefore b c) :
    paintsBefore a c := by
  rw [paintsBefore_iff] at hab hbc ⊢
  rcases hbc with hc | ⟨hb, hbc⟩
  · exact Or.inl hc
  · rcases hab with hb' | ⟨ha, hab⟩
    · exact absurd hb hb'
    · exact Or.inr ⟨ha, Int.le_trans hab hbc⟩

theorem paintsBefore_total (a b : WindowInfo) : paintsBefore a b || paintsBefore b a := by
  rw [Bool.or_eq_true, paintsBefore_iff, paintsBefore_iff]
  cases a.hasOrder with
  | false => exact Or.inr (Or.inl (by simp))
  | true =>
    cases b.hasOrder with
    | false => exact Or.inl (Or.inl (by simp))
    | true =>
      exact (Int.le_total a.order.toInt b.order.toInt).imp (fun h ↦ Or.inr ⟨rfl, h⟩)
        fun h ↦ Or.inr ⟨rfl, h⟩

theorem pairwise_bucket (l : Layout) (slot : Slot) : (l.bucket slot).Pairwise l.Precedes := by
  have hsorted := pairwise_mergeSort_stable paintsBefore (l.nodup_windows.filter (·.slot == slot))
    (fun _ _ _ ↦ paintsBefore_trans) paintsBefore_total
  refine hsorted.imp_of_mem fun {a b} _ hb h ↦ ?_
  obtain ⟨hle, htie⟩ := h
  rw [bucket, List.mem_mergeSort] at hb
  have hposition : paintsBefore b a → l.windows.idxOf a < l.windows.idxOf b := fun hba ↦
    idxOf_lt_of_sublist l.nodup_windows
      ((sublist_of_idxOf_lt (htie hba) hb).trans List.filter_sublist)
  rw [paintsBefore_iff] at hle hposition
  unfold Precedes
  cases ha : a.hasOrder with
  | false =>
    rw [ha] at hle
    have hb : b.hasOrder = false := by simpa using hle
    have horder : a.order = b.order := by
      rw [order_of_not_hasOrder ha, order_of_not_hasOrder hb]
    exact Or.inr ⟨hb.symm, Or.inr ⟨horder, hposition (Or.inl (by simp [ha]))⟩⟩
  | true =>
    cases hb : b.hasOrder with
    | false => exact Or.inl ⟨rfl, by simp⟩
    | true =>
      rw [ha, hb] at hle
      have hle : a.order.toInt ≤ b.order.toInt := by simpa using hle
      refine Or.inr ⟨rfl, ?_⟩
      rcases Int.lt_or_eq_of_le hle with hlt | heq
      · exact Or.inl (Int32.lt_iff_toInt_lt.2 hlt)
      · exact Or.inr ⟨Int32.toInt_inj.1 heq, hposition (Or.inr ⟨hb, Int.le_of_eq heq.symm⟩)⟩

end Layout

namespace Tree

/-- What one line of a tree stands for. -/
structure Row where
  /-- The titles of the nodes around it, the outermost first. -/
  above : List String
  /-- Whether what it belongs to comes last, at each level below the root. -/
  lasts : List Bool
  isFirst : Bool
  isLeaf : Bool
  label : String

/-- What stands below the children of some levels: a line down to the next child, if there is one.
-/
def trunk (lasts : List Bool) : String :=
  String.join (lasts.map fun last ↦ if last then "   " else " │ ")

/-- What connects a child to the node above it. -/
def branch (lasts : List Bool) : String :=
  match lasts.getLast? with
  | none => ""
  | some last => trunk lasts.dropLast ++ if last then " └─" else " ├─"

def Row.stem (row : Row) : String := if row.isFirst then branch row.lasts else trunk row.lasts

def Row.line (row : Row) : String := row.stem ++ " " ++ row.label

mutual

def rows (above : List String) (lasts : List Bool) : Tree → List Row
  | node title children =>
    ⟨above, lasts, true, false, title⟩ :: rowsOfChildren (above ++ [title]) lasts children
  | leaf [] => []
  | leaf (first :: others) =>
    ⟨above, lasts, true, true, first⟩ :: others.map fun line ↦ ⟨above, lasts, false, true, line⟩

def rowsOfChildren (above : List String) (lasts : List Bool) : List Tree → List Row
  | [] => []
  | child :: rest => rows above (lasts ++ [rest.isEmpty]) child ++ rowsOfChildren above lasts rest

end

mutual

/-- The lines at the leaves of a tree, each with the titles above it. -/
def leaves (above : List String) : Tree → List (List String × String)
  | node title children => leavesOfChildren (above ++ [title]) children
  | leaf lines => lines.map fun line ↦ (above, line)

def leavesOfChildren (above : List String) : List Tree → List (List String × String)
  | [] => []
  | child :: rest => leaves above child ++ leavesOfChildren above rest

end

inductive Filled : Tree → Prop
  | leaf {lines : List String} (h : lines ≠ []) : Filled (.leaf lines)
  | node {title : String} {children : List Tree} (h : children ≠ [])
    (hchildren : ∀ child ∈ children, Filled child) : Filled (.node title children)

variable {above : List String} {lasts : List Bool} {last : Bool} {row : Row} {title : String}
  {children : List Tree} {t : Tree}

theorem trunk_concat : trunk (lasts ++ [last]) = trunk lasts ++ if last then "   " else " │ " := by
  simp [trunk]

theorem branch_concat :
    branch (lasts ++ [last]) = trunk lasts ++ if last then " └─" else " ├─" := by
  rw [branch, List.getLast?_concat, List.dropLast_concat]

mutual

theorem linesWith_eq (above : List String) (lasts : List Bool) : (t : Tree) →
    t.linesWith (branch lasts) (trunk lasts) = (t.rows above lasts).map Row.line
  | node title children => by
    rw [rows, linesWith, List.map_cons, linesOfChildren_eq (above ++ [title]) lasts children]
    rfl
  | leaf [] => rfl
  | leaf (first :: others) => by
    rw [rows, linesWith, List.map_cons, List.map_map]
    rfl

theorem linesOfChildren_eq (above : List String) (lasts : List Bool) : (children : List Tree) →
    linesOfChildren (trunk lasts) children = (rowsOfChildren above lasts children).map Row.line
  | [] => rfl
  | [child] => by
    have hchild := linesWith_eq above (lasts ++ [true]) child
    rw [branch_concat, trunk_concat] at hchild
    rw [rowsOfChildren, rowsOfChildren, List.append_nil, linesOfChildren]
    exact hchild
  | child :: next :: rest => by
    have hchild := linesWith_eq above (lasts ++ [false]) child
    rw [branch_concat, trunk_concat] at hchild
    rw [rowsOfChildren, List.map_append, ← linesOfChildren_eq above lasts (next :: rest),
      linesOfChildren]
    exact congrArg (· ++ _) hchild

end

mutual

theorem leaves_rows (above : List String) (lasts : List Bool) : (t : Tree) →
    ((t.rows above lasts).filter (·.isLeaf)).map (fun row ↦ (row.above, row.label)) =
      t.leaves above
  | node title children => by
    rw [rows, leaves, List.filter_cons_of_neg (by simp)]
    exact leaves_rowsOfChildren (above ++ [title]) lasts children
  | leaf [] => rfl
  | leaf (first :: others) => by
    have hall : ∀ row ∈ others.map fun line ↦ (⟨above, lasts, false, true, line⟩ : Row),
        row.isLeaf := by
      intro row hrow
      obtain ⟨line, -, rfl⟩ := List.mem_map.1 hrow
      rfl
    rw [rows, leaves, List.filter_cons_of_pos rfl, List.filter_eq_self.2 hall, List.map_cons,
      List.map_map, List.map_cons]
    rfl

theorem leaves_rowsOfChildren (above : List String) (lasts : List Bool) :
    (children : List Tree) → ((rowsOfChildren above lasts children).filter (·.isLeaf)).map
      (fun row ↦ (row.above, row.label)) = leavesOfChildren above children
  | [] => rfl
  | child :: rest => by
    rw [rowsOfChildren, leavesOfChildren, List.filter_append, List.map_append,
      leaves_rows above _ child, leaves_rowsOfChildren above lasts rest]

end

theorem leaves_node (above : List String) (title : String) (children : List Tree) :
    (node title children).leaves above = children.flatMap (leaves (above ++ [title])) := by
  rw [leaves]
  induction children with
  | nil => rfl
  | cons child rest ih => rw [leavesOfChildren, ih, List.flatMap_cons]

theorem exists_mem_rows_of_mem_rowsOfChildren (h : row ∈ rowsOfChildren above lasts children) :
    ∃ child ∈ children, ∃ lasts, row ∈ child.rows above lasts := by
  induction children with
  | nil => cases h
  | cons child rest ih =>
    rw [rowsOfChildren] at h
    rcases List.mem_append.1 h with h | h
    · exact ⟨child, List.mem_cons_self .., _, h⟩
    · obtain ⟨child', hchild, hrow⟩ := ih h
      exact ⟨child', List.mem_cons_of_mem _ hchild, hrow⟩

theorem mem_rows_node (h : row ∈ (node title children).rows above lasts) :
    row.label = title ∨ ∃ child ∈ children, ∃ above lasts, row ∈ child.rows above lasts := by
  rw [rows] at h
  rcases List.mem_cons.1 h with rfl | h
  · exact Or.inl rfl
  · obtain ⟨child, hchild, hrow⟩ := exists_mem_rows_of_mem_rowsOfChildren h
    exact Or.inr ⟨child, hchild, _, hrow⟩

theorem label_mem_of_mem_rows_leaf {lines : List String}
    (h : row ∈ (leaf lines).rows above lasts) : row.label ∈ lines := by
  cases lines with
  | nil => cases h
  | cons first others =>
    rw [rows] at h
    rcases List.mem_cons.1 h with rfl | h
    · exact List.mem_cons_self ..
    · obtain ⟨line, hline, rfl⟩ := List.mem_map.1 h
      exact List.mem_cons_of_mem _ hline

theorem not_mem_trunk (lasts : List Bool) : '\n' ∉ (trunk lasts).toList := by
  rw [trunk, String.toList_join, List.mem_flatMap]
  rintro ⟨piece, hpiece, hbreak⟩
  obtain ⟨last, -, rfl⟩ := List.mem_map.1 hpiece
  cases last <;> exact absurd hbreak (by decide)

theorem not_mem_branch (lasts : List Bool) : '\n' ∉ (branch lasts).toList := by
  unfold branch
  split
  case h_1 => exact List.not_mem_nil
  case h_2 last _ =>
    rw [String.toList_append]
    exact List.not_mem_append (not_mem_trunk _) (by cases last <;> decide)

namespace Row

theorem not_mem_stem (row : Row) : '\n' ∉ row.stem.toList := by
  unfold stem
  split
  · exact not_mem_branch _
  · exact not_mem_trunk _

theorem count_line (row : Row) : row.line.toList.count '\n' = row.label.toList.count '\n' := by
  rw [line, String.toList_append, String.toList_append, List.count_append, List.count_append,
    List.count_eq_zero.2 row.not_mem_stem, List.count_eq_zero.2 (by decide), Nat.zero_add]

end Row

/-- A text has a line break behind each of its lines, and those inside of them. -/
theorem count_join_rows (rows : List Row) :
    (String.join (rows.map (·.line ++ "\n"))).toList.count '\n' =
      rows.length + (rows.flatMap (·.label.toList)).count '\n' := by
  induction rows with
  | nil => rfl
  | cons row rows ih =>
    rw [String.toList_join] at ih ⊢
    rw [List.map_cons, List.flatMap_cons, List.count_append, ih, String.toList_append,
      List.count_append, row.count_line, List.length_cons, List.flatMap_cons, List.count_append]
    have hbreak : List.count '\n' "\n".toList = 1 := by decide
    omega

theorem splitOn_join_rows {rows : List Row} (h : ∀ row ∈ rows, '\n' ∉ row.label.toList) :
    (String.join (rows.map (·.line ++ "\n"))).toList.splitOn '\n' =
      rows.map (·.line.toList) ++ [[]] := by
  have hjoin : (String.join (rows.map (·.line ++ "\n"))).toList =
      ['\n'].intercalate (rows.map (·.line.toList) ++ [[]]) := by
    rw [String.toList_join]
    clear h
    induction rows with
    | nil => rfl
    | cons row rows ih =>
      have hnext : rows.map (·.line.toList) ++ [[]] ≠ [] := by simp
      obtain ⟨next, others, heq⟩ := List.exists_cons_of_ne_nil hnext
      rw [List.map_cons, List.flatMap_cons, ih, String.toList_append, List.map_cons,
        List.cons_append, heq, List.intercalate_cons_cons]
      rfl
  rw [hjoin]
  refine List.splitOn_intercalate '\n' (fun cs hcs ↦ ?_) (by simp)
  rcases List.mem_append.1 hcs with hcs | hcs
  · obtain ⟨row, hrow, rfl⟩ := List.mem_map.1 hcs
    rw [← List.count_eq_zero, row.count_line, List.count_eq_zero]
    exact h row hrow
  · rw [List.mem_singleton.1 hcs]
    exact List.not_mem_nil

end Tree

def WindowInfo.leaf (title : String) (w : WindowInfo) : List String × String :=
  ([title, w.pane, w.anchor.name, if w.split then "split" else "primary"], w.summary)

theorem WindowInfo.not_mem_summary {w : WindowInfo} (h : '\n' ∉ w.id.toList) :
    '\n' ∉ w.summary.toList := by
  have hdigits : '\n' ∉ (Digits.integer w.order.toInt).toList := by
    unfold Digits.integer
    split
    all_goals
      rw [String.toList_ofList]
      intro hmem
    · rcases List.mem_cons.1 hmem with hmem | hmem
      · exact absurd hmem (by decide)
      · exact absurd (Digits.isDigit_of_mem_decimal hmem) (by decide)
    · exact absurd (Digits.isDigit_of_mem_decimal hmem) (by decide)
  have htype : '\n' ∉ w.windowType.name.toList := by cases w.windowType <;> decide
  have hvisible : '\n' ∉ (if w.visible then "visible" else "hidden").toList := by
    cases w.visible <;> decide
  simp only [summary, String.toList_append, List.mem_append, not_or]
  exact ⟨⟨⟨⟨⟨⟨h, by decide⟩, hdigits⟩, by decide⟩, htype⟩, by decide⟩, hvisible⟩

namespace Layout

variable {l : Layout} {w : WindowInfo} {slot : Slot} {pane : String} {anchor : Anchor}
  {split : Bool} {title : String} {t : Tree}

theorem leaves_slotTree? (l : Layout) (title pane : String) (anchor : Anchor) (split : Bool) :
    (l.slotTree? pane anchor split).toList.flatMap (Tree.leaves [title, pane, anchor.name]) =
      (l.bucket ⟨pane, anchor, split⟩).map (WindowInfo.leaf title) := by
  have hrow : (l.bucket ⟨pane, anchor, split⟩).map (WindowInfo.leaf title) =
      (l.bucket ⟨pane, anchor, split⟩).map fun w ↦
        ([title, pane, anchor.name, if split then "split" else "primary"], w.summary) := by
    refine List.map_congr_left fun w hw ↦ ?_
    have hslot := (mem_bucket.1 hw).2
    have hpane : w.pane = pane := congrArg Slot.pane hslot
    have hanchor : w.anchor = anchor := congrArg Slot.anchor hslot
    have hsplit : w.split = split := congrArg Slot.split hslot
    rw [WindowInfo.leaf, hpane, hanchor, hsplit]
  rw [hrow, slotTree?]
  generalize l.bucket ⟨pane, anchor, split⟩ = ws
  cases ws with
  | nil => rfl
  | cons w ws =>
    rw [Option.toList_some, List.flatMap_singleton, Tree.leaves_node, List.flatMap_singleton,
      Tree.leaves, List.map_map]
    rfl

theorem leaves_anchorTree? (l : Layout) (title pane : String) (anchor : Anchor) :
    (l.anchorTree? pane anchor).toList.flatMap (Tree.leaves [title, pane]) =
      [false, true].flatMap fun split ↦
        (l.bucket ⟨pane, anchor, split⟩).map (WindowInfo.leaf title) := by
  have hslots : ([false, true].filterMap (l.slotTree? pane anchor)).flatMap
      (Tree.leaves [title, pane, anchor.name]) = [false, true].flatMap fun split ↦
        (l.bucket ⟨pane, anchor, split⟩).map (WindowInfo.leaf title) := by
    rw [List.filterMap_eq_flatMap_toList, List.flatMap_assoc]
    exact List.flatMap_congr fun split _ ↦ leaves_slotTree? l title pane anchor split
  rw [← hslots, anchorTree?]
  generalize [false, true].filterMap (l.slotTree? pane anchor) = slots
  cases slots with
  | nil => rfl
  | cons t slots =>
    rw [Option.toList_some, List.flatMap_singleton, Tree.leaves_node]
    rfl

theorem leaves_paneTree (l : Layout) (title pane : String) :
    (l.paneTree pane).leaves [title] = Anchor.all.flatMap fun anchor ↦
      [false, true].flatMap fun split ↦
        (l.bucket ⟨pane, anchor, split⟩).map (WindowInfo.leaf title) := by
  rw [paneTree, Tree.leaves_node, List.filterMap_eq_flatMap_toList, List.flatMap_assoc]
  exact List.flatMap_congr fun anchor _ ↦ leaves_anchorTree? l title pane anchor

theorem leaves_tree (l : Layout) (title : String) :
    (l.tree title).leaves [] = (l.slots.flatMap l.bucket).map (WindowInfo.leaf title) := by
  rw [tree, Tree.leaves_node, List.flatMap_map, slots, List.map_flatMap, List.flatMap_assoc]
  refine List.flatMap_congr fun pane _ ↦ ?_
  rw [List.nil_append, leaves_paneTree, List.flatMap_assoc]
  exact List.flatMap_congr fun anchor _ ↦ (List.flatMap_map ..).symm

theorem eq_node_of_slotTree? (h : l.slotTree? pane anchor split = some t) :
    t = .node (if split then "split" else "primary")
      [.leaf ((l.bucket ⟨pane, anchor, split⟩).map WindowInfo.summary)] := by
  rw [slotTree?] at h
  split at h
  case h_1 => cases h
  case h_2 => exact (Option.some.inj h).symm

theorem exists_node_of_anchorTree? (h : l.anchorTree? pane anchor = some t) :
    ∃ slots, t = .node anchor.name slots ∧
      ∀ t ∈ slots, ∃ split, l.slotTree? pane anchor split = some t := by
  rw [anchorTree?] at h
  split at h
  case h_1 => cases h
  case h_2 =>
    refine ⟨_, (Option.some.inj h).symm, fun t ht ↦ ?_⟩
    obtain ⟨split, -, hsplit⟩ := List.mem_filterMap.1 ht
    exact ⟨split, hsplit⟩

theorem filled_of_slotTree? (h : l.slotTree? pane anchor split = some t) : t.Filled := by
  rw [slotTree?] at h
  generalize l.bucket ⟨pane, anchor, split⟩ = ws at h
  cases ws with
  | nil => cases h
  | cons w ws =>
    cases h
    refine .node (List.cons_ne_nil _ _) fun child hchild ↦ ?_
    rw [List.mem_singleton.1 hchild]
    exact .leaf (List.cons_ne_nil _ _)

theorem filled_of_anchorTree? (h : l.anchorTree? pane anchor = some t) : t.Filled := by
  have hslots : ∀ t ∈ [false, true].filterMap (l.slotTree? pane anchor), t.Filled := by
    intro t ht
    obtain ⟨split, -, hsplit⟩ := List.mem_filterMap.1 ht
    exact filled_of_slotTree? hsplit
  rw [anchorTree?] at h
  generalize [false, true].filterMap (l.slotTree? pane anchor) = slots at h hslots
  cases slots with
  | nil => cases h
  | cons t slots =>
    cases h
    exact .node (List.cons_ne_nil _ _) hslots

theorem exists_anchorTree (hw : w ∈ l.windows) : ∃ t, l.anchorTree? w.pane w.anchor = some t := by
  have hbucket : l.bucket ⟨w.pane, w.anchor, w.split⟩ ≠ [] :=
    List.ne_nil_of_mem (mem_bucket.2 ⟨hw, rfl⟩)
  obtain ⟨slotTree, hslot⟩ : ∃ t, l.slotTree? w.pane w.anchor w.split = some t := by
    rw [slotTree?]
    generalize l.bucket ⟨w.pane, w.anchor, w.split⟩ = ws at hbucket
    cases ws with
    | nil => exact absurd rfl hbucket
    | cons v ws => exact ⟨_, rfl⟩
  have hmem : slotTree ∈ [false, true].filterMap (l.slotTree? w.pane w.anchor) :=
    List.mem_filterMap.2 ⟨w.split, by cases w.split <;> simp, hslot⟩
  rw [anchorTree?]
  generalize [false, true].filterMap (l.slotTree? w.pane w.anchor) = slots at hmem
  cases slots with
  | nil => cases hmem
  | cons t slots => exact ⟨_, rfl⟩

theorem filled_paneTree (h : pane ∈ l.panes) : (l.paneTree pane).Filled := by
  obtain ⟨w, hw, rfl⟩ := mem_panes.1 h
  obtain ⟨t, ht⟩ := exists_anchorTree hw
  refine .node (List.ne_nil_of_mem (List.mem_filterMap.2 ⟨_, w.anchor.mem_all, ht⟩)) ?_
  intro child hchild
  obtain ⟨anchor, -, hanchor⟩ := List.mem_filterMap.1 hchild
  exact filled_of_anchorTree? hanchor

theorem label_of_mem_rows_tree {row : Tree.Row} {above : List String} {lasts : List Bool}
    (h : row ∈ (l.tree title).rows above lasts) :
    row.label = title ∨ row.label ∈ l.panes ∨ (∃ anchor : Anchor, row.label = anchor.name) ∨
      (∃ split : Bool, row.label = if split then "split" else "primary") ∨
        ∃ w ∈ l.windows, row.label = w.summary := by
  rcases Tree.mem_rows_node h with h | ⟨t, ht, _, _, h⟩
  · exact Or.inl h
  obtain ⟨pane, hpane, rfl⟩ := List.mem_map.1 ht
  rcases Tree.mem_rows_node h with h | ⟨t, ht, _, _, h⟩
  · exact Or.inr (Or.inl (h ▸ hpane))
  obtain ⟨anchor, -, hanchor⟩ := List.mem_filterMap.1 ht
  obtain ⟨slots, rfl, hslots⟩ := exists_node_of_anchorTree? hanchor
  rcases Tree.mem_rows_node h with h | ⟨t, ht, _, _, h⟩
  · exact Or.inr (Or.inr (Or.inl ⟨anchor, h⟩))
  obtain ⟨split, hslot⟩ := hslots t ht
  obtain rfl := eq_node_of_slotTree? hslot
  rcases Tree.mem_rows_node h with h | ⟨t, ht, _, _, h⟩
  · exact Or.inr (Or.inr (Or.inr (Or.inl ⟨split, h⟩)))
  rw [List.mem_singleton.1 ht] at h
  obtain ⟨w, hw, hlabel⟩ := List.mem_map.1 (Tree.label_mem_of_mem_rows_leaf h)
  exact Or.inr (Or.inr (Or.inr (Or.inr ⟨w, (mem_bucket.1 hw).1, hlabel.symm⟩)))

/-- No title and no window of an outline has a line break in it. -/
structure FreeOfBreaks (l : Layout) (title : String) : Prop where
  title : '\n' ∉ title.toList
  pane : ∀ pane ∈ l.panes, '\n' ∉ pane.toList
  id : ∀ w ∈ l.windows, '\n' ∉ w.id.toList

theorem FreeOfBreaks.not_mem_label (h : l.FreeOfBreaks title) :
    ∀ row ∈ (l.tree title).rows [] [], '\n' ∉ row.label.toList := by
  intro row hrow
  rcases label_of_mem_rows_tree hrow with
    hlabel | hpane | ⟨anchor, hlabel⟩ | ⟨split, hlabel⟩ | ⟨w, hw, hlabel⟩
  · exact hlabel ▸ h.title
  · exact h.pane _ hpane
  · rw [hlabel]
    cases anchor <;> decide
  · rw [hlabel]
    cases split <;> decide
  · exact hlabel ▸ WindowInfo.not_mem_summary (h.id w hw)

/-- The text of an outline has one row for each node and each window. Line breaks in a title or an
id are printed as they are; without any, the rows are the lines of the text. -/
structure Outlined (l : Layout) (title text : String) : Prop where
  text_eq : text = String.join (((l.tree title).rows [] []).map (·.line ++ "\n"))
  leaves : (((l.tree title).rows [] []).filter (·.isLeaf)).map
    (fun row ↦ (row.above, row.label)) = (l.slots.flatMap l.bucket).map (WindowInfo.leaf title)
  nodes : ∃ panes, l.tree title = .node title panes ∧ ∀ t ∈ panes, t.Filled
  count : text.toList.count '\n' = ((l.tree title).rows [] []).length +
    (((l.tree title).rows [] []).flatMap (·.label.toList)).count '\n'
  lines : l.FreeOfBreaks title →
    text.toList.splitOn '\n' = ((l.tree title).rows [] []).map (·.line.toList) ++ [[]]

theorem outlined_text (l : Layout) (title : String) : l.Outlined title (l.tree title).text := by
  have htext : (l.tree title).text =
      String.join (((l.tree title).rows [] []).map (·.line ++ "\n")) := by
    change String.join (((l.tree title).linesWith (Tree.branch []) (Tree.trunk [])).map
      (· ++ "\n")) = _
    rw [Tree.linesWith_eq [] [], List.map_map]
    rfl
  refine ⟨htext, ?_, ⟨l.panes.map l.paneTree, rfl, fun t ht ↦ ?_⟩, ?_, fun hfree ↦ ?_⟩
  · rw [Tree.leaves_rows, leaves_tree]
  · obtain ⟨pane, hpane, rfl⟩ := List.mem_map.1 ht
    exact filled_paneTree hpane
  · rw [htext, Tree.count_join_rows]
  · rw [htext, Tree.splitOn_join_rows hfree.not_mem_label]

/-- Each window is outlined once and in its own slot, those of a slot in their order, and no node of
the tree is empty. -/
theorem outline_exact (l : Layout) :
    (l.slots.flatMap l.bucket).Perm l.windows ∧
    (∀ slot w, w ∈ l.bucket slot ↔ w ∈ l.windows ∧ w.slot = slot) ∧
    (l.panes.Nodup ∧ (∀ pane, pane ∈ l.panes ↔ ∃ w ∈ l.windows, w.pane = pane) ∧
      l.panes.Pairwise fun p q ↦
        (l.windows.map WindowInfo.pane).idxOf p < (l.windows.map WindowInfo.pane).idxOf q) ∧
    (∀ slot, (l.bucket slot).Pairwise l.Precedes) ∧
    ∀ s config path, Command.loadLayout s path = .ok l → ∃ text,
      Command.execute s config (.outline path) = .success text ∧ l.Outlined path text := by
  refine ⟨perm_flatMap_bucket l, fun _ _ ↦ mem_bucket, ⟨nodup_eraseDups _, fun _ ↦ mem_panes,
    pairwise_idxOf_eraseDups _⟩, pairwise_bucket l, fun s config path hload ↦ ?_⟩
  refine ⟨(l.tree path).text, ?_, outlined_text l path⟩
  simp only [Command.execute, hload, Command.withLoaded]

def mixedText : String :=
  "(windows: [(id: \"A\"), (id: \"B\", order: 1), (id: \"C\", anchor: right, split: true), " ++
    "(id: \"D\", order: 0)])"

/-- A file with these windows is outlined with a line for each. -/
theorem outline_exact_mixedText : ∃ (s : Surroundings) (l : Layout) (text : String),
    s.textAt "a.ron" = some mixedText ∧ Command.loadLayout s "a.ron" = .ok l ∧
      l.ids = ["A", "B", "C", "D"] ∧ (l.slots.flatMap l.bucket).Perm l.windows ∧
      (l.bucket ⟨defaultPane, .left, false⟩).Pairwise l.Precedes ∧
      Command.execute s .default (.outline "a.ron") = .success text ∧ l.Outlined "a.ron" text ∧
      text.toList.splitOn '\n' =
        ((l.tree "a.ron").rows [] []).map (·.line.toList) ++ [[]] := by
  let s : Surroundings := ⟨fun _ ↦ some mixedText, fun _ ↦ true, none, []⟩
  let l : Layout := .ofList [
    { WindowInfo.new "A" .left with persisted := true },
    { WindowInfo.new "B" .left with order := 1, persisted := true },
    { WindowInfo.new "C" .right with split := true, persisted := true },
    { WindowInfo.new "D" .left with order := 0, persisted := true }]
  have hload : Command.loadLayout s "a.ron" = .ok l := by decide +kernel
  have hids : l.ids = ["A", "B", "C", "D"] := by decide +kernel
  have hfree : l.FreeOfBreaks "a.ron" := ⟨by decide, by decide +kernel, by decide +kernel⟩
  obtain ⟨hperm, -, -, hsorted, hprints⟩ := outline_exact l
  obtain ⟨text, hexecute, houtlined⟩ := hprints s .default "a.ron" hload
  exact ⟨s, l, text, rfl, hload, hids, hperm, hsorted _, hexecute, houtlined,
    houtlined.lines hfree⟩

def brokenText : String := "(windows: [(id: \"A\\nB\")])"

/-- The line break is printed, so the window takes two lines of six. -/
theorem outline_brokenText : ∃ (s : Surroundings) (l : Layout) (text : String),
    s.textAt "a.ron" = some brokenText ∧ Command.loadLayout s "a.ron" = .ok l ∧
      l.ids = ["A\nB"] ∧ ((l.tree "a.ron").rows [] []).length = 5 ∧
      Command.execute s .default (.outline "a.ron") = .success text ∧
      text.toList.count '\n' = 6 := by
  let s : Surroundings := ⟨fun _ ↦ some brokenText, fun _ ↦ true, none, []⟩
  let l : Layout := .ofList [{ WindowInfo.new "A\nB" .left with persisted := true }]
  have hload : Command.loadLayout s "a.ron" = .ok l := by decide +kernel
  refine ⟨s, l, (l.tree "a.ron").text, rfl, hload, by decide +kernel, by decide +kernel, ?_,
    by decide +kernel⟩
  simp only [Command.execute, hload, Command.withLoaded]

end Layout

end ToolDock
