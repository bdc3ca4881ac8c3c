import Mathlib.Data.List.Range
import ToolDock.Proofs.Reporting

/-!
Dropping a window twice at the same place. On a stripe whose orders are contiguous the first drop
puts the window where the second one finds it: the windows with smaller orders are in front of it,
and all others are behind. So the second drop makes room and closes it again. Main statement:
`setAnchor_repeats`.
-/

namespace ToolDock.Layout

variable {l l' m room : Layout} {ws changed : List WindowInfo} {v w cur : WindowInfo}
  {row : List String} {i j k n : Nat} {id pane : String} {anchor : Anchor} {order order' : Int32}

/-- The assigned orders of a stripe are the first numbers, each once. -/
def Contiguous (l : Layout) (pane : String) (anchor : Anchor) : Prop :=
  ((l.windows.filter (isOrderedAt pane anchor)).map fun w ↦ w.order.toInt).Perm
    ((List.range (l.windows.countP (isOrderedAt pane anchor))).map Int.ofNat)

instance : Decidable (l.Contiguous pane anchor) := inferInstanceAs (Decidable (List.Perm _ _))

theorem countP_range_lt : (List.range n).countP (· < k) = min k n := by
  induction n with
  | zero => simp
  | succ n ih =>
    rw [List.range_succ, List.countP_append, ih, List.countP_singleton]
    grind

theorem Contiguous.countP_lt (h : l.Contiguous pane anchor) (hk : order.toInt = k) :
    l.windows.countP (fun w ↦ isOrderedAt pane anchor w && w.order < order) =
      min k (l.windows.countP (isOrderedAt pane anchor)) := by
  have hcount := h.countP_eq (· < order.toInt)
  rw [List.countP_map, List.countP_filter, List.countP_map] at hcount
  have hrange : (List.range (l.windows.countP (isOrderedAt pane anchor))).countP
      ((fun o : Int ↦ decide (o < order.toInt)) ∘ Int.ofNat) =
        (List.range (l.windows.countP (isOrderedAt pane anchor))).countP (· < k) :=
    List.countP_congr fun i _ ↦ by simp [hk]
  rw [hrange, countP_range_lt] at hcount
  refine Eq.trans (List.countP_congr fun w _ ↦ ?_) hcount
  simp [Int32.lt_iff_toInt_lt, and_comm]

theorem Contiguous.order_lt (h : l.Contiguous pane anchor) (hw : w ∈ l.windows)
    (hhere : isOrderedAt pane anchor w) :
    0 ≤ w.order.toInt ∧ w.order.toInt < l.windows.countP (isOrderedAt pane anchor) := by
  have hmem := h.mem_iff.1 (List.mem_map_of_mem (List.mem_filter.2 ⟨hw, hhere⟩))
  obtain ⟨i, hi, hio⟩ := List.mem_map.1 hmem
  rw [List.mem_range] at hi
  have : (i : Int) = w.order.toInt := hio
  omega

theorem countP_le_others (l : Layout) (id : String) (p : WindowInfo → Bool) :
    l.windows.countP p ≤ l.windows.countP (fun w ↦ w.id != id && p w) + 1 := by
  have hone : l.windows.countP (·.id == id) ≤ 1 := by
    have hcount := List.nodup_iff_count_le_one.1 l.nodup id
    rwa [List.count, List.countP_map] at hcount
  have hsplit := List.countP_eq_countP_filter_add l.windows p (·.id == id)
  have hself : (l.windows.filter (·.id == id)).countP p ≤ l.windows.countP (·.id == id) := by
    rw [List.countP_eq_length_filter (p := fun w : WindowInfo ↦ w.id == id)]
    exact List.countP_le_length
  have hothers : (l.windows.filter fun w ↦ !(w.id == id)).countP p =
      l.windows.countP fun w ↦ w.id != id && p w := by
    rw [List.countP_filter]
    exact List.countP_congr fun w _ ↦ by simp [and_comm]
  omega

theorem Contiguous.ahead_le (h : l.Contiguous pane anchor) (hk : 0 ≤ order.toInt) :
    (l.ahead id pane anchor order : Int) ≤ order.toInt := by
  obtain ⟨k, hk⟩ := Int.eq_ofNat_of_zero_le hk
  have hne : order ≠ unassignedOrder := by
    rintro rfl
    exact absurd (hk ▸ Int.natCast_nonneg k) (by decide)
  have hahead : l.ahead id pane anchor order ≤
      l.windows.countP fun w ↦ isOrderedAt pane anchor w && w.order < order := by
    refine List.countP_mono_left fun w _ hw ↦ ?_
    simp only [isOtherAt, beq_eq_false_iff_ne.2 hne, Bool.false_or, Bool.and_eq_true] at hw
    exact Bool.and_eq_true_iff.2 ⟨hw.1.2, hw.2⟩
  have hcount := h.countP_lt hk
  omega

theorem Contiguous.le_ahead (h : l.Contiguous pane anchor) (hk : 0 ≤ order.toInt)
    (hbehind : l.ahead id pane anchor order < l.windows.countP (isOtherAt id pane anchor)) :
    order.toInt ≤ l.ahead id pane anchor order + 1 := by
  obtain ⟨k, hk⟩ := Int.eq_ofNat_of_zero_le hk
  have hne : order ≠ unassignedOrder := by
    rintro rfl
    exact absurd (hk ▸ Int.natCast_nonneg k) (by decide)
  -- somebody has that order or a greater one
  have hlt : k < l.windows.countP (isOrderedAt pane anchor) := by
    by_contra hge
    refine absurd hbehind (Nat.not_lt.2 (List.countP_mono_left fun w hw hother ↦ ?_))
    have horder := (h.order_lt hw (Bool.and_eq_true_iff.1 hother).2).2
    simp only [hother, Bool.true_and, Bool.or_eq_true, decide_eq_true_eq, Int32.lt_iff_toInt_lt]
    omega
  have hothers := l.countP_le_others id fun w ↦ isOrderedAt pane anchor w && w.order < order
  have hahead : l.windows.countP (fun w ↦ w.id != id &&
      (isOrderedAt pane anchor w && w.order < order)) = l.ahead id pane anchor order := by
    refine List.countP_congr fun w _ ↦ ?_
    simp [isOtherAt, hne, and_assoc]
  have hcount := h.countP_lt hk
  omega

theorem toInt_ofNat (h : i < 2147483648) : (Int32.ofNat i).toInt = i := Int32.toInt_ofNat_of_lt h

theorem map_id_filterMap_get? (h : ∀ id ∈ row, l.contains id) :
    (row.filterMap l.get?).map WindowInfo.id = row := by
  induction row with
  | nil => rfl
  | cons id row ih =>
    obtain ⟨hid, hrest⟩ := List.forall_mem_cons.1 h
    obtain ⟨w, hw⟩ := contains_iff.1 hid
    rw [List.filterMap_cons_some hw, List.map_cons, ih hrest, id_of_get? hw]

theorem Stands.exists_windows (h : l.Stands pane anchor row) (hlength : row.length ≤ 2147483648) :
    ∃ ws : List WindowInfo, ws.map WindowInfo.id = row ∧
      ws.Perm (l.windows.filter (isOrderedAt pane anchor)) ∧
      ∀ (i : Nat) w, ws[i]? = some w → w.order.toInt = i := by
  have hknown : ∀ (i : Nat) id, row[i]? = some id → ∃ w, l.get? id = some w ∧
      isOrderedAt pane anchor w ∧ w.order.toInt = i := by
    intro i id hi
    obtain ⟨w, hw, hat, ho⟩ := h.order i id hi
    have hlt := (List.getElem?_eq_some_iff.1 hi).1
    have horder : w.order.toInt = i := ho ▸ toInt_ofNat (by omega)
    refine ⟨w, hw, Bool.and_eq_true_iff.2 ⟨hat, bne_iff_ne.2 fun heq ↦ ?_⟩, horder⟩
    rw [heq] at horder
    exact absurd (horder ▸ Int.natCast_nonneg i) (by decide)
  have hids : (row.filterMap l.get?).map WindowInfo.id = row := by
    refine map_id_filterMap_get? fun id hid ↦ ?_
    obtain ⟨i, hi⟩ := List.mem_iff_getElem?.1 hid
    obtain ⟨w, hw, -⟩ := hknown i id hi
    exact contains_of_get? hw
  have hnodup : (row.filterMap l.get?).Nodup := List.Nodup.of_map WindowInfo.id (by
    rw [hids]
    exact h.nodup)
  refine ⟨row.filterMap l.get?, hids, ?_, fun i w hi ↦ ?_⟩
  · refine (List.perm_ext_iff_of_nodup hnodup ((List.Nodup.of_map _ l.nodup).filter _)).2
      fun w ↦ ?_
    rw [List.mem_filterMap, List.mem_filter]
    constructor
    · rintro ⟨id, hid, hw⟩
      obtain ⟨i, hi⟩ := List.mem_iff_getElem?.1 hid
      obtain ⟨v, hv, hhere, -⟩ := hknown i id hi
      cases hw.symm.trans hv
      exact ⟨mem_of_get? hw, hhere⟩
    · rintro ⟨hw, hhere⟩
      obtain ⟨hat, ho⟩ := Bool.and_eq_true_iff.1 hhere
      exact ⟨w.id, h.mem w hw hat ho, get?_of_mem hw⟩
  · have hrow : row[i]? = some w.id := by
      rw [← hids, List.getElem?_map, hi, Option.map_some]
    obtain ⟨v, hv, -, ho⟩ := hknown i _ hrow
    obtain ⟨id, -, hid⟩ := List.mem_filterMap.1 (List.mem_of_getElem? hi)
    rw [id_of_get? hid, hid] at hv
    exact Option.some.inj hv ▸ ho

theorem order_shifted_of_row (order : Int32) (hnodup : (ws.map WindowInfo.id).Nodup)
    (hi : (ws.map WindowInfo.id)[i]? = some id)
    (horder : ∀ (j : Nat) w, ws[j]? = some w → w.order.toInt = j)
    (hother : ∀ w ∈ ws, w.id ≠ id → isOtherAt id pane anchor w ∧ w.order ≠ Int32.maxValue)
    (hj : ws[j]? = some w) : (shifted id pane anchor order w).order.toInt =
      if j = i then order.toInt else if order.toInt ≤ j then (j : Int) + 1 else j := by
  have hrow : (ws.map WindowInfo.id)[j]? = some w.id := by
    rw [List.getElem?_map, hj, Option.map_some]
  by_cases hji : j = i
  · rw [if_pos hji]
    rw [hji, hi] at hrow
    rw [order_shifted_self (Option.some.inj hrow).symm]
  · have hne : w.id ≠ id := by
      rintro rfl
      have hlt := (List.getElem?_eq_some_iff.1 hrow).1
      exact hji ((List.getElem?_inj hlt hnodup).1 (hrow.trans hi.symm))
    obtain ⟨hhere, hmax⟩ := hother w (List.mem_of_getElem? hj) hne
    rw [if_neg hji, shifted, if_neg hne, hhere, Bool.true_and]
    simp only [decide_eq_true_eq, Int32.le_iff_toInt_le, horder j w hj]
    split
    · rw [toInt_add_one hmax, horder j w hj]
    · exact horder j w hj

theorem Stands.renumbered_shifted (h : l.Stands pane anchor row) (hlength : row.length ≤ 2147483648)
    (hi : row[i]? = some id) (hfront : (i : Int) ≤ order.toInt)
    (hback : ∀ j, i < j → j < row.length → order.toInt ≤ j)
    (hmax : ∀ w ∈ l.windows, isOtherAt id pane anchor w → w.order ≠ Int32.maxValue)
    (hm : m.windows = l.windows.map (shifted id pane anchor order)) :
    (m.renumbered pane anchor).Stands pane anchor row := by
  obtain ⟨ws, hids, hperm, horder⟩ := h.exists_windows hlength
  have hwindow : ∀ w ∈ ws, w ∈ l.windows ∧ isOrderedAt pane anchor w := fun w hw ↦
    List.mem_filter.1 (hperm.mem_iff.1 hw)
  have hother : ∀ w ∈ ws, w.id ≠ id → isOtherAt id pane anchor w := fun w hw hne ↦
    Bool.and_eq_true_iff.2 ⟨bne_iff_ne.2 hne, (hwindow w hw).2⟩
  have hshifted : (ws.map (shifted id pane anchor order)).map WindowInfo.id = row := by
    rw [List.map_map, ← hids]
    exact List.map_congr_left fun w _ ↦ id_shifted
  rw [← hshifted]
  refine stands_renumbered ?_ ?_
  · rw [hm, List.filter_map]
    refine (hperm.trans (List.Perm.of_eq (List.filter_congr fun w hw ↦ ?_))).map _
    rw [Function.comp, isOrderedAt_shifted (by omega) (hmax w hw)]
    by_cases hid : w.id = id
    · obtain ⟨v, hv, hvid⟩ := List.mem_map.1 (hids ▸ List.mem_of_getElem? hi)
      have hvw := get?_of_mem (hwindow v hv).1
      rw [hvid, ← hid, get?_of_mem hw] at hvw
      rw [Option.some.inj hvw, (hwindow v hv).2, hvid, beq_self_eq_true, Bool.true_or]
    · rw [isOtherAt, beq_eq_false_iff_ne.2 hid, bne_iff_ne.2 hid, Bool.true_and, Bool.false_or]
  · -- the orders of the row increase after making room, too
    have hplace {j w} (hj : ws[j]? = some w) := order_shifted_of_row order
      (hids ▸ h.nodup) (hids ▸ hi) horder
      (fun w hw hne ↦ ⟨hother w hw hne, hmax w (hwindow w hw).1 (hother w hw hne)⟩) hj
    rw [List.pairwise_map, List.pairwise_iff_getElem]
    intro j j' hj hj' hlt
    have hlength' : j' < row.length := by
      rwa [← hids, List.length_map]
    have hbehind := hback j'
    rw [standsBefore_iff, hplace (List.getElem?_eq_getElem hj),
      hplace (List.getElem?_eq_getElem hj')]
    left
    split <;> split <;> grind

theorem Moves.eq_of_stands (h : Moves id { cur with pane := pane, anchor := anchor } l l')
    (hcur : l.get? id = some cur) (hat : cur.isAt pane anchor) (hs : l.Stands pane anchor row)
    (hs' : l'.Stands pane anchor row) (hid : id ∈ row) (hids : l'.ids = l.ids)
    (hunified : l'.unified = l.unified) (hkept : ∀ w, w.id ≠ id → l.get? w.id = some w →
      isOrderedAt pane anchor w = false → l'.get? w.id = some w) : l' = l := by
  have hsame : ∀ other v, l.get? other = some v → l'.get? other = some v := by
    intro other v hv
    have hre : ∃ w, l'.get? other = some w ∧ v.Reordered w := by
      by_cases hother : other = id
      · obtain ⟨placed, hplaced, hget⟩ := h.self
        obtain ⟨rfl, rfl⟩ := isAt_iff.1 hat
        rw [hother, hcur] at hv
        exact ⟨placed, hother ▸ hget, Option.some.inj hv ▸ hplaced⟩
      · exact exists_right_of_rel (h.others other hother) hv
    obtain ⟨w, hw, hre⟩ := hre
    by_cases hin : other ∈ row
    · obtain ⟨i, hi⟩ := List.mem_iff_getElem?.1 hin
      obtain ⟨v', hv', -, ho⟩ := hs.order i other hi
      obtain ⟨w', hw', -, ho'⟩ := hs'.order i other hi
      cases hv.symm.trans hv'
      cases hw.symm.trans hw'
      rw [hw, hre.eq_of_order (ho.trans ho'.symm)]
    · obtain rfl := id_of_get? hv
      refine hkept v (fun heq ↦ hin (heq ▸ hid)) hv (Bool.eq_false_iff.2 fun hhere ↦ hin ?_)
      obtain ⟨hon, ho⟩ := Bool.and_eq_true_iff.1 hhere
      exact hs.mem v (mem_of_get? hv) hon ho
  refine eq_of_get? hids (fun other ↦ ?_) hunified
  cases hv : l.get? other with
  | some v => exact hsame other v hv
  | none =>
    have hnone : l'.contains other = false := by
      refine Bool.eq_false_iff.2 fun hin ↦ ?_
      rw [contains_eq_true_iff, hids, ← contains_eq_true_iff] at hin
      obtain ⟨v, hsome⟩ := contains_iff.1 hin
      cases hv.symm.trans hsome
    cases hw : l'.get? other with
    | none => rfl
    | some w => exact absurd (contains_of_get? hw) (by rw [hnone]; exact Bool.false_ne_true)

def inserted (l : Layout) (id pane : String) (anchor : Anchor) (order : Int32) : List String :=
  ((l.line (isOtherAt id pane anchor)).map WindowInfo.id).insertIdx
    (l.ahead id pane anchor order) id

theorem getElem?_inserted :
    (l.inserted id pane anchor order)[l.ahead id pane anchor order]? = some id := by
  rw [inserted, List.getElem?_insertIdx_self, if_pos]
  rw [List.length_map]
  exact ahead_le_length

theorem length_inserted : (l.inserted id pane anchor order).length =
    l.windows.countP (isOtherAt id pane anchor) + 1 := by
  have hlength : (l.line (isOtherAt id pane anchor)).length =
      l.windows.countP (isOtherAt id pane anchor) := by
    rw [line_perm.length_eq, List.countP_eq_length_filter]
  rw [inserted, List.length_insertIdx_of_le_length, List.length_map, hlength]
  rw [List.length_map]
  exact ahead_le_length

theorem Contiguous.length_inserted_le (h : l.Contiguous pane anchor)
    (hmax : ∀ w ∈ l.windows, isOtherAt id pane anchor w → w.order ≠ Int32.maxValue) :
    (l.inserted id pane anchor order).length ≤ 2147483648 := by
  have hlast : Int32.maxValue.toInt = 2147483647 := rfl
  have hall : l.windows.countP (isOtherAt id pane anchor) =
      l.ahead id pane anchor Int32.maxValue := by
    refine List.countP_congr fun w hw ↦ ?_
    rw [Bool.and_eq_true, Bool.or_eq_true, decide_eq_true_eq, Int32.lt_iff_toInt_lt]
    refine ⟨fun hother ↦ ⟨hother, Or.inr ?_⟩, And.left⟩
    have hne : w.order.toInt ≠ Int32.maxValue.toInt := fun heq ↦
      hmax w hw hother (Int32.toInt_inj.1 heq)
    have hrange := Checked.toInt_mem_range w.order
    omega
  have hle : (l.ahead id pane anchor Int32.maxValue : Int) ≤ Int32.maxValue.toInt :=
    h.ahead_le (by decide)
  rw [length_inserted, hall]
  omega

theorem stands_setAnchor (hcur : l.get? id = some cur) (hk : unassignedOrder ≤ order)
    (h : setAnchor id pane anchor order l = .ok changed l') :
    l'.Stands pane anchor (l.inserted id pane anchor order) := by
  obtain ⟨order', room, rfl, -, hroom, hmax, hplace⟩ := setAnchor_eq_ok hcur h
  obtain ⟨hnonneg, hahead⟩ := ahead_placed hk hplace
  rw [inserted, hahead]
  exact stands_settled_of_others hroom hcur hmax hnonneg

theorem Contiguous.places_again (h : l.Contiguous pane anchor) (hk : unassignedOrder ≤ order)
    (hs : l'.Stands pane anchor (l.inserted id pane anchor order))
    (hlength : (l.inserted id pane anchor order).length ≤ 2147483648)
    (hplace : if order = unassignedOrder then l'.nextOrder pane anchor = .ok order'
      else order' = order) :
    (l.ahead id pane anchor order : Int) ≤ order'.toInt ∧
      ∀ j, l.ahead id pane anchor order < j → j < (l.inserted id pane anchor order).length →
        order'.toInt ≤ j := by
  rw [length_inserted] at hlength ⊢
  by_cases hend : order = unassignedOrder
  · -- the window goes to the end, where it is
    rw [if_pos hend] at hplace
    obtain ⟨placed, hplaced, hat, ho⟩ := hs.order _ id getElem?_inserted
    have hlast : l.ahead id pane anchor order < (l.inserted id pane anchor order).length :=
      (List.getElem?_eq_some_iff.1 getElem?_inserted).1
    have hbelow := (lt_nextOrder hplace).2 placed (mem_of_get? hplaced) hat
    rw [length_inserted] at hlast
    rw [ho, toInt_ofNat (by omega)] at hbelow
    have hall : l.ahead id pane anchor order = l.windows.countP (isOtherAt id pane anchor) := by
      simp [ahead, hend]
    exact ⟨by omega, fun j hj hlt ↦ by omega⟩
  · obtain rfl : order' = order := by rwa [if_neg hend] at hplace
    have hnonneg := toInt_nonneg hk hend
    refine ⟨h.ahead_le hnonneg, fun j hj hlt ↦ ?_⟩
    have hbehind : l.ahead id pane anchor order' < l.windows.countP (isOtherAt id pane anchor) := by
      omega
    have hle := h.le_ahead hnonneg hbehind
    omega

theorem ne_maxValue (h : w.hasOrder → w.order.toInt < 2147483647) : w.order ≠ Int32.maxValue := by
  intro heq
  have ho : w.hasOrder := by rw [WindowInfo.hasOrder, heq]; rfl
  have hlt := h ho
  rw [heq] at hlt
  exact absurd hlt (by decide)

theorem Contiguous.exists_setAnchor (h : l.Contiguous pane anchor) (hsize : l.size < 2147483648)
    (order : Int32) (hcur : l.get? id = some cur) :
    ∃ changed l', setAnchor id pane anchor order l = .ok changed l' := by
  refine Layout.exists_setAnchor pane anchor order hcur fun w hw hat ↦ ne_maxValue fun ho ↦ ?_
  have hlt := (h.order_lt hw (Bool.and_eq_true_iff.2 ⟨hat, ho⟩)).2
  have hle : l.windows.countP (isOrderedAt pane anchor) ≤ l.size := List.countP_le_length
  omega

theorem Stands.exists_setAnchor (h : l.Stands pane anchor row) (hsize : l.size < 2147483648)
    (order : Int32) (hcur : l.get? id = some cur) :
    ∃ changed l', setAnchor id pane anchor order l = .ok changed l' := by
  have hlength : row.length ≤ l.size := by
    rw [size, ← List.length_map (f := WindowInfo.id)]
    refine (List.subperm_of_subset h.nodup fun id hid ↦ ?_).length_le
    obtain ⟨i, hi⟩ := List.mem_iff_getElem?.1 hid
    obtain ⟨w, hw, -⟩ := h.order i id hi
    exact contains_eq_true_iff.1 (contains_of_get? hw)
  refine Layout.exists_setAnchor pane anchor order hcur fun w hw hat ↦ ne_maxValue fun ho ↦ ?_
  obtain ⟨i, hi⟩ := List.mem_iff_getElem?.1 (h.mem w hw hat ho)
  obtain ⟨v, hv, -, horder⟩ := h.order i w.id hi
  have hlt := (List.getElem?_eq_some_iff.1 hi).1
  rw [get?_of_mem hw] at hv
  rw [Option.some.inj hv, horder, toInt_ofNat (by omega)]
  omega

theorem Contiguous.setAnchor_again {again : List WindowInfo} {l'' : Layout}
    (hc : l.Contiguous pane anchor) (hcur : l.get? id = some cur) (hk : unassignedOrder ≤ order)
    (h : setAnchor id pane anchor order l = .ok changed l')
    (h' : setAnchor id pane anchor order l' = .ok again l'') : again = [] ∧ l'' = l' := by
  obtain ⟨-, -, -, -, -, hmax, -⟩ := setAnchor_eq_ok hcur h
  have hs := stands_setAnchor hcur hk h
  have hlength : (l.inserted id pane anchor order).length ≤ 2147483648 :=
    hc.length_inserted_le hmax
  obtain ⟨placed, hplaced, hat, -⟩ := hs.order _ id getElem?_inserted
  obtain ⟨order', room, hl'', hunified, hroom, hmax', hplace⟩ := setAnchor_eq_ok hplaced h'
  obtain ⟨hfront, hback⟩ := hc.places_again hk hs hlength hplace
  -- the row in which the first drop leaves the windows is also that of the second one
  have hs' : l''.Stands pane anchor (l.inserted id pane anchor order) := by
    rw [hl'', settled, if_pos hat]
    exact hs.renumbered_shifted hlength getElem?_inserted hfront hback hmax' hroom
  obtain ⟨hmoves, rfl⟩ := setAnchor_cases hplaced h'
  obtain rfl : l'' = l' := by
    refine hmoves.eq_of_stands hplaced hat hs hs' (List.mem_of_getElem? getElem?_inserted)
      (hl'' ▸ ids_settled hroom) (hl'' ▸ unified_settled.trans hunified) fun w hne hw hoff ↦ ?_
    rw [hl'']
    obtain ⟨rfl, rfl⟩ := isAt_iff.1 hat
    exact get?_settled_of_not hroom hne hw hoff hoff
  refine ⟨List.filter_eq_nil_iff.2 fun w hw ↦ ?_, rfl⟩
  simp [get?_of_mem hw]

/-- Where the orders of the new stripe are contiguous, dropping a window there a second time changes
nothing and gives nothing. Unless there are more windows than orders both drops succeed. -/
theorem setAnchor_repeats (hcur : l.get? id = some cur) (hc : l.Contiguous pane anchor)
    (hk : unassignedOrder ≤ order) :
    (∀ changed l', setAnchor id pane anchor order l = .ok changed l' →
      ∀ again l'', setAnchor id pane anchor order l' = .ok again l'' →
        again = [] ∧ l'' = l') ∧
    (l.size < 2147483648 → ∃ changed l', setAnchor id pane anchor order l = .ok changed l' ∧
      setAnchor id pane anchor order l' = .ok [] l') := by
  refine ⟨fun changed l' h again l'' h' ↦ hc.setAnchor_again hcur hk h h', fun hsize ↦ ?_⟩
  obtain ⟨changed, l', h⟩ := hc.exists_setAnchor hsize order hcur
  have hs := stands_setAnchor hcur hk h
  obtain ⟨placed, hplaced, -⟩ := hs.order _ id getElem?_inserted
  obtain ⟨again, l'', h'⟩ := hs.exists_setAnchor (size_setAnchor hcur h ▸ hsize) order hplaced
  obtain ⟨rfl, rfl⟩ := hc.setAnchor_again hcur hk h h'
  exact ⟨changed, _, h, h'⟩

def evenLayout : Layout := .ofList [
  { WindowInfo.new "A" .left with order := 1 }, { WindowInfo.new "B" .left with order := 0 },
  { WindowInfo.new "C" .left with order := 2 }, { WindowInfo.new "D" .right with order := 7 }]

theorem setAnchor_repeats_evenLayout : ∃ cur changed l', evenLayout.get? "B" = some cur ∧
    evenLayout.Contiguous defaultPane .left ∧ unassignedOrder ≤ 2 ∧
      setAnchor "B" defaultPane .left 2 evenLayout = .ok changed l' ∧
      setAnchor "B" defaultPane .left 2 l' = .ok [] l' := by
  have hcur : evenLayout.get? "B" = some { WindowInfo.new "B" .left with order := 0 } := by
    decide
  have hc : evenLayout.Contiguous defaultPane .left := by decide
  obtain ⟨changed, l', h, h'⟩ :=
    (setAnchor_repeats hcur hc (by decide : unassignedOrder ≤ 2)).2 (by decide)
  exact ⟨_, changed, l', hcur, hc, by decide, h, h'⟩

end ToolDock.Layout
