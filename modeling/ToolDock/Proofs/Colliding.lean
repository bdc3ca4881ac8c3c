import Mathlib.Data.List.Induction
import Mathlib.Data.List.Nodup
import ToolDock.Command.Run
import ToolDock.Proofs.Batching
import ToolDock.Proofs.UnregisteredSlots

/-!
What `violations` reports. Windows are grouped by what they collide in; the groups can be collected
in one pass over the layout, and each group of several windows is one report. Main statements:
`violations_eq_tally` for the pass, `violations_exact` for the reports and for who depends on them.
-/

namespace ToolDock

namespace Layout

section Groups

variable {κ : Type} [BEq κ] {key : WindowInfo → κ} {w : WindowInfo} {ws : List WindowInfo}
  {k : κ} {id : String} {ids : List String} {groups : List (κ × List String)}

def idsOf (key : WindowInfo → κ) (ws : List WindowInfo) (k : κ) : List String :=
  (ws.filter fun w ↦ key w == k).map WindowInfo.id

def groupsBy (key : WindowInfo → κ) (ws : List WindowInfo) : List (κ × List String) :=
  (ws.map key).eraseDups.map fun k ↦ (k, idsOf key ws k)

def enter (k : κ) (id : String) : List (κ × List String) → List (κ × List String)
  | [] => [(k, [id])]
  | group :: groups =>
    if group.1 == k then (group.1, group.2 ++ [id]) :: groups else group :: enter k id groups

theorem collisions_eq (key : WindowInfo → κ) (ws : List WindowInfo) :
    collisions key ws = (groupsBy key ws).filter fun group ↦ 1 < group.2.length := by
  unfold collisions groupsBy
  induction (ws.map key).eraseDups with
  | nil => rfl
  | cons k ks ih =>
    rw [List.filterMap_cons, List.map_cons, List.filter_cons, ih]
    by_cases h : 1 < (idsOf key ws k).length
    · simp only [idsOf] at h
      simp only [idsOf, h, if_true, decide_true]
    · simp only [idsOf] at h
      simp only [idsOf, h, if_false, decide_false, Bool.false_eq_true]

theorem keys_groupsBy (key : WindowInfo → κ) (ws : List WindowInfo) :
    (groupsBy key ws).map Prod.fst = (ws.map key).eraseDups := by
  rw [groupsBy, List.map_map]
  exact List.map_id _

theorem idsOf_concat (key : WindowInfo → κ) (ws : List WindowInfo) (w : WindowInfo) (k : κ) :
    idsOf key (ws ++ [w]) k =
      if key w == k then idsOf key ws k ++ [w.id] else idsOf key ws k := by
  unfold idsOf
  rw [List.filter_append, List.map_append, List.filter_singleton]
  by_cases h : (key w == k) = true
  · rw [if_pos h, h, cond_true, List.map_singleton]
  · rw [if_neg h, Bool.eq_false_iff.2 h, cond_false, List.map_nil, List.append_nil]

variable [LawfulBEq κ]

theorem enter_of_not_mem (h : k ∉ groups.map Prod.fst) :
    enter k id groups = groups ++ [(k, [id])] := by
  induction groups with
  | nil => rfl
  | cons group groups ih =>
    rw [List.map_cons, List.mem_cons, not_or] at h
    rw [enter, if_neg (by simpa using Ne.symm h.1), ih h.2, List.cons_append]

theorem enter_of_mem {ks : List κ} {f : κ → List String} (hks : ks.Nodup) (h : k ∈ ks) :
    enter k id (ks.map fun k' ↦ (k', f k')) =
      ks.map fun k' ↦ (k', if k == k' then f k' ++ [id] else f k') := by
  induction ks with
  | nil => cases h
  | cons k' ks ih =>
    rw [List.nodup_cons] at hks
    simp only [List.map_cons, enter]
    by_cases hk : k' = k
    · subst hk
      have hothers : ks.map (fun k ↦ (k, if k' == k then f k ++ [id] else f k)) =
          ks.map fun k ↦ (k, f k) := by
        refine List.map_congr_left fun k hmem ↦ ?_
        have hne : k' ≠ k := fun heq ↦ hks.1 (heq ▸ hmem)
        rw [if_neg (by simpa using hne)]
      rw [if_pos (beq_self_eq_true _), if_pos (beq_self_eq_true _), hothers]
    · have hmem : k ∈ ks := (List.mem_cons.1 h).resolve_left (Ne.symm hk)
      rw [if_neg (by simpa using hk), if_neg (by simpa using Ne.symm hk), ih hks.2 hmem]

theorem groupsBy_concat (key : WindowInfo → κ) (ws : List WindowInfo) (w : WindowInfo) :
    groupsBy key (ws ++ [w]) = enter (key w) w.id (groupsBy key ws) := by
  have hrest : groupsBy key (ws ++ [w]) = ((ws.map key) ++ [key w]).eraseDups.map fun k ↦
      (k, if key w == k then idsOf key ws k ++ [w.id] else idsOf key ws k) := by
    rw [groupsBy, List.map_append, List.map_singleton]
    refine List.map_congr_left fun k _ ↦ ?_
    rw [idsOf_concat]
  rw [hrest, List.eraseDups_append, List.map_append]
  by_cases h : key w ∈ ws.map key
  · have hnone : [key w].removeAll (ws.map key) = [] := by simp [List.removeAll, h]
    rw [hnone, List.eraseDups_nil, List.map_nil, List.append_nil]
    exact (enter_of_mem (nodup_eraseDups _) (List.mem_eraseDups.2 h)).symm
  · have hnew : [key w].removeAll (ws.map key) = [key w] := by simp [List.removeAll, h]
    have hsame : (ws.map key).eraseDups.map (fun k ↦
        (k, if key w == k then idsOf key ws k ++ [w.id] else idsOf key ws k)) =
          groupsBy key ws := by
      refine List.map_congr_left fun k hk ↦ ?_
      have hne : key w ≠ k := fun heq ↦ h (heq ▸ List.mem_eraseDups.1 hk)
      rw [if_neg (by simpa using hne)]
    have hempty : idsOf key ws (key w) = [] := by
      rw [idsOf, List.map_eq_nil_iff, List.filter_eq_nil_iff]
      intro v hv heq
      exact h (List.mem_map.2 ⟨v, hv, by simpa using heq⟩)
    have hgroup : [key w].eraseDups = [key w] := by rw [List.eraseDups_cons]; rfl
    rw [enter_of_not_mem (by rwa [keys_groupsBy, List.mem_eraseDups]), hsame, hnew, hgroup,
      List.map_singleton, if_pos (beq_self_eq_true _), hempty, List.nil_append]

theorem mem_groupsBy : (k, ids) ∈ groupsBy key ws ↔ k ∈ ws.map key ∧ ids = idsOf key ws k := by
  rw [groupsBy, List.mem_map]
  constructor
  · intro h
    obtain ⟨k', hk', heq⟩ := h
    cases heq
    exact ⟨List.mem_eraseDups.1 hk', rfl⟩
  · intro h
    exact ⟨k, List.mem_eraseDups.2 h.1, by rw [h.2]⟩

omit [LawfulBEq κ] in
theorem heads_enter (k : κ) (id : String) (h : ∀ group ∈ groups, group.2 ≠ []) :
    (enter k id groups).filterMap (·.2.head?) = groups.filterMap (·.2.head?) ∨
      (enter k id groups).filterMap (·.2.head?) = groups.filterMap (·.2.head?) ++ [id] := by
  induction groups with
  | nil => exact Or.inr rfl
  | cons group groups ih =>
    obtain ⟨k', ids⟩ := group
    have hids : ids ≠ [] := h _ (List.mem_cons_self ..)
    rw [enter]
    split
    case isTrue =>
      left
      obtain ⟨i, ids, rfl⟩ := List.exists_cons_of_ne_nil hids
      rfl
    case isFalse =>
      have hrest := ih fun group hgroup ↦ h group (List.mem_cons_of_mem _ hgroup)
      obtain ⟨i, ids, rfl⟩ := List.exists_cons_of_ne_nil hids
      simpa using hrest

theorem ne_nil_of_mem_groupsBy {group : κ × List String} (h : group ∈ groupsBy key ws) :
    group.2 ≠ [] := by
  obtain ⟨k, ids⟩ := group
  obtain ⟨hk, rfl⟩ := mem_groupsBy.1 h
  obtain ⟨w, hw, rfl⟩ := List.mem_map.1 hk
  intro hnil
  have hmem : w.id ∈ idsOf key ws (key w) :=
    List.mem_map_of_mem (List.mem_filter.2 ⟨hw, beq_self_eq_true _⟩)
  exact List.ne_nil_of_mem hmem hnil

theorem heads_groupsBy (key : WindowInfo → κ) (ws : List WindowInfo) :
    ((groupsBy key ws).filterMap (·.2.head?)).Sublist (ws.map WindowInfo.id) := by
  induction ws using List.reverseRecOn with
  | nil => exact .slnil
  | append_singleton ws w ih =>
    rw [groupsBy_concat, List.map_append, List.map_singleton]
    rcases heads_enter (key w) w.id fun _ ↦ ne_nil_of_mem_groupsBy with heq | heq
    · rw [heq]
      exact ih.trans (List.sublist_append_left ..)
    · rw [heq]
      exact ih.append (.refl _)

theorem mem_collisions :
    (k, ids) ∈ collisions key ws ↔ ids = idsOf key ws k ∧ 2 ≤ ids.length := by
  rw [collisions_eq, List.mem_filter, mem_groupsBy, decide_eq_true_eq]
  constructor
  · intro h
    exact ⟨h.1.2, h.2⟩
  · intro h
    obtain ⟨rfl, hlen⟩ := h
    refine ⟨⟨?_, rfl⟩, hlen⟩
    -- A group has a window, and so its key occurs.
    have hpos : 0 < (ws.filter fun w ↦ key w == k).length := by
      rw [idsOf, List.length_map] at hlen
      omega
    obtain ⟨w, hw⟩ := List.exists_mem_of_length_pos hpos
    rw [List.mem_filter, beq_iff_eq] at hw
    exact List.mem_map.2 ⟨w, hw.1, hw.2⟩

theorem keys_collisions (key : WindowInfo → κ) (ws : List WindowInfo) :
    ((collisions key ws).map Prod.fst).Nodup := by
  rw [collisions_eq]
  refine List.Nodup.sublist (List.Sublist.map _ List.filter_sublist) ?_
  rw [keys_groupsBy]
  exact nodup_eraseDups _

theorem heads_collisions (key : WindowInfo → κ) (ws : List WindowInfo) :
    ((collisions key ws).filterMap (·.2.head?)).Sublist (ws.map WindowInfo.id) := by
  rw [collisions_eq]
  exact (List.Sublist.filterMap _ List.filter_sublist).trans (heads_groupsBy key ws)

end Groups

/-- The groups of the windows that were passed: those with an order by slot and order, those that
are visible inside the frame by slot. -/
@[ext] structure Tally where
  orders : List ((Slot × Int32) × List String)
  slots : List (Slot × List String)

namespace Tally

def empty : Tally := ⟨[], []⟩

def enter (t : Tally) (w : WindowInfo) : Tally where
  orders := if w.hasOrder then Layout.enter (w.slot, w.order) w.id t.orders else t.orders
  slots := if w.occupiesSlot then Layout.enter w.slot w.id t.slots else t.slots

/-- The groups of several windows. -/
def violations (t : Tally) : List LayoutViolation :=
  (t.orders.filter fun group ↦ 1 < group.2.length).map
      (fun group ↦ .duplicateOrder group.1.1 group.1.2 group.2)
    ++ (t.slots.filter fun group ↦ 1 < group.2.length).map fun group ↦ .sharedSlot group.1 group.2

def of (ws : List WindowInfo) : Tally where
  orders := groupsBy (fun w ↦ (w.slot, w.order)) (ws.filter (·.hasOrder))
  slots := groupsBy WindowInfo.slot (ws.filter (·.occupiesSlot))

theorem of_concat (ws : List WindowInfo) (w : WindowInfo) :
    of (ws ++ [w]) = (of ws).enter w := by
  have horders : (of (ws ++ [w])).orders = ((of ws).enter w).orders := by
    simp only [of, enter, List.filter_append, List.filter_singleton]
    cases w.hasOrder with
    | true => exact groupsBy_concat (fun w ↦ (w.slot, w.order)) _ w
    | false => simp
  have hslots : (of (ws ++ [w])).slots = ((of ws).enter w).slots := by
    simp only [of, enter, List.filter_append, List.filter_singleton]
    cases w.occupiesSlot with
    | true => exact groupsBy_concat WindowInfo.slot _ w
    | false => simp
  exact Tally.ext horders hslots

theorem foldl_enter (ws : List WindowInfo) : ws.foldl enter empty = of ws := by
  induction ws using List.reverseRecOn with
  | nil => rfl
  | append_singleton ws w ih => rw [List.foldl_append, ih, of_concat]; rfl

end Tally

/-- The violations can be collected in one pass over the layout. -/
theorem violations_eq_tally (l : Layout) :
    l.violations = (l.windows.foldl Tally.enter .empty).violations := by
  rw [Tally.foldl_enter, violations, collisions_eq, collisions_eq]
  rfl

end Layout

namespace LayoutViolation

def isOfOrder : LayoutViolation → Bool
  | duplicateOrder .. => true
  | sharedSlot .. => false

def place : LayoutViolation → Slot × Option Int32
  | duplicateOrder slot order _ => (slot, some order)
  | sharedSlot slot _ => (slot, none)

def ids : LayoutViolation → List String
  | duplicateOrder _ _ ids | sharedSlot _ ids => ids

end LayoutViolation

namespace Layout

variable {l : Layout}

/-- A list of all collisions in a layout: each with the windows concerned in layout order, each
once, those of orders first, and those of one kind in the order of their first windows. -/
structure Itemizes (l : Layout) (reports : List LayoutViolation) : Prop where
  orders : ∀ slot order ids, .duplicateOrder slot order ids ∈ reports ↔
    order ≠ unassignedOrder ∧
      ids = (l.windows.filter fun w ↦ w.slot = slot ∧ w.order = order).map WindowInfo.id ∧
      2 ≤ ids.length
  slots : ∀ slot ids, .sharedSlot slot ids ∈ reports ↔
    ids = (l.windows.filter fun w ↦ w.occupiesSlot ∧ w.slot = slot).map WindowInfo.id ∧
      2 ≤ ids.length
  once : (reports.map LayoutViolation.place).Nodup
  ordersFirst : reports = reports.filter (·.isOfOrder) ++ reports.filter (!·.isOfOrder)
  inOrder : ∀ ofOrder : Bool,
    ((reports.filter (·.isOfOrder == ofOrder)).filterMap (·.ids.head?)).Sublist l.ids

def orderReports (l : Layout) : List LayoutViolation :=
  (collisions (fun w ↦ (w.slot, w.order)) (l.windows.filter (·.hasOrder))).map
    fun c ↦ .duplicateOrder c.1.1 c.1.2 c.2

def slotReports (l : Layout) : List LayoutViolation :=
  (collisions WindowInfo.slot (l.windows.filter (·.occupiesSlot))).map
    fun c ↦ .sharedSlot c.1 c.2

theorem violations_eq (l : Layout) : l.violations = l.orderReports ++ l.slotReports := rfl

variable {ofOrder : Bool}

theorem mem_orderReports {v : LayoutViolation} (h : v ∈ l.orderReports) : v.isOfOrder := by
  obtain ⟨c, -, rfl⟩ := List.mem_map.1 h
  rfl

theorem mem_slotReports {v : LayoutViolation} (h : v ∈ l.slotReports) : v.isOfOrder = false := by
  obtain ⟨c, -, rfl⟩ := List.mem_map.1 h
  rfl

theorem filter_isOfOrder (l : Layout) :
    l.violations.filter (·.isOfOrder) = l.orderReports ∧
      l.violations.filter (!·.isOfOrder) = l.slotReports := by
  rw [violations_eq, List.filter_append, List.filter_append]
  constructor
  · rw [List.filter_eq_self.2 fun v hv ↦ mem_orderReports hv,
      List.filter_eq_nil_iff.2 fun v hv ↦ by simp [mem_slotReports hv], List.append_nil]
  · rw [List.filter_eq_nil_iff.2 fun v hv ↦ by simp [mem_orderReports hv],
      List.filter_eq_self.2 fun v hv ↦ by simp [mem_slotReports hv], List.nil_append]

theorem idsOf_order {slot : Slot} {order : Int32} (horder : order ≠ unassignedOrder) :
    idsOf (fun w ↦ (w.slot, w.order)) (l.windows.filter (·.hasOrder)) (slot, order) =
      (l.windows.filter fun w ↦ w.slot = slot ∧ w.order = order).map WindowInfo.id := by
  rw [idsOf, List.filter_filter]
  refine congrArg _ (List.filter_congr fun w _ ↦ ?_)
  rw [Bool.eq_iff_iff, Bool.and_eq_true, beq_iff_eq, decide_eq_true_eq, Prod.mk.injEq]
  constructor
  · intro h
    exact h.1
  · intro h
    refine ⟨h, ?_⟩
    rw [WindowInfo.hasOrder, h.2, bne_iff_ne]
    exact horder

theorem idsOf_unassigned {slot : Slot} :
    idsOf (fun w ↦ (w.slot, w.order)) (l.windows.filter (·.hasOrder)) (slot, unassignedOrder) =
      [] := by
  rw [idsOf, List.map_eq_nil_iff, List.filter_eq_nil_iff]
  intro w hw heq
  rw [List.mem_filter, WindowInfo.hasOrder, bne_iff_ne] at hw
  rw [beq_iff_eq, Prod.mk.injEq] at heq
  exact hw.2 heq.2

theorem idsOf_slot {slot : Slot} :
    idsOf WindowInfo.slot (l.windows.filter (·.occupiesSlot)) slot =
      (l.windows.filter fun w ↦ w.occupiesSlot ∧ w.slot = slot).map WindowInfo.id := by
  rw [idsOf, List.filter_filter]
  refine congrArg _ (List.filter_congr fun w _ ↦ ?_)
  rw [Bool.eq_iff_iff, Bool.and_eq_true, beq_iff_eq, decide_eq_true_eq]
  exact and_comm

theorem duplicateOrder_mem_violations {slot : Slot} {order : Int32} {ids : List String} :
    .duplicateOrder slot order ids ∈ l.violations ↔ order ≠ unassignedOrder ∧
      ids = (l.windows.filter fun w ↦ w.slot = slot ∧ w.order = order).map WindowInfo.id ∧
      2 ≤ ids.length := by
  have hreport : .duplicateOrder slot order ids ∈ l.violations ↔
      ((slot, order), ids) ∈
        collisions (fun w ↦ (w.slot, w.order)) (l.windows.filter (·.hasOrder)) := by
    rw [violations_eq, List.mem_append]
    simp [orderReports, slotReports]
  rw [hreport, mem_collisions]
  by_cases horder : order = unassignedOrder
  · subst horder
    rw [idsOf_unassigned]
    constructor
    · intro h
      obtain ⟨rfl, hlen⟩ := h
      cases hlen
    · intro h
      exact absurd rfl h.1
  · rw [idsOf_order horder]
    exact ⟨fun h ↦ ⟨horder, h⟩, fun h ↦ h.2⟩

theorem sharedSlot_mem_violations {slot : Slot} {ids : List String} :
    .sharedSlot slot ids ∈ l.violations ↔
      ids = (l.windows.filter fun w ↦ w.occupiesSlot ∧ w.slot = slot).map WindowInfo.id ∧
        2 ≤ ids.length := by
  have hreport : .sharedSlot slot ids ∈ l.violations ↔
      (slot, ids) ∈ collisions WindowInfo.slot (l.windows.filter (·.occupiesSlot)) := by
    rw [violations_eq, List.mem_append]
    simp [orderReports, slotReports]
  rw [hreport, mem_collisions, idsOf_slot]

theorem nodup_places (l : Layout) : (l.violations.map LayoutViolation.place).Nodup := by
  rw [violations_eq, List.map_append, orderReports, slotReports, List.map_map, List.map_map]
  refine List.nodup_append.2 ⟨?_, ?_, ?_⟩
  · have h := keys_collisions (fun w ↦ (w.slot, w.order)) (l.windows.filter (·.hasOrder))
    have hinj : Function.Injective fun p : Slot × Int32 ↦ (p.1, some p.2) := by
      intro p q hpq
      simpa [Prod.ext_iff] using hpq
    have hplaces := h.map hinj
    rw [List.map_map] at hplaces
    exact hplaces
  · have h := keys_collisions WindowInfo.slot (l.windows.filter (·.occupiesSlot))
    have hinj : Function.Injective fun s : Slot ↦ (s, (none : Option Int32)) := by
      intro s t hst
      simpa using hst
    have hplaces := h.map hinj
    rw [List.map_map] at hplaces
    exact hplaces
  · -- An order makes the difference between the places of the two kinds.
    intro place horder place' hslot heq
    obtain ⟨c, -, rfl⟩ := List.mem_map.1 horder
    obtain ⟨d, -, rfl⟩ := List.mem_map.1 hslot
    cases congrArg Prod.snd heq

theorem heads_orderReports (l : Layout) :
    (l.orderReports.filterMap (·.ids.head?)).Sublist l.ids := by
  rw [orderReports, List.filterMap_map]
  exact (heads_collisions _ _).trans (List.filter_sublist.map _)

theorem heads_slotReports (l : Layout) :
    (l.slotReports.filterMap (·.ids.head?)).Sublist l.ids := by
  rw [slotReports, List.filterMap_map]
  exact (heads_collisions _ _).trans (List.filter_sublist.map _)

theorem itemizes_violations (l : Layout) : l.Itemizes l.violations where
  orders _ _ _ := duplicateOrder_mem_violations
  slots _ _ := sharedSlot_mem_violations
  once := nodup_places l
  ordersFirst := by
    rw [(filter_isOfOrder l).1, (filter_isOfOrder l).2]
    exact violations_eq l
  inOrder ofOrder := by
    cases ofOrder with
    | true =>
      simp only [beq_true, (filter_isOfOrder l).1]
      exact heads_orderReports l
    | false =>
      simp only [beq_false, (filter_isOfOrder l).2]
      exact heads_slotReports l

theorem violations_eq_nil_iff :
    l.violations = [] ↔ (∀ i j, ¬ l.SharesOrder i j) ∧ l.SlotsExclusive := by
  rw [← orderConflict?_eq_none_iff, slotsExclusive_iff]
  constructor
  · intro h
    exact ⟨Engine.orderConflict?_of_violations h, fun _ _ ↦ by simp [h]⟩
  · intro h
    obtain ⟨hnone, hslots⟩ := h
    rw [List.eq_nil_iff_forall_not_mem]
    intro v hv
    cases v with
    | duplicateOrder slot order ids =>
      cases List.findSome?_eq_none_iff.1 hnone _ hv
    | sharedSlot slot ids => exact hslots slot ids hv

theorem orderConflict?_eq_some_iff {error : EngineError} :
    Engine.orderConflict? l = some error ↔ ∃ slot order id ids,
      l.violations.find? (·.isOfOrder) = some (.duplicateOrder slot order (id :: ids)) ∧
        error = .conflictingOrder id order (.sharedBy (id :: ids)) := by
  have hids : ∀ slot order ids, .duplicateOrder slot order ids ∈ l.violations → ids ≠ [] := by
    intro slot order ids hmem hnil
    have hlen := (duplicateOrder_mem_violations.1 hmem).2.2
    rw [hnil] at hlen
    cases hlen
  unfold Engine.orderConflict?
  generalize l.violations = vs at hids ⊢
  induction vs with
  | nil => simp
  | cons v vs ih =>
    rw [List.findSome?_cons, List.find?_cons]
    cases v with
    | sharedSlot slot ids =>
      exact ih fun slot order ids hmem ↦ hids slot order ids (List.mem_cons_of_mem _ hmem)
    | duplicateOrder slot order ids =>
      obtain ⟨id, ids, rfl⟩ :=
        List.exists_cons_of_ne_nil (hids slot order ids (List.mem_cons_self ..))
      simp only [LayoutViolation.isOfOrder, List.headD_cons, Option.some.injEq,
        LayoutViolation.duplicateOrder.injEq, List.cons.injEq]
      constructor
      · intro heq
        exact ⟨slot, order, id, ids, ⟨rfl, rfl, rfl, rfl⟩, heq.symm⟩
      · intro h
        obtain ⟨_, _, _, _, ⟨rfl, rfl, rfl, rfl⟩, rfl⟩ := h
        rfl

end Layout

namespace Engine

variable {l : Layout} {e e' : Engine} {error : EngineError}

theorem run_setLayout_eq_error_iff : (setLayout l).run e = .ok (.error error) e' ↔
    e' = e ∧ orderConflict? l = some error := by
  cases hconflict : orderConflict? l with
  | some conflict =>
    have hrun : (setLayout l).run e = .ok (.error conflict) e := by
      unfold setLayout
      rw [hconflict]
      rfl
    rw [hrun, EStateM.Result.ok.injEq, Except.error.injEq, Option.some.injEq]
    exact ⟨fun h ↦ ⟨h.2.symm, h.1⟩, fun h ↦ ⟨h.2, h.1.symm⟩⟩
  | none =>
    constructor
    · intro hrun
      have hok := ensures_setLayout_planned (I := fun _ _ ↦ True) hconflict
        (fun _ _ _ _ _ _ _ ↦ trivial) trivial hrun
      cases hok.1
    · intro h
      cases h.2

end Engine

theorem Command.exitCode_checkOutcome (path : String) (l : Layout) :
    (checkOutcome path l).exitCode = if l.violations = [] then 0 else 1 := by
  unfold checkOutcome
  cases l.violations with
  | nil => rfl
  | cons v vs => rfl

/-- Each collision is reported once and there are no other reports. The exit code says whether there
are any, and a layout is refused for the first order that is given twice. -/
theorem Layout.violations_exact (l : Layout) :
    l.Itemizes l.violations ∧
    (l.violations = [] ↔ (∀ i j, ¬ l.SharesOrder i j) ∧ l.SlotsExclusive) ∧
    (∀ s config path, Command.loadLayout s path = .ok l →
      (Command.execute s config (.check path)).exitCode = if l.violations = [] then 0 else 1) ∧
    ∀ e error e', (Engine.setLayout l).run e = .ok (.error error) e' ↔
      e' = e ∧ ∃ slot order id ids,
        l.violations.find? (·.isOfOrder) = some (.duplicateOrder slot order (id :: ids)) ∧
          error = .conflictingOrder id order (.sharedBy (id :: ids)) := by
  refine ⟨itemizes_violations l, violations_eq_nil_iff, ?_, ?_⟩
  · intro s config path hload
    simp only [Command.execute, hload, Command.withLoaded]
    exact Command.exitCode_checkOutcome path l
  · intro e error e'
    rw [Engine.run_setLayout_eq_error_iff, orderConflict?_eq_some_iff]

def crowdedText : String :=
  "(windows: [(id: \"A\", visible: true, order: 2), (id: \"B\", visible: true, order: 2)])"

/-- A file with these windows is found at fault, and its layout is refused. -/
theorem Layout.violations_exact_crowdedText : ∃ (s : Surroundings) (l : Layout),
    s.textAt "a.ron" = some crowdedText ∧ Command.loadLayout s "a.ron" = .ok l ∧
      l.violations = [.duplicateOrder ⟨defaultPane, .left, false⟩ 2 ["A", "B"],
        .sharedSlot ⟨defaultPane, .left, false⟩ ["A", "B"]] ∧
      l.Itemizes l.violations ∧
      (Command.execute s .default (.check "a.ron")).exitCode = 1 ∧
      ∀ e, (Engine.setLayout l).run e =
        .ok (.error (.conflictingOrder "A" 2 (.sharedBy ["A", "B"]))) e := by
  let s : Surroundings := ⟨fun _ ↦ some crowdedText, fun _ ↦ true, none, []⟩
  let shown (id : String) : WindowInfo :=
    { WindowInfo.new id .left with visible := true, order := 2, persisted := true }
  let l : Layout := .ofList [shown "A", shown "B"]
  have hload : Command.loadLayout s "a.ron" = .ok l := by decide +kernel
  have hviolations : l.violations = [.duplicateOrder ⟨defaultPane, .left, false⟩ 2 ["A", "B"],
      .sharedSlot ⟨defaultPane, .left, false⟩ ["A", "B"]] := by
    decide +kernel
  obtain ⟨hitemizes, -, hexit, hrefused⟩ := Layout.violations_exact l
  refine ⟨s, l, rfl, hload, hviolations, hitemizes, ?_, fun e ↦ ?_⟩
  · have hcode := hexit s .default "a.ron" hload
    rwa [hviolations, if_neg (List.cons_ne_nil _ _)] at hcode
  · refine (hrefused e _ e).2 ⟨rfl, ⟨defaultPane, .left, false⟩, 2, "A", ["B"], ?_, rfl⟩
    rw [hviolations]
    rfl

end ToolDock
