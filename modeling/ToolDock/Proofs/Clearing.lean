import ToolDock.Proofs.Returning
import ToolDock.Proofs.Touching

/-!
Hiding a window with its side. The others at its anchor are taken off the screen one by one, then
the window itself, and nobody comes back. Main statement: `hideWith_clearsSide`, which says that
such a hide always returns and touches nobody who was not docked there.
-/

namespace ToolDock.Engine

variable {e e' e'' : Engine} {key k : SlotKey} {x y : Entry} {info : WindowInfo} {dirty : Bool}
  {mutation : HideMutation} {id pane : String} {anchor : Anchor} {ids : Set String}
  {ks : List SlotKey} {options : HideOptions}

theorem Coherent.changesOnly_foldl (dirty : Bool) (h : Coherent e)
    (hks : ∀ k ∈ ks, ∃ y placed, Located e k y placed ∧ y.name ∈ ids) :
    ChangesOnly ids e (ks.foldl (·.deactivateRegistered · dirty) e) := by
  induction ks generalizing e with
  | nil => exact .refl
  | cons k ks ih =>
    obtain ⟨y, placed, hl, hy⟩ := hks k (List.mem_cons_self ..)
    have hstep : e.deactivateRegistered k dirty = e.hidden k placed dirty .none := by
      rw [deactivateRegistered, hl.registeredInfo_eq]
      rfl
    rw [List.foldl_cons, hstep]
    have hid := h.sound.placement_id hl
    refine (h.changesOnly_hidden dirty .none hl.entry hid hy).trans
      (ih (h.coherent_hidden dirty .none hl.entry hid) fun k' hk' ↦ ?_)
    obtain ⟨z, placed', hl', hz⟩ := hks k' (List.mem_cons_of_mem _ hk')
    obtain ⟨z', placed'', hl'', hname⟩ := hl'.hidden dirty .none hl.entry
    exact ⟨z', placed'', hl'', hname ▸ hz⟩

def dockedAlong (e : Engine) (pane : String) (anchor : Anchor) : Set String :=
  {id | ∃ split, id ∈ e.dockedAt ⟨pane, anchor, split⟩}

theorem Coherent.mem_dockedAlong (h : Coherent e) (hy : e.entries.get? k = some y)
    (ho : y.info.occupiesSlot) (hat : y.info.isAt pane anchor) :
    y.name ∈ e.dockedAlong pane anchor := by
  simp only [WindowInfo.isAt, Bool.and_eq_true, beq_iff_eq] at hat
  refine ⟨y.info.split, mem_dockedAt.2 ⟨k, y, hy, ho, ?_, h.name_eq hy⟩⟩
  rw [WindowInfo.slot, hat.1, hat.2]

/-- A side is cleared: nobody is docked there any more, and its stack is empty. Nobody has become
visible, and nothing else about others has changed. -/
structure ClearsSide (pane : String) (anchor : Anchor) (e e' : Engine) : Prop where
  vacant : ∀ split, e'.dockedAt ⟨pane, anchor, split⟩ = []
  sideStack : ∀ a, e'.sideStack.get a = if a = anchor then [] else e.sideStack.get a
  appears : ∀ id, (e'.isVisible id → e.isVisible id) ∧
    ((e'.layout.screen id).isSome → (e.layout.screen id).isSome)
  others : ChangesOnly (e.dockedAlong pane anchor) e e'

theorem Coherent.appears_of_changesOnly (h : Coherent e)
    (hothers : ChangesOnly (e.dockedAlong pane anchor) e e') (id : String) :
    (e'.isVisible id → e.isVisible id) ∧
      ((e'.layout.screen id).isSome → (e.layout.screen id).isSome) := by
  by_cases hid : id ∈ e.dockedAlong pane anchor
  · obtain ⟨split, hid⟩ := hid
    obtain ⟨k, y, hy, ho, hslot, rfl⟩ := mem_dockedAt.1 hid
    refine ⟨fun _ ↦ ?_, fun _ ↦ ?_⟩
    · rw [isVisible, h.name_eq hy, h.windowInfo?_eq hy]
      exact (WindowInfo.occupiesSlot_iff.1 ho).1
    · rw [h.screen_of_mem_dockedAt hid]
      rfl
  · obtain ⟨hlayout, hwindow⟩ := hothers id hid
    rw [isVisible, isVisible, hwindow, Layout.screen, Layout.screen, hlayout]
    exact ⟨fun hv ↦ hv, fun hs ↦ hs⟩

theorem Coherent.changesOnly_clearSide (key : SlotKey) (info : WindowInfo) (dirty : Bool)
    (h : Coherent e) :
    ChangesOnly (e.dockedAlong info.pane info.anchor) e (e.clearSide key info dirty) := by
  refine (h.changesOnly_foldl dirty fun k hk ↦ ?_).trans (.of_eq rfl rfl)
  obtain ⟨y, hy, hp⟩ := mem_keysWhere.1 hk
  simp only [Bool.and_eq_true] at hp
  obtain ⟨-, hcontains⟩ := h.ready (Set.notMem_empty k) (standing?_of_get? hy)
    (WindowInfo.occupiesSlot_iff.1 hp.1.2).1
  obtain ⟨placed, hplaced⟩ := Layout.contains_iff.1 hcontains
  exact ⟨y, placed, ⟨hy, hplaced⟩, h.mem_dockedAlong hy hp.1.2 hp.2⟩

theorem Coherent.vacant_clearSide (dirty : Bool) (mutation : HideMutation) (h : Coherent e)
    (hx : (e.clearSide key info dirty).entries.get? key = some x) (split : Bool) :
    ((e.clearSide key info dirty).hidden key info dirty mutation).dockedAt
      ⟨info.pane, info.anchor, split⟩ = [] := by
  obtain ⟨off, saved, hoff, -, hex⟩ :=
    exchanged_hidden (D := False) info dirty mutation hx False.elim
  have hhides : Hides (e.neighbours key info) e (e.clearSide key info dirty) :=
    (h.sound.clearSide info dirty (Set.empty_subset {key})).2
  refine List.eq_nil_iff_forall_not_mem.2 fun id hid ↦ ?_
  obtain ⟨k, y, hy, ho, hslot, rfl⟩ := mem_dockedAt.1 hid
  have hout : y.info.visible = true := (WindowInfo.occupiesSlot_iff.1 ho).1
  rw [hex.get?] at hy
  split at hy
  case isTrue =>
    cases hy
    have hv : off.visible = false := by
      rw [hoff, WindowInfo.visible_withState, visible_mutated mutation]
    cases hv.symm.trans hout
  case isFalse hne =>
    -- whoever is docked there was a neighbour, and is hidden by now
    by_cases hk : k ∈ e.neighbours key info
    · obtain ⟨z, hz, -⟩ := mem_keysWhere.1 hk
      obtain ⟨z', hz', hv, -⟩ := hhides.hidden k hk z hz
      cases hy.symm.trans hz'
      cases hv.symm.trans hout
    · rw [hhides.others k hk] at hy
      refine hk (mem_keysWhere.2 ⟨y, hy, ?_⟩)
      rw [WindowInfo.slot, Slot.mk.injEq] at hslot
      simp [hne, ho, WindowInfo.isAt, hslot.1, hslot.2.1]

theorem returns_keyOf_bind {α : Type} {f : SlotKey → Operation α} :
    Returns (keyOf id >>= f).run e ↔ ∀ key, e.keyOf? id = some key → Returns (f key).run e := by
  rw [returns_run_bind, keyOf, returns_run_get_bind, ensures_run_get_bind]
  cases hkey : e.keyOf? id with
  | none =>
    refine iff_of_true ⟨returns_pure, ensures_run_throw.2 ?_⟩ ?_
    · rintro _ ⟨⟩
    · rintro _ ⟨⟩
  | some key =>
    rw [ensures_run_pure]
    simp [returns_pure]

theorem returns_hideWindow_side : Returns (hideWindow key info dirty true mutation) e := by
  simp only [hideWindow, returns_bind, returns_ite, returns_modify, returns_modifyGet, returns_get,
    returns_pure, ensures_modify, ensures_modifyGet, ensures_get]
  simp

theorem returns_hideWith_side (hside : options.hideSide = true) :
    Returns (hideWith id options).run e := by
  have htake : ∀ {key : SlotKey}, Returns (takeInfo key) e := returns_modifyGet
  simp only [hideWith, returns_keyOf_bind, returns_run_lift_bind, returns_run_ite, returns_run_lift,
    returns_run_get_bind, returns_run_modify_bind, returns_run_modify, returns_hideWindow_side,
    ensures_takeInfo, hside]
  refine fun key _ ↦ ⟨htake, fun _ ↦ ⟨fun _ ↦ returns_modify, fun _ ↦ returns_pure⟩,
    fun _ ↦ ⟨trivial, fun _ e' _ ↦ ⟨fun _ ↦ trivial, fun _ ↦ returns_pure⟩⟩⟩

theorem ensures_hideWith_accepted (hkey : e.keyOf? id = some key) :
    Ensures (hideWith id options).run e fun result _ ↦ result = .ok () := by
  simp only [hideWith, ensures_keyOf_bind, ensures_run_get_bind, ensures_run_ite,
    ensures_run_pure, ensures_run_lift_bind, ensures_run_modify, ensures_run_lift,
    ensures_run_modify_bind, hkey]
  simp [Ensures]

theorem Coherent.clearsSide (dirty : Bool) (mutation : HideMutation) (h : Coherent e)
    (hl : Located e key x info) (ho : x.info.occupiesSlot) :
    Coherent ((e.clearSide key info dirty).hidden key info dirty mutation) ∧
      ClearsSide info.pane info.anchor e
        ((e.clearSide key info dirty).hidden key info dirty mutation) := by
  have hcleared : Sound id False ∅ ∅ (e.clearSide key info dirty) ∧
      Hides (e.neighbours key info) e (e.clearSide key info dirty) :=
    h.sound.clearSide info dirty (Set.empty_subset {key})
  obtain ⟨hsound, hhides⟩ := hcleared
  have hc : Coherent (e.clearSide key info dirty) := hsound.coherent
  have hx : (e.clearSide key info dirty).entries.get? key = some x :=
    (hhides.others key not_mem_neighbours).trans hl.entry
  have hid : info.id = x.name := h.sound.placement_id hl
  have hat : x.info.isAt info.pane info.anchor := by
    have hslot : info.slot = x.info.slot := congrArg (·.1) (h.berth_eq hl).1
    rw [WindowInfo.slot, WindowInfo.slot, Slot.mk.injEq] at hslot
    simp [WindowInfo.isAt, hslot.1, hslot.2.1]
  have hothers := (h.changesOnly_clearSide key info dirty).trans
    (hc.changesOnly_hidden dirty mutation hx hid (h.mem_dockedAlong hl.entry ho hat))
  refine ⟨hc.coherent_hidden dirty mutation hx hid, h.vacant_clearSide dirty mutation hx,
    fun a ↦ ?_, h.appears_of_changesOnly hothers, hothers⟩
  rw [sideStack_hidden info dirty mutation hx, h.sideStack_clearSide, SideStack.get_clearAnchor]

theorem ClearsSide.congr (h : ClearsSide pane anchor e e') (he : e''.entries = e'.entries)
    (hl : e''.layout = e'.layout) (hside : e''.sideStack = e'.sideStack) :
    ClearsSide pane anchor e e'' where
  vacant split := by
    rw [← h.vacant split, dockedAt, dockedAt, he]
  sideStack a := hside ▸ h.sideStack a
  appears id := by
    have hsame := h.appears id
    rw [isVisible, windowInfo?, entry?, keyOf?] at hsame ⊢
    rwa [he, hl]
  others := h.others.trans (.of_eq he hl)

/-- Hiding a docked window with its side always succeeds. It leaves nobody docked at the anchor and
nothing to come back there, and changes nothing about windows that were not docked there. -/
theorem hideWith_clearsSide (hc : Coherent e) (hx : e.windowInfo? id = some info)
    (ho : info.occupiesSlot) (hside : options.hideSide = true) :
    ∃ e', (hideWith id options).run e = .ok (.ok ()) e' ∧ Coherent e' ∧
      ClearsSide info.pane info.anchor e e' := by
  obtain ⟨hv, hi⟩ := WindowInfo.occupiesSlot_iff.1 ho
  obtain ⟨key, x, placed, hl, rfl, rfl⟩ := hc.exists_located hx hv
  have hkey := hc.keyOf?_eq hl.entry
  have hberth := (hc.berth_eq hl).1
  have hslot : placed.slot = x.info.slot := congrArg (·.1) hberth
  have htype : placed.windowType = x.info.windowType := congrArg (·.2.1) hberth
  rw [WindowInfo.slot, WindowInfo.slot, Slot.mk.injEq] at hslot
  have hclears : Ensures (hideWith x.name options).run e fun _ e' ↦
      ClearsSide x.info.pane x.info.anchor e e' := by
    rw [← hslot.1, ← hslot.2.1]
    have hclear : e.clearFor key placed false true = e.clearSide key placed false :=
      if_pos (htype ▸ hi)
    refine ensures_hideWith hl hkey ((hc.sound.visible_of_located hl).trans hv) ?_
    rw [hside]
    refine ensures_hideWindow hclear rfl (fun hback ↦ ?_) fun _ e'' he hlayout hstacks _ ↦ ?_
    · simp [bringsBack] at hback
    · exact (hc.clearsSide false _ hl ho).2.congr he hlayout hstacks
  have hreturns : Returns (hideWith x.name options).run e := returns_hideWith_side hside
  obtain ⟨result, e', hrun⟩ := hreturns
  cases ensures_hideWith_accepted hkey hrun
  exact ⟨e', hrun, (rule_sound.hideWith hc.sound hrun).coherent, hclears hrun⟩

def sideOptions : HideOptions := { HideOptions.default with hideSide := true }

/-- Two windows are docked on the left, and one of them has evicted a third. -/
theorem hideWith_clearsSide_splitRequest : ∃ e e' info, Session Request.Fits blank e ∧
    e.windowInfo? "B" = some info ∧ e.dockedAt info.slot = ["B"] ∧
      e.dockedAt { info.slot with split := true } = ["S"] ∧
      (e.sideStack.get info.anchor).map WindowInfo.id = ["A"] ∧
      (hideWith "B" sideOptions).run e = .ok (.ok ()) e' ∧
        ClearsSide info.pane info.anchor e e' := by
  let isFull (e : Engine) (info : WindowInfo) : Bool :=
    info.occupiesSlot && e.dockedAt info.slot = ["B"] &&
      e.dockedAt { info.slot with split := true } = ["S"] &&
      (e.sideStack.get info.anchor).map WindowInfo.id = ["A"]
  have hleads : blank.registersTo (hiddenRequest "A") (·.registersTo (hiddenRequest "B")
      (·.registersTo splitRequest (·.leadsTo (Request.reveal "A").run
        (·.leadsTo (Request.reveal "B").run (·.leadsTo (Request.reveal "S").run fun e ↦
          (e.windowInfo? "B").any (isFull e)))))) := by
    decide +kernel
  obtain ⟨e₁, hs₁, hleads⟩ := exists_session_of_registersTo .start hleads
  obtain ⟨e₂, hs₂, hleads⟩ := exists_session_of_registersTo hs₁ hleads
  obtain ⟨e₃, hs₃, hleads⟩ := exists_session_of_registersTo hs₂ hleads
  obtain ⟨e₄, hs₄, hleads⟩ := exists_session_of_leadsTo hs₃ hleads trivial
  obtain ⟨e₅, hs₅, hleads⟩ := exists_session_of_leadsTo hs₄ hleads trivial
  obtain ⟨e, hs, hfull⟩ := exists_session_of_leadsTo hs₅ hleads trivial
  simp only [Bool.and_eq_true, decide_eq_true_eq, Option.any_eq_true, isFull] at hfull
  obtain ⟨info, hx, ⟨⟨ho, hdocked⟩, hbeside⟩, hevicted⟩ := hfull
  have hc : Coherent e := hs.coherent (coherentOn_of_empty rfl)
  have hside : sideOptions.hideSide = true := rfl
  obtain ⟨e', hrun, -, hclears⟩ := hideWith_clearsSide hc hx ho hside
  exact ⟨e, e', info, hs, hx, hdocked, hbeside, hevicted, hrun, hclears⟩

end ToolDock.Engine
