import ToolDock.Proofs.Refilling

/-!
Whether hiding one window disturbs the slots of others. It refills the slot that the window is left
in. That is the slot which it held, unless the window is taken off the stripe of another pane: then
a window may come onto the default pane, and push out the one that is there. Main statement:
`undisturbed_hideWith_iff`.
-/

namespace ToolDock

namespace Layout

/-- Of the other windows at most one leaves a slot, and at most one comes into it. -/
def Refills (slot : Slot) (id : String) (l l' : Layout) : Prop :=
  ∃ gone back : Option String, (∀ other ∈ gone, l.screen other = some slot) ∧
    (∀ other ∈ back, other ≠ id → l.screen other = none) ∧
    ∀ other, other ≠ id → l'.screen other =
      if other ∈ back then some slot else if other ∈ gone then none else l.screen other

/-- Of the other windows none stops being visible and at most one becomes visible, in a slot. -/
structure Undisturbed (slot : Slot) (id : String) (l l' : Layout) : Prop where
  stays : ∀ other, other ≠ id → (l.screen other).isSome → (l'.screen other).isSome
  comes : ∀ other s, other ≠ id → l.screen other = none → l'.screen other = some s → s = slot
  one : ∀ i j, i ≠ id → j ≠ id → l.screen i = none → l.screen j = none →
    (l'.screen i).isSome → (l'.screen j).isSome → i = j

variable {l l' : Layout} {slot : Slot} {id : String}

theorem Undisturbed.of_one (back : String) (hsame : ∀ other, other ≠ id → other ≠ back →
      l'.screen other = l.screen other)
    (hback : back ≠ id → l'.screen back = some slot) : Undisturbed slot id l l' where
  stays other hne hsome := by
    by_cases hother : other = back
    · subst hother
      rw [hback hne]
      rfl
    · rwa [hsame other hne hother]
  comes other s hne hnone hs := by
    by_cases hother : other = back
    · subst hother
      exact (Option.some.inj ((hback hne).symm.trans hs)).symm
    · rw [hsame other hne hother, hnone] at hs
      cases hs
  one := by
    have hcomes : ∀ other, other ≠ id → l.screen other = none → (l'.screen other).isSome →
        other = back := by
      intro other hne hnone hsome
      by_contra hother
      rw [hsame other hne hother, hnone] at hsome
      cases hsome
    intro i j hi hj hni hnj hsi hsj
    rw [hcomes i hi hni hsi, hcomes j hj hnj hsj]

end Layout

namespace Engine

variable {e e' : Engine} {l' : Layout} {info stored : WindowInfo} {slot : Slot} {id : String}
  {options : HideOptions} {result : Except EngineError Unit}

/-- The evicted placement whose window comes back when one is hidden that was at `info`. -/
def comesBack? (e : Engine) (options : HideOptions) (info : WindowInfo) : Option WindowInfo :=
  if e.settings.stackEnabled && info.windowType.isInternal && !options.hideSide then
    (e.sideStack.get info.anchor).find? (e.regains (options.leaves info))
  else none

theorem head?_dropWhile (p : WindowInfo → Bool) (ws : List WindowInfo) :
    (ws.dropWhile (!p ·)).head? = ws.find? p := by
  induction ws with
  | nil => rfl
  | cons w ws ih =>
    rw [List.find?_cons]
    cases hw : p w with
    | true => rw [List.dropWhile_cons_of_neg (by simp [hw])]; rfl
    | false => rw [List.dropWhile_cons_of_pos (by simp [hw])]; exact ih

theorem comesBack?_eq (hside : options.hideSide = false) : e.comesBack? options info =
    if e.settings.stackEnabled && info.windowType.isInternal then
      ((e.sideStack.get info.anchor).dropWhile (!e.regains (options.leaves info) ·)).head?
    else none := by
  rw [comesBack?, hside, head?_dropWhile, Bool.not_false, Bool.and_true]

theorem slot_of_regains (hanchor : stored.anchor = info.anchor)
    (h : e.regains (options.leaves info) stored) : stored.slot = (options.leaves info).slot := by
  simp only [regains, Bool.and_eq_true, beq_iff_eq] at h
  rw [WindowInfo.slot, WindowInfo.slot, h.1.1, h.1.2, hanchor, options.anchor_leaves]

theorem Coherent.id_leaves (options : HideOptions) (hc : Coherent e)
    (hx : e.windowInfo? id = some info) (hv : info.visible) : (options.leaves info).id = id := by
  obtain ⟨key, x, placed, hl, rfl, rfl⟩ := hc.exists_located hx hv
  exact (id_mutated _).trans (hc.info_id_eq hl.entry)

theorem Coherent.screen_of_regains (hc : Coherent e) {off : WindowInfo} (h : e.regains off stored)
    (hne : stored.id ≠ off.id) : e.layout.screen stored.id = none := by
  simp only [regains, if_neg hne, Bool.and_eq_true, Option.any_eq_true] at h
  obtain ⟨-, y, hy, -, hwhere⟩ := h
  obtain ⟨k, hy, hname⟩ := hc.entry?_eq_some.1 hy
  rw [← hname, hc.screen_eq hy, (isWhereEvicted_iff.1 hwhere).1]
  rfl

theorem comesBack?_spec (h : e.comesBack? options info = some stored) :
    info.windowType.isInternal ∧ stored ∈ e.sideStack.get info.anchor ∧
      e.regains (options.leaves info) stored := by
  rw [comesBack?, Option.ite_none_right_eq_some] at h
  obtain ⟨hyes, hfind⟩ := h
  simp only [Bool.and_eq_true] at hyes
  exact ⟨hyes.1.2, List.mem_of_find?_eq_some hfind, List.find?_some hfind⟩

/-- On the screen a hidden window gives way to the one of an evicted placement, which takes the
place of the one in its slot. -/
def GivesWay (id : String) (stored : WindowInfo) (e : Engine) (l' : Layout) : Prop :=
  ∀ other, l'.screen other = if other = stored.id then some stored.slot
    else if other = id ∨ stored.windowType.isInternal ∧ other ∈ e.dockedAt stored.slot then none
    else e.layout.screen other

theorem Coherent.ensures_screen_hideWith (hc : Coherent e) (hx : e.windowInfo? id = some info)
    (hv : info.visible) (hside : options.hideSide = false) :
    Ensures (hideWith id options).run e fun _ e' ↦ match e.comesBack? options info with
      | none => ∀ other, e'.layout.screen other =
          if other = id then none else e.layout.screen other
      | some stored => GivesWay id stored e e'.layout := by
  refine (hc.ensures_hideWith hx hv hside).mono fun _ e' hq ↦ ?_
  obtain ⟨e₁, hdeparts, hq⟩ := hq
  rw [comesBack?_eq hside]
  split at hq
  case isFalse hno =>
    rw [if_neg hno]
    exact fun other ↦ hq.1 ▸ hdeparts.screen other
  case isTrue hyes =>
    rw [if_pos hyes]
    cases hdrop : (e.sideStack.get info.anchor).dropWhile (!e.regains (options.leaves info) ·) with
    | nil =>
      rw [hdrop] at hq
      exact fun other ↦ hq.1 ▸ hdeparts.screen other
    | cons stored rest =>
      rw [hdrop] at hq
      intro other
      have hdocked := hdeparts.docked stored.slot other
      rw [hq.1, hdeparts.screen]
      grind

section Returning

variable (hc : Coherent e) (hx : e.windowInfo? id = some info) (hv : info.visible)
  (hback : e.comesBack? options info = some stored)
include hc hx hv hback

theorem screen_comesBack (hne : stored.id ≠ id) : e.layout.screen stored.id = none :=
  hc.screen_of_regains (comesBack?_spec hback).2.2 fun heq ↦
    hne (heq.trans (hc.id_leaves options hx hv))

theorem isInternal_comesBack (hself : stored.id = id) : stored.windowType.isInternal := by
  obtain ⟨hi, -, hregains⟩ := comesBack?_spec hback
  rw [regains, if_pos (hself.trans (hc.id_leaves options hx hv).symm), Bool.and_eq_true]
    at hregains
  have htype : (options.leaves info).windowType = stored.windowType :=
    congrArg (·.2.1) (isWhereEvicted_iff.1 hregains.2).2
  rwa [← htype, HideOptions.leaves, windowType_mutated]

theorem refills_of_givesWay (hgives : GivesWay id stored e l') :
    Layout.Refills stored.slot id e.layout l' := by
  have hone : ∀ other, other ∈ e.dockedAt stored.slot ↔
      (e.dockedAt stored.slot).head? = some other := by
    refine fun other ↦ ⟨fun hdock ↦ ?_, List.mem_of_mem_head?⟩
    obtain ⟨k, y, hy, ho, hslot, rfl⟩ := mem_dockedAt.1 hdock
    rw [← hslot, hc.dockedAt_eq hy ho, List.head?_cons]
  refine ⟨if stored.windowType.isInternal then (e.dockedAt stored.slot).head? else none,
    some stored.id, fun other hgone ↦ ?_, fun other hother hne ↦ ?_, fun other hne ↦ ?_⟩
  · rw [Option.mem_def, Option.ite_none_right_eq_some, ← hone] at hgone
    exact hc.screen_of_mem_dockedAt hgone.2
  · obtain rfl := Option.some.inj hother
    exact screen_comesBack hc hx hv hback hne
  · have hgone := hone other
    rw [hgives]
    grind

theorem undisturbed_of_slot (hgives : GivesWay id stored e l') (hslot : stored.slot = info.slot) :
    Layout.Undisturbed info.slot id e.layout l' := by
  refine .of_one stored.id (fun other hne hother ↦ ?_) fun hne ↦ ?_
  · obtain ⟨key, x, placed, hl, rfl, rfl⟩ := hc.exists_located hx hv
    have ho : x.info.occupiesSlot := WindowInfo.occupiesSlot_iff.2 ⟨hv, (comesBack?_spec hback).1⟩
    rw [hgives, if_neg hother, if_neg]
    rintro (rfl | ⟨-, hdock⟩)
    · exact hne rfl
    · rw [hslot, hc.dockedAt_eq hl.entry ho, List.mem_singleton, hc.name_eq hl.entry] at hdock
      exact hne hdock
  · rw [hgives, if_pos rfl, hslot]

theorem undisturbed_iff_of_slot_ne (hgives : GivesWay id stored e l')
    (hslot : stored.slot ≠ info.slot) : Layout.Undisturbed info.slot id e.layout l' ↔
      stored.id = id ∧ e.dockedAt stored.slot = [] := by
  constructor
  · intro hundisturbed
    have hself : stored.id = id := by
      by_contra hne
      refine hslot (hundisturbed.comes stored.id stored.slot hne
        (screen_comesBack hc hx hv hback hne) ?_)
      rw [hgives, if_pos rfl]
    refine ⟨hself, List.eq_nil_iff_forall_not_mem.2 fun other hdock ↦ ?_⟩
    have hinternal := isInternal_comesBack hc hx hv hback hself
    have hother := hc.screen_of_mem_dockedAt hdock
    have hne : other ≠ id := by
      rintro rfl
      obtain ⟨key, x, placed, hl, rfl, rfl⟩ := hc.exists_located hx hv
      rw [hc.screen_eq hl.entry, if_pos hv] at hother
      exact hslot (Option.some.inj hother).symm
    have hstays := hundisturbed.stays other hne (by rw [hother]; rfl)
    rw [hgives, if_neg (hself ▸ hne), if_pos (Or.inr ⟨hinternal, hdock⟩)] at hstays
    cases hstays
  · rintro ⟨hself, hfree⟩
    refine .of_one id (fun other hne _ ↦ ?_) fun hne ↦ absurd rfl hne
    rw [hgives, if_neg (hself ▸ hne), hfree]
    simp [hne]

end Returning

/-- Hiding a window, but not the others at its anchor, refills the slot that it is left in. So no
other slot is disturbed unless the window is taken off the stripe of another pane and somebody comes
back on the default pane. Nobody is disturbed then either if that is the window itself and nobody
was docked there. -/
theorem undisturbed_hideWith_iff (hc : Coherent e) (hfiled : e.sideStack.Filed)
    (hx : e.windowInfo? id = some info) (hv : info.visible) (hside : options.hideSide = false)
    (hrun : (hideWith id options).run e = .ok result e') :
    Layout.Refills (options.leaves info).slot id e.layout e'.layout ∧
      (Layout.Undisturbed info.slot id e.layout e'.layout ↔
        options.removeFromStripe = false ∨ info.pane = defaultPane ∨
          ∀ stored, e.comesBack? options info = some stored →
            stored.id = id ∧ e.dockedAt ⟨defaultPane, info.anchor, info.split⟩ = []) := by
  have hscreen := hc.ensures_screen_hideWith hx hv hside hrun
  cases hback : e.comesBack? options info with
  | none =>
    simp only [hback] at hscreen
    have hsame : ∀ other, other ≠ id → e'.layout.screen other = e.layout.screen other :=
      fun other hne ↦ (hscreen other).trans (if_neg hne)
    refine ⟨⟨none, none, by simp, by simp, by simpa using hsame⟩, iff_of_true ?_ (by simp)⟩
    exact .of_one id (fun other hne _ ↦ hsame other hne) fun hne ↦ absurd rfl hne
  | some stored =>
    simp only [hback] at hscreen
    obtain ⟨-, hmem, hregains⟩ := comesBack?_spec hback
    have hslot := slot_of_regains (hfiled _ stored hmem) hregains
    refine ⟨hslot ▸ refills_of_givesWay hc hx hv hback hscreen, ?_⟩
    rw [options.slot_leaves] at hslot
    -- the window is left in its slot unless it is taken off the stripe of another pane
    by_cases hstays : options.removeFromStripe = false ∨ info.pane = defaultPane
    · have hsame : stored.slot = info.slot := by
        rw [hslot]
        split
        case isTrue hremove => rw [← hstays.resolve_left (by simp [hremove])]; rfl
        case isFalse => rfl
      exact iff_of_true (undisturbed_of_slot hc hx hv hback hscreen hsame) (by tauto)
    · obtain ⟨hremove, hpane⟩ := not_or.1 hstays
      rw [if_pos (by simpa using hremove)] at hslot
      have hmoves : stored.slot ≠ info.slot := fun heq ↦
        hpane (congrArg Slot.pane (heq.symm.trans hslot))
      rw [undisturbed_iff_of_slot_ne hc hx hv hback hscreen hmoves, hslot]
      simp [hremove, hpane]

def offStripeOptions : HideOptions := { HideOptions.default with removeFromStripe := true }

/-- The third window is shown on a pane of its own. When it is taken off the stripe there, the first
window comes back on the default pane and pushes out the second one. -/
theorem not_undisturbed_besidePane : ∃ e e' info, Session Request.Fits blank e ∧
    e.windowInfo? "C" = some info ∧ info.visible ∧
      (hideWith "C" offStripeOptions).run e = .ok (.ok ()) e' ∧
        ¬ Layout.Undisturbed info.slot "C" e.layout e'.layout := by
  let disturbs (e : Engine) (info : WindowInfo) : Bool :=
    info.visible && info.pane ≠ defaultPane && (e.comesBack? offStripeOptions info).any (·.id ≠ "C")
  have hleads : blank.leadsTo (Request.addPane "p").run (·.registersTo (hiddenRequest "A")
      (·.registersTo (hiddenRequest "B") (·.registersTo (hiddenRequest "C")
        (·.leadsTo (Request.setAnchor "C" "p" .left (-1)).run
          (·.leadsTo (Request.reveal "A").run (·.leadsTo (Request.reveal "B").run
            (·.leadsTo (Request.reveal "C").run fun e ↦ e.sideStack.Filed &&
              (e.windowInfo? "C").any (disturbs e) &&
                e.leadsTo (hideWith "C" offStripeOptions) fun _ ↦ true))))))) := by
    decide +kernel
  obtain ⟨e₁, hs₁, hleads⟩ := exists_session_of_leadsTo .start hleads trivial
  obtain ⟨e₂, hs₂, hleads⟩ := exists_session_of_registersTo hs₁ hleads
  obtain ⟨e₃, hs₃, hleads⟩ := exists_session_of_registersTo hs₂ hleads
  obtain ⟨e₄, hs₄, hleads⟩ := exists_session_of_registersTo hs₃ hleads
  obtain ⟨e₅, hs₅, hleads⟩ := exists_session_of_leadsTo hs₄ hleads trivial
  obtain ⟨e₆, hs₆, hleads⟩ := exists_session_of_leadsTo hs₅ hleads trivial
  obtain ⟨e₇, hs₇, hleads⟩ := exists_session_of_leadsTo hs₆ hleads trivial
  obtain ⟨e, hs, hleads⟩ := exists_session_of_leadsTo hs₇ hleads trivial
  simp only [Bool.and_eq_true, decide_eq_true_eq, Option.any_eq_true, disturbs] at hleads
  obtain ⟨⟨hfiled, info, hx, ⟨hv, hpane⟩, stored, hback, hother⟩, hleads⟩ := hleads
  obtain ⟨e', hrun, -⟩ := exists_run_of_leadsTo hleads
  have hc : Coherent e := hs.coherent (coherentOn_of_empty rfl)
  refine ⟨e, e', info, hs, hx, hv, hrun, fun hundisturbed ↦ ?_⟩
  obtain hstripe | hdefault | hself :=
    (undisturbed_hideWith_iff hc hfiled hx hv rfl hrun).2.1 hundisturbed
  · cases hstripe
  · exact hpane hdefault
  · exact hother (hself stored hback).1

end Engine

end ToolDock
