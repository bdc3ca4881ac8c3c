import Mathlib.Data.List.TakeWhile
import ToolDock.Proofs.Disturbing

/-!
What is forgotten when a window is hidden. The stack of an anchor holds what was evicted from
several slots, and the search for the one that comes back takes off whatever it passes over. Main
statement: `keepsOthers_hideWith_iff`.
-/

namespace ToolDock

namespace SideStack

def elsewhere (slot : Slot) (ws : List WindowInfo) : List WindowInfo := ws.filter (·.slot ≠ slot)

/-- What was evicted from other slots is still remembered, in the same order. -/
def KeepsOthers (slot : Slot) (s s' : SideStack) : Prop :=
  ∀ a, (elsewhere slot (s.get a)).Sublist (s'.get a)

variable {s s' : SideStack} {slot : Slot} {a : Anchor} {ws passed rest : List WindowInfo}
  {stored : WindowInfo} {id : String}

theorem elsewhere_eq_nil_iff : elsewhere slot ws = [] ↔ ∀ w ∈ ws, w.slot = slot := by
  simp [elsewhere]

theorem elsewhere_elsewhere : elsewhere slot (elsewhere slot ws) = elsewhere slot ws := by
  rw [elsewhere, elsewhere, List.filter_filter]
  simp only [Bool.and_self]

theorem elsewhere_filter_id (hws : ∀ w ∈ ws, w.id = id → w.slot = slot) :
    elsewhere slot (ws.filter (·.id != id)) = elsewhere slot ws := by
  rw [elsewhere, elsewhere, List.filter_filter]
  refine List.filter_congr fun w hw ↦ ?_
  have hslot := hws w hw
  grind

theorem keepsOthers_iff_of_split
    (hothers : ∀ b, b ≠ a → elsewhere slot (s'.get b) = elsewhere slot (s.get b))
    (hsplit : elsewhere slot (s.get a) = elsewhere slot passed ++ elsewhere slot (s'.get a)) :
    KeepsOthers slot s s' ↔ ∀ w ∈ passed, w.slot = slot := by
  rw [← elsewhere_eq_nil_iff]
  constructor
  · intro hkeeps
    have hsub : (elsewhere slot (s.get a)).Sublist (elsewhere slot (s'.get a)) := by
      rw [← elsewhere_elsewhere]
      exact (hkeeps a).filter _
    rw [hsplit] at hsub
    have hlength := hsub.length_le
    rw [List.length_append] at hlength
    exact List.length_eq_zero_iff.1 (by omega)
  · intro hnil b
    by_cases hb : b = a
    · rw [hb, hsplit, hnil]
      exact List.filter_sublist
    · rw [← hothers b hb]
      exact List.filter_sublist

theorem keepsOthers_clearAnchor_iff :
    KeepsOthers slot s (s.clearAnchor a) ↔ ∀ w ∈ s.get a, w.slot = slot := by
  refine keepsOthers_iff_of_split (a := a) (fun b hb ↦ ?_) ?_
  · rw [get_clearAnchor, if_neg hb]
  · rw [get_clearAnchor, if_pos rfl]
    exact (List.append_nil _).symm

theorem keepsOthers_remove_iff (hsplit : s.get a = passed ++ stored :: rest)
    (hids : ∀ b, ∀ w ∈ s.get b, w.id = stored.id → w.slot = slot) :
    KeepsOthers slot s (SideStack.remove (s.set a rest) stored.id) ↔
      ∀ w ∈ passed, w.slot = slot := by
  have hstored : stored.slot = slot := hids a stored (by simp [hsplit]) rfl
  have hrest : ∀ w ∈ rest, w.id = stored.id → w.slot = slot :=
    fun w hw ↦ hids a w (by simp [hsplit, hw])
  refine keepsOthers_iff_of_split (a := a) (fun b hb ↦ ?_) ?_
  · rw [get_remove, PerAnchor.get_set, if_neg hb, elsewhere_filter_id (hids b)]
  · rw [get_remove, PerAnchor.get_set, if_pos rfl, elsewhere_filter_id hrest, hsplit]
    simp [elsewhere, hstored]

end SideStack

namespace Engine

open SideStack

variable {e e' : Engine} {key : SlotKey} {x : Entry} {info stored : WindowInfo} {slot : Slot}
  {id : String} {dirty : Bool} {mutation : HideMutation} {options : HideOptions}
  {result : Except EngineError Unit}

theorem sideStack_hidden (info : WindowInfo) (dirty : Bool) (mutation : HideMutation)
    (hx : e.entries.get? key = some x) :
    (e.hidden key info dirty mutation).sideStack = e.sideStack := by
  obtain ⟨off, saved, -, -, hex⟩ := exchanged_hidden (D := False) info dirty mutation hx (nomatch ·)
  exact hex.sideStack

theorem Coherent.sideStack_foldl (dirty : Bool) (ks : List SlotKey) (h : Coherent e)
    (hks : ∀ k ∈ ks, ∃ y, e.entries.get? k = some y) :
    (ks.foldl (·.deactivateRegistered · dirty) e).sideStack = e.sideStack := by
  induction ks generalizing e with
  | nil => rfl
  | cons k ks ih =>
    obtain ⟨y, hy⟩ := hks k (List.mem_cons_self ..)
    have hstep : Coherent (e.deactivateRegistered k dirty) ∧
        Hides [k] e (e.deactivateRegistered k dirty) := by
      obtain ⟨hsound, hhides⟩ := h.sound.deactivateRegistered (Set.notMem_empty k) hy
      exact ⟨hsound.coherent, hhides⟩
    have hrest : ∀ k' ∈ ks, ∃ y, (e.deactivateRegistered k dirty).entries.get? k' = some y := by
      intro k' hk'
      obtain ⟨y, hy⟩ := hks k' (List.mem_cons_of_mem _ hk')
      obtain ⟨y', hy', -⟩ := hstep.2.registered hy
      exact ⟨y', hy'⟩
    have hl := (h.sound.registeredInfo hy).2
    refine (ih hstep.1 hrest).trans ?_
    exact (sideStack_hidden _ dirty .none hl.entry).trans sideStack_registeredInfo

theorem Coherent.sideStack_clearSide (info : WindowInfo) (dirty : Bool) (h : Coherent e) :
    (e.clearSide key info dirty).sideStack = e.sideStack.clearAnchor info.anchor := by
  refine congrArg (·.clearAnchor info.anchor) (h.sideStack_foldl dirty (e.neighbours key info) ?_)
  intro k hk
  obtain ⟨y, hy, -⟩ := mem_keysWhere.1 hk
  exact ⟨y, hy⟩

theorem Coherent.ensures_hideSide (h : Coherent e) (hl : Located e key x info)
    (hi : info.windowType.isInternal) :
    Ensures (hideWindow key info dirty true mutation) e fun _ e' ↦
      e'.sideStack = e.sideStack.clearAnchor info.anchor := by
  have hclear : e.clearFor key info dirty true = e.clearSide key info dirty := if_pos hi
  obtain ⟨-, -, hkey⟩ := (h.sound.mono (Set.empty_subset {key}) subset_rfl).clearFor info dirty true
  rw [hclear] at hkey
  refine Engine.ensures_hideWindow hclear rfl (fun hback ↦ ?_) fun _ ↦ ?_
  · simp [bringsBack] at hback
  · rw [sideStack_hidden info dirty mutation (hkey.trans hl.entry), h.sideStack_clearSide]

theorem Coherent.ensures_hideWith_side (h : Coherent e) (hx : e.windowInfo? id = some info)
    (ho : info.occupiesSlot) (hside : options.hideSide = true) :
    Ensures (hideWith id options).run e fun _ e' ↦
      e'.sideStack = e.sideStack.clearAnchor info.anchor := by
  obtain ⟨hv, hi⟩ := WindowInfo.occupiesSlot_iff.1 ho
  obtain ⟨key, x, placed, hl, rfl, rfl⟩ := h.exists_located hx hv
  have hberth := (h.berth_eq hl).1
  have hslot : placed.slot = x.info.slot := congrArg (·.1) hberth
  have htype : placed.windowType = x.info.windowType := congrArg (·.2.1) hberth
  have hanchor : placed.anchor = x.info.anchor := congrArg Slot.anchor hslot
  refine Engine.ensures_hideWith hl (h.keyOf?_eq hl.entry)
    ((h.sound.visible_of_located hl).trans hv) ?_
  rw [hside]
  refine (h.ensures_hideSide hl (htype ▸ hi)).mono fun _ e' hq e'' _ _ hsame _ ↦ ?_
  rw [hsame, hq, hanchor]

/-- The evicted placements that lie over the one that comes back; all of them if none does. -/
def passedOver (e : Engine) (options : HideOptions) (info : WindowInfo) : List WindowInfo :=
  (e.sideStack.get info.anchor).takeWhile (some · ≠ e.comesBack? options info)

theorem passedOver_of_none (hback : e.comesBack? options info = none) :
    e.passedOver options info = e.sideStack.get info.anchor := by
  rw [passedOver, hback]
  exact List.takeWhile_eq_self_iff.2 fun _ _ ↦ rfl

theorem exists_comesBack (hback : e.comesBack? options info = some stored) : ∃ rest,
    e.sideStack.get info.anchor = e.passedOver options info ++ stored :: rest ∧
      (e.sideStack.get info.anchor).dropWhile (!e.regains (options.leaves info) ·) =
        stored :: rest := by
  have hfind := hback
  rw [comesBack?, Option.ite_none_right_eq_some, List.find?_eq_some_iff_append] at hfind
  obtain ⟨-, hregains, before, rest, hsplit, hbefore⟩ := hfind
  refine ⟨rest, ?_, ?_⟩
  · have hne : ∀ w ∈ before, decide (some w ≠ some stored) = true := by
      intro w hw
      have hno := hbefore w hw
      grind
    rw [passedOver, hback, hsplit, List.takeWhile_append_of_pos hne, List.takeWhile_cons_of_neg,
      List.append_nil]
    simp
  · rw [hsplit, List.dropWhile_append_of_pos hbefore, List.dropWhile_cons_of_neg]
    simp [hregains]

theorem Departs.dockedAt_eq_nil {e₁ : Engine} (hdeparts : Departs id e e₁) (h : Coherent e)
    (hx : e.windowInfo? id = some info) (ho : info.occupiesSlot) : e₁.dockedAt info.slot = [] := by
  obtain ⟨key, x, placed, hl, rfl, rfl⟩ :=
    h.exists_located hx (WindowInfo.occupiesSlot_iff.1 ho).1
  refine List.eq_nil_iff_forall_not_mem.2 fun other hother ↦ ?_
  obtain ⟨hdocked, hne⟩ := (hdeparts.docked ..).1 hother
  rw [h.dockedAt_eq hl.entry ho, List.mem_singleton, h.name_eq hl.entry] at hdocked
  exact hne hdocked

theorem Coherent.ensures_sideStack_hideWith (h : Coherent e) (henabled : e.settings.stackEnabled)
    (hx : e.windowInfo? id = some info) (ho : info.occupiesSlot) :
    Ensures (hideWith id options).run e fun _ e' ↦ match e.comesBack? options info with
      | none => e'.sideStack = e.sideStack.clearAnchor info.anchor
      | some stored => (∀ a, ∀ w ∈ e'.sideStack.get a, w.id ≠ stored.id) ∧
          (stored.slot = info.slot → ∃ rest,
            e.sideStack.get info.anchor = e.passedOver options info ++ stored :: rest ∧
              e'.sideStack = SideStack.remove (e.sideStack.set info.anchor rest) stored.id) := by
  obtain ⟨hv, hi⟩ := WindowInfo.occupiesSlot_iff.1 ho
  cases hside : options.hideSide with
  | true =>
    have hnone : e.comesBack? options info = none := if_neg (by simp [hside])
    rw [hnone]
    exact h.ensures_hideWith_side hx ho hside
  | false =>
    refine (h.ensures_hideWith hx hv hside).mono fun _ e' hq ↦ ?_
    obtain ⟨e₁, hdeparts, hq⟩ := hq
    rw [henabled, hi, if_pos (by rfl)] at hq
    cases hback : e.comesBack? options info with
    | none =>
      rw [comesBack?_eq hside, henabled, hi, if_pos (by rfl), List.head?_eq_none_iff] at hback
      rw [hback] at hq
      exact hq.2.trans (congrArg (·.clearAnchor info.anchor) hdeparts.sideStack)
    | some stored =>
      obtain ⟨rest, hsplit, hdrop⟩ := exists_comesBack hback
      rw [hdrop] at hq
      obtain ⟨-, hforgot, hrest⟩ := hq
      refine ⟨hforgot, fun hslot ↦ ⟨rest, hsplit, ?_⟩⟩
      rw [hrest (hslot ▸ hdeparts.dockedAt_eq_nil h hx ho), hdeparts.sideStack]

/-- Hiding a window forgets nothing that was evicted from other slots just if all that is passed
over was evicted from its slot, and so was all that is remembered of the window that comes back. -/
theorem keepsOthers_hideWith_iff (hc : Coherent e) (henabled : e.settings.stackEnabled)
    (hx : e.windowInfo? id = some info) (ho : info.occupiesSlot)
    (hrun : (hideWith id options).run e = .ok result e') :
    KeepsOthers info.slot e.sideStack e'.sideStack ↔
      (∀ w ∈ e.passedOver options info, w.slot = info.slot) ∧
        ∀ stored, e.comesBack? options info = some stored →
          ∀ a, ∀ w ∈ e.sideStack.get a, w.id = stored.id → w.slot = info.slot := by
  have hspec := hc.ensures_sideStack_hideWith henabled hx ho hrun
  cases hback : e.comesBack? options info with
  | none =>
    simp only [hback] at hspec
    rw [hspec, keepsOthers_clearAnchor_iff, passedOver_of_none hback, and_iff_left (by simp)]
  | some stored =>
    simp only [hback] at hspec
    obtain ⟨hforgot, hkept⟩ := hspec
    simp only [Option.some.injEq, forall_eq']
    -- nothing is left of the window that comes back
    have hids (hkeeps : KeepsOthers info.slot e.sideStack e'.sideStack) :
        ∀ a, ∀ w ∈ e.sideStack.get a, w.id = stored.id → w.slot = info.slot := by
      intro a w hw hid
      by_contra hslot
      have hstill := (hkeeps a).subset (List.mem_filter.2 ⟨hw, decide_eq_true hslot⟩)
      exact hforgot a w hstill hid
    have hlost (hids : ∀ a, ∀ w ∈ e.sideStack.get a, w.id = stored.id → w.slot = info.slot) :
        KeepsOthers info.slot e.sideStack e'.sideStack ↔
          ∀ w ∈ e.passedOver options info, w.slot = info.slot := by
      have hslot := hids info.anchor stored (comesBack?_spec hback).2.1 rfl
      obtain ⟨rest, hsplit, hremoved⟩ := hkept hslot
      rw [hremoved]
      exact keepsOthers_remove_iff hsplit hids
    exact ⟨fun hkeeps ↦ ⟨(hlost (hids hkeeps)).1 hkeeps, hids hkeeps⟩, fun h ↦ (hlost h.2).2 h.1⟩

def splitRequest : RegisterRequest := { hiddenRequest "S" with split := true }

/-- The first window, which the second one evicted, is forgotten when the one beside them is
hidden. -/
theorem not_keepsOthers_splitRequest : ∃ e e' info, Session Request.Fits blank e ∧
    e.windowInfo? "S" = some info ∧ info.occupiesSlot ∧
      (hideWith "S" .default).run e = .ok (.ok ()) e' ∧
        ¬ KeepsOthers info.slot e.sideStack e'.sideStack := by
  let passes (e : Engine) (info : WindowInfo) : Bool :=
    info.occupiesSlot && (e.passedOver .default info).any (·.slot ≠ info.slot)
  have hleads : blank.registersTo (hiddenRequest "A") (·.registersTo (hiddenRequest "B")
      (·.registersTo splitRequest (·.leadsTo (Request.reveal "A").run
        (·.leadsTo (Request.reveal "B").run (·.leadsTo (Request.reveal "S").run fun e ↦
          e.settings.stackEnabled && (e.windowInfo? "S").any (passes e) &&
            e.leadsTo (hideWith "S" .default) fun _ ↦ true))))) := by
    decide +kernel
  obtain ⟨e₁, hs₁, hleads⟩ := exists_session_of_registersTo .start hleads
  obtain ⟨e₂, hs₂, hleads⟩ := exists_session_of_registersTo hs₁ hleads
  obtain ⟨e₃, hs₃, hleads⟩ := exists_session_of_registersTo hs₂ hleads
  obtain ⟨e₄, hs₄, hleads⟩ := exists_session_of_leadsTo hs₃ hleads trivial
  obtain ⟨e₅, hs₅, hleads⟩ := exists_session_of_leadsTo hs₄ hleads trivial
  obtain ⟨e, hs, hleads⟩ := exists_session_of_leadsTo hs₅ hleads trivial
  simp only [Bool.and_eq_true, decide_eq_true_eq, Option.any_eq_true, List.any_eq_true, passes]
    at hleads
  obtain ⟨⟨henabled, info, hx, ho, w, hw, hslot⟩, hleads⟩ := hleads
  obtain ⟨e', hrun, -⟩ := exists_run_of_leadsTo hleads
  have hc : Coherent e := hs.coherent (coherentOn_of_empty rfl)
  refine ⟨e, e', info, hs, hx, ho, hrun, fun hkeeps ↦ ?_⟩
  exact hslot (((keepsOthers_hideWith_iff hc henabled hx ho hrun).1 hkeeps).1 w hw)

end Engine

end ToolDock
