import ToolDock.Proofs.Completing
import ToolDock.Proofs.Dressing
import ToolDock.Proofs.Requests

/-!
Replacing a layout where no two windows are to share a slot, and nothing comes back to one that is
left. Every window that was changed is where the completed layout puts it, and wears what its change
leaves it. Main statements: `ensures_setLayout_seated`, and `isDecorated_setLayout` about a layout
with places for all windows.
-/

namespace ToolDock

theorem Entry.Wears.of_core {headless : Bool} {x : Entry} {a b : WindowInfo}
    (h : x.Wears headless a.worn) (hcore : b.core = a.core) : x.Wears headless b.worn := by
  have hv := WindowInfo.visible_of_core hcore
  by_cases ha : a.visible = true
  · rw [WindowInfo.worn_of_visible ha] at h
    rw [WindowInfo.worn_of_visible (hv.trans ha)]
    exact IsDecoratedFor.congr h (WindowInfo.windowType_of_core hcore)
      fun _ ↦ WindowInfo.slot_of_core hcore
  · have hhid : a.visible = false := by simpa using ha
    rw [WindowInfo.worn_of_hidden hhid] at h
    rwa [WindowInfo.worn_of_hidden (hv.trans hhid)]

namespace Engine

variable {κ : Type} {detail : Int32 × Bool × Bool → κ} {l : Layout} {start e e' : Engine}
  {key k : SlotKey} {x y : Entry} {c : LayoutChange} {rest : List LayoutChange}
  {info : WindowInfo}

def changeOf (e : Engine) (l : Layout) (key : SlotKey) (x : Entry) : LayoutChange :=
  ⟨key, e.oldInfo x, e.settled l x⟩

/-- All windows have just the decorators that their placements ask for. -/
def Attired (e : Engine) : Prop :=
  ∀ key x, e.entries.get? key = some x → x.IsDecorated e.host.desktop.headless

/-- No two registered windows are to share a slot. -/
def Apart (e : Engine) (l : Layout) : Prop :=
  ∀ k k' x x', e.entries.get? k = some x → e.entries.get? k' = some x' →
    ¬ (e.completed l).SharesSlot x.id x'.id

/-- Nothing comes back to a slot that is left. -/
def Settles (e : Engine) (l : Layout) : Prop :=
  ∀ c ∈ e.liveChanges l, c.changesSplit → e.Vacant c.old.anchor

theorem Apart.key_eq (h : e.Apart l) (hid : e.Identified) (hx : e.entries.get? key = some x)
    (hy : e.entries.get? k = some y) (ho : (e.settled l x).occupiesSlot)
    (ho' : (e.settled l y).occupiesSlot) (hs : (e.settled l x).slot = (e.settled l y).slot) :
    key = k := by
  by_contra hne
  refine h key k x y hx hy ⟨fun heq ↦ hne (hid.unique hx hy heq), _, _, hid.get?_completed hx,
    hid.get?_completed hy, ho, ho', hs⟩

theorem CoherentOn.core_settled (h : CoherentOn detail ∅ e) (hx : e.entries.get? key = some x)
    (ha : x.available) (hlive : ∀ c ∈ e.liveChanges l, c.key ≠ key) :
    (e.settled l x).core = (e.oldInfo x).core := by
  have hagrees : (e.oldInfo x).agrees (e.placementIn l x) = true := by
    by_contra hne
    refine hlive ⟨key, e.oldInfo x, e.placementIn l x⟩ ?_ rfl
    exact h.identified.mem_liveChanges.2 ⟨x, hx, ha, rfl, rfl, by simpa using hne⟩
  rw [settled_eq.2.2 ha]
  exact (WindowInfo.agrees_core hagrees).1.symm

theorem CoherentOn.wears_settled (h : CoherentOn detail ∅ e) {headless : Bool} {z : Entry}
    (hx : e.entries.get? key = some x) (hlive : ∀ c ∈ e.liveChanges l, c.key ≠ key)
    (hw : z.Wears headless (e.oldInfo x).worn) : z.Wears headless (e.changeOf l key x).worn := by
  by_cases ha : x.available = true
  · have hcore := h.core_settled hx ha hlive
    have hslot := WindowInfo.slot_of_core hcore
    have hstays : (e.changeOf l key x).loses = false := by
      have hat : (e.oldInfo x).isAt (e.settled l x).pane (e.settled l x).anchor = true := by
        simp only [WindowInfo.slot, Slot.mk.injEq] at hslot
        simp [WindowInfo.isAt, hslot]
      simp [LayoutChange.loses, LayoutChange.movesSlot, changeOf, hat]
    rw [LayoutChange.worn, hstays]
    exact hw.of_core hcore
  · -- an unavailable window was hidden, and stays hidden
    have hold : (e.oldInfo x).visible = false := by
      rw [← WindowInfo.visible_of_core (h.oldInfo hx).1]
      exact Bool.eq_false_iff.2 fun hv ↦
        ha (h.ready (Set.notMem_empty key) (standing?_of_get? hx) hv).1
    have hnew : (e.settled l x).visible = false := by
      by_cases hagrees : (e.oldInfo x).agrees (e.placementIn l x) = true
      · rw [settled, hagrees, Bool.true_or, if_pos rfl, ← hold]
        exact (WindowInfo.visible_of_core (WindowInfo.agrees_core hagrees).1).symm
      · rw [settled, if_neg (by simp [hagrees, ha])]
    rw [WindowInfo.worn_of_hidden hold] at hw
    rw [LayoutChange.worn]
    split
    · exact hw
    · rwa [changeOf, WindowInfo.worn_of_hidden hnew]

/-- Halfway through the changes entries and layout put all windows where the completed layout does;
those still to change wear what they wore, the others what their changes leave them. -/
structure Seated (l : Layout) (start : Engine) (rest : List LayoutChange) (e : Engine) : Prop where
  entry : ∀ {key x}, start.entries.get? key = some x → ∃ y stored, e.entries.get? key = some y ∧
    y.identity = x.identity ∧ e.layout.get? x.id = some stored ∧
      y.info.core = (start.settled l x).core ∧ stored.core = (start.settled l x).core
  registered : ∀ {key y}, e.entries.get? key = some y → ∃ x, start.entries.get? key = some x
  desktop : e.host.desktop = start.host.desktop
  settings : e.settings = start.settings
  sideStack : ∀ anchor, start.sideStack.get anchor = [] → e.sideStack.get anchor = []
  pending : ∀ c ∈ rest, c ∈ start.liveChanges l
  distinct : rest.Pairwise fun c d ↦ c.key ≠ d.key
  mounted : start.Mounted → e.Mounted
  waits : start.Attired → ∀ c ∈ rest, ∀ y, e.entries.get? c.key = some y →
    y.Wears start.host.desktop.headless c.old.worn
  wears : start.Attired → ∀ {key x y}, start.entries.get? key = some x →
    e.entries.get? key = some y → (∀ c ∈ rest, c.key ≠ key) →
    y.Wears start.host.desktop.headless (start.changeOf l key x).worn
  docked : start.Mounted → start.Attired → e.host.docked ++ rest.flatMap LayoutChange.dockings =
    start.host.docked ++ (start.liveChanges l).flatMap LayoutChange.dockings

namespace Seated

theorem redress (h : Seated l start (c :: rest) e) (hid : start.Identified)
    (hy : e.entries.get? c.key = some y) (hred : Redressed c y e e') :
    Seated l start rest e' := by
  obtain ⟨x, hx, -, hold, hnew, -, hnewid⟩ :=
    hid.of_mem_liveChanges (h.pending c (List.mem_cons_self ..))
  have hchange : start.changeOf l c.key x = c := by rw [changeOf, ← hold, ← hnew]
  obtain ⟨y', saved, hdress, hinfo, hlayout⟩ := hred
  obtain ⟨hhead, hdistinct⟩ := List.pairwise_cons.1 h.distinct
  have hcore : (c.new.withState saved).core = (start.settled l x).core := hnew ▸ rfl
  have hwaits : start.Attired → y.Wears e.host.desktop.headless c.old.worn := fun hd ↦
    h.desktop ▸ h.waits hd c (List.mem_cons_self ..) y hy
  refine {
    entry := fun {k z} hz ↦ ?entry
    registered := fun {k z} hz ↦ ?registered
    desktop := hdress.desktop.trans h.desktop
    settings := hdress.settings.trans h.settings
    sideStack := fun a hs ↦ hdress.sideStack a (h.sideStack a hs)
    pending := fun d hd ↦ h.pending d (List.mem_cons_of_mem _ hd)
    distinct := hdistinct
    mounted := fun hm ↦ hdress.mounted (h.mounted hm)
    waits := fun hd d hmem z hz ↦ ?waits
    wears := fun hd {k z w} hz hw hnone ↦ ?wears
    docked := fun hm hd ↦ ?docked }
  case entry =>
    obtain ⟨w, stored, hw, hwid, hstored, hwcore, hscore⟩ := h.entry hz
    rw [hdress.get?, hlayout, Layout.get?_put]
    by_cases hk : k = c.key
    · subst hk
      cases hx.symm.trans hz
      cases hy.symm.trans hw
      refine ⟨y', c.new.withState saved, if_pos rfl, hdress.identity.trans hwid,
        if_pos hnewid.symm, ?_, hcore⟩
      rw [hinfo, hcore]
    · have hne : ¬ z.id = (c.new.withState saved).id := fun heq ↦
        hk (hid.unique hz hx (heq.trans hnewid))
      exact ⟨w, stored, (if_neg hk).trans hw, hwid, (if_neg hne).trans hstored, hwcore, hscore⟩
  case registered =>
    rw [hdress.get?] at hz
    split at hz
    case isTrue hk => exact ⟨x, hk ▸ hx⟩
    case isFalse => exact h.registered hz
  case waits =>
    rw [hdress.get?, if_neg (hhead d hmem).symm] at hz
    exact h.waits hd d (List.mem_cons_of_mem _ hmem) z hz
  case wears =>
    rw [hdress.get?] at hw
    split at hw
    case isTrue hk =>
      cases hw
      subst hk
      cases hx.symm.trans hz
      rw [hchange, ← h.desktop]
      exact hdress.wears (hwaits hd)
    case isFalse hk =>
      refine h.wears hd hz hw fun d hmem ↦ ?_
      rcases List.mem_cons.1 hmem with rfl | hmem
      · exact fun heq ↦ hk heq.symm
      · exact hnone d hmem
  case docked =>
    rw [hdress.docked (h.mounted hm) (hwaits hd), ← h.docked hm hd, List.flatMap_cons,
      List.append_assoc]

theorem step (h : Seated l start (c :: rest) e) (hid : start.Identified) (hapart : start.Apart l)
    (hsettles : start.Settles l) :
    Ensures (applyChange c) e fun _ e' ↦ Seated l start rest e' := by
  have hc := h.pending c (List.mem_cons_self ..)
  obtain ⟨x, hx, ha, -, hnew, holdid, hnewid⟩ := hid.of_mem_liveChanges hc
  obtain ⟨y, _, hy, hidentity, -⟩ := h.entry hx
  have hyid : y.id = x.id := congrArg (·.2.1) hidentity
  refine (ensures_applyChange_dresses hy ((congrArg (·.2.2) hidentity).trans ha)
    (hyid.trans hnewid.symm) (holdid.trans hnewid.symm) (fun hm k z hk hz ho hs ↦ hk ?_)
    fun hs hstack ↦ ?_).mono fun _ e' hred ↦ h.redress hid hy hred
  · have hocc : (start.settled l x).occupiesSlot := by
      rw [LayoutChange.movesSlot, Bool.and_eq_true] at hm
      exact hnew ▸ hm.2
    obtain ⟨x', hx'⟩ := h.registered hz
    obtain ⟨z', _, hz', -, -, hcore, -⟩ := h.entry hx'
    cases hz.symm.trans hz'
    refine hapart.key_eq hid hx' hx ((WindowInfo.occupiesSlot_of_core hcore).symm.trans ho) hocc ?_
    rw [← WindowInfo.slot_of_core hcore, hs, hnew]
  · exact h.sideStack _ (hsettles c hc hs (h.settings ▸ hstack))

end Seated

theorem CoherentOn.core_foretold (h : CoherentOn detail ∅ e) (hx : e.entries.get? key = some x) :
    (foretoldInfo (e.planned l) key x.info).core = (e.settled l x).core := by
  obtain ⟨hchanged, hsame⟩ := foretoldInfo_eq key x.info (h.identified.nodup_planned (l := l))
  by_cases hc : ∃ c ∈ e.planned l, c.key = key
  · obtain ⟨c, hc, rfl⟩ := hc
    obtain ⟨x', hx', -, hnew, -⟩ := h.identified.mem_planned.1 hc
    cases hx.symm.trans hx'
    rw [hchanged c hc rfl, hnew]
  · have hagrees : (e.oldInfo x).agrees (e.placementIn l x) = true := by
      by_contra hne
      exact hc ⟨⟨key, e.oldInfo x, e.settled l x⟩,
        h.identified.mem_planned.2 ⟨x, hx, rfl, rfl, by simpa using hne⟩, rfl⟩
    rw [hsame fun c hm hk ↦ hc ⟨c, hm, hk⟩, settled, hagrees, Bool.true_or, if_pos rfl,
      (h.oldInfo hx).1, (WindowInfo.agrees_core hagrees).1]

theorem seated_foretold (h : CoherentOn detail ∅ e) : Seated l e (e.liveChanges l)
    ((e.replaceLayout (e.completed l)).foretold (e.planned l)) := by
  obtain ⟨entries, heq, hentry⟩ := foretold_replaceLayout (e := e) (e.completed l) (e.planned l)
  have hid := h.identified
  have hworn : e.Attired → ∀ {k x y}, e.entries.get? k = some x → entries.get? k = some y →
      y.Wears e.host.desktop.headless (e.oldInfo x).worn := by
    intro hd k x y hx hy
    obtain ⟨x', hx', rfl⟩ := hentry.1 hy
    cases hx.symm.trans hx'
    have hwears : x.Wears e.host.desktop.headless (e.oldInfo x).worn :=
      (Entry.isDecorated_iff.1 (hd k x hx)).of_core (h.oldInfo hx).1.symm
    exact hwears
  rw [heq]
  refine ⟨fun {k x} hx ↦ ?_, fun {k y} hy ↦ ?_, rfl, rfl, fun _ hs ↦ hs, fun _ hc ↦ hc,
    hid.nodup_liveChanges, fun hm k y hy ↦ ?_, fun hd c hc y hy ↦ ?_,
    fun hd {k x y} hx hy hnone ↦ h.wears_settled hx hnone (hworn hd hx hy), fun _ _ ↦ rfl⟩
  · exact ⟨_, e.settled l x, hentry.2 ⟨x, hx, rfl⟩, rfl, hid.get?_completed hx,
      h.core_foretold hx, rfl⟩
  · obtain ⟨x, hx, -⟩ := hentry.1 hy
    exact ⟨x, hx⟩
  · obtain ⟨x, hx, rfl⟩ := hentry.1 hy
    exact (hm k x hx).keep (P := HostOp.adorns) .refl rfl rfl fun ha ↦ ha
  · obtain ⟨x, hx, -, hold, -⟩ := hid.of_mem_liveChanges hc
    rw [hold]
    exact hworn hd hx hy

/-- Where no two registered windows are to share a slot, and nothing comes back to one that is left,
all windows end up where they are to be. -/
theorem ensures_setLayout_seated (h : CoherentOn detail ∅ e) (hnone : orderConflict? l = none)
    (hapart : e.Apart l) (hsettles : e.Settles l) : Ensures (setLayout l).run e fun res e' ↦
      res = .ok () ∧ ∃ e₁, Seated l e [] e₁ ∧ Concludes (e.planned l) e₁ e' :=
  ensures_setLayout_planned hnone (fun _ _ _ hs ↦ hs.step h.identified hapart hsettles)
    (seated_foretold h)

theorem Covers.settled_eq (h : Covers l e) (hx : e.entries.get? key = some x) :
    l.get? x.id = some (e.settled l x) := by
  obtain ⟨info, hinfo⟩ := h.get? hx
  rw [Engine.settled_eq.2.2 (h.available hx), placementIn, hinfo, Option.getD_some]

theorem settled_eq_of_occupiesSlot (hinfo : l.get? x.id = some info)
    (ho : (e.settled l x).occupiesSlot) : e.settled l x = info := by
  have hplaced : e.placementIn l x = info := by rw [placementIn, hinfo, Option.getD_some]
  unfold settled at ho ⊢
  split at ho
  case isTrue hsame => rw [if_pos hsame, hplaced]
  case isFalse =>
    rw [WindowInfo.not_occupiesSlot rfl] at ho
    cases ho

theorem Identified.apart (h : e.Identified) (hknows : Knows l e) (hl : l.violations = []) :
    e.Apart l := by
  intro k k' x x' hx hx' hshares
  obtain ⟨hne, a, b, ha, hb, hoa, hob, hslot⟩ := hshares
  obtain ⟨info, hinfo⟩ := Layout.contains_iff.1 (hknows k x hx)
  obtain ⟨info', hinfo'⟩ := Layout.contains_iff.1 (hknows k' x' hx')
  obtain rfl : e.settled l x = a := Option.some.inj ((h.get?_completed hx).symm.trans ha)
  obtain rfl : e.settled l x' = b := Option.some.inj ((h.get?_completed hx').symm.trans hb)
  have heq := settled_eq_of_occupiesSlot hinfo hoa
  have heq' := settled_eq_of_occupiesSlot hinfo' hob
  rw [heq] at hoa hslot
  rw [heq'] at hob hslot
  exact hne (Layout.slot_inj_of_violations hl hinfo hinfo' hoa hob hslot)

theorem settles_of_empty (hempty : e.sideStack = .empty) : e.Settles l := by
  intro c _ _ _
  rw [hempty]
  exact SideStack.get_empty

theorem isDecorated_iff_of_worn {headless : Bool} {new : WindowInfo} (hnew : c.new = new)
    (hcore : y.info.core = new.core) (hw : y.Wears headless c.worn) :
    (y.IsDecorated headless ↔ ¬ c.loses) ∧
      (c.loses → y.attached = none ∧ y.floating = none ∧ y.windowed = none) := by
  subst hnew
  unfold LayoutChange.worn at hw
  by_cases hloses : c.loses = true
  · rw [if_pos hloses] at hw
    refine ⟨⟨fun hdecorated ↦ ?_, fun hnot ↦ absurd hloses hnot⟩, fun _ ↦ hw⟩
    have ho : y.info.occupiesSlot := by
      simp only [LayoutChange.loses, LayoutChange.movesSlot, Bool.and_eq_true] at hloses
      exact (WindowInfo.occupiesSlot_of_core hcore).trans hloses.1.2
    rw [WindowInfo.occupiesSlot_iff] at ho
    rw [Entry.isDecorated_of_visible ho.1] at hdecorated
    have hi := ho.2
    unfold Entry.IsDecoratedFor at hdecorated
    cases ht : y.info.windowType with
    | docked | sliding =>
      rw [ht] at hdecorated
      obtain ⟨⟨p, hp, -⟩, -⟩ := hdecorated
      rw [hw.1] at hp
      cases hp
    | floating | windowed =>
      rw [ht] at hi
      cases hi
  · rw [if_neg hloses] at hw
    refine ⟨⟨fun _ ↦ hloses, fun _ ↦ ?_⟩, fun h ↦ absurd h hloses⟩
    exact Entry.isDecorated_iff.2 (hw.of_core hcore)

/-- A layout that nothing is wrong about, and that has a place for every window, leaves each window
with the decorators that it asks for, where no window was evicted before. The exceptions are those
that hold a slot before and after, but at another anchor and with another type: they are left with
none. -/
theorem isDecorated_setLayout {res : Except EngineError Unit} (hcoherent : CoherentCore e)
    (hattired : e.Attired) (hcovers : Covers l e) (hempty : e.sideStack = .empty)
    (hl : l.violations = []) (hrun : (setLayout l).run e = .ok res e') :
    res = .ok () ∧ ∀ key x, e.entries.get? key = some x → ∃ y info,
      e'.entries.get? key = some y ∧ l.get? x.id = some info ∧ y.info.core = info.core ∧
        (y.IsDecorated e.host.desktop.headless ↔ ¬ LayoutChange.loses ⟨key, e.oldInfo x, info⟩) ∧
        (LayoutChange.loses ⟨key, e.oldInfo x, info⟩ →
          y.attached = none ∧ y.floating = none ∧ y.windowed = none) := by
  obtain ⟨hres, e₁, hseated, hlast⟩ := ensures_setLayout_seated hcoherent
    (orderConflict?_of_violations hl) (hcoherent.identified.apart (fun _ _ ↦ hcovers.contains) hl)
    (settles_of_empty hempty) hrun
  refine ⟨hres, fun key x hx ↦ ?_⟩
  obtain ⟨y, -, hy, -, -, hcore, -⟩ := hseated.entry hx
  refine ⟨y, e.settled l x, hlast.sameWindows.1 ▸ hy, hcovers.settled_eq hx, hcore, ?_⟩
  exact isDecorated_iff_of_worn (c := e.changeOf l key x) rfl hcore
    (hseated.wears hattired hx hy fun _ hc ↦ (nomatch hc))

def slidingLayout : Layout :=
  .ofList [{ WindowInfo.new "A" .right with
    visible := true, windowType := .sliding, internalType := .sliding, order := 0 }]

/-- A window that was docked on the left is visible there, but in no pane. -/
theorem not_isDecorated_slidingLayout : ∃ e e' key y,
    (Request.register (visibleRequest true)).run.run blank = .ok (.ok ()) e ∧
      (setLayout slidingLayout).run e = .ok (.ok ()) e' ∧ e'.entries.get? key = some y ∧
        y.info.occupiesSlot ∧ y.attached = none ∧ ¬ y.IsDecorated false := by
  obtain ⟨e, x, hregister, hx, hhead, hcovers, hempty, hloses, haccepts⟩ : ∃ e x,
      (Request.register (visibleRequest true)).run.run blank = .ok (.ok ()) e ∧
      e.entries.get? ⟨0, 0⟩ = some x ∧ e.host.desktop.headless = false ∧
      (∀ row ∈ e.entries.toList, slidingLayout.contains row.2.id ∧ row.2.available) ∧
      e.sideStack = .empty ∧
      (∀ info, slidingLayout.get? x.id = some info → info.occupiesSlot ∧
        LayoutChange.loses ⟨⟨0, 0⟩, e.oldInfo x, info⟩) ∧ e.accepts (setLayout slidingLayout) :=
    ⟨_, _, rfl, rfl, rfl, by decide +kernel, rfl, by
      rintro info ⟨⟩
      decide +kernel, by decide +kernel⟩
  obtain ⟨e', hrun⟩ := exists_run_of_accepts haccepts
  have hpresents : (Request.register (visibleRequest true)).Presents blank := by
    rintro _ ⟨⟩
    exact ⟨rfl, fun _ ↦ ⟨rfl, rfl, rfl⟩⟩
  have hsound : Sound (fun _ ↦ ()) True ∅ ∅ e :=
    Sound.run ⟨coherentOn_of_empty rfl, fun _ ↦ decoratedOn_of_empty rfl rfl⟩
      (Request.fits_of_presents hpresents) (fun _ ↦ hpresents) hregister
  have hattired : e.Attired := fun _ _ hz ↦
    (hsound.decorated trivial).shape (Set.notMem_empty _) hz
  have hcovers : Covers slidingLayout e := ⟨fun hx ↦ (hcovers _ (SlotTable.mem_toList.2 hx)).1,
    fun hx ↦ (hcovers _ (SlotTable.mem_toList.2 hx)).2⟩
  obtain ⟨y, info, hy, hinfo, hcore, hiff, hnone⟩ := (isDecorated_setLayout hsound.coherent hattired
    hcovers hempty (by decide) hrun).2 ⟨0, 0⟩ x hx
  obtain ⟨ho, hlost⟩ := hloses info hinfo
  refine ⟨e, e', ⟨0, 0⟩, y, hregister, hrun, hy, ?_, (hnone hlost).1, fun hdecorated ↦ ?_⟩
  · rwa [WindowInfo.occupiesSlot_of_core hcore]
  · exact hiff.1 (hhead ▸ hdecorated) hlost

end Engine

end ToolDock
