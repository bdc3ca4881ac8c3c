import ToolDock.Engine.Invariant
import ToolDock.Proofs.Moving
import ToolDock.Proofs.Planning
import ToolDock.Proofs.Requests

/-!
A session that comes back: a layout is put in place before any window is registered, and its windows
are registered one after another. Each takes the place that the layout has for it and evicts nobody,
so that nothing is left of the order in which they came. Main statement: `resumed_register`.
-/

namespace ToolDock

/-- A layout that nothing is wrong about, and whose visible windows are shown as they are. -/
structure Layout.Restorable (l : Layout) : Prop where
  violations : l.violations = []
  shown : ∀ w ∈ l.windows, w.visible → w.hasOrder ∧ w.showStripeButton

/-- A request for a window that a layout knows, and that may be shown. -/
structure RegisterRequest.Returns (l : Layout) (r : RegisterRequest) : Prop where
  known : l.contains r.id
  available : r.available
  hasContent : r.hasContent
  placement : r.placement = none

structure Entry.IsPlaced (l : Layout) (headless : Bool) (x : Entry) : Prop where
  id_eq : x.id = x.name
  placement : l.get? x.name = some x.info
  attached : x.attached = if x.info.occupiesSlot then some x.info else none
  decorated : x.IsDecorated headless

theorem WindowInfo.shownAt_order {info : WindowInfo} (hv : info.visible)
    (hb : info.showStripeButton) : info.shownAt info.order = info := by
  cases info
  simp only at hv hb
  simp only [WindowInfo.shownAt, hv, hb]

namespace Engine

variable {D : Prop} {l : Layout} {ids : List String} {e e' e₁ : Engine} {key : SlotKey}
  {x x' : Entry} {info : WindowInfo} {dirty : Bool} {r : RegisterRequest}
  {rs rs' : List RegisterRequest} {id : String}

theorem addDecorator_of_internal (hi : info.windowType.isInternal) :
    addDecorator key info dirty = modify (·.addInternalDecorator key info dirty) := by
  unfold addDecorator
  cases ht : info.windowType with
  | docked | sliding => rfl
  | floating | windowed =>
    rw [ht] at hi
    cases hi

theorem ensures_addDecorator_bare (hx : e.entries.get? key = some x) (hv : info.visible)
    (hbare : x.attached = none ∧ x.floating = none ∧ x.windowed = none) :
    Ensures (addDecorator key info dirty) e fun _ e' ↦ ∃ x',
      Exchanged False key x x' e.layout e e' ∧ x'.standing = x.standing ∧
        x'.IsDecoratedFor e.host.desktop.headless info ∧
        x'.attached = if info.occupiesSlot then some info else none := by
  obtain ⟨hatt, hf, hw⟩ := hbare
  have hoccupies : info.occupiesSlot = info.windowType.isInternal := by
    rw [WindowInfo.occupiesSlot, hv, Bool.true_and]
  rw [hoccupies]
  by_cases hi : info.windowType.isInternal = true
  · rw [addDecorator_of_internal hi, ensures_modify, if_pos hi]
    obtain ⟨d, hadd⟩ := exchanged_addInternalDecorator (D := False) info dirty hx False.elim
    refine ⟨_, hadd, rfl, ?_, rfl⟩
    unfold Entry.IsDecoratedFor
    cases ht : info.windowType with
    | docked | sliding => exact ⟨⟨info, rfl, rfl⟩, hf, hw⟩
    | floating | windowed =>
      rw [ht] at hi
      cases hi
  · rw [if_neg hi]
    refine (ensures_addDecorator (D := False) hx False.elim False.elim).mono ?_
    intro _ e' hq
    rcases hq with ⟨x', hex, hstanding, -, hdecorated⟩
    have hfor := hdecorated ⟨hf, hw, Or.inl hatt⟩
    refine ⟨x', hex, hstanding, hfor, ?_⟩
    unfold Entry.IsDecoratedFor at hfor
    cases ht : info.windowType with
    | docked | sliding =>
      rw [ht] at hi
      exact absurd rfl hi
    | floating | windowed =>
      rw [ht] at hfor
      exact hfor.1

theorem forgetEvicted_of_empty (h : e.sideStack = .empty) : e.forgetEvicted id = e := by
  unfold forgetEvicted
  split
  · rw [h]
    cases e
    cases h
    rfl
  · rfl

theorem ensures_showWindow_free (hx : e.entries.get? key = some x) (ha : x.available)
    (hbare : x.attached = none ∧ x.floating = none ∧ x.windowed = none)
    (hfree : info.windowType.isInternal → e.occupants key info.slot = [])
    (hempty : e.sideStack = .empty) :
    Ensures (showWindow key info dirty) e fun _ e' ↦ ∃ order x',
      (if info.hasOrder then order = info.order
        else e.layout.nextOrder info.pane info.anchor = .ok order) ∧
      Exchanged False key x x' (e.layout.put (info.shownAt order)) e e' ∧
        x'.standing = { x with info := info.shownAt order }.standing ∧
        x'.IsDecoratedFor e.host.desktop.headless (info.shownAt order) ∧
        x'.attached =
          if (info.shownAt order).occupiesSlot then some (info.shownAt order) else none := by
  refine ensures_showWindow_cases (fun hno ↦ ?_) fun _ order horder ↦ ?_
  · rw [entryIs_of_get? hx, ha] at hno
    cases hno
  have hevict : e.evictFor key (info.shownAt order) dirty = e := evictFor_of_free hfree
  have hcommit := exchanged_commit (D := False) (info.shownAt order) hx False.elim
  rw [hevict]
  refine (ensures_addDecorator_bare hcommit.get?_self rfl hbare).mono ?_
  intro _ e₂ hq
  rcases hq with ⟨x₂, hex, hstanding, hfor, hatt⟩
  rw [forgetEvicted_of_empty ((hex.sideStack.trans hcommit.sideStack).trans hempty)]
  obtain ⟨b, -, hbutton⟩ := exchanged_ensureStripeButton (D := False) (info.shownAt order)
    hex.get?_self False.elim
  refine ⟨order, { x₂ with stripeButton := b }, horder,
    ((hcommit.andThen hex).andThen hbutton).fire, hstanding, ?_, hatt⟩
  rw [hcommit.desktop] at hfor
  exact hfor

theorem ensures_showWindow_inPlace (hx : e.entries.get? key = some x) (ha : x.available)
    (hbare : x.attached = none ∧ x.floating = none ∧ x.windowed = none)
    (hplaced : e.layout.get? info.id = some info) (hinfo : x.info = info) (hv : info.visible)
    (ho : info.hasOrder) (hb : info.showStripeButton)
    (hfree : info.occupiesSlot → e.occupants key info.slot = []) (hempty : e.sideStack = .empty) :
    Ensures (showWindow key info dirty) e fun _ e' ↦ ∃ x',
      Exchanged False key x x' e.layout e e' ∧ x'.standing = x.standing ∧
        x'.IsDecoratedFor e.host.desktop.headless info ∧
        x'.attached = if info.occupiesSlot then some info else none := by
  have hslot : info.windowType.isInternal → e.occupants key info.slot = [] := fun hi ↦
    hfree (by rw [WindowInfo.occupiesSlot, hv, hi]; rfl)
  refine (ensures_showWindow_free hx ha hbare hslot hempty).mono ?_
  intro _ e' hq
  rcases hq with ⟨order, x', horder, hq⟩
  have hsame : { x with info := info } = x := by rw [← hinfo]
  rw [if_pos ho] at horder
  rw [horder, WindowInfo.shownAt_order hv hb, hsame, Layout.put_of_get? hplaced] at hq
  exact ⟨x', hq⟩

/-- The windows with the given ids are registered, each as the layout has it, and nobody was
evicted. -/
structure Resumed (l : Layout) (ids : List String) (e : Engine) : Prop where
  layout : e.layout = l
  snapshot : e.snapshot = l
  sideStack : e.sideStack = .empty
  entry : ∀ {key x}, e.entries.get? key = some x →
    x.name ∈ ids ∧ x.IsPlaced l e.host.desktop.headless
  registered : ∀ id ∈ ids, ∃ key x, e.entries.get? key = some x ∧ x.name = id

theorem Resumed.admits (h : Resumed l ids e) (hadmits : Admits key x e e')
    (hsnapshot : e'.snapshot = l) (hx : x.IsPlaced l e.host.desktop.headless) :
    Resumed l (ids ++ [x.name]) e' := by
  refine ⟨hadmits.layout.trans h.layout, hsnapshot, hadmits.sideStack.trans h.sideStack,
    fun {k y} hy ↦ ?_, fun id hid ↦ ?_⟩
  · rw [hadmits.desktop]
    rw [hadmits.get?] at hy
    split at hy
    case isTrue =>
      cases hy
      exact ⟨List.mem_append_right _ (List.mem_singleton_self _), hx⟩
    case isFalse =>
      obtain ⟨hmem, hplaced⟩ := h.entry hy
      exact ⟨List.mem_append_left _ hmem, hplaced⟩
  · rcases List.mem_append.1 hid with hid | hid
    · obtain ⟨k, y, hy, hname⟩ := h.registered id hid
      have hne : k ≠ key := by
        rintro rfl
        cases hadmits.fresh.symm.trans hy
      exact ⟨k, y, (hadmits.get?_other hne).trans hy, hname⟩
    · exact ⟨key, x, hadmits.get?_self, (List.mem_singleton.1 hid).symm⟩

theorem Admits.onHost {f : Host → Host} (h : Admits key x e e') (hk : e'.host.Keeps (f e'.host)) :
    Admits key x e (e'.onHost f) :=
  ⟨h.fresh, h.get?, h.layout, hk.desktop.trans h.desktop, h.sideStack⟩

theorem Resumed.free (h : Resumed l ids e) (hl : l.violations = []) (hadmits : Admits key x e e')
    (hinfo : l.get? id = some info) (hnew : id ∉ ids) (ho : info.occupiesSlot) :
    e'.occupants key info.slot = [] := by
  refine occupants_eq_nil_iff.2 fun k y hne hy hoy hslot ↦ ?_
  obtain ⟨hmem, hplaced⟩ := h.entry ((hadmits.get?_other hne).symm.trans hy)
  have heq := Layout.slot_inj_of_violations hl hplaced.placement hinfo hoy ho hslot
  exact hnew (heq ▸ hmem)

theorem Resumed.shown (h : Resumed l ids e) (hl : l.Restorable) (hadmits : Admits key x e e₁)
    (hx : x.standing = ⟨info.id, info.id, info, true⟩)
    (hbare : x.attached = none ∧ x.floating = none ∧ x.windowed = none)
    (hinfo : l.get? info.id = some info) (hnew : info.id ∉ ids) (hv : info.visible) :
    Ensures (showWindow key info dirty) e₁ fun _ e₂ ↦ ∃ x', Admits key x' e e₂ ∧
      x'.name = info.id ∧ x'.IsPlaced l e.host.desktop.headless := by
  obtain ⟨hname, hid, hxinfo, ha⟩ := Standing.mk.inj hx
  obtain ⟨ho, hb⟩ := hl.shown info (Layout.mem_of_get? hinfo) hv
  have hplaced : e₁.layout.get? info.id = some info := by
    rw [hadmits.layout, h.layout]
    exact hinfo
  refine (ensures_showWindow_inPlace hadmits.get?_self ha hbare hplaced hxinfo hv ho hb
    (h.free hl.violations hadmits hinfo hnew) (hadmits.sideStack.trans h.sideStack)).mono ?_
  intro _ e₂ hq
  rcases hq with ⟨x', hex, hstanding, hfor, hatt⟩
  obtain ⟨hname', hid', hinfo', -⟩ := Standing.mk.inj (hstanding.trans hx)
  refine ⟨x', hadmits.andThen hex, hname', hid'.trans hname'.symm, ?_, ?_, ?_⟩
  · rw [hname', hinfo']
    exact hinfo
  · rw [hinfo']
    exact hatt
  · rw [Entry.isDecorated_of_visible (by rw [hinfo']; exact hv), hinfo', ← hadmits.desktop]
    exact hfor

theorem Resumed.finish {pane : String} {kind : EventKind} {id : Option String}
    (h : Resumed l ids e) (hadmits : Admits key x e e')
    (hx : x.IsPlaced l e.host.desktop.headless) :
    Resumed l (ids ++ [x.name]) ((e'.validatePane pane).fire kind id) := by
  have hlast := hadmits.onHost (f := (·.record (.validatePane pane))) Host.keeps_record
  refine h.admits ⟨hlast.fresh, hlast.get?, hlast.layout, hlast.desktop, hlast.sideStack⟩ ?_ hx
  exact hadmits.layout.trans h.layout

theorem Resumed.settle (h : Resumed l ids e) (hl : l.Restorable) (hr : r.Returns l)
    (hinfo : l.get? r.id = some info) (hnew : r.id ∉ ids) :
    Ensures (Engine.settle r (r.needsButton (some info)) info).run e fun res e' ↦
      res = .ok () ∧ Resumed l (ids ++ [r.id]) e' := by
  have hid : info.id = r.id := Layout.id_of_get? hinfo
  have hentered : entered r info = info := entered_eq fun _ ↦ ⟨hr.hasContent, hr.available⟩
  have hbutton : r.needsButton (some info) = info.showStripeButton := by
    rw [RegisterRequest.needsButton, hr.available, Option.all_some, Bool.true_and]
  simp only [Engine.settle, hentered, ensures_run_lift_bind, ensures_run_ite, ensures_run_get_bind,
    ensures_run_modify, ensures_run_modify_bind]
  refine ensures_insertEntry.mono ?_
  intro key e₁ hq
  rcases hq with ⟨b, hadmits⟩
  refine ⟨fun hshow ↦ ?_, fun hnot ↦ ⟨trivial, h.finish hadmits ?_⟩⟩
  · have hv : info.visible := (Bool.and_eq_true_iff.1 hshow).2
    rw [← hid] at hinfo hnew
    have hstanding :
        Standing.mk r.id info.id info r.available = ⟨info.id, info.id, info, true⟩ := by
      rw [hid, hr.available]
    refine (h.shown hl hadmits hstanding ⟨rfl, rfl, rfl⟩ hinfo hnew hv).mono ?_
    intro _ e₂ hq
    rcases hq with ⟨x, hshown, hname, hx⟩
    rw [← hid, ← hname]
    exact ⟨fun _ ↦ ⟨trivial, h.finish (hshown.onHost Host.keeps_requestFocus) hx⟩,
      fun _ ↦ ⟨trivial, h.finish hshown hx⟩⟩
  · have hv : info.visible = false := by
      refine Bool.eq_false_iff.2 fun hv ↦ hnot ?_
      rw [hbutton, (hl.shown info (Layout.mem_of_get? hinfo) hv).2, hv]
      rfl
    refine ⟨hid, hinfo, ?_, (Entry.isDecorated_of_hidden hv).2 ⟨rfl, rfl, rfl⟩⟩
    have ho : info.occupiesSlot = false := WindowInfo.not_occupiesSlot hv
    rw [if_neg (by rw [show (Entry.info _) = info from rfl, ho]; exact Bool.false_ne_true)]
    rfl

theorem knownPlacement_of_none (h : r.placement = none) :
    knownPlacement r = do return (← get).layout.get? r.id := by
  rw [knownPlacement, h]

theorem run_register_of_get? (hnone : r.placement = none)
    (hfree : e.isRegistered r.id = false) (hinfo : e.layout.get? r.id = some info) :
    (Engine.register r).run e = (Engine.settle r (r.needsButton (some info)) info).run e := by
  have hget : ∀ f : Engine → Operation Unit, (get >>= f).run e = (f e).run e := fun _ ↦ rfl
  simp only [Engine.register, knownPlacement_of_none hnone, bind_assoc, pure_bind, hget, hfree,
    Bool.false_eq_true, if_false, hinfo]
  rfl

theorem Resumed.register (h : Resumed l ids e) (hl : l.Restorable) (hr : r.Returns l)
    (hnew : r.id ∉ ids) : Ensures (Engine.register r).run e fun res e' ↦
      res = .ok () ∧ Resumed l (ids ++ [r.id]) e' := by
  obtain ⟨info, hinfo⟩ := Layout.contains_iff.1 hr.known
  have hfree : e.isRegistered r.id = false := by
    cases hkey : e.keyOf? r.id with
    | none => rw [isRegistered, hkey]; rfl
    | some key =>
      obtain ⟨x, hx, hname⟩ := get?_of_keyOf? hkey
      exact absurd (hname ▸ (h.entry hx).1) hnew
  have hplaced : e.layout.get? r.id = some info := h.layout ▸ hinfo
  intro res e' hrun
  rw [run_register_of_get? hr.placement hfree hplaced] at hrun
  exact h.settle hl hr hinfo hnew hrun

/-- Every window that is registered comes back, whichever came before it. -/
theorem Resumed.registerAll (h : Resumed l ids e) (hl : l.Restorable) (hrs : ∀ r ∈ rs, r.Returns l)
    (hnodup : (ids ++ rs.map RegisterRequest.id).Nodup) :
    Ensures (rs.forM Engine.register).run e fun res e' ↦
      res = .ok () ∧ Resumed l (ids ++ rs.map RegisterRequest.id) e' := by
  induction rs generalizing ids e with
  | nil =>
    rw [List.map_nil, List.append_nil]
    exact ensures_run_pure.2 ⟨rfl, h⟩
  | cons r rs ih =>
    have hassoc : ids ++ (r :: rs).map RegisterRequest.id =
        ids ++ [r.id] ++ rs.map RegisterRequest.id := by simp
    rw [hassoc] at hnodup ⊢
    have hnew : r.id ∉ ids := by
      intro hmem
      have hfirst := (List.nodup_append.1 (List.nodup_append.1 hnodup).1).2.2
      exact hfirst r.id hmem r.id (List.mem_singleton_self _) rfl
    rw [List.forM_eq_forM, List.forM_cons, ensures_run_bind]
    refine (h.register hl (hrs r (List.mem_cons_self ..)) hnew).mono ?_
    rintro _ e₁ ⟨rfl, h₁⟩
    refine ⟨fun _ _ ↦ ?_, fun _ hr ↦ by cases hr⟩
    exact ih h₁ (fun r' hr' ↦ hrs r' (List.mem_cons_of_mem _ hr')) hnodup

def attached? (e : Engine) (id : String) : Option WindowInfo := (e.entry? id).bind Entry.attached

namespace Resumed

theorem entry?_eq_none (h : Resumed l ids e) (hid : id ∉ ids) : e.entry? id = none := by
  cases hkey : e.keyOf? id with
  | none =>
    unfold entry?
    rw [hkey, Option.bind_none]
  | some key =>
    obtain ⟨x, hx, hname⟩ := get?_of_keyOf? hkey
    exact absurd (hname ▸ (h.entry hx).1) hid

theorem entry?_eq_some (h : Resumed l ids e) (hid : id ∈ ids) :
    ∃ x, e.entry? id = some x ∧ x.name = id ∧ x.IsPlaced l e.host.desktop.headless := by
  cases hkey : e.keyOf? id with
  | none =>
    obtain ⟨k, y, hy, hname⟩ := h.registered id hid
    exact absurd hname (name_ne_of_keyOf?_eq_none hkey hy)
  | some key =>
    obtain ⟨x, hx, hname⟩ := get?_of_keyOf? hkey
    refine ⟨x, ?_, hname, (h.entry hx).2⟩
    unfold entry?
    rw [hkey, Option.bind_some, hx]

theorem windowInfo?_eq (h : Resumed l ids e) :
    e.windowInfo? id = if id ∈ ids then l.get? id else none := by
  rw [windowInfo?]
  split
  case isTrue hid =>
    obtain ⟨x, hx, hname, hplaced⟩ := h.entry?_eq_some hid
    rw [hx, Option.map_some, ← hname, hplaced.placement]
  case isFalse hid => rw [h.entry?_eq_none hid, Option.map_none]

theorem attached?_eq (h : Resumed l ids e) :
    e.attached? id = if id ∈ ids then (l.get? id).filter (·.occupiesSlot) else none := by
  rw [attached?]
  split
  case isTrue hid =>
    obtain ⟨x, hx, hname, hplaced⟩ := h.entry?_eq_some hid
    rw [hx, Option.bind_some, ← hname, hplaced.placement, hplaced.attached, Option.filter_some]
  case isFalse hid => rw [h.entry?_eq_none hid, Option.bind_none]

theorem isVisible_iff (h : Resumed l ids e) :
    e.isVisible id ↔ id ∈ ids ∧ (l.get? id).any (·.visible) := by
  rw [isVisible, h.windowInfo?_eq]
  split
  case isTrue hid => exact (and_iff_right hid).symm
  case isFalse hid => simp [hid]

theorem violations_eq (h : Resumed l ids e) (hl : l.violations = []) : e.violations = [] := by
  rw [violations, h.layout, hl, List.map_nil, List.append_nil, List.flatMap_eq_nil_iff]
  intro x hx
  obtain ⟨⟨key, y⟩, hrow, rfl⟩ := List.mem_map.1 hx
  obtain ⟨-, hplaced⟩ := h.entry (SlotTable.mem_toList.1 hrow)
  rw [entryViolations]
  split
  case isFalse => rfl
  case isTrue hv =>
    have hfor := (Entry.isDecorated_of_visible hv).1 hplaced.decorated
    have hdecorated : e.lacksDecorator y = false := by
      unfold Entry.IsDecoratedFor at hfor
      unfold lacksDecorator
      cases ht : y.info.windowType with
      | docked | sliding => rfl
      | floating =>
        rw [ht] at hfor
        simpa using hfor.2.1
      | windowed =>
        rw [ht] at hfor
        rcases hfor.2.2 with hw | hheadless
        · have hw : y.windowed.isSome = true := hw
          simp [← Option.not_isSome, hw]
        · simp [hheadless]
    have hlayout : e.isHiddenInLayout y = false := by
      rw [isHiddenInLayout, h.layout, hplaced.id_eq, hplaced.placement, Option.any_some, hv]
      rfl
    rw [hdecorated, hlayout]
    rfl

end Resumed

/-- Engines without windows, where a layout was put in place: handed over, or taken from a store. -/
inductive Starts (l : Layout) : Engine → Prop
  | handed {host : Host} {settings : Settings} {keyChord : KeyChord} {e : Engine}
      {res : Except EngineError Unit} :
      (setInitialLayout l).run (.new host settings keyChord) = .ok res e → Starts l e
  | stored {host : Host} {settings : Settings} {keyChord : KeyChord} {e : Engine} {ε : Type}
      {res : Except ε Bool} :
      (loadFrom (.ok (some l))).run (.new host settings keyChord) = .ok res e → Starts l e

theorem Starts.resumed (h : Starts l e) : Resumed l [] e := by
  have hfresh : ∀ host settings keyChord,
      Resumed l [] ((Engine.new host settings keyChord).replaceLayout l) := fun _ _ _ ↦
    ⟨rfl, rfl, rfl, fun hx ↦ (nomatch hx), fun _ hid ↦ (nomatch hid)⟩
  cases h with
  | handed hrun =>
    cases hrun
    exact hfresh _ _ _
  | stored hrun =>
    cases hrun
    exact hfresh _ _ _

/-- The same layout, and for every id the same placement in the entry and in a pane. -/
def Matches (e e' : Engine) : Prop :=
  e.layout = e'.layout ∧
    ∀ id, e.windowInfo? id = e'.windowInfo? id ∧ e.attached? id = e'.attached? id

variable {res : Except EngineError Unit}

/-- Whatever windows of a stored layout are registered again, and in whatever order, the layout
stays as it was stored, just those are visible that it has visible, nothing is wrong and nobody was
evicted. Another order, in this session or another, leads to an engine that matches. -/
theorem resumed_register (hl : l.Restorable) (hstart : Starts l e) (hrs : ∀ r ∈ rs, r.Returns l)
    (hnodup : (rs.map RegisterRequest.id).Nodup) (hrun : (rs.forM register).run e = .ok res e') :
    res = .ok () ∧ e'.layout = l ∧ e'.snapshot = l ∧
      (∀ id, e'.isVisible id ↔ id ∈ rs.map RegisterRequest.id ∧ (l.get? id).any (·.visible)) ∧
      e'.violations = [] ∧ e'.sideStack = .empty ∧
      ∀ (rs₁ : List RegisterRequest) res₁ e₁ e₂, Starts l e₁ → (∀ r ∈ rs₁, r.Returns l) →
        (rs₁.map RegisterRequest.id).Perm (rs.map RegisterRequest.id) →
        (rs₁.forM register).run e₁ = .ok res₁ e₂ → e₂.Matches e' := by
  obtain ⟨hres, h⟩ := hstart.resumed.registerAll hl hrs hnodup hrun
  refine ⟨hres, h.layout, h.snapshot, fun _ ↦ h.isVisible_iff, h.violations_eq hl.violations,
    h.sideStack, fun rs₁ res₁ e₁ e₂ hstart₁ hrs₁ hperm hrun₁ ↦ ?_⟩
  obtain ⟨-, h₂⟩ := hstart₁.resumed.registerAll hl hrs₁ (hperm.nodup_iff.2 hnodup) hrun₁
  refine ⟨h₂.layout.trans h.layout.symm, fun id ↦ ⟨?_, ?_⟩⟩
  · rw [h₂.windowInfo?_eq, h.windowInfo?_eq]
    simp only [List.nil_append, hperm.mem_iff]
  · rw [h₂.attached?_eq, h.attached?_eq]
    simp only [List.nil_append, hperm.mem_iff]

def storedLayout : Layout :=
  .ofList [{ WindowInfo.new "A" .left with visible := true, order := 0 },
    { WindowInfo.new "B" .right with
      visible := true, windowType := .floating, order := 0 },
    { WindowInfo.new "C" .left with order := 1 }]

/-- The first two windows come back, in either order. -/
theorem resumed_storedLayout : ∃ e e' e'',
    (setInitialLayout storedLayout).run blank = .ok (.ok ()) e ∧
      ([hiddenRequest "A", hiddenRequest "B"].forM register).run e = .ok (.ok ()) e' ∧
      ([hiddenRequest "B", hiddenRequest "A"].forM register).run e = .ok (.ok ()) e'' ∧
      e'.layout = storedLayout ∧ e'.isVisible "A" ∧ e'.isVisible "B" ∧ e'.violations = [] ∧
      e''.Matches e' := by
  obtain ⟨e, hinstall, hok, hok'⟩ : ∃ e,
      (setInitialLayout storedLayout).run blank = .ok (.ok ()) e ∧
        e.accepts ([hiddenRequest "A", hiddenRequest "B"].forM register) ∧
        e.accepts ([hiddenRequest "B", hiddenRequest "A"].forM register) :=
    ⟨_, rfl, by decide +kernel, by decide +kernel⟩
  obtain ⟨e', hrun⟩ := exists_run_of_accepts hok
  obtain ⟨e'', hrun'⟩ := exists_run_of_accepts hok'
  have hA : (hiddenRequest "A").Returns storedLayout := ⟨by decide +kernel, rfl, rfl, rfl⟩
  have hB : (hiddenRequest "B").Returns storedLayout := ⟨by decide +kernel, rfl, rfl, rfl⟩
  obtain ⟨-, hlayout, -, hvisible, hviolations, -, hmatches⟩ :=
    resumed_register ⟨by decide +kernel, by decide +kernel⟩ (.handed hinstall)
      (by simp [hA, hB]) (by decide) hrun
  exact ⟨e, e', e'', hinstall, hrun, hrun', hlayout, (hvisible "A").2 (by decide +kernel),
    (hvisible "B").2 (by decide +kernel), hviolations,
    hmatches [hiddenRequest "B", hiddenRequest "A"] _ _ _ (.handed hinstall) (by simp [hA, hB])
      (.swap _ _ _) hrun'⟩

end Engine

end ToolDock
