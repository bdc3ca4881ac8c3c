import ToolDock.Proofs.Replacement
import ToolDock.Proofs.Resuming

namespace ToolDock

/-- Whether there is a place for the external window of a placement, if it gets one where there is
no user interface. -/
def WindowInfo.isPlaceable (d : Desktop) (w : WindowInfo) : Bool :=
  w.windowType != .floating || (d.place w.floatingBounds).isOk

namespace Engine

variable {α β : Type} {e : Engine} {key : SlotKey} {x : Entry} {info : WindowInfo} {dirty : Bool}

/-- The action returns, with whatever result. -/
def Returns (x : Action α) (e : Engine) : Prop := ∃ a e', x e = .ok a e'

theorem returns_pure {a : α} : Returns (pure a) e := ⟨a, e, rfl⟩

theorem returns_get : Returns get e := ⟨e, e, rfl⟩

theorem returns_modify {f : Engine → Engine} : Returns (modify f) e := ⟨(), f e, rfl⟩

theorem returns_modifyGet {f : Engine → α × Engine} : Returns (modifyGet f) e :=
  ⟨(f e).1, (f e).2, rfl⟩

theorem run_bind_of_ok {x : Action α} {f : α → Action β} {a : α} {e' : Engine}
    (h : x e = .ok a e') : (x >>= f) e = f a e' := by
  have hrun : (x >>= f) e = EStateM.bind x f e := rfl
  rw [hrun, EStateM.bind, h]

theorem run_bind_congr {x y : Action α} {f : α → Action β} (h : x e = y e) :
    (x >>= f) e = (y >>= f) e := by
  have hrun : ∀ a : Action α, (a >>= f) e = EStateM.bind a f e := fun _ ↦ rfl
  rw [hrun, hrun, EStateM.bind, EStateM.bind, h]

theorem ensures_congr {x y : Action α} {e' : Engine} {Q : α → Engine → Prop}
    (h : x e = y e') : Ensures x e Q ↔ Ensures y e' Q := by
  rw [Ensures, h, Ensures]

theorem returns_congr {x y : Action α} {e' : Engine} (h : x e = y e') :
    Returns x e ↔ Returns y e' := by
  rw [Returns, h, Returns]

theorem returns_bind {x : Action α} {f : α → Action β} :
    Returns (x >>= f) e ↔ Returns x e ∧ Ensures x e fun a e' ↦ Returns (f a) e' := by
  have hrun : (x >>= f) e = EStateM.bind x f e := rfl
  unfold Returns Ensures
  rw [hrun, EStateM.bind]
  cases hx : x e with
  | ok a e' => simp
  | error fault e' => simp

theorem returns_check {x : Checked α} : Returns (check x) e ↔ x.isOk := by
  cases x with
  | ok a => exact iff_of_true returns_pure rfl
  | error fault => exact iff_of_false (fun ⟨_, _, h⟩ ↦ by cases h) Bool.false_ne_true

theorem returns_ite {c : Prop} [Decidable c] {x y : Action α} :
    Returns (if c then x else y) e ↔ (c → Returns x e) ∧ (¬ c → Returns y e) := by
  by_cases hc : c <;> simp [hc]

theorem returns_run_bind {x : Operation β} {f : β → Operation α} :
    Returns (x >>= f).run e ↔
      Returns x.run e ∧ Ensures x.run e fun r e' ↦ ∀ b, r = .ok b → Returns (f b).run e' := by
  rw [ExceptT.run_bind, returns_bind]
  refine and_congr_right fun _ ↦ ?_
  refine ⟨fun h ↦ h.mono fun r e' hr b hb ↦ ?_, fun h ↦ h.mono fun r e' hr ↦ ?_⟩
  · subst hb
    exact hr
  · cases r with
    | ok b => exact hr b rfl
    | error error => exact returns_pure

theorem returns_run_lift {x : Action α} : Returns (liftM x : Operation α).run e ↔ Returns x e := by
  have hrun : (liftM x : Operation α).run = x >>= fun a ↦ pure (.ok a) := rfl
  rw [hrun, returns_bind]
  exact and_iff_left fun _ _ _ ↦ returns_pure

theorem returns_run_lift_bind {x : Action β} {f : β → Operation α} :
    Returns (liftM x >>= f).run e ↔ Returns x e ∧ Ensures x e fun b e' ↦ Returns (f b).run e' := by
  rw [returns_run_bind, returns_run_lift, ensures_run_lift]
  simp

theorem returns_run_ite {c : Prop} [Decidable c] {x y : Operation α} :
    Returns (if c then x else y).run e ↔ (c → Returns x.run e) ∧ (¬ c → Returns y.run e) := by
  by_cases hc : c <;> simp [hc]

theorem returns_run_get_bind {f : Engine → Operation α} :
    Returns (get >>= f).run e ↔ Returns (f e).run e := .rfl

theorem returns_run_modify_bind {g : Engine → Engine} {f : Unit → Operation α} :
    Returns (modify g >>= f).run e ↔ Returns (f ()).run (g e) := .rfl

theorem returns_run_modify {g : Engine → Engine} : Returns (modify g : Operation Unit).run e :=
  ⟨.ok (), g e, rfl⟩

theorem run_lift_bind {x : Action β} {f : β → Operation α} :
    (liftM x >>= f).run = x >>= fun b ↦ (f b).run := by
  have hlift : (liftM x : Operation β).run = x >>= fun b ↦ pure (.ok b) := rfl
  rw [ExceptT.run_bind, hlift, bind_assoc]
  simp only [pure_bind]

theorem run_get_bind {f : Engine → Operation α} : (get >>= f).run e = (f e).run e := rfl

theorem run_takeInfo_bind {f : WindowInfo → Operation α} :
    (liftM (takeInfo key) >>= f).run e =
      (f (e.registeredInfo key).1).run (e.registeredInfo key).2 := rfl

theorem run_keyOf_bind {f : SlotKey → Operation α} {id : String} (h : e.keyOf? id = some key) :
    (keyOf id >>= f).run e = (f key).run e := by
  have hkey : (keyOf id).run e = .ok (.ok key) e := by
    rw [keyOf, run_get_bind, h]
    rfl
  rw [ExceptT.run_bind, run_bind_of_ok hkey]

theorem run_keyOf_bind_none {f : SlotKey → Operation α} {id : String} (h : e.keyOf? id = none) :
    (keyOf id >>= f).run e = .ok (.error (.notRegistered id)) e := by
  have hkey : (keyOf id).run e = .ok (.error (.notRegistered id)) e := by
    rw [keyOf, run_get_bind, h]
    rfl
  rw [ExceptT.run_bind, run_bind_of_ok hkey]
  rfl

theorem externalPlacement_opened (h : Host) (kind : ExternalKind) (info : WindowInfo) :
    externalPlacement (h.openExternal kind info).2 (h.openExternal kind info).1 info =
      h.desktop.place info.floatingBounds := by
  refine externalPlacement_eq ?_
  have hopened : (h.openExternal kind info).2.objects.get? (h.openExternal kind info).1 =
      some (.external ⟨info.id, kind, .ofParts h.desktop.externalOrigin ⟨0, 0⟩, false, false,
        false⟩) :=
    (HandleTable.get?_alloc ..).trans (if_pos rfl)
  rw [Host.externalBounds, Host.external?, hopened]
  rfl

theorem returns_placeExternal {a : Handle} :
    Returns (placeExternal a info) e ↔ (externalPlacement e.host a info).isOk := by
  simp only [placeExternal, returns_bind, returns_get, returns_modify, returns_check, ensures_get,
    true_and]
  exact and_iff_left fun _ _ _ ↦ trivial

/-- Only a floating window is placed, and the placing is all that may fail. -/
theorem returns_addDecorator (hx : e.entries.get? key = some x) (hhead : e.host.desktop.headless)
    (hw : info.isPlaceable e.host.desktop) : Returns (addDecorator key info dirty) e := by
  obtain ⟨d, hdec⟩ := exchanged_decoratorOf (D := False) hx False.elim
  unfold addDecorator
  cases ht : info.windowType with
  | docked | sliding => exact returns_modify
  | windowed =>
    simp only [addWindowedDecorator, returns_bind, returns_ite, ensures_get]
    exact ⟨returns_get, fun _ ↦ returns_pure, fun hseen ↦ absurd hhead hseen⟩
  | floating =>
    have hplace : (e.host.desktop.place info.floatingBounds).isOk := by
      simpa [WindowInfo.isPlaceable, ht] using hw
    simp only [addFloatingDecorator, openExternal, returns_bind, returns_modify, returns_modifyGet,
      returns_placeExternal, ensures_modify, ensures_modifyGet, true_and]
    refine ⟨?_, fun _ _ _ ↦ trivial⟩
    rw [← hdec.desktop, ← externalPlacement_opened _ .floating] at hplace
    exact hplace

theorem ensures_addDecorator_placeable (hx : e.entries.get? key = some x) :
    Ensures (addDecorator key info dirty) e fun _ _ ↦ info.isPlaceable e.host.desktop := by
  obtain ⟨d, hdec⟩ := exchanged_decoratorOf (D := False) hx False.elim
  unfold addDecorator
  cases ht : info.windowType with
  | docked | sliding | windowed =>
    intro _ _ _
    simp [WindowInfo.isPlaceable, ht]
  | floating =>
    simp only [addFloatingDecorator, openExternal, ensures_bind, ensures_modify, ensures_modifyGet,
      ensures_placeExternal]
    intro bounds hbounds
    have hplace : (e.decoratorOf key).2.host.desktop.place info.floatingBounds = .ok bounds :=
      (externalPlacement_opened _ .floating info).symm.trans hbounds
    rw [hdec.desktop] at hplace
    rw [WindowInfo.isPlaceable, hplace, Except.isOk, Except.toBool, Bool.or_true]

theorem returns_showWindow (hx : e.entries.get? key = some x) (hhead : e.host.desktop.headless)
    (ho : info.hasOrder) (hw : info.isPlaceable e.host.desktop) :
    Returns (showWindow key info dirty) e := by
  have hassigned : assignedOrder info = pure info.order := by rw [assignedOrder, if_pos ho]
  have hcommit := exchanged_commit (D := False) (info.shownAt info.order) hx False.elim
  have hdecorates : Returns (addDecorator key (info.shownAt info.order) dirty)
      (e.commit key (info.shownAt info.order)) :=
    returns_addDecorator hcommit.get?_self hhead hw
  -- whoever is evicted, an internal window only goes into its pane
  have hdocks : info.windowType.isInternal → ∀ e₁,
      Returns (addDecorator key (info.shownAt info.order) dirty) e₁ := by
    intro hi e₁
    rw [addDecorator_of_internal (show (info.shownAt info.order).windowType.isInternal from hi)]
    exact returns_modify
  simp only [showWindow, hassigned, pure_bind, returns_bind, returns_get, returns_ite,
    returns_modify, returns_pure, ensures_get, ensures_modify, true_and]
  exact ⟨fun _ ↦ trivial, fun _ ↦ ⟨fun hi ↦ ⟨hdocks hi _, fun _ _ _ ↦ trivial⟩,
    fun _ ↦ ⟨hdecorates, fun _ _ _ ↦ trivial⟩⟩⟩

theorem ensures_showWindow_placeable (hx : e.entries.get? key = some x) (ha : x.available) :
    Ensures (showWindow key info dirty) e fun _ _ ↦ info.isPlaceable e.host.desktop := by
  by_cases hi : info.windowType.isInternal = true
  · intro _ _ _
    cases ht : info.windowType <;> simp_all [WindowInfo.isPlaceable, WindowType.isInternal]
  · refine ensures_showWindow hx ha fun order _ ↦ ?_
    have hcommit := exchanged_commit (D := False) (info.shownAt order) hx False.elim
    have hevict : e.evictFor key (info.shownAt order) dirty = e := if_neg hi
    rw [hevict]
    exact ensures_addDecorator_placeable hcommit.get?_self

end Engine

end ToolDock
