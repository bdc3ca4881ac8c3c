import ToolDock.Proofs.MountedSession

/-!
What a change of a layout leaves alone, whatever engine it is made in: the panes, the desktop, who
the registered windows are, and that entries hold the decorators of their own windows. Main
statement: `steady_applyChange`.
-/

namespace ToolDock

namespace Engine

variable {e e' e'' : Engine} {key : SlotKey} {info : WindowInfo} {dirty : Bool}
  {c : LayoutChange} {α β : Type}

theorem KeepsEntries.of_modify {g : Entry → α} {f : Entry → Entry}
    (he : e'.entries = e.entries.modify key f) (hf : ∀ x, g (f x) = g x) : KeepsEntries g e e' := by
  intro k x hx
  rw [he, SlotTable.get?_modify]
  split
  · exact ⟨f x, by rw [hx, Option.map_some], hf x⟩
  · exact ⟨x, hx, rfl⟩

structure Steady (e e' : Engine) : Prop where
  panes : e'.panes = e.panes
  settings : e'.settings = e.settings
  desktop : e'.host.desktop = e.host.desktop
  identity : KeepsEntries Entry.identity e e'
  mounted : ∀ k, e.MountedAt k → e'.MountedAt k

namespace Steady

theorem of_eq (he : e'.entries = e.entries) (hh : e'.host = e.host) (hp : e'.panes = e.panes)
    (hs : e'.settings = e.settings) : Steady e e' :=
  ⟨hp, hs, by rw [hh], .of_entries he, fun _ h ↦
    h.congr he (P := HostOp.adorns) (by rw [hh]; exact .refl)⟩

theorem refl : Steady e e := of_eq rfl rfl rfl rfl

theorem trans (h : Steady e e') (h' : Steady e' e'') : Steady e e'' :=
  ⟨h'.panes.trans h.panes, h'.settings.trans h.settings, h'.desktop.trans h.desktop,
    h.identity.trans h'.identity, fun k hm ↦ h'.mounted k (h.mounted k hm)⟩

theorem foldl {f : Engine → α → Engine} (hf : ∀ e a, Steady e (f e a)) (as : List α) :
    Steady e (as.foldl f e) := by
  induction as generalizing e with
  | nil => exact refl
  | cons a as ih => exact (hf e a).trans ih

theorem paneFor_eq (h : Steady e e') (pane : String) : e'.paneFor pane = e.paneFor pane := by
  rw [paneFor, h.panes, paneFor]

theorem frameOf_eq (h : Steady e e') (pane : String) :
    e'.host.frameOf pane = e.host.frameOf pane := by
  rw [Host.frameOf, h.desktop, Host.frameOf]

end Steady

theorem Steady.then {x : Action β} (h : Steady e e') (hx : Ensures x e' fun _ e'' ↦ Steady e' e'') :
    Ensures x e' fun _ e'' ↦ Steady e e'' :=
  hx.mono fun _ _ h' ↦ h.trans h'

theorem steady_fire {kind : EventKind} {id : Option String} : Steady e (e.fire kind id) :=
  .of_eq rfl rfl rfl rfl

theorem steady_commit : Steady e (e.commit key info) :=
  ⟨rfl, rfl, rfl, .of_modify rfl fun _ ↦ rfl, fun _ h ↦ h.commit⟩

theorem steady_registeredInfo : Steady e (e.registeredInfo key).2 := by
  unfold registeredInfo
  repeat' split
  all_goals exact .of_eq rfl rfl rfl rfl

theorem steady_forgetEvicted {id : String} : Steady e (e.forgetEvicted id) := by
  unfold forgetEvicted
  split
  all_goals exact .of_eq rfl rfl rfl rfl

theorem steady_remembering : Steady e (e.remembering info) := by
  unfold remembering
  split
  all_goals exact .of_eq rfl rfl rfl rfl

theorem steady_removeStripeButton : Steady e (e.removeStripeButton key) := by
  refine ⟨?_, ?_, ?_, ?_, fun _ h ↦ h.removeStripeButton⟩
  all_goals
    unfold removeStripeButton
    split
  all_goals first
    | rfl
    | exact Host.desktop_removeStripeButton
    | exact .of_modify rfl fun _ ↦ rfl
    | exact .refl

theorem steady_ensureStripeButton : Steady e (e.ensureStripeButton key info) := by
  unfold ensureStripeButton
  split
  · exact ⟨rfl, rfl, rfl, .of_modify rfl fun _ ↦ rfl, fun _ h ↦ h.createStripeButton⟩
  · exact .refl

theorem steady_resetStripeButton : Steady e (e.resetStripeButton key info) := by
  unfold resetStripeButton
  dsimp only
  split
  · exact steady_removeStripeButton.trans steady_ensureStripeButton
  · exact steady_removeStripeButton

theorem steady_closeHandle {a : Option Handle} : Steady e (e.closeHandle a) := by
  cases a with
  | none => exact .refl
  | some a => exact ⟨rfl, rfl, Host.desktop_closeExternal, .of_entries rfl, fun _ h ↦ h.closeHandle⟩

theorem steady_setExternalMaximized {a : Handle} {maximized : Bool} :
    Steady e (e.onHost (·.setExternalMaximized a maximized)) :=
  ⟨rfl, rfl, rfl, .of_entries rfl, fun _ h ↦ h.onHost Host.records_setExternalMaximized⟩

theorem steady_saveExternalState : Steady e (e.saveExternalState key info).2 := by
  cases hx : e.entries.get? key with
  | none =>
    unfold saveExternalState
    rw [hx]
    exact .refl
  | some x =>
    obtain ⟨-, heq | ⟨a, -, heq⟩⟩ := saveExternalState_eq info hx
    · rw [heq]
      exact .refl
    · rw [heq]
      exact steady_setExternalMaximized

theorem steady_removeExternalDecorators : Steady e (e.removeExternalDecorators key) := by
  unfold removeExternalDecorators
  split
  · exact .refl
  · have hbare : Steady e
        (e.updateEntry key fun x ↦ { x with floating := none, windowed := none }) :=
      ⟨rfl, rfl, rfl, .of_modify rfl fun _ ↦ rfl, fun _ h ↦ h.updateEntry fun _ ↦ ⟨rfl, rfl, id⟩⟩
    exact hbare.trans (steady_closeHandle.trans steady_closeHandle)

theorem steady_openExternal (kind : ExternalKind) (info : WindowInfo) :
    Steady e { e with host := (e.host.openExternal kind info).2 } :=
  ⟨rfl, rfl, rfl, .of_entries rfl, fun _ h ↦ h.congr rfl Host.records_openExternal⟩

theorem steady_placeExternal {a : Handle} :
    Ensures (placeExternal a info) e fun _ e' ↦ Steady e e' :=
  ensures_placeExternal.2 fun _ _ ↦
    ⟨rfl, rfl, rfl, .of_entries rfl, fun _ h ↦ h.onHost Host.records_setExternalBounds⟩

theorem steady_showExternal (a : Handle) (focus : Bool) :
    Steady e (e.onHost (·.showExternal a focus)) :=
  ⟨rfl, rfl, rfl, .of_entries rfl, fun _ h ↦ h.onHost Host.records_showExternal⟩

theorem steady_removeInternalDecorator : Steady e (e.removeInternalDecorator key dirty) := by
  refine ⟨?_, ?_, ?_, ?_, fun _ h ↦ h.removeInternalDecorator⟩
  all_goals
    unfold removeInternalDecorator
    repeat' split
  all_goals first | rfl | exact .refl | exact .of_modify rfl fun _ ↦ rfl

theorem steady_removeDecorators : Steady e (e.removeDecorators key info dirty).2 :=
  (steady_saveExternalState.trans steady_removeExternalDecorators).trans
    steady_removeInternalDecorator

theorem steady_decoratorOf (key : SlotKey) : Steady e (e.decoratorOf key).2 := by
  unfold decoratorOf
  split
  · exact .refl
  case h_2 x hx =>
    split
    · exact .refl
    case h_2 hd =>
      refine ⟨rfl, rfl, Host.keeps_decorator.desktop, .of_modify rfl fun _ ↦ rfl, fun k h ↦ ?_⟩
      have hasked : (e.decoratorOf key).2.MountedAt k := h.decoratorOf
      rw [decoratorOf, hx] at hasked
      dsimp only at hasked
      rw [hd] at hasked
      exact hasked

theorem steady_addInternalDecorator : Steady e (e.addInternalDecorator key info dirty) := by
  have hasked : Steady e (e.decoratorOf key).2 := steady_decoratorOf key
  exact ⟨hasked.panes, hasked.settings, hasked.desktop,
    hasked.identity.trans (.of_modify rfl fun _ ↦ rfl), fun _ h ↦ h.addInternalDecorator info⟩

theorem steady_addFloatingDecorator :
    Ensures (addFloatingDecorator key info) e fun _ e' ↦ Steady e e' := by
  have hhold : ∀ (e : Engine) a, Steady e
      (e.updateEntry key fun x ↦ { x with floating := some a }) := fun _ _ ↦
    ⟨rfl, rfl, rfl, .of_modify rfl fun _ ↦ rfl, fun _ h ↦ h.updateEntry fun _ ↦ ⟨rfl, rfl, id⟩⟩
  simp only [addFloatingDecorator, openExternal, ensures_bind, ensures_modify, ensures_modifyGet]
  have hopen := (steady_decoratorOf (e := e) key).trans (steady_openExternal .floating info)
  exact ((hopen.trans (hhold _ _)).then steady_placeExternal).mono fun _ _ h ↦
    h.trans (steady_showExternal ..)

theorem steady_addWindowedDecorator :
    Ensures (addWindowedDecorator key info) e fun _ e' ↦ Steady e e' := by
  have hhold : ∀ (e : Engine) a, Steady e
      (e.updateEntry key fun x ↦ { x with windowed := some a }) := fun _ _ ↦
    ⟨rfl, rfl, rfl, .of_modify rfl fun _ ↦ rfl, fun _ h ↦ h.updateEntry fun _ ↦ ⟨rfl, rfl, id⟩⟩
  simp only [addWindowedDecorator, openExternal, ensures_bind, ensures_get, ensures_ite,
    ensures_modify, ensures_modifyGet, ensures_pure]
  have hopen := (steady_decoratorOf (e := e) key).trans (steady_openExternal .windowed info)
  refine ⟨fun _ ↦ .refl, fun _ ↦ (hopen.then steady_placeExternal).mono fun _ e₁ h ↦ ?_⟩
  have hshown := fun a ↦
    (h.trans (hhold e₁ a)).trans (steady_showExternal a info.activeOnStart)
  exact ⟨fun _ ↦ (hshown _).trans steady_setExternalMaximized, fun _ ↦ hshown _⟩

theorem steady_addDecorator : Ensures (addDecorator key info dirty) e fun _ e' ↦ Steady e e' := by
  unfold addDecorator
  split
  · exact steady_addFloatingDecorator
  · exact steady_addWindowedDecorator
  · exact ensures_modify.2 steady_addInternalDecorator
  · exact ensures_modify.2 steady_addInternalDecorator

theorem steady_hidden : Steady e (e.hidden key info dirty .none) := by
  have hquiet : Steady e { e with activeStack := e.activeStack.remove key false } :=
    .of_eq rfl rfl rfl rfl
  exact (hquiet.trans steady_removeDecorators).trans steady_commit

theorem steady_evict : Steady e (e.evict dirty key) := by
  obtain ⟨id, heq⟩ := evict_eq dirty (e := e) (k := key)
  rw [heq]
  exact (steady_registeredInfo.trans steady_remembering).trans (steady_hidden.trans steady_fire)

theorem steady_evictFor : Steady e (e.evictFor key info dirty) := by
  unfold evictFor
  split
  · exact .foldl (fun _ _ ↦ steady_evict) _
  · exact .refl

theorem steady_showWindow : Ensures (showWindow key info dirty) e fun _ e' ↦ Steady e e' := by
  refine ensures_showWindow_cases (fun _ ↦ .refl) fun _ order _ ↦ ?_
  refine ((steady_evictFor.trans steady_commit).then steady_addDecorator).mono fun _ _ h ↦ ?_
  exact h.trans (steady_forgetEvicted.trans (steady_ensureStripeButton.trans steady_fire))

theorem steady_restoreFrom {anchor : Anchor} {slot : Slot} {stored : List WindowInfo} :
    Ensures (restoreFrom anchor slot dirty stored) e fun _ e' ↦ Steady e e' := by
  induction stored generalizing e with
  | nil => exact ensures_pure.2 .refl
  | cons stored rest ih =>
    simp only [restoreFrom, ensures_bind, ensures_modify, ensures_ite, ensures_get]
    have hpopped : Steady e { e with sideStack := e.sideStack.set anchor rest } :=
      .of_eq rfl rfl rfl rfl
    have hskip := hpopped.then ih
    refine ⟨fun _ ↦ hskip, fun _ ↦ ?_⟩
    split
    · exact hskip
    · simp only [ensures_bind, ensures_get, ensures_ite, ensures_takeInfo, ensures_pure]
      have htaken : ∀ key, Steady e
          (registeredInfo { e with sideStack := e.sideStack.set anchor rest } key).2 := fun _ ↦
        hpopped.trans steady_registeredInfo
      refine ⟨fun _ ↦ hskip, fun _ ↦ ⟨fun _ ↦ (htaken _).then ih, fun _ ↦ ?_⟩⟩
      refine ((htaken _).then steady_showWindow).mono fun _ e₁ h₁ ↦ ?_
      exact ⟨fun _ ↦ h₁, fun _ ↦ h₁.then ih⟩

theorem steady_hideWindow :
    Ensures (hideWindow key info dirty false .none) e fun _ e' ↦ Steady e e' := by
  refine ensures_hideWindow rfl rfl (fun _ ↦ ?_) fun _ ↦ steady_hidden
  simp only [restoreEvicted, ensures_bind, ensures_get]
  exact steady_hidden.then steady_restoreFrom

theorem steady_applyHiding : Steady e (applyHiding c e).2 := by
  unfold applyHiding
  split
  · exact steady_removeDecorators
  · exact .refl

theorem steady_relabelled : Steady e (e.relabelled c) := by
  unfold relabelled
  split
  · exact steady_resetStripeButton
  · exact .refl

theorem steady_applyPlace : Ensures (applyPlace c) e fun _ e' ↦ Steady e e' :=
  ensures_applyPlace_stages
    (fun _ ↦ (steady_relabelled.trans steady_removeInternalDecorator).then steady_showWindow)
    fun _ ↦ steady_relabelled

theorem steady_leaveSlot {shown : Bool} :
    Ensures (leaveSlot c shown) e fun _ e' ↦ Steady e e' := by
  simp only [leaveSlot, ensures_ite, ensures_pure]
  exact ⟨fun _ ↦ steady_hideWindow, fun _ ↦ .refl⟩

theorem steady_retyped : Steady e (e.retyped c) := by
  unfold retyped
  split
  · exact steady_removeDecorators
  · exact .refl

theorem steady_decorate {shown : Bool} : Ensures (decorate c shown) e fun _ e' ↦ Steady e e' := by
  simp only [decorate, ensures_ite, ensures_pure]
  exact ⟨fun _ ↦ steady_addDecorator, fun _ ↦ .refl⟩

theorem steady_applyChange : Ensures (applyChange c) e fun _ e' ↦ Steady e e' := by
  refine ensures_applyChange_stages rfl ?_
  refine (steady_applyHiding.then steady_applyPlace).mono fun shown e₂ h₂ ↦ ?_
  refine (h₂.then steady_leaveSlot).mono fun _ e₃ h₃ ↦ ?_
  exact ((h₃.trans steady_retyped).then steady_decorate).mono fun _ _ h ↦ h.trans steady_commit

end Engine

end ToolDock
