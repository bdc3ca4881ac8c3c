import ToolDock.Proofs.Applying

/-!
What the host and the listeners are told. A change of a layout only adds to it, whatever engine it
is made in: first what is done to decorators and stripe buttons, for one window or another, and no
decorator is lost on the way. Main statement: `records_applyChange`.
-/

namespace ToolDock

namespace HostOp

def adorns : HostOp → Bool
  | openExternal .. | showExternal .. | closeExternal .. | setExternalBounds ..
  | setExternalMaximized .. | createStripeButton .. | removeStripeButton .. => true
  | _ => false

/-- Whether a decorator goes into a pane or out of it. -/
def docks : HostOp → Bool
  | attach .. | detach .. => true
  | _ => false

/-- Whether something is done to a decorator or a stripe button; what goes into a pane or out of it
is marked as asked for. -/
def decorates (dirty : Bool) : HostOp → Bool
  | attach _ _ d | detach _ _ d => d == dirty
  | op => op.adorns

def sizes : HostOp → Bool
  | setWeight .. | setSideWeight .. => true
  | _ => false

variable {op : HostOp} {dirty : Bool}

theorem not_docks_of_sizes (h : op.sizes) : (!op.docks) = true := by
  cases op <;> first | rfl | cases h

theorem decorates_of_adorns (h : op.adorns) : op.decorates dirty := by
  cases op <;> first | exact h | cases h

theorem not_docks_of_adorns (h : op.adorns) : op.docks = false := by
  cases op <;> first | rfl | cases h

end HostOp

variable {P R : HostOp → Bool}

structure Host.Records (P : HostOp → Bool) (h h' : Host) : Prop where
  ops : ∃ ops, h'.ops = h.ops ++ ops ∧ ∀ op ∈ ops, P op
  decorator : ∀ {d id}, h.objects.get? d = some (.decorator id) →
    h'.objects.get? d = some (.decorator id)

namespace Host

variable {h h' h'' : Host} {a : Handle} {info : WindowInfo} {id : String} {op : HostOp}
  {objects : HandleTable HostObject}

namespace Records

theorem refl : h.Records P h := ⟨⟨[], (List.append_nil _).symm, fun _ hop ↦ (nomatch hop)⟩, id⟩

theorem trans (hr : h.Records P h') (hr' : h'.Records P h'') : h.Records P h'' := by
  obtain ⟨⟨ops, hops, hP⟩, hd⟩ := hr
  obtain ⟨⟨ops', hops', hP'⟩, hd'⟩ := hr'
  refine ⟨⟨ops ++ ops', by rw [hops', hops, List.append_assoc], fun op hop ↦ ?_⟩,
    fun hget ↦ hd' (hd hget)⟩
  exact (List.mem_append.1 hop).elim (hP op) (hP' op)

theorem mono (hr : h.Records P h') (hPR : ∀ op, P op → R op) : h.Records R h' := by
  obtain ⟨⟨ops, hops, hP⟩, hd⟩ := hr
  exact ⟨⟨ops, hops, fun op hop ↦ hPR op (hP op hop)⟩, hd⟩

theorem of_objects (op : HostOp) (hops : h'.ops = h.ops ++ [op]) (hP : P op)
    (hd : ∀ {d id}, h.objects.get? d = some (.decorator id) →
      h'.objects.get? d = some (.decorator id)) : h.Records P h' :=
  ⟨⟨[op], hops, fun _ ho ↦ List.mem_singleton.1 ho ▸ hP⟩, hd⟩

end Records

theorem get?_alloc_of_decorator {x : HostObject} {d : Handle}
    (hd : objects.get? d = some (.decorator id)) :
    (objects.alloc x).2.get? d = some (.decorator id) := by
  rw [HandleTable.get?_alloc, if_neg, hd]
  rintro rfl
  rw [objects.get?_eq_none_of_le (Nat.le_refl _)] at hd
  cases hd

theorem get?_free_of_decorator {x : HostObject} {d : Handle} (ha : objects.get? a = some x)
    (hx : ∀ id, x ≠ .decorator id) (hd : objects.get? d = some (.decorator id)) :
    (objects.free a).get? d = some (.decorator id) := by
  rw [HandleTable.get?_free, if_neg, hd]
  rintro rfl
  exact hx id (Option.some.inj (ha.symm.trans hd))

theorem records_record (hP : P op) : h.Records P (h.record op) := .of_objects op rfl hP id

theorem records_updateExternal {f : ExternalWindow → ExternalWindow} (hP : P op) :
    h.Records P ((h.updateExternal a f).record op) := by
  refine .of_objects op rfl hP fun {d id} hd ↦ ?_
  change (h.objects.modify a _).get? d = _
  rw [HandleTable.get?_modify]
  split
  · rw [hd]
    rfl
  · exact hd

theorem records_setExternalBounds {bounds : Rect} :
    h.Records HostOp.adorns (h.setExternalBounds a bounds) := records_updateExternal rfl

theorem records_showExternal {focus : Bool} :
    h.Records HostOp.adorns (h.showExternal a focus) := records_updateExternal rfl

theorem records_setExternalMaximized {maximized : Bool} :
    h.Records HostOp.adorns (h.setExternalMaximized a maximized) := records_updateExternal rfl

theorem records_openExternal {kind : ExternalKind} :
    h.Records HostOp.adorns (h.openExternal kind info).2 :=
  .of_objects (.openExternal info.id kind) rfl rfl get?_alloc_of_decorator

theorem records_closeExternal : h.Records HostOp.adorns (h.closeExternal a) := by
  unfold closeExternal
  split
  case h_1 w hw =>
    refine .of_objects (.closeExternal w.id) rfl rfl fun hd ↦ ?_
    exact get?_free_of_decorator (get?_of_external? hw) (fun _ h ↦ (nomatch h)) hd
  case h_2 => exact .refl

theorem records_createStripeButton : h.Records HostOp.adorns (h.createStripeButton info).2 :=
  .of_objects (.createStripeButton info.id info.anchor info.split) rfl rfl
    get?_alloc_of_decorator

theorem records_removeStripeButton : h.Records HostOp.adorns (h.removeStripeButton a) := by
  unfold removeStripeButton
  split
  case h_1 id hid =>
    refine .of_objects (.removeStripeButton id) rfl rfl fun hd ↦ ?_
    exact get?_free_of_decorator hid (fun _ h ↦ (nomatch h)) hd
  case h_2 => exact .refl

theorem records_decorator : h.Records P (h.decorator id).2 := by
  unfold decorator
  split
  · exact .refl
  · exact ⟨Records.refl.ops, get?_alloc_of_decorator⟩

end Host

namespace Engine

variable {e e' e'' : Engine} {key : SlotKey} {x : Entry} {info : WindowInfo} {dirty : Bool}
  {c c' : LayoutChange} {α β : Type}

structure Records (P : HostOp → Bool) (e e' : Engine) : Prop where
  host : e.host.Records P e'.host
  events : e.events <+: e'.events

namespace Records

theorem of_eq (hh : e'.host = e.host) (he : e'.events = e.events) : Records P e e' :=
  ⟨hh ▸ .refl, he ▸ List.prefix_refl _⟩

theorem refl : Records P e e := of_eq rfl rfl

theorem trans (h : Records P e e') (h' : Records P e' e'') : Records P e e'' :=
  ⟨h.host.trans h'.host, h.events.trans h'.events⟩

theorem mono (h : Records P e e') (hPR : ∀ op, P op → R op) : Records R e e' :=
  ⟨h.host.mono hPR, h.events⟩

theorem of_adorns (h : Records HostOp.adorns e e') : Records (HostOp.decorates dirty) e e' :=
  h.mono fun _ ↦ HostOp.decorates_of_adorns

theorem foldl {f : Engine → α → Engine} (hf : ∀ e a, Records P e (f e a)) (as : List α) :
    Records P e (as.foldl f e) := by
  induction as generalizing e with
  | nil => exact refl
  | cons a as ih => exact (hf e a).trans ih

end Records

theorem Records.onHost {f : Host → Host} (h : Records P e e') (hf : e'.host.Records P (f e'.host)) :
    Records P e (e'.onHost f) :=
  ⟨h.host.trans hf, h.events⟩

theorem Records.updateEntry {f : Entry → Entry} (h : Records P e e') :
    Records P e (e'.updateEntry key f) :=
  ⟨h.host, h.events⟩

theorem records_fire {kind : EventKind} {id : Option String} : Records P e (e.fire kind id) :=
  ⟨.refl, List.prefix_append _ _⟩

theorem records_registeredInfo : Records P e (e.registeredInfo key).2 := by
  unfold registeredInfo
  repeat' split
  all_goals exact .of_eq rfl rfl

theorem records_forgetEvicted {id : String} : Records P e (e.forgetEvicted id) := by
  unfold forgetEvicted
  split
  all_goals exact .of_eq rfl rfl

theorem Records.then {x : Action β} (h : Records P e e')
    (hx : Ensures x e' fun _ e'' ↦ Records P e' e'') :
    Ensures x e' fun _ e'' ↦ Records P e e'' :=
  hx.mono fun _ _ h' ↦ h.trans h'

theorem records_removeStripeButton : Records HostOp.adorns e (e.removeStripeButton key) := by
  unfold removeStripeButton
  split
  · exact ⟨Host.records_removeStripeButton, List.prefix_refl _⟩
  · exact .refl

theorem records_createStripeButton : Records HostOp.adorns e (e.createStripeButton key info) :=
  ⟨Host.records_createStripeButton, List.prefix_refl _⟩

theorem records_ensureStripeButton : Records HostOp.adorns e (e.ensureStripeButton key info) := by
  unfold ensureStripeButton
  split
  · exact records_createStripeButton
  · exact .refl

theorem records_resetStripeButton : Records HostOp.adorns e (e.resetStripeButton key info) := by
  unfold resetStripeButton
  dsimp only
  split
  · exact records_removeStripeButton.trans records_ensureStripeButton
  · exact records_removeStripeButton

theorem records_closeHandle {a : Option Handle} : Records HostOp.adorns e (e.closeHandle a) := by
  cases a with
  | none => exact .refl
  | some a => exact Records.refl.onHost (f := (·.closeExternal a)) Host.records_closeExternal

theorem records_saveExternalState :
    Records HostOp.adorns e (e.saveExternalState key info).2 := by
  unfold saveExternalState
  split
  case h_1 => exact .refl
  case h_2 =>
    split
    · exact .refl
    · dsimp only
      repeat' split
      all_goals first
        | exact .refl
        | exact Records.refl.onHost (f := (·.setExternalMaximized _ false))
            Host.records_setExternalMaximized
    · exact .refl

theorem records_removeExternalDecorators :
    Records HostOp.adorns e (e.removeExternalDecorators key) := by
  unfold removeExternalDecorators
  split
  case h_1 => exact .refl
  case h_2 =>
    exact Records.refl.updateEntry.trans (records_closeHandle.trans records_closeHandle)

theorem records_decoratorOf : Records P e (e.decoratorOf key).2 := by
  unfold decoratorOf
  split
  · exact .refl
  · split
    · exact .refl
    · exact ⟨Host.records_decorator, List.prefix_refl _⟩

theorem Records.placeExternal {a : Handle} (h : Records HostOp.adorns e e') :
    Ensures (placeExternal a info) e' fun _ e'' ↦ Records HostOp.adorns e e'' :=
  ensures_placeExternal.2 fun _ _ ↦ h.onHost Host.records_setExternalBounds

theorem Records.openExternal {kind : ExternalKind} (h : Records HostOp.adorns e e') :
    Records HostOp.adorns e { e' with host := (e'.host.openExternal kind info).2 } :=
  ⟨h.host.trans Host.records_openExternal, h.events⟩

theorem records_addFloatingDecorator :
    Ensures (addFloatingDecorator key info) e fun _ e' ↦ Records HostOp.adorns e e' := by
  simp only [addFloatingDecorator, Engine.openExternal, ensures_bind, ensures_modify,
    ensures_modifyGet]
  exact records_decoratorOf.openExternal.updateEntry.placeExternal.mono
    fun _ _ h ↦ h.onHost Host.records_showExternal

theorem records_addWindowedDecorator :
    Ensures (addWindowedDecorator key info) e fun _ e' ↦ Records HostOp.adorns e e' := by
  simp only [addWindowedDecorator, Engine.openExternal, ensures_bind, ensures_get, ensures_ite,
    ensures_modify, ensures_modifyGet, ensures_pure]
  refine ⟨fun _ ↦ .refl, fun _ ↦ records_decoratorOf.openExternal.placeExternal.mono
    fun _ e₁ h ↦ ?_⟩
  have hstored : ∀ a, Records HostOp.adorns e
      (e₁.updateEntry key fun y ↦ { y with windowed := some a }) := fun _ ↦ h.updateEntry
  have hshown := fun a ↦ (hstored a).onHost (f := (·.showExternal a info.activeOnStart))
    Host.records_showExternal
  exact ⟨fun _ ↦ (hshown _).onHost Host.records_setExternalMaximized, fun _ ↦ hshown _⟩

theorem records_removeInternalDecorator :
    Records (HostOp.decorates dirty) e (e.removeInternalDecorator key dirty) := by
  unfold removeInternalDecorator
  split
  case h_1 => exact .refl
  case h_2 =>
    dsimp only
    split
    · exact ⟨Host.records_record (by simp [HostOp.decorates]), List.prefix_refl _⟩
    · exact .of_eq rfl rfl

theorem records_removeDecorators :
    Records (HostOp.decorates dirty) e (e.removeDecorators key info dirty).2 :=
  (records_saveExternalState.trans records_removeExternalDecorators).of_adorns.trans
    records_removeInternalDecorator

theorem records_addInternalDecorator :
    Records (HostOp.decorates dirty) e (e.addInternalDecorator key info dirty) :=
  records_decoratorOf.trans
    ⟨Host.records_record (by simp [HostOp.decorates]), List.prefix_refl _⟩

theorem records_addDecorator : Ensures (addDecorator key info dirty) e fun _ e' ↦
    Records (HostOp.decorates dirty) e e' := by
  unfold addDecorator
  split
  · exact records_addFloatingDecorator.mono fun _ _ h ↦ h.of_adorns
  · exact records_addWindowedDecorator.mono fun _ _ h ↦ h.of_adorns
  · exact ensures_modify.2 records_addInternalDecorator
  · exact ensures_modify.2 records_addInternalDecorator

theorem records_deactivateWindow :
    Records (HostOp.decorates dirty) e (e.deactivateWindow key info dirty .none).2 := by
  have hquiet : Records (HostOp.decorates dirty) e
      { e with activeStack := e.activeStack.remove key false } := .of_eq rfl rfl
  exact hquiet.trans records_removeDecorators

theorem records_commit : Records P e (e.commit key info) := .of_eq rfl rfl

theorem records_hidden : Records (HostOp.decorates dirty) e (e.hidden key info dirty .none) :=
  records_deactivateWindow.trans records_commit

theorem records_evict : Records (HostOp.decorates dirty) e (e.evict dirty key) := by
  obtain ⟨id, heq⟩ := evict_eq dirty (e := e) (k := key)
  rw [heq]
  have hremembered : Records (HostOp.decorates dirty) e
      ((e.registeredInfo key).2.remembering (e.registeredInfo key).1) :=
    records_registeredInfo.trans (.of_eq host_remembering (by unfold remembering; split <;> rfl))
  exact (hremembered.trans records_hidden).trans records_fire

theorem records_evictFor : Records (HostOp.decorates dirty) e (e.evictFor key info dirty) := by
  unfold evictFor
  split
  · exact .foldl (fun _ _ ↦ records_evict) _
  · exact .refl

theorem records_showWindow : Ensures (showWindow key info dirty) e fun _ e' ↦
    Records (HostOp.decorates dirty) e e' := by
  refine ensures_showWindow_cases (fun _ ↦ .refl) fun _ order _ ↦ ?_
  have hcommit : Records (HostOp.decorates dirty) e
      ((e.evictFor key (info.shownAt order) dirty).commit key (info.shownAt order)) :=
    records_evictFor.trans records_commit
  refine (hcommit.then records_addDecorator).mono fun _ _ h ↦ ?_
  exact h.trans (records_forgetEvicted.trans (records_ensureStripeButton.of_adorns.trans
    records_fire))

theorem records_restoreFrom {anchor : Anchor} {slot : Slot} {stored : List WindowInfo} :
    Ensures (restoreFrom anchor slot dirty stored) e fun _ e' ↦
      Records (HostOp.decorates dirty) e e' := by
  induction stored generalizing e with
  | nil => exact ensures_pure.2 .refl
  | cons stored rest ih =>
    simp only [restoreFrom, ensures_bind, ensures_modify, ensures_ite, ensures_get]
    have hpopped : Records (HostOp.decorates dirty) e
        { e with sideStack := e.sideStack.set anchor rest } := .of_eq rfl rfl
    have hskip := hpopped.then ih
    refine ⟨fun _ ↦ hskip, fun _ ↦ ?_⟩
    split
    · exact hskip
    · simp only [ensures_bind, ensures_get, ensures_ite, ensures_takeInfo, ensures_pure]
      refine ⟨fun _ ↦ hskip, fun _ ↦
        ⟨fun _ ↦ (hpopped.trans records_registeredInfo).then ih, fun _ ↦ ?_⟩⟩
      refine records_showWindow.mono fun _ e₁ h₁ ↦ ?_
      have h₁ := hpopped.trans (records_registeredInfo.trans h₁)
      exact ⟨fun _ ↦ h₁, fun _ ↦ h₁.then ih⟩

theorem records_hideWindow : Ensures (hideWindow key info dirty false .none) e fun _ e' ↦
    Records (HostOp.decorates dirty) e e' := by
  refine ensures_hideWindow rfl rfl (fun _ ↦ ?_) fun _ ↦ records_hidden
  simp only [restoreEvicted, ensures_bind, ensures_get]
  exact records_hidden.then records_restoreFrom

/-- What a change of a layout may ask for. Panes are validated later, but a decorator that was in a
window of its own leaves no pane that would have to be. -/
def LayoutChange.arranges (c : LayoutChange) (op : HostOp) : Bool :=
  op.decorates true || op.decorates c.old.windowType.isInternal

theorem records_applyHiding : (applyHiding c e).1.old = c.old ∧
    Records (HostOp.decorates true) e (applyHiding c e).2 := by
  unfold applyHiding
  split
  · exact ⟨rfl, records_removeDecorators⟩
  · exact ⟨rfl, .refl⟩

theorem records_relabelled : Records HostOp.adorns e (e.relabelled c) := by
  unfold relabelled
  split
  · exact records_resetStripeButton
  · exact .refl

theorem records_applyPlace :
    Ensures (applyPlace c) e fun _ e' ↦ Records (HostOp.decorates true) e e' :=
  ensures_applyPlace_stages
    (fun _ ↦ (records_relabelled.of_adorns.trans records_removeInternalDecorator).then
      records_showWindow)
    fun _ ↦ records_relabelled.of_adorns

theorem records_retyped : Records c.arranges e (e.retyped c) := by
  unfold retyped
  split
  · refine records_removeDecorators.mono fun op hop ↦ ?_
    rw [LayoutChange.arranges, hop, Bool.or_true]
  · exact .refl

theorem Records.applyChange {e₁ : Engine} (hdirty : ∀ op, op.decorates true → P op)
    (hhiding : applyHiding c e = (c', e₁))
    (hretyped : Ensures (applyPlace c') e₁ fun shown e₂ ↦
      Ensures (leaveSlot c' shown) e₂ fun _ e₃ ↦ Records P e₃ (e₃.retyped c')) :
    Ensures (applyChange c) e fun _ e' ↦ Records P e e' := by
  have hhidden : Records (HostOp.decorates true) e e₁ := by
    have := (records_applyHiding (c := c) (e := e)).2
    rwa [hhiding] at this
  refine ensures_applyChange_stages hhiding ?_
  refine (ensures_and (hhidden.then records_applyPlace) hretyped).mono fun shown e₂ ⟨h₂, hlast⟩ ↦ ?_
  have hleft : Ensures (leaveSlot c' shown) e₂ fun _ e₃ ↦ Records (HostOp.decorates true) e e₃ := by
    simp only [leaveSlot, ensures_ite, ensures_pure]
    exact ⟨fun _ ↦ h₂.then records_hideWindow, fun _ ↦ h₂⟩
  refine (ensures_and hleft hlast).mono ?_
  intro _ e₃ hq
  rcases hq with ⟨h₃, hretyped₃⟩
  have h₄ : Records P e (e₃.retyped c') := (h₃.mono hdirty).trans hretyped₃
  simp only [decorate, ensures_ite, ensures_pure]
  refine ⟨fun _ ↦ records_addDecorator.mono fun _ _ h ↦ ?_, fun _ ↦ h₄.trans records_commit⟩
  exact (h₄.trans (h.mono hdirty)).trans records_commit

theorem records_applyChange : Ensures (applyChange c) e fun _ e' ↦ Records c.arranges e e' := by
  obtain ⟨c', e₁, hhiding⟩ : ∃ c' e₁, applyHiding c e = (c', e₁) := ⟨_, _, rfl⟩
  have hold : c'.old = c.old := by
    have := (records_applyHiding (c := c) (e := e)).1
    rwa [hhiding] at this
  have hsame : c.arranges = c'.arranges := by
    funext op
    rw [LayoutChange.arranges, LayoutChange.arranges, hold]
  rw [hsame]
  refine Records.applyChange (fun op hop ↦ ?_) hhiding fun _ _ _ _ _ _ ↦ records_retyped
  rw [LayoutChange.arranges, hop, Bool.true_or]

theorem records_applySize {changes : List LayoutChange} :
    Records HostOp.sizes e (applySize changes e c) := by
  have hrecord : ∀ e : Engine, ∀ op : HostOp, op.sizes →
      Records HostOp.sizes e (e.onHost (·.record op)) := fun e op hop ↦
    Records.refl.onHost (f := (·.record op)) (Host.records_record hop)
  unfold applySize
  dsimp only
  repeat' split
  · exact .refl
  · exact hrecord _ _ rfl
  · exact hrecord _ _ rfl
  · exact (hrecord e _ rfl).trans (hrecord _ _ rfl)
  · exact .refl

theorem records_finishLayout {changes : List LayoutChange} :
    Records (fun op ↦ !op.docks) e (e.finishLayout changes) ∧
      e.events.length < (e.finishLayout changes).events.length := by
  have hvalidated : ∀ panes : List String,
      Records (fun op ↦ !op.docks) e (panes.foldl validatePane e) :=
    .foldl fun _ _ ↦ Records.refl.onHost (Host.records_record rfl)
  have hpainted : ∀ (frames : List UInt32) (e : Engine),
      Records (fun op ↦ !op.docks) e (frames.foldl repaintFrame e) :=
    fun frames _ ↦ .foldl (fun _ _ ↦ Records.refl.onHost (Host.records_record rfl)) frames
  have heditor : ∀ e : Engine, Records (fun op ↦ !op.docks) e e.activateEditor := fun _ ↦
    ⟨.of_objects .activateEditor rfl rfl id, List.prefix_refl _⟩
  obtain ⟨e₁, hfinish, h₁⟩ : ∃ e₁, e.finishLayout changes = e₁.fire .setLayout none ∧
      Records (fun op ↦ !op.docks) e e₁ :=
    ⟨_, rfl, (hvalidated _).trans ((heditor _).trans (hpainted _ _))⟩
  rw [hfinish]
  exact ⟨h₁.trans records_fire, Nat.lt_of_le_of_lt h₁.events.length_le (by simp [fire])⟩

namespace Concludes

variable {changes : List LayoutChange}

theorem records (h : Concludes changes e e') : Records (fun op ↦ !op.docks) e e' := by
  rcases h with ⟨-, rfl⟩ | ⟨-, applied, rfl⟩
  · exact .refl
  · have hsizes : Records HostOp.sizes e (applied.foldl (applySize applied) e) :=
      .foldl (fun _ _ ↦ records_applySize) applied
    exact (hsizes.mono fun _ ↦ HostOp.not_docks_of_sizes).trans records_finishLayout.1

theorem told (h : Concludes changes e e') (hne : changes ≠ []) :
    e.events.length < e'.events.length := by
  rcases h with ⟨hnil, -⟩ | ⟨-, applied, rfl⟩
  · exact absurd hnil hne
  · have hsizes : Records HostOp.sizes e (applied.foldl (applySize applied) e) :=
      .foldl (fun _ _ ↦ records_applySize) applied
    exact Nat.lt_of_le_of_lt hsizes.events.length_le records_finishLayout.2

end Concludes

theorem records_setLayout {l : Layout} (hnone : orderConflict? l = none) :
    Ensures (setLayout l).run e fun _ e' ↦ Records (fun _ ↦ true) e e' ∧
      (e.planned l ≠ [] → e.events.length < e'.events.length) := by
  obtain ⟨entries, heq, -⟩ := foretold_replaceLayout (e := e) (e.completed l) (e.planned l)
  have hstart : Records (fun _ ↦ true) e
      ((e.replaceLayout (e.completed l)).foretold (e.planned l)) := by
    rw [heq]
    exact .of_eq rfl rfl
  refine (ensures_setLayout_planned (I := fun _ e₁ ↦ Records (fun _ ↦ true) e e₁) hnone
    (fun c rest e₁ h₁ ↦ ?_) hstart).mono ?_
  · exact records_applyChange.mono fun _ _ h ↦ h₁.trans (h.mono fun _ _ ↦ rfl)
  · intro res e' hq
    rcases hq with ⟨-, e₁, h₁, hlast⟩
    exact ⟨h₁.trans (hlast.records.mono fun _ _ ↦ rfl), fun hplanned ↦
      Nat.lt_of_le_of_lt h₁.events.length_le (hlast.told hplanned)⟩

end Engine

end ToolDock
