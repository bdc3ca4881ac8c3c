import ToolDock.Proofs.Coherence
import ToolDock.Proofs.Exchange

namespace ToolDock

namespace WindowInfo

def withState (info saved : WindowInfo) : WindowInfo :=
  { info with
    activeOnStart := saved.activeOnStart
    floatingBounds := saved.floatingBounds
    maximized := saved.maximized }

/-- The placement with the state of its external window. A window that opened by itself and is not
showing any more has no bounds to keep. -/
def capturing (info : WindowInfo) (kind : ExternalKind) (w : ExternalWindow) : WindowInfo :=
  match kind with
  | .floating => { info with floatingBounds := some w.bounds, activeOnStart := w.active }
  | .windowed =>
    if w.showing then
      { info with
        floatingBounds := some w.bounds
        maximized := w.maximized
        activeOnStart := w.active }
    else { info with activeOnStart := w.active }

variable {info saved : WindowInfo}

@[simp] theorem id_withState : (info.withState saved).id = info.id := rfl

@[simp] theorem visible_withState : (info.withState saved).visible = info.visible := rfl

@[simp] theorem windowType_withState : (info.withState saved).windowType = info.windowType := rfl

end WindowInfo

namespace Entry

/-- Whether an entry has exactly the decorators that a visible placement asks for: an internal
window is attached in its slot, an external one has a window of its own. A headless host opens no
windowed ones. -/
def IsDecoratedFor (headless : Bool) (info : WindowInfo) (x : Entry) : Prop :=
  match info.windowType with
  | .docked | .sliding =>
    (∃ p, x.attached = some p ∧ p.slot = info.slot) ∧ x.floating = none ∧ x.windowed = none
  | .floating => x.attached = none ∧ x.floating.isSome ∧ x.windowed = none
  | .windowed => x.attached = none ∧ x.floating = none ∧ (x.windowed.isSome ∨ headless)

def ShowsIn (x : Entry) (kind : ExternalKind) (a : Handle) : Prop :=
  match kind with
  | .floating => x.floating = some a
  | .windowed => x.floating = none ∧ x.windowed = some a

theorem ShowsIn.holds {x : Entry} {kind : ExternalKind} {a : Handle} (h : x.ShowsIn kind a) :
    x.holds a := by
  cases kind with
  | floating => exact Or.inl h
  | windowed => exact Or.inr h.2

/-- Whether an entry has no external window, and is in no pane unless the placement puts it into
one. -/
def IsBareFor (info : WindowInfo) (x : Entry) : Prop :=
  x.floating = none ∧ x.windowed = none ∧ (x.attached = none ∨ info.windowType.isInternal)

end Entry

namespace Engine

variable {D : Prop} {key : SlotKey} {x : Entry} {e : Engine} {info : WindowInfo} {dirty : Bool}
  {mutation : HideMutation} {a? : Option Handle} {a : Handle}

@[simp] theorem entries_closeHandle : (e.closeHandle a?).entries = e.entries := by
  cases a? <;> rfl

@[simp] theorem layout_closeHandle : (e.closeHandle a?).layout = e.layout := by
  cases a? <;> rfl

@[simp] theorem settings_closeHandle : (e.closeHandle a?).settings = e.settings := by
  cases a? <;> rfl

@[simp] theorem sideStack_closeHandle : (e.closeHandle a?).sideStack = e.sideStack := by
  cases a? <;> rfl

@[simp] theorem desktop_closeHandle : (e.closeHandle a?).host.desktop = e.host.desktop := by
  cases a? with
  | none => rfl
  | some b => exact Host.desktop_closeExternal

@[simp] theorem isButton_closeHandle : (e.closeHandle a?).host.isButton a = e.host.isButton a := by
  cases a? with
  | none => rfl
  | some b => exact Host.isButton_closeExternal

@[simp] theorem isOpen_closeHandle :
    (e.closeHandle a?).host.isOpen a = (e.host.isOpen a && a? != some a) := by
  cases a? with
  | none => simp [closeHandle]
  | some b =>
    apply Host.isOpen_closeExternal.trans
    by_cases hab : a = b
    · simp [hab]
    · have hb : (a != b) = true := bne_iff_ne.2 hab
      have hsome : (some b != some a) = true :=
        bne_iff_ne.2 fun h ↦ hab (Option.some.inj h).symm
      rw [hb, hsome]

theorem external?_closeHandle (ha : a? ≠ some a) :
    (e.closeHandle a?).host.external? a = e.host.external? a := by
  cases a? with
  | none => rfl
  | some b =>
    have hab : a ≠ b := fun hab ↦ ha (hab ▸ rfl)
    exact Host.external?_closeExternal.trans (if_neg hab)

theorem exchanged_removeExternalDecorators (hx : e.entries.get? key = some x)
    (hs : D → x.IsServed e.host) :
    Exchanged D key x { x with floating := none, windowed := none } e.layout e
      (e.removeExternalDecorators key) := by
  unfold removeExternalDecorators
  rw [hx]
  dsimp only
  refine ⟨fun k ↦ ?_, ?_, fun hd ↦ ?_, fun a w hw ha ↦ ⟨?_, by simp [Entry.holds]⟩, ?_, ?_, ?_⟩
  · rw [entries_closeHandle, entries_closeHandle, get?_updateEntry_of_get? hx]
  · rw [layout_closeHandle, layout_closeHandle, layout_updateEntry]
  · refine ⟨.drop (fun a ↦ ?_) fun a ha ↦ ?_, .of_eq (hs hd).2 (fun a ↦ ?_) fun _ ↦ Iff.rfl⟩
    · simp only [isOpen_closeHandle, updateEntry, Entry.holds]
      grind
    · simp [Entry.holds] at ha
    · rw [isButton_closeHandle, isButton_closeHandle, updateEntry]
  · rw [external?_closeHandle fun h ↦ ha (Or.inr h), external?_closeHandle fun h ↦ ha (Or.inl h)]
    exact hw
  · rw [desktop_closeHandle, desktop_closeHandle, updateEntry]
  · rw [settings_closeHandle, settings_closeHandle, updateEntry]
  · rw [sideStack_closeHandle, sideStack_closeHandle, updateEntry]

theorem exchanged_removeInternalDecorator (dirty : Bool) (hx : e.entries.get? key = some x)
    (hs : D → x.IsServed e.host) :
    Exchanged D key x { x with attached := none } e.layout e
      (e.removeInternalDecorator key dirty) := by
  have hdetached : Exchanged D key x { x with attached := none } e.layout e
      (e.updateEntry key fun x ↦ { x with attached := none }) :=
    exchanged_updateEntry (f := ({ · with attached := none })) hx hs rfl rfl rfl
  unfold removeInternalDecorator
  rw [hx]
  dsimp only
  split
  · exact hdetached.onHost Host.keeps_record .refl
  · exact hdetached

theorem objects_removeInternalDecorator :
    (e.removeInternalDecorator key dirty).host.objects = e.host.objects := by
  unfold removeInternalDecorator
  repeat' split
  all_goals rfl

theorem saveExternalState_eq (info : WindowInfo) (hx : e.entries.get? key = some x) :
    (e.saveExternalState key info).1 = info.withState (e.saveExternalState key info).1 ∧
      ((e.saveExternalState key info).2 = e ∨ ∃ a, x.holds a ∧
        (e.saveExternalState key info).2 = e.onHost (·.setExternalMaximized a false)) := by
  unfold saveExternalState
  rw [hx]
  dsimp only
  split
  case h_1 => exact ⟨rfl, Or.inl rfl⟩
  case h_2 a _ hw =>
    split
    · dsimp only
      split
      · exact ⟨rfl, Or.inr ⟨a, Or.inr hw, rfl⟩⟩
      · exact ⟨rfl, Or.inl rfl⟩
    · exact ⟨rfl, Or.inl rfl⟩
  case h_3 => exact ⟨rfl, Or.inl rfl⟩

theorem saveExternalState_of_showsIn {kind : ExternalKind} {w : ExternalWindow}
    (hx : e.entries.get? key = some x) (ha : x.ShowsIn kind a)
    (hw : e.host.external? a = some w) :
    (e.saveExternalState key info).1 = info.capturing kind w := by
  unfold saveExternalState
  rw [hx]
  cases kind with
  | floating =>
    have hf : x.floating = some a := ha
    simp [hf, Host.externalBounds, Host.isExternalActive, hw, WindowInfo.capturing]
  | windowed =>
    obtain ⟨hf, hwindowed⟩ := ha
    -- a window that is restored from maximized keeps its bounds
    have hbounds : (e.host.setExternalMaximized a false).externalBounds a = w.bounds := by
      have hrestored : (e.host.setExternalMaximized a false).external? a =
          some { w with maximized := false } := by
        refine Host.external?_updateExternal.trans ?_
        rw [if_pos rfl, hw, Option.map_some]
      rw [Host.externalBounds, hrestored]
    have hkept : e.host.externalBounds a = w.bounds := by rw [Host.externalBounds, hw]
    simp only [hf, hwindowed, Host.isExternalShowing, Host.isExternalActive,
      Host.isExternalMaximized, hw, Option.any_some, WindowInfo.capturing]
    split
    · split
      all_goals simp_all [onHost]
    · rfl

theorem exchanged_saveExternalState (info : WindowInfo) (hx : e.entries.get? key = some x)
    (hs : D → x.IsServed e.host) :
    Exchanged D key x x e.layout e (e.saveExternalState key info).2 := by
  obtain ⟨-, heq | ⟨a, ha, heq⟩⟩ := saveExternalState_eq info hx
  · rw [heq]
    exact .refl hx hs
  · rw [heq]
    exact (Exchanged.refl hx hs).onHost Host.keeps_setExternalMaximized (.updateExternal ha _)

theorem exchanged_removeDecorators (info : WindowInfo) (dirty : Bool)
    (hx : e.entries.get? key = some x)
    (hs : D → x.IsServed e.host) :
    (∃ saved, (e.removeDecorators key info dirty).1 = info.withState saved) ∧
      Exchanged D key x x.undecorated e.layout e (e.removeDecorators key info dirty).2 := by
  refine ⟨⟨_, (saveExternalState_eq _ hx).1⟩, ?_⟩
  have hsave := exchanged_saveExternalState info hx hs
  have hext := exchanged_removeExternalDecorators hsave.get?_self hsave.isServed
  have hint := exchanged_removeInternalDecorator dirty hext.get?_self hext.isServed
  exact (hsave.andThen hext).andThen hint

def afterMutation (mutation : HideMutation) (x : Entry) : Entry :=
  match mutation with
  | .none => x
  | .removeStripeButton | .removeFromStripe => { x with stripeButton := none }

def mutated (mutation : HideMutation) (info : WindowInfo) : WindowInfo :=
  match mutation with
  | .none | .removeStripeButton => info
  | .removeFromStripe => offStripe info

theorem exchanged_applyMutation (info : WindowInfo) (mutation : HideMutation)
    (hx : e.entries.get? key = some x) (hs : D → x.IsServed e.host) :
    (e.applyMutation key info mutation).1 = mutated mutation info ∧
      Exchanged D key x (afterMutation mutation x) e.layout e
        (e.applyMutation key info mutation).2 := by
  cases mutation with
  | none => exact ⟨rfl, .refl hx hs⟩
  | removeStripeButton => exact ⟨rfl, exchanged_removeStripeButton hx hs⟩
  | removeFromStripe => exact ⟨rfl, exchanged_removeStripeButton hx hs⟩

theorem exchanged_deactivateWindow (info : WindowInfo) (dirty : Bool) (mutation : HideMutation)
    (hx : e.entries.get? key = some x)
    (hs : D → x.IsServed e.host) :
    (∃ saved, (e.deactivateWindow key info dirty mutation).1 =
        (mutated mutation { info with visible := false, activeOnStart := false }).withState saved) ∧
      Exchanged D key x (afterMutation mutation x).undecorated e.layout e
        (e.deactivateWindow key info dirty mutation).2 := by
  let quiet := { e with activeStack := e.activeStack.remove key false }
  have hquiet : Exchanged D key x x e.layout e quiet := .of_eq hx hs rfl rfl rfl rfl rfl
  obtain ⟨hinfo, hmut⟩ := exchanged_applyMutation (D := D)
    { info with visible := false, activeOnStart := false } mutation hquiet.get?_self
    hquiet.isServed
  obtain ⟨⟨saved, hsaved⟩, hremove⟩ := exchanged_removeDecorators
    (mutated mutation { info with visible := false, activeOnStart := false }) dirty
    hmut.get?_self hmut.isServed
  rw [← hinfo] at hsaved hremove
  refine ⟨⟨saved, ?_⟩, (hquiet.andThen hmut).andThen hremove⟩
  rw [← hinfo]
  exact hsaved

theorem exchanged_decoratorOf (hx : e.entries.get? key = some x) (hs : D → x.IsServed e.host) :
    ∃ d, Exchanged D key x { x with decorator := d } e.layout e (e.decoratorOf key).2 := by
  unfold decoratorOf
  rw [hx]
  dsimp only
  split
  case h_1 d hd =>
    refine ⟨some d, ?_⟩
    rw [← hd]
    exact .refl hx hs
  case h_2 =>
    have hhost := (Exchanged.refl hx hs).onHost (f := fun h ↦ (h.decorator x.id).2)
      Host.keeps_decorator (.of_eq (fun _ ha ↦ ha) fun _ ↦ Host.external?_decorator)
    exact ⟨_, hhost.andThen (exchanged_updateEntry
      (f := ({ · with decorator := some (e.host.decorator x.id).1 }))
      hhost.get?_self hhost.isServed rfl rfl rfl)⟩

theorem exchanged_addInternalDecorator (info : WindowInfo) (dirty : Bool)
    (hx : e.entries.get? key = some x)
    (hs : D → x.IsServed e.host) :
    ∃ d, Exchanged D key x { x with decorator := d, attached := some info } e.layout e
      (e.addInternalDecorator key info dirty) := by
  obtain ⟨d, hdec⟩ := exchanged_decoratorOf hx hs
  have hhost := hdec.onHost (f := fun h ↦ h.attach (e.decoratorOf key).1 info dirty)
    Host.keeps_record .refl
  have hentry := exchanged_updateEntry (f := ({ · with attached := some info })) hhost.get?_self
    hhost.isServed rfl rfl rfl
  exact ⟨d, hhost.andThen hentry⟩

theorem exchanged_openExternal (kind : ExternalKind) (info : WindowInfo)
    {f : Handle → Entry → Entry}
    (hx : e.entries.get? key = some x) (hs : D → x.IsServed e.host)
    (hbare : D → x.floating = none ∧ x.windowed = none)
    (hopen : D → ∀ b a, (f b x).holds a ↔ a = b)
    (hadds : ∀ b a, (f b x).holds a → x.holds a ∨ a = b)
    (hb : ∀ b, (f b x).stripeButton = x.stripeButton) :
    Exchanged D key x (f e.host.next x) e.layout e
      ({ e with host := (e.host.openExternal kind info).2 }.updateEntry key
        (f (e.host.openExternal kind info).1)) where
  get? := get?_updateEntry_of_get? hx
  layout := rfl
  host hd := by
    obtain ⟨hf, hw⟩ := hbare hd
    have hnone : ∀ a, ¬ x.holds a := fun a ↦ by simp [Entry.holds, hf, hw]
    refine ⟨.add (fun a ↦ Host.isOpen_openExternal) Host.isOpen_next hnone (hopen hd _),
      .of_eq (hs hd).2 (fun a ↦ Host.isButton_openExternal) fun a ↦ ?_⟩
    rw [Entry.hasButton, hb, Entry.hasButton]
  foreign := by
    intro a w hw ha
    have hnew : a ≠ e.host.next := by
      rintro rfl
      cases Host.external?_next.symm.trans hw
    exact ⟨(Host.external?_openExternal hnew).trans hw, fun ha' ↦ (hadds _ a ha').elim ha hnew⟩
  desktop := rfl
  settings := rfl
  sideStack := rfl

theorem ensures_placeExternal {Q : Unit → Engine → Prop} :
    Ensures (placeExternal a info) e Q ↔ ∀ bounds, externalPlacement e.host a info = .ok bounds →
      Q () (e.onHost (·.setExternalBounds a bounds)) := by
  simp only [placeExternal, ensures_bind, ensures_get, ensures_check, ensures_modify]

/-- The entry under `key` was exchanged for one that stands as before and is decorated for a
placement, if it was bare. -/
def Dressed (D : Prop) (key : SlotKey) (x : Entry) (info : WindowInfo) (e e' : Engine) : Prop :=
  ∃ x', Exchanged D key x x' e.layout e e' ∧ x'.standing = x.standing ∧
    x'.stripeButton = x.stripeButton ∧
      (x.IsBareFor info → x'.IsDecoratedFor e.host.desktop.headless info)

theorem ensures_addFloatingDecorator (hx : e.entries.get? key = some x)
    (hs : D → x.IsServed e.host) (hbare : D → x.IsBareFor info) (ht : info.windowType = .floating) :
    Ensures (addFloatingDecorator key info) e fun _ e' ↦ Dressed D key x info e e' := by
  simp only [addFloatingDecorator, openExternal, ensures_bind, ensures_modify, ensures_modifyGet,
    ensures_placeExternal]
  intro bounds _
  obtain ⟨d, hdec⟩ := exchanged_decoratorOf hx hs
  have hopen := exchanged_openExternal .floating info
    (f := fun b y ↦ { y with floating := some b }) hdec.get?_self hdec.isServed
    (fun hd ↦ ⟨(hbare hd).1, (hbare hd).2.1⟩)
    (fun hd b a ↦ by simp [Entry.holds, (hbare hd).2.1, eq_comm])
    (fun b a ↦ by simp only [Entry.holds, Option.some.injEq]; grind) fun _ ↦ rfl
  refine ⟨_, ((hdec.andThen hopen).onHost Host.keeps_setExternalBounds
    (.updateExternal (Or.inl rfl) _)).onHost Host.keeps_showExternal
      (.updateExternal (Or.inl rfl) _), rfl, rfl, fun hb ↦ ?_⟩
  obtain ⟨-, hw, hatt⟩ := hb
  rw [ht] at hatt
  simp only [Entry.IsDecoratedFor, ht]
  exact ⟨hatt.resolve_right Bool.false_ne_true, rfl, hw⟩

theorem ensures_addWindowedDecorator (hx : e.entries.get? key = some x)
    (hs : D → x.IsServed e.host) (hbare : D → x.IsBareFor info) (ht : info.windowType = .windowed) :
    Ensures (addWindowedDecorator key info) e fun _ e' ↦ Dressed D key x info e e' := by
  simp only [addWindowedDecorator, openExternal, ensures_bind, ensures_get, ensures_ite,
    ensures_modify, ensures_modifyGet, ensures_placeExternal, ensures_pure]
  refine ⟨fun hhead ↦ ⟨x, .refl hx hs, rfl, rfl, fun hb ↦ ?_⟩, fun _ bounds _ ↦ ?_⟩
  · obtain ⟨hf, -, hatt⟩ := hb
    rw [ht] at hatt
    simp only [Entry.IsDecoratedFor, ht]
    exact ⟨hatt.resolve_right (nomatch ·), hf, Or.inr hhead⟩
  · obtain ⟨d, hdec⟩ := exchanged_decoratorOf hx hs
    have hopen := exchanged_openExternal .windowed info
      (f := fun b y ↦ { y with windowed := some b }) hdec.get?_self hdec.isServed
      (fun hd ↦ ⟨(hbare hd).1, (hbare hd).2.1⟩)
      (fun hd b a ↦ by simp [Entry.holds, (hbare hd).1, eq_comm])
      (fun b a ↦ by simp only [Entry.holds, Option.some.injEq]; grind) fun _ ↦ rfl
    let a := (e.decoratorOf key).2.host.next
    have hplaced := (hdec.andThen hopen).onHost (f := (·.setExternalBounds a bounds))
      Host.keeps_setExternalBounds (.updateExternal (Or.inr rfl) _)
    have hshown := hplaced.onHost (f := (·.showExternal a info.activeOnStart))
      Host.keeps_showExternal (.updateExternal (Or.inr rfl) _)
    have hdressed : x.IsBareFor info → Entry.IsDecoratedFor e.host.desktop.headless info
        { x with decorator := d, windowed := some a } := by
      intro hb
      obtain ⟨hf, -, hatt⟩ := hb
      rw [ht] at hatt
      simp only [Entry.IsDecoratedFor, ht]
      exact ⟨hatt.resolve_right (nomatch ·), hf, Or.inl rfl⟩
    refine ⟨fun _ ↦ ?_, fun _ ↦ ?_⟩
    · exact ⟨_, hshown.onHost Host.keeps_setExternalMaximized (.updateExternal (Or.inr rfl) _),
        rfl, rfl, hdressed⟩
    · exact ⟨_, hshown, rfl, rfl, hdressed⟩

theorem ensures_addDecorator (hx : e.entries.get? key = some x)
    (hs : D → x.IsServed e.host) (hbare : D → x.IsBareFor info) :
    Ensures (addDecorator key info dirty) e fun _ e' ↦ Dressed D key x info e e' := by
  have hinternal : info.windowType = .docked ∨ info.windowType = .sliding →
      Dressed D key x info e (e.addInternalDecorator key info dirty) := by
    intro ht
    obtain ⟨d, hadd⟩ := exchanged_addInternalDecorator info dirty hx hs
    refine ⟨_, hadd, rfl, rfl, fun hb ↦ ?_⟩
    obtain ⟨hf, hw, -⟩ := hb
    obtain ht | ht := ht <;> simp only [Entry.IsDecoratedFor, ht] <;> exact ⟨⟨_, rfl, rfl⟩, hf, hw⟩
  unfold addDecorator
  split
  case h_1 ht => exact ensures_addFloatingDecorator hx hs hbare ht
  case h_2 ht => exact ensures_addWindowedDecorator hx hs hbare ht
  case h_3 ht => exact ensures_modify.2 (hinternal (Or.inl ht))
  case h_4 ht => exact ensures_modify.2 (hinternal (Or.inr ht))

end Engine

end ToolDock
