import ToolDock.Proofs.Arriving
import ToolDock.Proofs.Belongings
import ToolDock.Proofs.Resuming

/-!
A window that is unregistered and registered again. Its placement stays in the layout meanwhile,
together with what its external window saves there, and with that the window comes back, to a slot
that nobody took. Whatever else the host has it has throughout. Main statement:
`reloads_unregister_register`.
-/

namespace ToolDock

def Host.Has (things : Set (Handle × HostObject)) (h : Host) : Prop :=
  ∀ ⦃a o⦄, (a, o) ∈ things → h.objects.get? a = some o

def NotExternal (things : Set (Handle × HostObject)) (a : Handle) : Prop :=
  ∀ w, (a, HostObject.external w) ∉ things

def NotButton (things : Set (Handle × HostObject)) (a : Handle) : Prop :=
  ∀ id, (a, HostObject.button id) ∉ things

namespace Host.Has

variable {things : Set (Handle × HostObject)} {h h' : Host} {a : Handle} {object : HostObject}

theorem of_objects (hh : h.Has things) (ho : h'.objects = h.objects) : h'.Has things := by
  intro b o hmem
  rw [ho]
  exact hh hmem

theorem notExternal_next (hh : h.Has things) : NotExternal things h.next := by
  intro w hmem
  have hnone := h.objects.get?_eq_none_of_le (Nat.le_refl _)
  cases hnone.symm.trans (hh hmem)

theorem alloc (hh : h.Has things) (ho : h'.objects = (h.objects.alloc object).2) :
    h'.Has things := by
  intro b o hmem
  rw [ho, HandleTable.get?_alloc, if_neg]
  · exact hh hmem
  · rintro rfl
    have hnone := h.objects.get?_eq_none_of_le (Nat.le_refl _)
    cases hnone.symm.trans (hh hmem)

theorem free (hh : h.Has things) (hget : h.objects.get? a = some object)
    (ha : (a, object) ∉ things) (ho : h'.objects = h.objects.free a) : h'.Has things := by
  intro b o hmem
  rw [ho, HandleTable.get?_free, if_neg]
  · exact hh hmem
  · rintro rfl
    cases hget.symm.trans (hh hmem)
    exact ha hmem

theorem updateExternal (hh : h.Has things) (ha : NotExternal things a)
    (f : ExternalWindow → ExternalWindow) : (h.updateExternal a f).Has things := by
  intro b o hmem
  refine (HandleTable.get?_modify ..).trans ?_
  split
  case isTrue hb =>
    rw [hh hmem]
    cases o with
    | external w => exact absurd hmem (hb ▸ ha w)
    | decorator | button => rfl
  case isFalse => exact hh hmem

theorem closeExternal (hh : h.Has things) (ha : NotExternal things a) :
    (h.closeExternal a).Has things := by
  unfold Host.closeExternal
  split
  case h_1 w hw => exact hh.free (get?_of_external? hw) (ha w) rfl
  case h_2 => exact hh

theorem removeStripeButton (hh : h.Has things) (ha : NotButton things a) :
    (h.removeStripeButton a).Has things := by
  unfold Host.removeStripeButton
  split
  case h_1 id hid => exact hh.free hid (ha id) rfl
  case h_2 => exact hh

theorem decorator (hh : h.Has things) (id : String) : (h.decorator id).2.Has things := by
  unfold Host.decorator
  split
  · exact hh
  · exact hh.alloc rfl

theorem requestFocus (hh : h.Has things) (id : String) : (h.requestFocus id).2.Has things := by
  unfold Host.requestFocus
  dsimp only
  split
  all_goals exact hh

end Host.Has

namespace Engine

variable {things : Set (Handle × HostObject)} {e e' : Engine} {key k : SlotKey} {x : Entry}
  {info : WindowInfo} {dirty : Bool} {id : String} {r : RegisterRequest}
  {res : Except EngineError Unit}

theorem has_decoratorOf (h : e.host.Has things) : (e.decoratorOf key).2.host.Has things := by
  unfold decoratorOf
  split
  · exact h
  · split
    · exact h
    · exact h.decorator _

theorem ensures_addFloatingDecorator_has (h : e.host.Has things) :
    Ensures (addFloatingDecorator key info) e fun _ e' ↦ e'.host.Has things := by
  have hasked : (e.decoratorOf key).2.host.Has things := has_decoratorOf h
  -- the window has a new handle, so nothing is done to what the host had
  have hnew := hasked.notExternal_next
  simp only [addFloatingDecorator, openExternal, ensures_bind, ensures_modify, ensures_modifyGet,
    ensures_placeExternal]
  intro bounds _
  have hopened : ((e.decoratorOf key).2.host.openExternal .floating info).2.Has things :=
    hasked.alloc rfl
  exact (hopened.updateExternal hnew _).updateExternal hnew _

theorem ensures_addWindowedDecorator_has (h : e.host.Has things) :
    Ensures (addWindowedDecorator key info) e fun _ e' ↦ e'.host.Has things := by
  have hasked : (e.decoratorOf key).2.host.Has things := has_decoratorOf h
  have hnew := hasked.notExternal_next
  simp only [addWindowedDecorator, openExternal, ensures_bind, ensures_get, ensures_ite,
    ensures_modify, ensures_modifyGet, ensures_placeExternal, ensures_pure]
  refine ⟨fun _ ↦ h, fun _ bounds _ ↦ ?_⟩
  have hopened : ((e.decoratorOf key).2.host.openExternal .windowed info).2.Has things :=
    hasked.alloc rfl
  have hshown := (hopened.updateExternal hnew ({ · with bounds := bounds })).updateExternal hnew
    ({ · with showing := true, active := info.activeOnStart })
  exact ⟨fun _ ↦ hshown.updateExternal hnew _, fun _ ↦ hshown⟩

theorem ensures_addDecorator_has (h : e.host.Has things) :
    Ensures (addDecorator key info dirty) e fun _ e' ↦ e'.host.Has things := by
  unfold addDecorator
  split
  case h_1 => exact ensures_addFloatingDecorator_has h
  case h_2 => exact ensures_addWindowedDecorator_has h
  case h_3 | h_4 => exact ensures_modify.2 ((has_decoratorOf h).of_objects rfl)

theorem has_ensureStripeButton (h : e.host.Has things) :
    (e.ensureStripeButton key info).host.Has things := by
  unfold ensureStripeButton
  split
  · exact h.alloc rfl
  · exact h

theorem ensures_showWindow_has (hfree : ∀ order, e.evictFor key (info.shownAt order) dirty = e)
    (h : e.host.Has things) :
    Ensures (showWindow key info dirty) e fun _ e' ↦ e'.host.Has things := by
  refine ensures_showWindow_cases (fun _ ↦ h) fun _ order _ ↦ ?_
  rw [hfree]
  have hstored : (e.commit key (info.shownAt order)).host.Has things := h
  refine (ensures_addDecorator_has hstored).mono fun _ e₁ h₁ ↦ ?_
  have hforgot : (e₁.forgetEvicted info.id).host.Has things := by
    rw [host_forgetEvicted]
    exact h₁
  exact has_ensureStripeButton hforgot

theorem has_closeHandle {a? : Option Handle} (h : e.host.Has things)
    (ha : ∀ a, a? = some a → NotExternal things a) : (e.closeHandle a?).host.Has things := by
  cases a? with
  | none => exact h
  | some a => exact h.closeExternal (ha a rfl)

theorem has_saveExternalState (hx : e.entries.get? key = some x) (h : e.host.Has things)
    (hext : ∀ a, x.holds a → NotExternal things a) :
    (e.saveExternalState key info).2.host.Has things := by
  unfold saveExternalState
  rw [hx]
  dsimp only
  split
  case h_1 => exact h
  case h_2 a hf hw =>
    split
    · dsimp only
      split
      · exact h.updateExternal (hext a (Or.inr hw)) _
      · exact h
    · exact h
  case h_3 => exact h

theorem has_removeDecorators (hx : e.entries.get? key = some x) (h : e.host.Has things)
    (hext : ∀ a, x.holds a → NotExternal things a) :
    (e.removeDecorators key info dirty).2.host.Has things := by
  have hx₁ := (exchanged_saveExternalState (D := False) info hx False.elim).get?_self
  have hsaved : (e.saveExternalState key info).2.host.Has things := has_saveExternalState hx h hext
  have hclosed :
      ((e.saveExternalState key info).2.removeExternalDecorators key).host.Has things := by
    unfold removeExternalDecorators
    rw [hx₁]
    refine has_closeHandle (has_closeHandle ?_ fun a ha ↦ hext a (Or.inl ha))
      fun a ha ↦ hext a (Or.inr ha)
    exact hsaved
  exact hclosed.of_objects objects_removeInternalDecorator

/-- A window went, and the layout has a placement of it. -/
structure Vacates (key : SlotKey) (placed : WindowInfo) (e e' : Engine) : Prop where
  get? : ∀ k, e'.entries.get? k = if k = key then none else e.entries.get? k
  layout : e'.layout = e.layout.put placed

namespace Vacates

variable {placed : WindowInfo}

theorem get?_layout {saved : WindowInfo} (h : Vacates key (info.withState saved) e e')
    (hinfo : e.layout.get? id = some info) :
    e'.layout.get? id = some (info.withState saved) := by
  rw [h.layout, Layout.get?_put, WindowInfo.id_withState, if_pos (Layout.id_of_get? hinfo).symm]

theorem get?_eq_some (h : Vacates key placed e e') :
    e'.entries.get? k = some x ↔ k ≠ key ∧ e.entries.get? k = some x := by
  rw [h.get?]
  split
  case isTrue hk => exact iff_of_false nofun fun hn ↦ hn.1 hk
  case isFalse hk => exact (and_iff_right hk).symm

theorem isRegistered (h : Vacates key placed e e') (hu : NamesUnique e)
    (hx : e.entries.get? key = some x) : e'.isRegistered x.name = false := by
  cases hkey : e'.keyOf? x.name with
  | none =>
    rw [Engine.isRegistered, hkey]
    rfl
  | some k =>
    obtain ⟨y, hy, hname⟩ := get?_of_keyOf? hkey
    obtain ⟨hk, hy⟩ := h.get?_eq_some.1 hy
    exact absurd (hu hy hx hname) hk

theorem hasRoomFor (h : Vacates key placed e e') (hc : CoherentCore e)
    (hx : e.entries.get? key = some x) (hcore : placed.core = x.info.core) :
    e'.HasRoomFor placed := by
  intro ho k y hy hoy hslot
  obtain ⟨hk, hy⟩ := h.get?_eq_some.1 hy
  rw [WindowInfo.occupiesSlot_of_core hcore] at ho
  rw [WindowInfo.slot_of_core hcore] at hslot
  exact hk (hc.exclusive (Set.notMem_empty k) (Set.notMem_empty key) (standing?_of_get? hy)
    (standing?_of_get? hx) hoy ho hslot)

end Vacates

theorem vacates_unregister (hkey : e.keyOf? id = some key) (hx : e.entries.get? key = some x)
    (hinfo : e.layout.get? id = some info) : ∃ saved,
      (x.external? = none → info.withState saved = info) ∧
        Vacates key (info.withState saved) e (e.unregister id) := by
  obtain ⟨⟨saved, hsaved⟩, hbare⟩ :=
    exchanged_removeDecorators (D := False) info false hx False.elim
  have hforgot : ((e.quieted key info).forgetEvicted id).entries.get? key = some x.undecorated := by
    rw [entries_forgetEvicted]
    exact hbare.get?_self
  have hlast := exchanged_removeStripeButton (D := False) hforgot False.elim
  obtain ⟨pane, hstripped⟩ := stripped_of_get? key hinfo
  rw [unregister_eq hkey, hstripped]
  refine ⟨saved, fun hnone ↦ ?_, fun k ↦ ?_, ?_⟩
  · rw [← hsaved]
    exact saveExternalState_of_external?_eq_none hx hnone
  · refine (get?_without k).trans ?_
    split
    case isTrue => rfl
    case isFalse hk =>
      refine (hlast.get?_other hk).trans ?_
      rw [entries_forgetEvicted]
      exact hbare.get?_other hk
  · refine hlast.layout.trans ?_
    rw [layout_forgetEvicted, ← hsaved]
    exact congrArg (Layout.put · _) hbare.layout

theorem has_unregister (hkey : e.keyOf? id = some key) (hx : e.entries.get? key = some x)
    (hinfo : e.layout.get? id = some info) (hext : ∀ a, x.holds a → NotExternal things a)
    (hbutton : ∀ a, x.hasButton a → NotButton things a) (h : e.host.Has things) :
    (e.unregister id).host.Has things := by
  have hquiet : (e.quieted key info).host.Has things := has_removeDecorators hx h hext
  obtain ⟨entries, pane, hstripped, -⟩ := stripped_eq hx hinfo
  rw [unregister_eq hkey, hstripped]
  change (x.stripeButton.elim (e.quieted key info).host
    (e.quieted key info).host.removeStripeButton).Has things
  cases hb : x.stripeButton with
  | none => exact hquiet
  | some b => exact hquiet.removeStripeButton (hbutton b hb)

theorem ensures_insertEntry_has {needsButton : Bool} (h : e.host.Has things) :
    Ensures (insertEntry r info needsButton) e fun _ e' ↦ e'.host.Has things := by
  refine ensures_modifyGet.2 ?_
  cases needsButton with
  | true => exact h.alloc rfl
  | false => exact h

theorem ensures_showWindow_reshown (hx : e.entries.get? key = some x) (ha : x.available)
    (hinfo : x.info = info) (hplaced : e.layout.get? info.id = some info) (hv : info.visible)
    (ho : info.hasOrder) (hb : info.showStripeButton)
    (hfree : info.windowType.isInternal → e.occupants key info.slot = []) :
    Ensures (showWindow key info dirty) e fun _ e' ↦ ∃ x', x'.standing = x.standing ∧
      Exchanged False key x x' e.layout e (e'.withStacks e.sideStack) := by
  refine (ensures_showWindow_emptied hx ha (evictFor_of_free hfree) hx).mono ?_
  rintro _ e' ⟨-, order, x', horder, hstanding, hex, -⟩
  rw [horder ho, WindowInfo.shownAt_order hv hb] at hstanding hex
  rw [Layout.put_of_get? hplaced] at hex
  exact ⟨x', hstanding.trans (by rw [← hinfo]; rfl), hex⟩

theorem ensures_settle_back (hr : r.Returns e.layout) (hinfo : e.layout.get? r.id = some info)
    (hshown : info.visible → info.hasOrder ∧ info.showStripeButton) (hroom : e.HasRoomFor info)
    (h : e.host.Has things) :
    Ensures (settle r (r.needsButton (some info)) info).run e fun res e' ↦ res = .ok () ∧
      e'.host.Has things ∧ ∃ key x, x.name = r.id ∧ x.info = info ∧
        Admits key x e (e'.withStacks e.sideStack) := by
  have hid : info.id = r.id := Layout.id_of_get? hinfo
  have hentered : entered r info = info := entered_eq fun _ ↦ ⟨hr.hasContent, hr.available⟩
  simp only [settle, hentered, ensures_run_lift_bind, ensures_run_ite, ensures_run_get_bind,
    ensures_run_modify, ensures_run_modify_bind]
  refine (ensures_and ensures_insertEntry (ensures_insertEntry_has h)).mono ?_
  rintro key e₁ ⟨⟨b, hadmits⟩, h₁⟩
  refine ⟨fun hshow ↦ ?_, fun _ ↦ ⟨trivial, h₁, key, _, rfl, rfl, hadmits.fresh, hadmits.get?,
    hadmits.layout, hadmits.desktop, rfl⟩⟩
  obtain ⟨-, hv⟩ := Bool.and_eq_true_iff.1 hshow
  obtain ⟨ho, hb⟩ := hshown hv
  have hplaced : e₁.layout.get? info.id = some info := by
    rw [hadmits.layout, hid]
    exact hinfo
  have hempty : info.windowType.isInternal → e₁.occupants key info.slot = [] := fun hi ↦
    occupants_eq_nil_iff.2 fun k y hne hy hoy ↦
      hroom (WindowInfo.occupiesSlot_iff.2 ⟨hv, hi⟩) ((hadmits.get?_other hne).symm.trans hy) hoy
  refine (ensures_and
    (ensures_showWindow_reshown hadmits.get?_self hr.available rfl hplaced hv ho hb hempty)
    (ensures_showWindow_has (fun _ ↦ evictFor_of_free hempty) h₁)).mono ?_
  rintro _ e₂ ⟨⟨x₂, hstanding, hex⟩, h₂⟩
  obtain ⟨hname, -, hx₂, -⟩ := Standing.mk.inj hstanding
  have hback := hadmits.andThen hex
  have hlast : ∀ e₃ : Engine, e₃.entries = e₂.entries → e₃.layout = e₂.layout →
      e₃.host.desktop = e₂.host.desktop → ∃ key x, x.name = r.id ∧ x.info = info ∧
        Admits key x e (e₃.withStacks e.sideStack) := by
    intro e₃ he hl hd
    refine ⟨key, x₂, hname, hx₂, hback.fresh, fun k ↦ ?_, hl.trans hback.layout,
      hd.trans hback.desktop, rfl⟩
    exact (congrArg (SlotTable.get? · k) he).trans (hback.get? k)
  refine ⟨fun _ ↦ ⟨trivial, h₂.requestFocus _, hlast _ rfl rfl ?_⟩,
    fun _ ↦ ⟨trivial, h₂, hlast _ rfl rfl rfl⟩⟩
  exact Host.keeps_requestFocus.desktop

theorem CoherentCore.core_eq_of_get (hc : CoherentCore e) (hx : e.entry? id = some x)
    (hinfo : e.layout.get? id = some info) : x.info.core = info.core := by
  obtain ⟨key, hget, hname⟩ := hc.namesUnique.entry?_eq_some.1 hx
  have hid : x.id = id := (hc.id_eq (standing?_of_get? hget)).trans hname
  have hl : Located e key x info := ⟨hget, by rw [hid, hinfo]⟩
  exact (hc.agrees (Set.notMem_empty key) (standing?_of_get? hget) hl.placement).1

/-- A window is back where it was. The layout has it as it had it before, but for the state that was
saved when its external window was closed, if it had one; and of the other windows everything is as
it was. -/
structure Reloads (x : Entry) (info : WindowInfo) (e e' : Engine) : Prop where
  visible : e'.isVisible x.name = e.isVisible x.name
  placement : ∃ saved, e'.layout.get? x.name = some (info.withState saved) ∧
    e'.windowInfo? x.name = some (info.withState saved) ∧
      (x.external? = none → info.withState saved = info)
  ids : e'.layout.ids = e.layout.ids
  unified : e'.layout.unified = e.layout.unified
  others : ∀ id, id ≠ x.name →
    e'.layout.get? id = e.layout.get? id ∧ e'.entry? id = e.entry? id
  hosted : ∀ id y a, id ≠ x.name → e.entry? id = some y → y.holds a ∨ y.hasButton a →
    e'.host.objects.get? a = e.host.objects.get? a
  decorators : ∀ a id, e.host.objects.get? a = some (.decorator id) →
    e'.host.objects.get? a = some (.decorator id)
  coherent : CoherentCore e'
  decorated : Decorated e'

theorem DecoratedOn.held_once {s : Set SlotKey} {y : Entry} {a : Handle} (hd : DecoratedOn s e)
    (hx : e.entries.get? key = some x) (hy : e.entries.get? k = some y) (hk : k ≠ key)
    (ha : y.holds a ∨ y.hasButton a) :
    (∃ o, e.host.objects.get? a = some o) ∧ ¬ x.holds a ∧ ¬ x.hasButton a := by
  rcases ha with ha | ha
  · obtain ⟨w, hw⟩ := Host.exists_external_of_isOpen ((hd.isServed hy).1 a ha)
    refine ⟨⟨_, hw⟩, fun hxa ↦ hk (hd.externals.unique hy hx ha hxa), fun hxa ↦ ?_⟩
    obtain ⟨n, hn⟩ := Host.exists_button_of_isButton ((hd.isServed hx).2 a hxa)
    cases hw.symm.trans hn
  · obtain ⟨n, hn⟩ := Host.exists_button_of_isButton ((hd.isServed hy).2 a ha)
    refine ⟨⟨_, hn⟩, fun hxa ↦ ?_, fun hxa ↦ hk (hd.buttons.unique hy hx ha hxa)⟩
    obtain ⟨w, hw⟩ := Host.exists_external_of_isOpen ((hd.isServed hx).1 a hxa)
    cases hw.symm.trans hn

structure Renews (key key' : SlotKey) (x x' : Entry) (placed : WindowInfo) (e e₁ e' : Engine) :
    Prop where
  entry : e.entries.get? key = some x
  name : x'.name = x.name
  info : x'.info = placed
  gone : Vacates key placed e e₁
  back : Admits key' x' e₁ (e'.withStacks e₁.sideStack)
  kept : ∀ a o, e.host.objects.get? a = some o → ¬ x.holds a → ¬ x.hasButton a →
    e'.host.objects.get? a = some o

namespace Renews

variable {key' : SlotKey} {x' : Entry} {placed : WindowInfo} {e₁ : Engine}

theorem layout_eq (h : Renews key key' x x' placed e e₁ e') :
    e'.layout = e.layout.put placed :=
  h.back.layout.trans h.gone.layout

theorem entry?_eq (h : Renews key key' x x' placed e e₁ e') (hu : NamesUnique e)
    (hu' : NamesUnique e') (hid : id ≠ x.name) : e'.entry? id = e.entry? id := by
  refine Option.ext fun y ↦ ?_
  rw [hu'.entry?_eq_some, hu.entry?_eq_some]
  refine exists_congr fun k ↦ and_congr_left fun hy ↦ ?_
  -- the old key is that of nobody else
  have hold : e.entries.get? k = some y → k ≠ key := by
    rintro hget rfl
    cases h.entry.symm.trans hget
    exact hid hy.symm
  have hget : e'.entries.get? k = if k = key' then some x' else e₁.entries.get? k := h.back.get? k
  rw [hget]
  split
  case isTrue hk =>
    refine iff_of_false ?_ fun hget ↦ ?_
    · rintro ⟨⟩
      exact hid (hy.symm.trans h.name)
    · -- the new key is that of no window that stayed
      cases h.back.fresh.symm.trans (hk ▸ h.gone.get?_eq_some.2 ⟨hold hget, hget⟩)
  case isFalse =>
    rw [h.gone.get?_eq_some]
    exact and_iff_right_of_imp hold

theorem get?_of_held {y : Entry} {a : Handle} (h : Renews key key' x x' placed e e₁ e')
    (hd : Decorated e) (hy : e.entries.get? k = some y) (hk : k ≠ key)
    (ha : y.holds a ∨ y.hasButton a) : e'.host.objects.get? a = e.host.objects.get? a := by
  obtain ⟨⟨o, ho⟩, hext, hbutton⟩ := hd.held_once h.entry hy hk ha
  rw [ho]
  exact h.kept a o ho hext hbutton

theorem get?_of_decorator {a : Handle} (h : Renews key key' x x' placed e e₁ e')
    (hd : Decorated e) (ha : e.host.objects.get? a = some (.decorator id)) :
    e'.host.objects.get? a = some (.decorator id) := by
  obtain ⟨hext, hbutton⟩ := hd.isServed h.entry
  refine h.kept a _ ha (fun hxa ↦ ?_) fun hxa ↦ ?_
  · obtain ⟨w, hw⟩ := Host.exists_external_of_isOpen (hext a hxa)
    cases ha.symm.trans hw
  · obtain ⟨n, hn⟩ := Host.exists_button_of_isButton (hbutton a hxa)
    cases ha.symm.trans hn

end Renews

theorem renews_unregister_register (hc : CoherentCore e) (hx : e.entry? r.id = some x)
    (hinfo : e.layout.get? r.id = some info)
    (hshown : info.visible → info.hasOrder ∧ info.showStripeButton) (hr : r.Returns e.layout)
    (hrun : (register r).run (e.unregister r.id) = .ok res e') :
    res = .ok () ∧ ∃ key key' x' saved, (x.external? = none → info.withState saved = info) ∧
      Renews key key' x x' (info.withState saved) e (e.unregister r.id) e' := by
  obtain ⟨key, hget, hname⟩ := hc.namesUnique.entry?_eq_some.1 hx
  have hkey : e.keyOf? r.id = some key := hname ▸ hc.namesUnique.keyOf?_eq hget
  obtain ⟨saved, hsame, hgone⟩ := vacates_unregister hkey hget hinfo
  have hplaced : (e.unregister r.id).layout.get? r.id = some (info.withState saved) :=
    hgone.get?_layout hinfo
  have hreturns : r.Returns (e.unregister r.id).layout :=
    ⟨Layout.contains_of_get? hplaced, hr.available, hr.hasContent, hr.placement⟩
  have hfree : (e.unregister r.id).isRegistered r.id = false :=
    hname ▸ hgone.isRegistered hc.namesUnique hget
  have hcore : (info.withState saved).core = x.info.core := (hc.core_eq_of_get hx hinfo).symm
  -- the host keeps what the window does not hold
  let things : Set (Handle × HostObject) :=
    {t | e.host.objects.get? t.1 = some t.2 ∧ ¬ x.holds t.1 ∧ ¬ x.hasButton t.1}
  have hhas : (e.unregister r.id).host.Has things := has_unregister hkey hget hinfo
    (fun a ha w hmem ↦ hmem.2.1 ha) (fun a ha n hmem ↦ hmem.2.2 ha) fun a o hmem ↦ hmem.1
  rw [run_register_of_get? hr.placement hfree hplaced] at hrun
  obtain ⟨hres, hkept, key', x', hname', hinfo', hback⟩ :=
    ensures_settle_back hreturns hplaced hshown (hgone.hasRoomFor hc hget hcore) hhas hrun
  exact ⟨hres, key, key', x', saved, hsame, hget, hname'.trans hname.symm, hinfo', hgone, hback,
    fun a o ho hext hbutton ↦ hkept ⟨ho, hext, hbutton⟩⟩

theorem decorated_unregister_register (hc : CoherentCore e) (hd : Decorated e)
    (hknown : ∀ placed, known? r (e.unregister r.id).layout = some placed →
      placed.id = r.id ∧ (placed.visible → placed.showStripeButton)) (hr : r.Returns e.layout)
    (hrun : (register r).run (e.unregister r.id) = .ok res e') :
    CoherentCore e' ∧ Decorated e' := by
  have hgone : (Request.unregister r.id).run.run e = .ok (.ok ()) (e.unregister r.id) := rfl
  have hback : (Request.register r).run.run (e.unregister r.id) = .ok res e' := hrun
  have hfirst : (Request.unregister r.id).Presents e := trivial
  obtain ⟨hc₁, hd₁⟩ := decorated_run hc hd hfirst hgone
  have hthen : (Request.register r).Presents (e.unregister r.id) := fun placed hplaced ↦
    ⟨(hknown placed hplaced).1,
      fun hv ↦ ⟨(hknown placed hplaced).2 hv, hr.hasContent, hr.available⟩⟩
  exact decorated_run hc₁ hd₁ hthen hback

/-- A window that is unregistered and registered again, with content and available, is back where it
was. -/
theorem reloads_unregister_register (hc : CoherentCore e) (hd : Decorated e)
    (hx : e.entry? r.id = some x) (hinfo : e.layout.get? r.id = some info)
    (hshown : info.visible → info.hasOrder ∧ info.showStripeButton) (hr : r.Returns e.layout)
    (hrun : (register r).run (e.unregister r.id) = .ok res e') :
    res = .ok () ∧ Reloads x info e e' := by
  obtain ⟨hres, key, key', x', saved, hsame, h⟩ :=
    renews_unregister_register hc hx hinfo hshown hr hrun
  have hplaced := h.gone.get?_layout hinfo
  obtain ⟨hc', hd'⟩ : CoherentCore e' ∧ Decorated e' := by
    refine decorated_unregister_register hc hd (fun placed hknown ↦ ?_) hr hrun
    rw [known?, hr.placement, Option.none_or, hplaced] at hknown
    cases hknown
    exact ⟨Layout.id_of_get? hplaced, fun hv ↦ (hshown hv).2⟩
  obtain ⟨-, -, hname⟩ := hc.namesUnique.entry?_eq_some.1 hx
  have hinfoid : info.id = r.id := Layout.id_of_get? hinfo
  have hx' : e'.entry? x.name = some x' :=
    h.name ▸ hc'.namesUnique.entry?_eq h.back.get?_self
  refine ⟨hres, ?_, ⟨saved, ?_, ?_, hsame⟩, ?_, ?_, fun id hid ↦ ⟨?_, ?_⟩,
    fun id y a hid hy ha ↦ ?_, fun a id ↦ h.get?_of_decorator hd, hc', hd'⟩
  · rw [isVisible, windowInfo?, hx', isVisible, windowInfo?, hname, hx, Option.map_some,
      Option.map_some, h.info]
    exact (WindowInfo.visible_of_core (hc.core_eq_of_get hx hinfo)).symm
  · rw [hname]
    exact (congrArg (·.get? r.id) h.back.layout).trans hplaced
  · rw [windowInfo?, hx', Option.map_some, h.info]
  · rw [h.layout_eq, Layout.ids_put, if_pos]
    exact hinfoid ▸ hr.known
  · rw [h.layout_eq, Layout.unified_put]
  · rw [h.layout_eq, Layout.get?_put, if_neg]
    exact fun heq ↦ hid (heq.trans (hinfoid.trans hname.symm))
  · exact h.entry?_eq hc.namesUnique hc'.namesUnique hid
  · obtain ⟨k, hy, hyname⟩ := hc.namesUnique.entry?_eq_some.1 hy
    refine h.get?_of_held hd hy ?_ ha
    rintro rfl
    cases h.entry.symm.trans hy
    exact hid hyname.symm

/-- A window in a window of its own is reloaded next to a hidden one. -/
theorem reloads_hiddenRequest : ∃ e e' x info, Session Request.Presents blank e ∧
    e.entry? "A" = some x ∧ x.external?.isSome ∧ e.layout.get? "A" = some info ∧ info.visible ∧
      (register (hiddenRequest "A")).run (e.unregister "A") = .ok (.ok ()) e' ∧
        Reloads x info e e' := by
  have hleads : blank.leadsTo (Request.register (hiddenRequest "A")).run fun e ↦
      (known? (hiddenRequest "B") e.layout).isNone &&
        e.leadsTo (Request.register (hiddenRequest "B")).run
        (·.leadsTo (Request.setType "A" .floating).run (·.leadsTo (Request.reveal "A").run fun e ↦
          ((e.entry? "A").any fun x ↦ x.external?.isSome) &&
          ((e.layout.get? "A").any fun info ↦
            info.visible && info.hasOrder && info.showStripeButton) &&
          (e.unregister "A").accepts (register (hiddenRequest "A")))) := by
    decide +kernel
  obtain ⟨e₁, hrun₁, hleads⟩ := exists_run_of_leadsTo hleads
  rw [Bool.and_eq_true, Option.isNone_iff_eq_none] at hleads
  obtain ⟨hknown, hleads⟩ := hleads
  obtain ⟨e₂, hrun₂, hleads⟩ := exists_run_of_leadsTo hleads
  obtain ⟨e₃, hrun₃, hleads⟩ := exists_run_of_leadsTo hleads
  obtain ⟨e, hrun₄, hleads⟩ := exists_run_of_leadsTo hleads
  simp only [Bool.and_eq_true, Option.any_eq_true] at hleads
  obtain ⟨⟨⟨x, hx, hext⟩, info, hinfo, ⟨hv, ho⟩, hb⟩, haccepts⟩ := hleads
  obtain ⟨e', hrun⟩ := exists_run_of_accepts haccepts
  have hsession : Session Request.Presents blank e := by
    refine .step (.step (.step (.step .start ?_ hrun₁) ?_ hrun₂) ?_ hrun₃) ?_ hrun₄
    · exact fun _ h ↦ (nomatch h)
    · exact fun _ h ↦ (nomatch hknown.symm.trans h)
    · trivial
    · trivial
  have hsound : Sound (fun _ ↦ ()) True ∅ ∅ e :=
    hsession.sound ⟨coherentOn_of_empty rfl, fun _ ↦ decoratedOn_of_empty rfl rfl⟩
  have hreturns : (hiddenRequest "A").Returns e.layout :=
    ⟨Layout.contains_of_get? hinfo, rfl, rfl, rfl⟩
  obtain ⟨-, hreloads⟩ := reloads_unregister_register hsound.coherent (hsound.decorated trivial) hx
    hinfo (fun _ ↦ ⟨ho, hb⟩) hreturns hrun
  exact ⟨e, e', x, info, hsession, hx, hext, hinfo, hv, hrun, hreloads⟩

end Engine

end ToolDock
