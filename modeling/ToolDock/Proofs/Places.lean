import ToolDock.Proofs.Operations

namespace ToolDock.Engine

variable {κ : Type} {detail : Int32 × Bool × Bool → κ} {D : Prop} {s t : Set SlotKey}
  {e e' : Engine} {key : SlotKey} {x x' y : Entry} {info cur moved : WindowInfo}
  {id pane : String} {anchor : Anchor} {order : Int32} {split : Bool}

namespace Sound

theorem aside (h : Sound detail D ∅ ∅ e) : Sound detail D {key} {key} e :=
  h.mono (Set.empty_subset {key}) (Set.empty_subset {key})

theorem available (h : Sound detail D ∅ ∅ e) (hx : e.entries.get? key = some x)
    (hv : x.info.visible) : x.available :=
  (h.coherent.ready (Set.notMem_empty key) (standing?_of_get? hx) hv).1

theorem shape (h : Sound detail D ∅ ∅ e) (hx : e.entries.get? key = some x) (hd : D) :
    x.IsDecorated e.host.desktop.headless :=
  (h.decorated hd).shape (Set.notMem_empty key) hx

theorem bare (h : Sound detail D ∅ ∅ e) (hx : e.entries.get? key = some x)
    (hi : x.info.visible → x.info.windowType.isInternal) (hd : D) : x.IsBareFor x.info := by
  have hshape := h.shape hx hd
  by_cases hv : x.info.visible = true
  · rw [Entry.isDecorated_of_visible hv] at hshape
    have hinternal := hi hv
    unfold Entry.IsDecoratedFor at hshape
    cases ht : x.info.windowType with
    | docked | sliding =>
      rw [ht] at hshape
      exact ⟨hshape.2.1, hshape.2.2, Or.inr hinternal⟩
    | floating | windowed => rw [ht] at hinternal; cases hinternal
  · rw [Entry.isDecorated_of_hidden (by simpa using hv)] at hshape
    exact ⟨hshape.2.1, hshape.2.2, Or.inl hshape.1⟩

theorem slot_taken (h : Sound detail D ∅ ∅ e) (hx : e.entries.get? key = some x)
    (ho : x.info.occupiesSlot) {k : SlotKey} (hk : k ≠ key) (hy : e.entries.get? k = some y)
    (ho' : y.info.occupiesSlot) : y.info.slot ≠ x.info.slot :=
  fun hslot ↦ hk (h.coherent.exclusive (Set.notMem_empty k) (Set.notMem_empty key)
    (standing?_of_get? hy) (standing?_of_get? hx) ho' ho hslot)

end Sound

theorem Sound.relabelInPlace (h : Sound detail D ∅ ∅ e) (hl : Located e key x info)
    (hwhere : info.occupiesSlot → info.isAt pane anchor) :
    Ensures (Engine.relabel key pane anchor order) e fun _ e' ↦ Sound detail D ∅ ∅ e' := by
  have hcore := h.core_of_located hl
  refine (h.aside.relabel hl).mono fun _ e₁ hpost ↦ ?_
  obtain ⟨h₁, hre⟩ := hpost
  obtain ⟨b, placed, hplaced, hl₁⟩ := hre.self
  have hmoved := hplaced.core_eq
  have hv : placed.visible = x.info.visible := by
    rw [WindowInfo.visible_of_core hmoved, ← h.visible_of_located hl]
  have htype : placed.windowType = x.info.windowType := by
    rw [WindowInfo.windowType_of_core hmoved, ← h.type_of_located hl]
  have hocc : placed.occupiesSlot = x.info.occupiesSlot := by
    simp only [WindowInfo.occupiesSlot, hv, htype]
  have hslot : placed.occupiesSlot → placed.slot = x.info.slot := by
    intro ho
    rw [hocc, ← WindowInfo.occupiesSlot_of_core hcore] at ho
    have hat := hwhere ho
    simp only [WindowInfo.isAt, Bool.and_eq_true, beq_iff_eq] at hat
    rw [WindowInfo.slot_of_core hmoved, ← WindowInfo.slot_of_core hcore, WindowInfo.slot,
      WindowInfo.slot, hat.1, hat.2]
  have ha : placed.visible → x.available := fun hvis ↦ h.available hl.entry (hv ▸ hvis)
  refine Sound.put_down (h₁.mono (by simp) (by simp)) hl₁.entry
    (fun _ hs ↦ hl₁.eq hs) (fun hvis ↦ ⟨ha hvis, hl₁.contains⟩) (fun ho k y' _ hk hy' ho' hs ↦ ?_)
      fun hd ↦ ?_
  · obtain ⟨y, hy, hcore'⟩ := hre.others hk hy'
    rw [WindowInfo.occupiesSlot_of_core hcore'] at ho'
    rw [WindowInfo.slot_of_core hcore'] at hs
    exact h.slot_taken hl.entry (hocc ▸ ho) hk hy ho' (hs.trans (hslot ho))
  · rw [hre.desktop]
    have hshape := h.shape hl.entry hd
    exact hshape.congr hv htype hslot

theorem Sound.moveVisible (h : Sound detail D ∅ ∅ e) (hl : Located e key x info)
    (hv : info.visible) (hi : info.windowType.isInternal) :
    Ensures (Engine.moveVisible key id info pane anchor order) e
      fun _ e' ↦ Sound detail D ∅ ∅ e' := by
  have htype := h.type_of_located hl
  have hvis := h.visible_of_located hl
  have hbare := h.bare hl.entry fun _ ↦ htype ▸ hi
  simp only [Engine.moveVisible, ensures_bind, ensures_get, ensures_modify, ensures_takeInfo,
    ensures_ite]
  have hex := exchanged_removeInternalDecorator true hl.entry (h.isServed hl.entry)
  have hknown : D → x.stripeButton.isSome → e.layout.contains x.id :=
    fun hd ↦ (h.decorated hd).known hl.entry
  have hdetached : Sound detail D {key} {key} (e.removeInternalDecorator key true) :=
    h.aside.redecorate hl.entry hex rfl hknown (fun _ hk ↦ absurd rfl hk)
      fun _ _ hm ↦ hm
  have hl₁ : Located (e.removeInternalDecorator key true) key { x with attached := none } info :=
    ⟨hex.get?_self, by rw [hex.layout]; exact hl.placement⟩
  refine (hdetached.relabel hl₁).mono fun _ e₂ hpost ↦ ?_
  obtain ⟨h₂, hre⟩ := hpost
  obtain ⟨b, placed, hplaced, hl₂⟩ := hre.self
  rw [hl₂.registeredInfo_eq]
  have hid : placed.id = x.name := by rw [hplaced.id_eq, ← h.placement_id hl]
  have ha : x.available := h.available hl.entry (hvis ▸ hv)
  refine (h₂.showWindow _ hl₂.entry hid rfl ha
    fun hd ↦ ⟨(hbare hd).1, (hbare hd).2.1, Or.inl rfl⟩).mono fun _ e' hpost ↦ ?_
  exact ⟨fun _ ↦ hpost.1.idle (Idles.requestFocus.repainted _ _),
    fun _ ↦ hpost.1.idle (Idles.refl.repainted _ _)⟩

theorem obeys_setAnchor :
    Obeys (fun _ e ↦ Sound detail D ∅ ∅ e) (setAnchor id pane anchor order) :=
  rule_sound.setAnchor (fun _ _ _ _ _ h hl ↦ h.relabelInPlace hl) fun _ _ _ _ _ h hl ho ↦
    h.moveVisible hl (WindowInfo.occupiesSlot_iff.1 ho).1 (WindowInfo.occupiesSlot_iff.1 ho).2

/-- The window under `key` went somewhere else, entry and layout alike, but not off or onto the
screen. -/
structure Replaced (key : SlotKey) (x : Entry) (e' : Engine) (x' : Entry) : Prop where
  located : Located e' key x' x'.info
  roster : x'.roster = x.roster
  visible : x'.info.visible = x.info.visible
  attached : x'.attached = x.attached
  floating : x'.floating = x.floating
  windowed : x'.windowed = x.windowed

def Replaces (detail : Int32 × Bool × Bool → κ) (D : Prop) (key : SlotKey) (change : Action Unit) :
    Prop :=
  ∀ ⦃e x⦄, Sound detail D ∅ ∅ e → e.entries.get? key = some x →
    Ensures change e fun _ e' ↦ Sound detail D {key} {key} e' ∧ ∃ x', Replaced key x e' x'

theorem Sound.putDownHidden (h : Sound detail D {key} {key} e) (hr : Replaced key x e x')
    (hv : x.info.visible = false)
    (hbare : D → x.attached = none ∧ x.floating = none ∧ x.windowed = none) :
    Sound detail D ∅ ∅ e := by
  have hv' : x'.info.visible = false := hr.visible.trans hv
  refine Sound.put_down (h.mono (by simp) (by simp)) hr.located.entry
    (fun _ hs ↦ hr.located.eq hs) (fun hvis ↦ ?_) (fun ho ↦ ?_) fun hd ↦ ?_
  · rw [hv'] at hvis
    cases hvis
  · rw [WindowInfo.not_occupiesSlot hv'] at ho
    cases ho
  · rw [Entry.isDecorated_of_hidden hv', hr.attached, hr.floating, hr.windowed]
    exact hbare hd

theorem Sound.showReplaced {dirty : Bool} (h : Sound detail D {key} {key} e)
    (hr : Replaced key x e x') (ha : x.available) (hbare : D → x.IsBareFor x.info) :
    Ensures (Engine.showWindow key { x'.info with visible := true } dirty) e fun _ e' ↦
      Sound detail D ∅ ∅ e' := by
  have hroster := hr.roster
  simp only [Entry.roster, Prod.mk.injEq] at hroster
  have hid : x'.info.id = x'.name := h.info_id hr.located.entry
  have hbare' : D → x'.IsBareFor x'.info := by
    intro hd
    obtain ⟨hf, hw, hatt⟩ := hbare hd
    exact ⟨hr.floating.trans hf, hr.windowed.trans hw, hr.attached ▸ hroster.2.2.2 ▸ hatt⟩
  exact (h.showWindow { x'.info with visible := true } hr.located.entry hid rfl
    (hroster.2.2.1 ▸ ha) hbare').mono fun _ _ h' ↦ h'.1

theorem Sound.whileHidden {change : Action Unit} (h : Sound detail D ∅ ∅ e)
    (hx : e.entries.get? key = some x) (hchange : Replaces detail D key change) :
    Ensures (Engine.whileHidden key change) e fun _ e' ↦ Sound detail D ∅ ∅ e' := by
  simp only [Engine.whileHidden, ensures_bind, ensures_get, ensures_ite, ensures_modify]
  refine (h.takeInfo hx).mono fun info e₁ htaken ↦ ?_
  obtain ⟨h₁, hl⟩ := htaken
  refine ⟨fun hv ↦ ?_, fun hv ↦ ?_⟩
  · have ha : x.available := h₁.available hl.entry (h₁.visible_of_located hl ▸ hv)
    refine ((h₁.mono (Set.empty_subset {key}) subset_rfl).hideWindow hl.entry (h₁.placement_id hl)
      (h₁.type_of_located hl)).mono fun _ e₂ hhidden ↦ ?_
    obtain ⟨h₂, hkept, hback⟩ := hhidden
    obtain ⟨y, hy, hroster⟩ := hkept hl.entry
    have hbare := h₂.bare hy (hback y hy)
    refine (hchange h₂ hy).mono fun _ e₃ hchanged ↦ ensures_takeInfo.2 ?_
    obtain ⟨h₃, y', hr⟩ := hchanged
    rw [hr.located.registeredInfo_eq]
    simp only [Entry.roster, Prod.mk.injEq] at hroster
    refine ⟨fun _ ↦ (h₃.showReplaced hr (hroster.2.2.1 ▸ ha) hbare).mono fun _ e' h' ↦ ?_,
      fun hn ↦ absurd hv hn⟩
    exact ⟨fun _ ↦ h'.idle (Idles.requestFocus.repainted _ _),
      fun _ ↦ h'.idle (Idles.refl.repainted _ _)⟩
  · refine (hchange h₁ hl.entry).mono fun _ e₂ hchanged ↦ ensures_takeInfo.2 ?_
    obtain ⟨h₂, x', hr⟩ := hchanged
    rw [hr.located.registeredInfo_eq]
    have hhidden : x.info.visible = false := by
      rw [← h₁.visible_of_located hl]
      simpa using hv
    have hdown := h₂.putDownHidden hr hhidden fun hd ↦
      (Entry.isDecorated_of_hidden hhidden).1 (h₁.shape hl.entry hd)
    exact ⟨fun hp ↦ absurd hp hv, fun _ ↦ hdown.idle (Idles.refl.repainted _ _)⟩

theorem refreshStripeButton_storeInfo :
    ((e.storeInfo info).refreshStripeButton key info).applyToEntry key info =
      (e.refreshStripeButton key info).commit key info := by
  have hentry : (e.storeInfo info).entryIs key (·.stripeButton.isSome) =
      e.entryIs key (·.stripeButton.isSome) := rfl
  have hremove : (e.storeInfo info).removeStripeButton key =
      (e.removeStripeButton key).storeInfo info := by
    unfold removeStripeButton
    have hget : (e.storeInfo info).entries.get? key = e.entries.get? key := rfl
    rw [hget]
    split <;> rfl
  unfold refreshStripeButton
  rw [hentry, hremove]
  split
  · dsimp only
    split <;> rfl
  · rfl

theorem replaces_changeSplit : Replaces detail D key (changeSplit key split) := by
  intro e x h hx
  simp only [changeSplit, ensures_bind, ensures_modify]
  refine (h.takeInfo hx).mono fun info e₁ htaken ↦ ?_
  obtain ⟨h₁, hl⟩ := htaken
  have hid : info.id = x.name := h₁.placement_id hl
  have htype : info.windowType = x.info.windowType := h₁.type_of_located hl
  have hv : info.visible = x.info.visible := h₁.visible_of_located hl
  obtain ⟨b, hb⟩ := exchanged_refreshStripeButton { info with split := split } hl.entry
    (h₁.isServed hl.entry)
  have hbutton := h₁.rebutton hl.entry hb fun _ _ ↦ Layout.contains_of_get? hl.placement
  have hex := hb.trans (exchanged_commit { info with split := split } hb.get?_self
    hb.isServed)
  rw [refreshStripeButton_storeInfo]
  refine ⟨hbutton.aside.commit_core hb.get?_self hid (fun hk ↦ absurd rfl hk)
    fun hk ↦ absurd rfl hk, _, ⟨hex.get?_self, ?_⟩, ?_, hv, rfl, rfl, rfl⟩
  · rw [hex.layout, Layout.get?_put, if_pos]
    exact (h₁.id_eq hl.entry).trans hid.symm
  · simp only [Entry.roster, htype]

theorem replaces_changePlace :
    Replaces detail D key (changePlace key pane anchor order split) := by
  intro e x h hx
  simp only [changePlace, ensures_bind, ensures_modify]
  refine (h.takeInfo hx).mono fun info e₁ htaken ↦ ?_
  obtain ⟨h₁, hl⟩ := htaken
  have hid : info.id = x.id := Layout.id_of_get? hl.placement
  have htype := h₁.type_of_located hl
  have hv := h₁.visible_of_located hl
  have hstored : Sound detail D {key} {key} (e₁.storeInfo { info with split := split }) :=
    h₁.aside.storeInfo _ hl.entry hid fun hk ↦ absurd rfl hk
  have hl₁ : Located (e₁.storeInfo { info with split := split }) key x
      { info with split := split } := ⟨hl.entry, by rw [get?_storeInfo]; exact if_pos hid.symm⟩
  refine (hstored.relabel hl₁).mono fun _ e₂ hpost ↦ ?_
  obtain ⟨h₂, hre⟩ := hpost
  refine ⟨h₂, ?_⟩
  obtain ⟨b, placed, hplaced, hl₂⟩ := hre.self
  have hmoved := hplaced.core_eq
  refine ⟨_, hl₂, ?_, ?_, rfl, rfl, rfl⟩
  · simp only [Entry.roster, WindowInfo.windowType_of_core hmoved, htype]
  · exact (WindowInfo.visible_of_core hmoved).trans hv

theorem obeys_setSideTool : Obeys (fun _ e ↦ Sound detail D ∅ ∅ e) (setSideTool id split) :=
  rule_sound.setSideTool fun _ _ _ _ h hl ↦ h.whileHidden hl.entry replaces_changeSplit

theorem obeys_setSideToolAndAnchor : Obeys (fun _ e ↦ Sound detail D ∅ ∅ e)
    (setSideToolAndAnchor id pane anchor order split) :=
  rule_sound.setSideToolAndAnchor fun _ _ _ _ _ h hl ↦ h.whileHidden hl.entry replaces_changePlace

theorem Sound.retypeVisible {type : WindowType} (h : Sound detail D ∅ ∅ e)
    (hl : Located e key x info) (hv : x.info.visible) :
    Ensures (Engine.retypeVisible key id info type) e fun _ e' ↦ Sound detail D ∅ ∅ e' := by
  obtain ⟨⟨state, hsaved⟩, hex⟩ := exchanged_removeDecorators info info.windowType.isInternal
    hl.entry (h.isServed hl.entry)
  have hknown : D → x.stripeButton.isSome → e.layout.contains x.id :=
    fun hd ↦ (h.decorated hd).known hl.entry
  have hbare : Sound detail D {key} {key}
      (e.removeDecorators key info info.windowType.isInternal).2 :=
    h.aside.redecorate hl.entry hex rfl hknown (fun _ hk ↦ absurd rfl hk) fun _ _ hm ↦ hm
  have hid : info.id = x.name := h.placement_id hl
  have hvis : info.visible := (h.visible_of_located hl).trans hv
  have ha : x.available := h.available hl.entry hv
  have hpresent := hbare.present ((info.withState state).withType type)
    info.windowType.isInternal hex.get?_self hid hvis ha
    fun _ ↦ ⟨rfl, rfl, Or.inl rfl⟩
  have htype : ((info.withState state).withType type).windowType = type := rfl
  rw [Engine.evictFor, htype] at hpresent
  refine rule_sound.retypeVisible hsaved fun e₁ he₁ ↦ ?_
  obtain ⟨hexternal, rfl⟩ | ⟨hinternal, rfl⟩ := he₁
  · rw [if_neg hexternal] at hpresent
    exact hpresent.mono fun _ _ h' ↦ h'.1
  · rw [if_pos hinternal] at hpresent
    exact hpresent.mono fun _ _ h' ↦ h'.1

theorem obeys_setType {type : WindowType} :
    Obeys (fun _ e ↦ Sound detail D ∅ ∅ e) (setType id type) := by
  refine rule_sound.setType (fun _ _ _ _ h hl hv ↦ h.retypeVisible hl hv)
    fun e key x info h hl hhidden ↦ ?_
  have hid : info.id = x.name := h.placement_id hl
  have hvis : info.visible = false := (h.visible_of_located hl).trans hhidden
  exact h.storeHidden (info.withType type) hl.entry hid hhidden hvis

end ToolDock.Engine
