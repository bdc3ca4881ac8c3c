import ToolDock.Proofs.Places

namespace ToolDock

namespace SlotTable

variable {α : Type} {t : SlotTable α} {x : α}

theorem get?_fst_insert : t.get? (t.insert x).1 = none := by
  unfold insert
  split
  case h_1 hf => simp [get?]
  case h_2 i rest hf =>
    obtain ⟨v, hv⟩ := t.free_vacant i (by rw [hf]; exact List.mem_cons_self ..)
    simp [get?, hv]

end SlotTable

theorem HeldOnce.insert {hosted : Handle → Bool} {held : Entry → Handle → Prop}
    {entries : SlotTable Entry} {x : Entry} (h : HeldOnce hosted held entries)
    (hnone : ∀ a, ¬ held x a) : HeldOnce hosted held (entries.insert x).2 := by
  have hold : ∀ {k y a}, (entries.insert x).2.get? k = some y → held y a →
      entries.get? k = some y := by
    intro k y a hy ha
    rw [SlotTable.get?_insert] at hy
    split at hy
    · cases hy
      exact absurd ha (hnone a)
    · exact hy
  refine ⟨fun a ↦ ?_, fun hy hy' ha ha' ↦ h.unique (hold hy ha) (hold hy' ha') ha ha'⟩
  rw [h.hosted_iff]
  refine ⟨fun ⟨k, y, hy, ha⟩ ↦ ⟨k, y, ?_, ha⟩, fun ⟨k, y, hy, ha⟩ ↦ ⟨k, y, hold hy ha, ha⟩⟩
  rw [SlotTable.get?_insert, if_neg]
  · exact hy
  · rintro rfl
    rw [SlotTable.get?_fst_insert] at hy
    cases hy

namespace Engine

variable {κ : Type} {detail : Int32 × Bool × Bool → κ} {D : Prop} {s t : Set SlotKey}
  {e e' e₁ : Engine} {key k : SlotKey} {x x' : Entry} {info : WindowInfo} {id pane : String}
  {r : RegisterRequest}

namespace CoherentOn

theorem restrict (h : CoherentOn detail s e)
    (hst : ∀ {k y}, e'.standing? k = some y → e.standing? k = some y)
    (hl : e'.layout = e.layout) : CoherentOn detail s e' where
  id_eq hy := h.id_eq (hst hy)
  info_id hy := h.info_id (hst hy)
  unique hy hy' := h.unique (hst hy) (hst hy')
  agrees hk hy hinfo := h.agrees hk (hst hy) (hl ▸ hinfo)
  ready hk hy hv := hl ▸ h.ready hk (hst hy) hv
  exclusive hk hk' hy hy' := h.exclusive hk hk' (hst hy) (hst hy')

end CoherentOn

theorem Sound.removeEntry (h : Sound detail D s {key} e) (hx : e.entries.get? key = some x)
    (hnone : D → x.floating = none ∧ x.windowed = none ∧ x.stripeButton = none) :
    Sound detail D s ∅ { e with entries := e.entries.remove key } := by
  have hold : ∀ {k y}, (e.entries.remove key).get? k = some y →
      k ≠ key ∧ e.entries.get? k = some y := by
    intro k y hy
    rw [SlotTable.get?_remove] at hy
    split at hy
    · cases hy
    · exact ⟨‹_›, hy⟩
  refine ⟨h.coherent.restrict (fun {k y} hy ↦ ?_) rfl, fun hd ↦ ?_⟩
  · obtain ⟨entry, hentry, rfl⟩ := standing?_eq_some.1 hy
    exact standing?_of_get? (hold hentry).2
  · obtain ⟨hf, hw, hb⟩ := hnone hd
    have hdec := h.decorated hd
    exact ⟨fun _ hy ↦ hdec.shape (hold hy).1 (hold hy).2, fun hy ↦ hdec.known (hold hy).2,
      hdec.externals.remove hx fun a ↦ by simp [Entry.holds, hf, hw],
      hdec.buttons.remove hx fun a ↦ by simp [Entry.hasButton, hb]⟩

theorem Sound.withdraw (id : String) (h : Sound detail D ∅ ∅ e) (hl : Located e key x info) :
    Sound detail D ∅ {key} (e.withdraw key id info) ∧
      ∃ x', (e.withdraw key id info).entries.get? key = some x' ∧
        x'.floating = none ∧ x'.windowed = none ∧ x'.stripeButton = none := by
  obtain ⟨⟨state, hsaved⟩, hex⟩ := exchanged_removeDecorators info false
    hl.entry (h.isServed hl.entry)
  have hknown : D → x.stripeButton.isSome → e.layout.contains x.id :=
    fun hd ↦ (h.decorated hd).known hl.entry
  have hbare : Sound detail D ∅ {key} (e.removeDecorators key info false).2 :=
    (h.mono subset_rfl (Set.empty_subset {key})).redecorate hl.entry hex rfl hknown
      (fun _ hk ↦ absurd rfl hk) fun _ _ hm ↦ hm
  have hid : info.id = x.id := Layout.id_of_get? hl.placement
  have hcore := h.core_eq hl (Set.notMem_empty key)
  have hdetail := h.detail_eq hl (Set.notMem_empty key)
  have hstored := hbare.storeInfo (info.withState state) hex.get?_self hid
    fun _ ↦ ⟨hcore, hdetail⟩
  -- what is forgotten about the window in between is in neither entries nor layout
  have hlast : ∀ (e₁ : Engine) (pane : String),
      e₁.entries =
        ((e.removeDecorators key info false).2.storeInfo (info.withState state)).entries →
      e₁.layout = ((e.removeDecorators key info false).2.storeInfo (info.withState state)).layout →
      e₁.host = ((e.removeDecorators key info false).2.storeInfo (info.withState state)).host →
      Sound detail D ∅ {key} ((e₁.removeStripeButton key).validatePane pane) ∧
        ∃ x', ((e₁.removeStripeButton key).validatePane pane).entries.get? key = some x' ∧
          x'.floating = none ∧ x'.windowed = none ∧ x'.stripeButton = none := by
    intro e₁ pane he hlay hh
    have h₁ := hstored.congr he (congrArg Layout.windows hlay) (hh ▸ .refl)
    have hx₁ : e₁.entries.get? key = some x.undecorated := he ▸ hex.get?_self
    have hremove := exchanged_removeStripeButton hx₁ (h₁.isServed hx₁)
    exact ⟨(h₁.removeStripeButton hx₁).idle .validatePane, _, hremove.get?_self, rfl, rfl, rfl⟩
  unfold Engine.withdraw
  simp only [hsaved]
  exact hlast _ _ entries_forgetEvicted layout_forgetEvicted host_forgetEvicted

theorem Sound.unregister (h : Sound detail D ∅ ∅ e) : Sound detail D ∅ ∅ (e.unregister id) := by
  unfold Engine.unregister
  cases hkey : e.keyOf? id with
  | none => exact h
  | some key =>
    obtain ⟨x, hx, hname⟩ := get?_of_keyOf? hkey
    have hid : x.id = id := (h.id_eq hx).trans hname
    cases hinfo : e.layout.get? id with
    | some info =>
      obtain ⟨hw, x', hx', hnone⟩ := h.withdraw id ⟨hx, hid ▸ hinfo⟩
      exact (hw.removeEntry hx' fun _ ↦ hnone).idle .fire
    | none =>
      refine ((h.mono subset_rfl (Set.empty_subset {key})).removeEntry hx fun hd ↦ ?_).idle .fire
      -- a window that is not in the layout is hidden and has no button
      have hmissing : ¬ e.layout.contains x.id := by
        rw [hid, Layout.contains_iff, hinfo]
        simp
      have hv : x.info.visible = false := by
        refine Bool.eq_false_iff.2 fun hv ↦ hmissing ?_
        exact (h.coherent.ready (Set.notMem_empty key) (standing?_of_get? hx) hv).2
      obtain ⟨-, hf, hw⟩ := (Entry.isDecorated_of_hidden hv).1 (h.shape hx hd)
      refine ⟨hf, hw, ?_⟩
      cases hb : x.stripeButton with
      | none => rfl
      | some b => exact absurd ((h.decorated hd).known hx (by rw [hb]; rfl)) hmissing

def IsNew (e : Engine) (id : String) : Prop := ∀ ⦃k y⦄, e.entries.get? k = some y → y.name ≠ id

/-- No visible window is in the slot that a placement claims. -/
def HasRoomFor (e : Engine) (info : WindowInfo) : Prop :=
  info.occupiesSlot → ∀ ⦃k y⦄, e.entries.get? k = some y → y.info.occupiesSlot →
    y.info.slot ≠ info.slot

theorem isNew_of_not_isRegistered (h : e.isRegistered id = false) : e.IsNew id := by
  intro k y hy
  refine name_ne_of_keyOf?_eq_none ?_ hy
  simpa [isRegistered] using h

theorem Sound.storeNew (info : WindowInfo) (h : Sound detail D s t e) (hnew : e.IsNew info.id) :
    Sound detail D s t (e.storeInfo info) where
  coherent := {
    id_eq := h.coherent.id_eq
    info_id := h.coherent.info_id
    unique := h.coherent.unique
    agrees := by
      intro k y stored hk hy hstored
      obtain ⟨entry, hentry, rfl⟩ := standing?_eq_some.1 hy
      rw [get?_storeInfo, if_neg] at hstored
      · exact h.coherent.agrees hk hy hstored
      · exact fun heq ↦ hnew hentry ((h.id_eq hentry).symm.trans heq)
    ready := fun hk hy hv ↦
      ⟨(h.coherent.ready hk hy hv).1, Layout.contains_put.2 (Or.inr (h.coherent.ready hk hy hv).2)⟩
    exclusive := h.coherent.exclusive }
  decorated hd := (h.decorated hd).congr rfl .refl fun _ hc ↦ Layout.contains_put.2 (Or.inr hc)

/-- The placement that is known for a request. -/
def known? (r : RegisterRequest) (l : Layout) : Option WindowInfo := r.placement.or (l.get? r.id)

theorem ensures_knownPlacement :
    Ensures (knownPlacement r).run e fun res e' ↦ e'.entries = e.entries ∧
      (∀ known, res = .ok known →
        known = known? r e.layout ∧ e'.layout.get? (known.elim r.id WindowInfo.id) = known) ∧
      ∀ error, res = .error error → e' = e := by
  unfold Engine.knownPlacement
  unfold known?
  cases hp : r.placement with
  | none =>
    simp only [ensures_run_get_bind, ensures_run_pure, Option.none_or]
    refine ⟨trivial, fun known hk ↦ ?_, fun _ hr ↦ (nomatch hr)⟩
    cases hk
    refine ⟨rfl, ?_⟩
    cases hl : e.layout.get? r.id with
    | none => exact hl
    | some info => exact (congrArg e.layout.get? (Layout.id_of_get? hl)).trans hl
  | some info =>
    simp only [ensures_run_get_bind]
    cases howner : orderOwner? e.layout info with
    | some owner => exact ensures_run_throw.2 ⟨rfl, fun _ hk ↦ (nomatch hk), fun _ _ ↦ rfl⟩
    | none =>
      simp only [ensures_run_modify_bind, ensures_run_pure, Option.some_or]
      refine ⟨rfl, fun known hk ↦ ?_, fun _ hr ↦ (nomatch hr)⟩
      cases hk
      exact ⟨rfl, (get?_storeInfo ..).trans (if_pos rfl)⟩

theorem Sound.knownPlacement (h : Sound detail D ∅ ∅ e) (hnew : e.IsNew r.id)
    (hid : ∀ info, known? r e.layout = some info → info.id = r.id) :
    Ensures (knownPlacement r).run e fun _ e' ↦ Sound detail D ∅ ∅ e' := by
  unfold Engine.knownPlacement
  unfold known? at hid
  cases hp : r.placement with
  | none =>
    simp only [ensures_run_get_bind, ensures_run_pure]
    exact h
  | some info =>
    rw [hp] at hid
    simp only [ensures_run_get_bind]
    cases howner : orderOwner? e.layout info with
    | some owner => exact ensures_run_throw.2 h
    | none =>
      simp only [ensures_run_modify_bind, ensures_run_pure]
      have hinfo : info.id = r.id := hid info rfl
      exact h.storeNew _ (hinfo ▸ hnew)

theorem Sound.newPlacement {needsButton : Bool} (h : Sound detail D ∅ ∅ e) (hnew : e.IsNew r.id)
    (hnone : e.layout.get? r.id = none) :
    Ensures (newPlacement r needsButton) e fun info e' ↦ Sound detail D ∅ ∅ e' ∧
      e'.entries = e.entries ∧ info.id = r.id ∧ info.visible = false ∧
      e'.layout.get? r.id = if needsButton then some info else none := by
  unfold Engine.newPlacement
  cases needsButton with
  | false => exact ensures_pure.2 ⟨h, rfl, rfl, rfl, hnone⟩
  | true =>
    simp only [if_true, ensures_bind, ensures_get, ensures_check, ensures_modify, ensures_pure]
    intro order _
    have hadd : e.layout.add { r.newPlacement with order := order } =
        ({ r.newPlacement with order := order },
          e.layout.put { r.newPlacement with order := order }) := by
      unfold Layout.add
      rw [show (WindowInfo.id { r.newPlacement with order := order }) = r.id from rfl, hnone]
    rw [hadd]
    refine ⟨h.storeNew { r.newPlacement with order := order } hnew, trivial, rfl, rfl, ?_⟩
    exact (Layout.get?_put _ _ _).trans (if_pos rfl)

namespace CoherentOn

theorem insert {z : Standing} (h : CoherentOn detail ∅ e)
    (hst : ∀ k, e'.standing? k = if k = key then some z else e.standing? k)
    (hl : e'.layout = e.layout) (hid : z.id = z.name) (hinfo : z.info.id = z.name)
    (hnew : ∀ {k y}, e.standing? k = some y → y.name ≠ z.name) :
    CoherentOn detail {key} e' := by
  have hother : ∀ {k y}, k ∉ ({key} : Set SlotKey) → e'.standing? k = some y →
      e.standing? k = some y := by
    intro k y hk hy
    rwa [hst, if_neg (show k ≠ key from hk)] at hy
  have hcases : ∀ {k y}, e'.standing? k = some y → k = key ∧ y = z ∨ e.standing? k = some y := by
    intro k y hy
    rw [hst] at hy
    split at hy
    case isTrue hk => exact Or.inl ⟨hk, (Option.some.inj hy).symm⟩
    case isFalse => exact Or.inr hy
  refine ⟨fun hy ↦ ?_, fun hy ↦ ?_, fun hy hy' hn ↦ ?_, fun hk hy hstored ↦ ?_,
    fun hk hy hv ↦ ?_, fun hk hk' hy hy' ↦ ?_⟩
  · obtain ⟨rfl, rfl⟩ | hy := hcases hy
    · exact hid
    · exact h.id_eq hy
  · obtain ⟨rfl, rfl⟩ | hy := hcases hy
    · exact hinfo
    · exact h.info_id hy
  · obtain ⟨rfl, rfl⟩ | hy := hcases hy <;> obtain ⟨rfl, rfl⟩ | hy' := hcases hy'
    · rfl
    · exact absurd hn.symm (hnew hy')
    · exact absurd hn (hnew hy)
    · exact h.unique hy hy' hn
  · exact h.agrees (Set.notMem_empty _) (hother hk hy) (hl ▸ hstored)
  · exact hl ▸ h.ready (Set.notMem_empty _) (hother hk hy) hv
  · exact h.exclusive (Set.notMem_empty _) (Set.notMem_empty _) (hother hk hy) (hother hk' hy')

end CoherentOn

def entered (r : RegisterRequest) (info : WindowInfo) : WindowInfo :=
  { info with visible := info.visible && r.hasContent && r.available }

structure Admits (key : SlotKey) (x : Entry) (e e' : Engine) : Prop where
  fresh : e.entries.get? key = none
  get? : ∀ k, e'.entries.get? k = if k = key then some x else e.entries.get? k
  layout : e'.layout = e.layout
  desktop : e'.host.desktop = e.host.desktop
  sideStack : e'.sideStack = e.sideStack

namespace Admits

theorem get?_self (h : Admits key x e e') : e'.entries.get? key = some x := by
  rw [h.get?, if_pos rfl]

theorem get?_other (h : Admits key x e e') (hk : k ≠ key) :
    e'.entries.get? k = e.entries.get? k := by
  rw [h.get?, if_neg hk]

theorem andThen (h : Admits key x e e₁) (hex : Exchanged D key x x' e₁.layout e₁ e') :
    Admits key x' e e' where
  fresh := h.fresh
  get? k := by
    rw [hex.get?, h.get?]
    split <;> rfl
  layout := hex.layout.trans h.layout
  desktop := hex.desktop.trans h.desktop
  sideStack := hex.sideStack.trans h.sideStack

end Admits

theorem ensures_insertEntry {needsButton : Bool} :
    Ensures (insertEntry r info needsButton) e fun key e' ↦ ∃ b,
      Admits key { Entry.new r.id info r.available r.hasContent with stripeButton := b } e e' := by
  have hadmits : Admits (e.entries.insert (Entry.new r.id info r.available r.hasContent)).1
      (Entry.new r.id info r.available r.hasContent) e
      { e with
        entries := (e.entries.insert (Entry.new r.id info r.available r.hasContent)).2 } :=
    ⟨SlotTable.get?_fst_insert, SlotTable.get?_insert e.entries _, rfl, rfl, rfl⟩
  refine ensures_modifyGet.2 ?_
  cases needsButton with
  | true =>
    obtain ⟨b, hex⟩ := exchanged_createStripeButton info (D := False) hadmits.get?_self (nomatch ·)
      rfl
    exact ⟨some b, hadmits.andThen hex⟩
  | false => exact ⟨none, hadmits⟩

theorem Sound.insertEntry (info : WindowInfo) {needsButton : Bool} (h : Sound detail D ∅ ∅ e)
    (hnew : e.IsNew r.id)
    (hid : info.id = r.id) (hbutton : needsButton → e.layout.contains r.id) :
    Ensures (insertEntry r info needsButton) e fun key e' ↦ Sound detail D {key} {key} e' := by
  let x : Entry := Entry.new r.id info r.available r.hasContent
  let key := (e.entries.insert x).1
  have hget : ∀ k, ({ e with entries := (e.entries.insert x).2 } : Engine).entries.get? k =
      if k = key then some x else e.entries.get? k := SlotTable.get?_insert e.entries x
  have hinserted : Sound detail D {key} {key}
      { e with entries := (e.entries.insert x).2 } := by
    refine ⟨h.coherent.insert (z := x.standing) (fun k ↦ ?_) rfl hid hid fun {k y} hy ↦ ?_,
      fun hd ↦ ?_⟩
    · rw [standing?, hget, standing?]
      split <;> rfl
    · obtain ⟨entry, hentry, rfl⟩ := standing?_eq_some.1 hy
      exact hnew hentry
    · have hdec := h.decorated hd
      refine ⟨fun {k y} hk hy ↦ ?_, fun {k y} hy hb ↦ ?_, hdec.externals.insert fun a ↦ ?_,
        hdec.buttons.insert fun a ↦ ?_⟩
      · rw [hget, if_neg (show k ≠ key from hk)] at hy
        exact hdec.shape (Set.notMem_empty k) hy
      · rw [hget] at hy
        split at hy
        · cases hy
          cases hb
        · exact hdec.known hy hb
      · simp [x, Entry.new, Entry.holds]
      · simp [x, Entry.new, Entry.hasButton]
  have hx : ({ e with entries := (e.entries.insert x).2 } : Engine).entries.get? key = some x :=
    (hget key).trans (if_pos rfl)
  refine ensures_modifyGet.2 ?_
  cases needsButton with
  | true =>
    obtain ⟨b, hex⟩ := exchanged_createStripeButton info hx (hinserted.isServed hx) rfl
    have hxid : x.id = r.id := hid
    refine hinserted.rebutton hx hex fun _ _ ↦ ?_
    rw [hxid]
    exact hbutton rfl
  | false => exact hinserted

def settle (r : RegisterRequest) (needsButton : Bool) (info : WindowInfo) : Operation Unit := do
  let key ← insertEntry r (entered r info) needsButton
  if needsButton && (entered r info).visible then
    let _ ← showWindow key info false
    if startsActive (entered r info) && (← get).host.applicationActive then
      modify (·.requestFocus r.id)
  modify fun e ↦ (e.validatePane (e.paneFor (entered r info).pane)).fire .registerToolWindow r.id

theorem entered_eq (h : info.visible → r.hasContent ∧ r.available) : entered r info = info := by
  have hv : (info.visible && r.hasContent && r.available) = info.visible := by
    cases hv : info.visible with
    | false => rfl
    | true => simp [(h hv).1, (h hv).2]
  rw [entered, hv]

theorem Sound.settle {needsButton : Bool} (h : Sound detail D ∅ ∅ e) (hnew : e.IsNew r.id)
    (hid : info.id = r.id) (hneeds : needsButton → r.available)
    (hstored : e.layout.get? r.id = some info ∨
      e.layout.get? r.id = none ∧ info.visible = false ∧ needsButton = false)
    (hshow : info.visible → r.hasContent ∧ r.available ∧ (needsButton ∨ e.HasRoomFor info))
    (hdec : D → info.visible → needsButton) :
    Ensures (Engine.settle r needsButton info).run e fun _ e' ↦ Sound detail D ∅ ∅ e' := by
  have hentered := entered_eq (r := r) fun hv ↦ ⟨(hshow hv).1, (hshow hv).2.1⟩
  have hcontains : e.layout.get? r.id = some info → e.layout.contains r.id :=
    Layout.contains_of_get?
  have hbutton : needsButton → e.layout.contains r.id := by
    intro hb
    obtain hinfo | ⟨-, -, hnb⟩ := hstored
    · exact hcontains hinfo
    · rw [hb] at hnb
      cases hnb
  simp only [Engine.settle, ensures_run_lift_bind, ensures_run_ite, ensures_run_get_bind,
    ensures_run_modify, ensures_run_modify_bind]
  refine (ensures_and (h.insertEntry (entered r info) hnew hid hbutton)
    ensures_insertEntry).mono
    fun key e₁ ⟨h₁, b, hadmits⟩ ↦ ⟨fun hboth ↦ ?_, fun hnot ↦ ?_⟩
  · rw [Bool.and_eq_true] at hboth
    refine (h₁.showWindow info hadmits.get?_self hid rfl (hneeds hboth.1)
      fun _ ↦ ⟨rfl, rfl, Or.inl rfl⟩).mono fun _ e₂ ⟨h₂, _⟩ ↦ ?_
    exact ⟨fun _ ↦ h₂.idle ((Idles.requestFocus.trans .validatePane).trans .fire),
      fun _ ↦ h₂.idle (Idles.validatePane.trans .fire)⟩
  · have hx := hadmits.get?_self
    rw [hentered] at hx hnot
    have hhidden : D → info.visible = false := by
      intro hd
      refine Bool.eq_false_iff.2 fun hv ↦ hnot ?_
      rw [hdec hd hv, hv]
      rfl
    have hdown : Sound detail D ∅ ∅ e₁ := by
      refine Sound.put_down (h₁.mono (by simp) (by simp)) hx (fun stored hs ↦ ?_)
        (fun hv ↦ ⟨(hshow hv).2.1, ?_⟩) (fun ho k y _ hne hy ho' ↦ ?_) fun hd ↦ ?_
      · have hs' : e.layout.get? r.id = some stored := by
          rw [← hadmits.layout, ← hid]
          exact hs
        obtain hinfo | ⟨hnone, -⟩ := hstored
        · exact Option.some.inj (hs'.symm.trans hinfo)
        · cases hs'.symm.trans hnone
      · rw [hadmits.layout]
        obtain hinfo | ⟨-, hv', -⟩ := hstored
        · exact (congrArg (e.layout.contains ·) hid).trans (hcontains hinfo)
        · exact absurd (hv'.symm.trans hv) Bool.false_ne_true
      · have hv : info.visible = true := (WindowInfo.occupiesSlot_iff.1 ho).1
        have hroom := (hshow hv).2.2.resolve_left fun hb ↦ hnot (by rw [hb, hv]; rfl)
        exact hroom ho ((hadmits.get?_other hne).symm.trans hy) ho'
      · exact (Entry.isDecorated_of_hidden (hhidden hd)).2 ⟨rfl, rfl, rfl⟩
    exact hdown.idle (Idles.validatePane.trans .fire)

/-- A window that is registered may be visible only with content and where it is available, and
either with a button, so that it is shown, or where nobody else is. -/
structure Fits (r : RegisterRequest) (e : Engine) : Prop where
  id_eq : ∀ info, known? r e.layout = some info → info.id = r.id
  shows : ∀ info, known? r e.layout = some info → info.visible →
    r.hasContent ∧ r.available ∧ (info.showStripeButton ∨ e.HasRoomFor info)

theorem Sound.register (h : Sound detail D ∅ ∅ e) (hfits : Fits r e)
    (hdec : D → ∀ info, known? r e.layout = some info → info.visible → info.showStripeButton) :
    Ensures (Engine.register r).run e fun _ e' ↦ Sound detail D ∅ ∅ e' := by
  simp only [Engine.register, ensures_run_get_bind, ensures_run_ite, ensures_run_throw_bind]
  refine ⟨fun _ ↦ h, fun hreg ↦ ?_⟩
  have hnew := isNew_of_not_isRegistered (by simpa using hreg)
  rw [ensures_run_bind]
  refine (ensures_and (h.knownPlacement hnew hfits.id_eq) ensures_knownPlacement).mono
    fun res e₁ ⟨h₁, he₁, hknown, _⟩ ↦ ⟨fun known hk ↦ ?_, fun _ _ ↦ h₁⟩
  obtain ⟨rfl, hstored⟩ := hknown known hk
  have hnew₁ : e₁.IsNew r.id := fun k y hy ↦ hnew (he₁ ▸ hy)
  have hneeds : r.needsButton (known? r e.layout) → r.available := by
    intro hb
    rw [RegisterRequest.needsButton, Bool.and_eq_true] at hb
    exact hb.1
  cases hinfo : known? r e.layout with
  | some info =>
    rw [hinfo] at hstored hneeds
    have hroom : e.HasRoomFor info → e₁.HasRoomFor info := fun hr ho k y hy ↦ hr ho (he₁ ▸ hy)
    have hbutton : r.available → info.showStripeButton → r.needsButton (some info) := by
      intro ha hs
      simp [RegisterRequest.needsButton, ha, hs]
    have hid : info.id = r.id := hfits.id_eq info hinfo
    refine h₁.settle hnew₁ hid hneeds (Or.inl (hid ▸ hstored)) (fun hv ↦ ?_) fun hd hv ↦ ?_
    · obtain ⟨hc, ha, hs⟩ := hfits.shows info hinfo hv
      exact ⟨hc, ha, hs.imp (hbutton ha) hroom⟩
    · exact hbutton (hfits.shows info hinfo hv).2.1 (hdec hd info hinfo hv)
  | none =>
    rw [hinfo] at hstored hneeds
    refine ensures_run_lift_bind.2 ((h₁.newPlacement hnew₁ hstored).mono
      fun info e₂ ⟨h₂, he₂, hid, hv, hget⟩ ↦ ?_)
    have hnew₂ : e₂.IsNew r.id := fun k y hy ↦ hnew₁ (he₂ ▸ hy)
    have hhidden : ¬ info.visible = true := by
      rw [hv]
      exact Bool.false_ne_true
    refine h₂.settle hnew₂ hid hneeds ?_ (fun hvis ↦ absurd hvis hhidden)
      fun _ hvis ↦ absurd hvis hhidden
    by_cases hb : r.needsButton none = true
    · rw [if_pos hb] at hget
      exact Or.inl hget
    · rw [if_neg hb] at hget
      exact Or.inr ⟨hget, hv, by simpa using hb⟩

end Engine

end ToolDock
