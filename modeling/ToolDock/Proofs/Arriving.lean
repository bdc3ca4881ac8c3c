import ToolDock.Proofs.Requests
import ToolDock.Proofs.Steadiness

/-!
A window that is registered may come up at once. What its entry says about that, whether it gets a
stripe button and whether it is shown are three decisions: one that is marked visible and gets no
button is entered as visible, but nobody shows it or empties its slot. Main statement:
`arrives_register_iff`.
-/

namespace ToolDock

/-- A placement marks the window of a request visible and denies it the stripe button, without
which it is not shown. -/
def RegisterRequest.SlipsIn (r : RegisterRequest) (info : WindowInfo) : Prop :=
  info.visible ∧ r.hasContent ∧ r.available ∧ info.showStripeButton = false

namespace Engine

variable {e e' : Engine} {key : SlotKey} {x : Entry} {info : WindowInfo} {r : RegisterRequest}

/-- Whether the window of an entry is in a pane at its slot, or has an open window of its own. -/
def IsOnScreen (e : Engine) (x : Entry) : Prop :=
  match x.info.windowType with
  | .docked | .sliding => ∃ p, x.attached = some p ∧ p.slot = x.info.slot
  | .floating | .windowed => ∃ a, x.external? = some a ∧ e.host.isOpen a

/-- No two registered windows are visible in one slot. -/
def HoldsSlotsOnce (e : Engine) : Prop :=
  ∀ ⦃k k' y y'⦄, e.entries.get? k = some y → e.entries.get? k' = some y' → y.info.occupiesSlot →
    y'.info.occupiesSlot → y.info.slot = y'.info.slot → k = k'

theorem CoherentOn.holdsSlotsOnce {κ : Type} {detail : Int32 × Bool × Bool → κ}
    (h : CoherentOn detail ∅ e) : e.HoldsSlotsOnce := fun k k' _ _ hy hy' ↦
  h.exclusive (Set.notMem_empty k) (Set.notMem_empty k') (standing?_of_get? hy)
    (standing?_of_get? hy')

theorem isOnScreen_of_decorated (hd : Decorated e) (hx : e.entries.get? key = some x)
    (hheadless : e.host.desktop.headless = false) (hv : x.info.visible) : e.IsOnScreen x := by
  have hshape := hd.shape (Set.notMem_empty key) hx
  have hopen := (hd.isServed hx).1
  rw [Entry.isDecorated_of_visible hv, Entry.IsDecoratedFor, hheadless] at hshape
  unfold IsOnScreen
  cases ht : x.info.windowType with
  | docked | sliding =>
    rw [ht] at hshape
    exact hshape.1
  | floating =>
    rw [ht] at hshape
    obtain ⟨-, hf, hw⟩ := hshape
    obtain ⟨a, ha⟩ := Option.isSome_iff_exists.1 hf
    exact ⟨a, by rw [Entry.external?, hw, ha, Option.none_or], hopen a (Or.inl ha)⟩
  | windowed =>
    rw [ht] at hshape
    obtain ⟨-, -, hw⟩ := hshape
    obtain ⟨a, ha⟩ := Option.isSome_iff_exists.1 (hw.resolve_right Bool.false_ne_true)
    exact ⟨a, by rw [Entry.external?, ha, Option.some_or], hopen a (Or.inr ha)⟩

theorem not_isOnScreen_of_bare (hatt : x.attached = none) (hext : x.external? = none) :
    ¬ e.IsOnScreen x := by
  unfold IsOnScreen
  rw [hatt, hext]
  split
  all_goals
    intro hq
    obtain ⟨_, h, -⟩ := hq
    cases h

theorem Admits.holdsSlotsOnce_iff (h : Admits key x e e') (honce : e.HoldsSlotsOnce) :
    e'.HoldsSlotsOnce ↔ e.HasRoomFor x.info := by
  have hother : ∀ {k y}, e.entries.get? k = some y → k ≠ key := by
    rintro k y hy rfl
    cases h.fresh.symm.trans hy
  constructor
  · intro honce' ho k y hy hoy hslot
    have hy' : e'.entries.get? k = some y := (h.get?_other (hother hy)).trans hy
    exact hother hy (honce' hy' h.get?_self hoy ho hslot)
  · intro hroom k k' y y' hy hy' ho ho' hslot
    rw [h.get?] at hy hy'
    split at hy <;> split at hy'
    · rename_i hk hk'
      rw [hk, hk']
    · cases hy
      exact absurd hslot.symm (hroom ho hy' ho')
    · cases hy'
      exact absurd hslot (hroom ho' hy ho)
    · exact honce hy hy' ho ho' hslot

theorem Admits.namesUnique (h : Admits key x e e') (hu : NamesUnique e) (hnew : e.IsNew x.name) :
    NamesUnique e' := by
  intro k k' y y' hy hy' hname
  rw [h.get?] at hy hy'
  split at hy <;> split at hy'
  · rename_i hk hk'
    rw [hk, hk']
  · cases hy
    exact absurd hname.symm (hnew hy')
  · cases hy'
    exact absurd hname (hnew hy)
  · exact hu hy hy' hname

theorem ensures_knownPlacement_layout :
    Ensures (knownPlacement r).run e fun _ e' ↦ ∃ l, e' = { e with layout := l } := by
  unfold knownPlacement
  cases r.placement with
  | none =>
    simp only [ensures_run_get_bind, ensures_run_pure]
    exact ⟨e.layout, rfl⟩
  | some info =>
    simp only [ensures_run_get_bind]
    cases orderOwner? e.layout info with
    | some owner => exact ensures_run_throw.2 ⟨e.layout, rfl⟩
    | none =>
      simp only [ensures_run_modify_bind, ensures_run_pure]
      exact ⟨_, rfl⟩

theorem ensures_newPlacement_layout {needsButton : Bool} :
    Ensures (newPlacement r needsButton) e fun _ e' ↦ ∃ l, e' = { e with layout := l } := by
  simp only [newPlacement, ensures_ite, ensures_bind, ensures_get, ensures_check, ensures_modify,
    ensures_pure]
  exact ⟨fun _ _ _ ↦ ⟨_, rfl⟩, fun _ ↦ ⟨e.layout, rfl⟩⟩

/-- A registration is refused, or admits a window once it has found out its placement, whatever it
stores of that in the layout. -/
theorem ensures_register_settles {Q : Except EngineError Unit → Engine → Prop}
    (hrefused : ∀ error l, Q (.error error) { e with layout := l })
    (hsettle : ∀ needsButton info l,
      Ensures (settle r needsButton info).run { e with layout := l } Q) :
    Ensures (register r).run e Q := by
  simp only [register, ensures_run_get_bind, ensures_run_ite, ensures_run_throw_bind]
  refine ⟨fun _ ↦ hrefused _ e.layout, fun _ ↦ ?_⟩
  rw [ensures_run_bind]
  refine ensures_knownPlacement_layout.mono ?_
  rintro _ _ ⟨l, rfl⟩
  refine ⟨fun known _ ↦ ?_, fun error _ ↦ hrefused error l⟩
  cases known with
  | some info => exact hsettle (r.needsButton (some info)) info l
  | none =>
    refine ensures_run_lift_bind.2 (ensures_newPlacement_layout.mono ?_)
    rintro info _ ⟨l', rfl⟩
    exact hsettle (r.needsButton none) info l'

theorem ensures_register_named : Ensures (register r).run e fun res e' ↦ res = .ok () →
    ∃ k y, e'.entries.get? k = some y ∧ y.name = r.id := by
  refine ensures_register_settles (fun _ _ hres ↦ (nomatch hres)) fun _ _ _ ↦ ?_
  refine ensures_settle_named.mono ?_
  rintro _ _ ⟨k, y, hy, hname, -⟩ -
  exact ⟨k, y, hy, hname⟩

theorem ensures_settle_desktop {needsButton : Bool} : Ensures (settle r needsButton info).run e
    fun _ e' ↦ e'.host.desktop = e.host.desktop := by
  simp only [settle, ensures_run_lift_bind, ensures_run_ite, ensures_run_get_bind,
    ensures_run_modify, ensures_run_modify_bind]
  refine ensures_insertEntry.mono ?_
  rintro key e₁ ⟨b, hadmits⟩
  refine ⟨fun _ ↦ steady_showWindow.mono fun _ e₂ h₂ ↦ ?_, fun _ ↦ hadmits.desktop⟩
  have hdesktop := h₂.desktop.trans hadmits.desktop
  exact ⟨fun _ ↦ Host.keeps_requestFocus.desktop.trans hdesktop, fun _ ↦ hdesktop⟩

theorem ensures_register_desktop : Ensures (register r).run e fun _ e' ↦
    e'.host.desktop = e.host.desktop :=
  ensures_register_settles (fun _ _ ↦ rfl) fun _ _ _ ↦ ensures_settle_desktop

theorem ensures_register_entered (hu : NamesUnique e) (hinfo : known? r e.layout = some info)
    (hshown : ¬ (r.needsButton (some info) && (entered r info).visible) = true) :
    Ensures (register r).run e fun res e' ↦ res = .ok () → ∃ x, e'.entry? r.id = some x ∧
      x.info = entered r info ∧ x.attached = none ∧ x.external? = none ∧
        (e.HoldsSlotsOnce → (e'.HoldsSlotsOnce ↔ e.HasRoomFor (entered r info))) := by
  refine ensures_register hinfo (fun _ hres ↦ (nomatch hres)) fun hreg e₁ he₁ _ ↦ ?_
  refine (ensures_settle_entered hshown).mono ?_
  rintro _ e' ⟨key, b, hadmits⟩ -
  have hnew : e₁.IsNew r.id := fun k y hy ↦ isNew_of_not_isRegistered hreg (he₁ ▸ hy)
  have hu₁ : NamesUnique e₁ := fun _ _ _ _ hy hy' hname ↦ hu (he₁ ▸ hy) (he₁ ▸ hy') hname
  refine ⟨_, (hadmits.namesUnique hu₁ hnew).entry?_eq hadmits.get?_self, rfl, rfl, rfl,
    fun honce ↦ ?_⟩
  have honce₁ : e₁.HoldsSlotsOnce := fun _ _ _ _ hy hy' ↦ honce (he₁ ▸ hy) (he₁ ▸ hy')
  rw [hadmits.holdsSlotsOnce_iff honce₁, HasRoomFor, he₁]
  rfl

theorem id_of_known? (hid : ∀ info, r.placement = some info → info.id = r.id)
    (hinfo : known? r e.layout = some info) : info.id = r.id := by
  rcases Option.or_eq_some_iff.1 hinfo with hplaced | ⟨-, hstored⟩
  · exact hid info hplaced
  · exact Layout.id_of_get? hstored

theorem arrives_of_presents (hc : CoherentCore e) (hd : Decorated e)
    (hheadless : e.host.desktop.headless = false) (hpresents : (Request.register r).Presents e)
    (hrun : (register r).run e = .ok (.ok ()) e') : ∃ x, e'.entry? r.id = some x ∧
      (x.info.visible → e'.IsOnScreen x) ∧ e'.HoldsSlotsOnce := by
  have hrun' : (Request.register r).run.run e = .ok (.ok ()) e' := hrun
  obtain ⟨hc', hd'⟩ := decorated_run hc hd hpresents hrun'
  obtain ⟨key, x, hx, hname⟩ := ensures_register_named hrun rfl
  have hheadless' : e'.host.desktop.headless = false :=
    (congrArg Desktop.headless (ensures_register_desktop hrun)).trans hheadless
  exact ⟨x, hname ▸ hc'.namesUnique.entry?_eq hx, isOnScreen_of_decorated hd' hx hheadless',
    hc'.holdsSlotsOnce⟩

theorem visible_entered_iff (hv : info.visible)
    (hlacks : ¬ (info.showStripeButton ∧ r.hasContent ∧ r.available)) :
    (entered r info).visible ↔ r.SlipsIn info := by
  simp only [entered, hv, Bool.true_and, Bool.and_eq_true, RegisterRequest.SlipsIn, true_and]
  grind

theorem arrives_of_lacks (hc : CoherentCore e) (hinfo : known? r e.layout = some info)
    (hv : info.visible) (hlacks : ¬ (info.showStripeButton ∧ r.hasContent ∧ r.available))
    (hrun : (register r).run e = .ok (.ok ()) e') : ∃ x, e'.entry? r.id = some x ∧
      ((x.info.visible → e'.IsOnScreen x) ↔ ¬ r.SlipsIn info) ∧
      (e'.HoldsSlotsOnce ↔ ¬ (r.SlipsIn info ∧ ¬ e.HasRoomFor info)) := by
  have hshown : ¬ (r.needsButton (some info) && (entered r info).visible) = true := by
    simp only [RegisterRequest.needsButton, Option.all_some, entered, Bool.and_eq_true]
    exact fun h ↦ hlacks ⟨h.1.2, h.2.1.2, h.1.1⟩
  obtain ⟨x, hx, hxinfo, hatt, hext, honce⟩ :=
    ensures_register_entered hc.namesUnique hinfo hshown hrun rfl
  have hvisible : (entered r info).visible ↔ r.SlipsIn info := visible_entered_iff hv hlacks
  refine ⟨x, hx, ?_, ?_⟩
  · rw [hxinfo, ← hvisible]
    exact ⟨fun h hxv ↦ not_isOnScreen_of_bare hatt hext (h hxv), fun h hxv ↦ absurd hxv h⟩
  · rw [honce hc.holdsSlotsOnce, not_and, not_not]
    -- what slips in is entered as it is
    have hsame : r.SlipsIn info → entered r info = info := fun hslips ↦
      entered_eq fun _ ↦ ⟨hslips.2.1, hslips.2.2.1⟩
    refine ⟨fun hroom hslips ↦ hsame hslips ▸ hroom, fun hroom ho ↦ ?_⟩
    have hslips : r.SlipsIn info := hvisible.1 (WindowInfo.occupiesSlot_iff.1 ho).1
    rw [hsame hslips] at ho ⊢
    exact hroom hslips ho

/-- What a request marks visible is on the screen once it is registered, unless it slips in; and it
shares a slot just if it slips into one that is taken. -/
theorem arrives_register_iff (hc : CoherentCore e) (hd : Decorated e)
    (hheadless : e.host.desktop.headless = false)
    (hid : ∀ info, r.placement = some info → info.id = r.id)
    (hrun : (register r).run e = .ok (.ok ()) e') : ∃ x, e'.entry? r.id = some x ∧
      ((x.info.visible → e'.IsOnScreen x) ↔
        ¬ ∃ info, known? r e.layout = some info ∧ r.SlipsIn info) ∧
      (e'.HoldsSlotsOnce ↔
        ¬ ∃ info, known? r e.layout = some info ∧ r.SlipsIn info ∧ ¬ e.HasRoomFor info) := by
  by_cases hpresents : (Request.register r).Presents e
  · have hnone : ∀ info, known? r e.layout = some info → ¬ r.SlipsIn info := by
      intro info hinfo hslips
      obtain ⟨hv, -, -, hb⟩ := hslips
      exact Bool.false_ne_true (hb.symm.trans ((hpresents info hinfo).2 hv).1)
    obtain ⟨x, hx, hshown, honce⟩ := arrives_of_presents hc hd hheadless hpresents hrun
    refine ⟨x, hx, iff_of_true hshown ?_, iff_of_true honce ?_⟩
    · rintro ⟨info, hinfo, hslips⟩
      exact hnone info hinfo hslips
    · rintro ⟨info, hinfo, hslips, -⟩
      exact hnone info hinfo hslips
  · obtain ⟨info, hinfo, hv, hlacks⟩ : ∃ info, known? r e.layout = some info ∧ info.visible ∧
        ¬ (info.showStripeButton ∧ r.hasContent ∧ r.available) := by
      simp only [Request.Presents, not_forall] at hpresents
      obtain ⟨info, hinfo, hnot⟩ := hpresents
      exact ⟨info, hinfo, Classical.not_imp.1 (not_and.1 hnot (id_of_known? hid hinfo))⟩
    have honly : ∀ {P : WindowInfo → Prop},
        (∃ info', known? r e.layout = some info' ∧ P info') ↔ P info := by
      simp [hinfo]
    simp only [honly]
    exact arrives_of_lacks hc hinfo hv hlacks hrun

def buttonlessRequest : RegisterRequest where
  id := "A"
  anchor := .left
  split := false
  available := true
  hasContent := true
  placement := some { WindowInfo.new "A" .left with visible := true, showStripeButton := false }

theorem buttonlessRequest_slipsIn : ∃ e e' x, CoherentCore e ∧ Decorated e ∧
    (register buttonlessRequest).run e = .ok (.ok ()) e' ∧ e'.entry? "A" = some x ∧
      ¬ (x.info.visible → e'.IsOnScreen x) ∧ ¬ e'.HoldsSlotsOnce := by
  let info : WindowInfo :=
    { WindowInfo.new "A" .left with visible := true, showStripeButton := false }
  have hleads : blank.leadsTo (register (hiddenRequest "B")) (·.leadsTo (reveal "B") fun e ↦
      decide (e.host.desktop.headless = false) &&
        (e.entries.toList.any fun row ↦ row.2.info.occupiesSlot && row.2.info.slot == info.slot) &&
          e.accepts (register buttonlessRequest)) := by
    decide +kernel
  obtain ⟨e₁, hrun₁, hleads⟩ := exists_run_of_leadsTo hleads
  obtain ⟨e, hrun₂, hleads⟩ := exists_run_of_leadsTo hleads
  simp only [Bool.and_eq_true, decide_eq_true_eq, List.any_eq_true, beq_iff_eq] at hleads
  obtain ⟨⟨hheadless, row, hrow, ho, hslot⟩, haccepts⟩ := hleads
  obtain ⟨e', hrun⟩ := exists_run_of_accepts haccepts
  have hpresents : (Request.register (hiddenRequest "B")).Presents blank := by
    intro info hinfo
    cases hinfo
  have hregister : (Request.register (hiddenRequest "B")).run.run blank = .ok (.ok ()) e₁ := hrun₁
  have hreveal : (Request.reveal "B").run.run e₁ = .ok (.ok ()) e := hrun₂
  obtain ⟨hc₁, hd₁⟩ := decorated_run (coherentOn_of_empty rfl) (decoratedOn_of_empty rfl rfl)
    hpresents hregister
  have hmore : (Request.reveal "B").Presents e₁ := trivial
  obtain ⟨hc, hd⟩ := decorated_run hc₁ hd₁ hmore hreveal
  have hid : ∀ info, buttonlessRequest.placement = some info → info.id = buttonlessRequest.id := by
    rintro _ ⟨⟩
    rfl
  have hslips : buttonlessRequest.SlipsIn info := ⟨rfl, rfl, rfl, rfl⟩
  have htaken : ¬ e.HasRoomFor info := fun hroom ↦
    hroom rfl (SlotTable.mem_toList.1 hrow) ho hslot
  obtain ⟨x, hx, hshown, honce⟩ := arrives_register_iff hc hd hheadless hid hrun
  exact ⟨e, e', x, hc, hd, hrun, hx, fun h ↦ hshown.1 h ⟨info, rfl, hslips⟩,
    fun h ↦ honce.1 h ⟨info, rfl, hslips, htaken⟩⟩

end Engine

end ToolDock
