import ToolDock.Proofs.Registry

namespace ToolDock.Engine

variable {D : Prop} {key k : SlotKey} {ks : List SlotKey} {x x' : Entry} {l : Layout}
  {e e' e'' : Engine} {info : WindowInfo} {slot : Slot} {dirty needsButton : Bool}
  {r : RegisterRequest} {res : Except EngineError Unit}

abbrev KeepsNames (e e' : Engine) : Prop := KeepsEntries (fun x ↦ (x.name, x.id)) e e'

theorem keepsNames_evict (dirty : Bool) (hx : e.entries.get? k = some x) :
    KeepsNames e (e.evict dirty k) := by
  obtain ⟨id, heq⟩ := evict_eq dirty (e := e) (k := k)
  have hpushed : ((e.registeredInfo k).2.remembering (e.registeredInfo k).1).entries = e.entries :=
    (entries_remembering _).trans entries_registeredInfo
  have hx₁ := hx
  rw [← hpushed] at hx₁
  obtain ⟨off, saved, -, -, hex⟩ := exchanged_hidden (D := False) (e.registeredInfo k).1
    dirty .none hx₁ (nomatch ·)
  rw [heq]
  exact (KeepsEntries.of_entries hpushed).trans (hex.keepsEntries hx₁ rfl)

theorem keepsNames_foldl_evict (hks : ∀ k ∈ ks, ∃ x, e.entries.get? k = some x) :
    KeepsNames e (ks.foldl (·.evict dirty ·) e) := by
  induction ks generalizing e with
  | nil => exact .of_entries rfl
  | cons k ks ih =>
    obtain ⟨x, hx⟩ := hks k (List.mem_cons_self ..)
    have hstep := keepsNames_evict dirty hx
    refine hstep.trans (ih fun k' hk' ↦ ?_)
    obtain ⟨y, hy⟩ := hks k' (List.mem_cons_of_mem _ hk')
    obtain ⟨y', hy', -⟩ := hstep hy
    exact ⟨y', hy'⟩

theorem keepsNames_evictFor (key : SlotKey) (info : WindowInfo) (dirty : Bool) :
    KeepsNames e (e.evictFor key info dirty) := by
  unfold evictFor
  split
  · refine keepsNames_foldl_evict fun k hk ↦ ?_
    obtain ⟨-, y, hy, -⟩ := mem_occupants.1 hk
    exact ⟨y, hy⟩
  · exact .of_entries rfl

theorem ensures_showWindow_keepsNames (hx : e.entries.get? key = some x) :
    Ensures (showWindow key info dirty) e fun _ e' ↦ KeepsNames e e' := by
  by_cases ha : x.available = true
  · refine ensures_showWindow hx ha fun order _ ↦ ?_
    have hevict := keepsNames_evictFor key (info.shownAt order) dirty (e := e)
    obtain ⟨x₁, hx₁, -⟩ := hevict hx
    have hcommit := exchanged_commit (info.shownAt order) (D := False) hx₁ (nomatch ·)
    refine (ensures_addDecorator (D := False) hcommit.get?_self (nomatch ·) (nomatch ·)).mono ?_
    intro _ e₂ hq
    rcases hq with ⟨x₂, hdressed, hstanding, -⟩
    have hx₂ : (e₂.forgetEvicted info.id).entries.get? key = some x₂ := by
      rw [entries_forgetEvicted]
      exact hdressed.get?_self
    obtain ⟨b, -, hbutton⟩ := exchanged_ensureStripeButton (D := False)
      (info.shownAt order) hx₂ (nomatch ·)
    have hnames := Standing.mk.inj hstanding
    exact hevict.trans ((hcommit.keepsEntries hx₁ rfl).trans
      ((hdressed.keepsEntries hcommit.get?_self (Prod.ext hnames.1 hnames.2.1)).trans
        ((KeepsEntries.of_entries entries_forgetEvicted).trans (hbutton.keepsEntries hx₂ rfl))))
  · exact ensures_showWindow_unavailable hx (by simpa using ha) (.of_entries rfl)

theorem ensures_settle_named {needsButton : Bool} :
    Ensures (settle r needsButton info).run e fun _ e' ↦
      ∃ k y, e'.entries.get? k = some y ∧ y.name = r.id ∧ y.id = info.id := by
  simp only [settle, ensures_run_lift_bind, ensures_run_ite, ensures_run_get_bind,
    ensures_run_modify, ensures_run_modify_bind]
  refine ensures_insertEntry.mono ?_
  intro key e₁ hq
  rcases hq with ⟨b, hadmits⟩
  have hx := hadmits.get?_self
  refine ⟨fun _ ↦ ?_, fun _ ↦ ?_⟩
  · refine (ensures_showWindow_keepsNames hx).mono fun _ e₂ hkeeps ↦ ?_
    obtain ⟨y, hy, hnames⟩ := hkeeps hx
    obtain ⟨hname, hid⟩ := Prod.mk.inj hnames
    exact ⟨fun _ ↦ ⟨key, y, hy, hname, hid⟩, fun _ ↦ ⟨key, y, hy, hname, hid⟩⟩
  · exact ⟨key, _, hx, rfl, rfl⟩

theorem ensures_settle_entered {needsButton : Bool}
    (hshow : ¬ (needsButton && (entered r info).visible) = true) :
    Ensures (settle r needsButton info).run e fun _ e' ↦ ∃ key b, Admits key
      { Entry.new r.id (entered r info) r.available r.hasContent with stripeButton := b } e e' := by
  simp only [settle, ensures_run_lift_bind, ensures_run_ite, ensures_run_get_bind,
    ensures_run_modify, ensures_run_modify_bind]
  refine ensures_insertEntry.mono ?_
  intro key e₁ hq
  rcases hq with ⟨b, hadmits⟩
  exact ⟨fun h ↦ absurd h hshow, fun _ ↦ ⟨key, b, hadmits.fresh, hadmits.get?, hadmits.layout,
    hadmits.desktop, hadmits.sideStack⟩⟩

/-- A registration with a known placement is refused at once, or stores the placement and admits the
window. -/
theorem ensures_register {Q : Except EngineError Unit → Engine → Prop}
    (hinfo : known? r e.layout = some info) (hrefused : ∀ error, Q (.error error) e)
    (hsettle : e.isRegistered r.id = false → ∀ e₁, e₁.entries = e.entries →
      e₁.layout.get? info.id = some info →
      Ensures (settle r (r.needsButton (some info)) info).run e₁ Q) :
    Ensures (register r).run e Q := by
  simp only [register, ensures_run_get_bind, ensures_run_ite, ensures_run_throw_bind]
  refine ⟨fun _ ↦ hrefused _, fun hreg ↦ ?_⟩
  rw [ensures_run_bind]
  refine ensures_knownPlacement.mono ?_
  intro res e₁ hq
  rcases hq with ⟨he₁, hknown, hsame⟩
  refine ⟨fun known hk ↦ ?_, fun error hr ↦ hsame error hr ▸ hrefused error⟩
  obtain ⟨rfl, hstored⟩ := hknown known hk
  rw [hinfo] at hstored ⊢
  exact hsettle (by simpa using hreg) e₁ he₁ hstored

theorem ensures_settle_ok {needsButton : Bool} :
    Ensures (settle r needsButton info).run e fun res _ ↦ res = .ok () := by
  simp only [settle, ensures_run_lift_bind, ensures_run_ite, ensures_run_get_bind,
    ensures_run_modify, ensures_run_modify_bind]
  exact fun _ _ _ ↦ ⟨fun _ _ _ _ ↦ ⟨fun _ ↦ trivial, fun _ ↦ trivial⟩, fun _ ↦ trivial⟩

theorem ensures_register_refused :
    Ensures (register r).run e fun res e' ↦ ∀ error, res = .error error → e' = e := by
  have hsettle : ∀ needsButton info e₁, Ensures (settle r needsButton info).run e₁
      fun res e' ↦ ∀ error, res = .error error → e' = e := by
    intro needsButton info e₁
    refine ensures_settle_ok.mono fun res _ hok error hr ↦ ?_
    cases hok.symm.trans hr
  cases hinfo : known? r e.layout with
  | some info => exact ensures_register hinfo (fun _ _ _ ↦ rfl) fun _ e₁ _ _ ↦ hsettle _ _ e₁
  | none =>
    simp only [register, ensures_run_get_bind, ensures_run_ite, ensures_run_throw_bind]
    refine ⟨fun _ _ _ ↦ trivial, fun hreg ↦ ?_⟩
    rw [ensures_run_bind]
    refine ensures_knownPlacement.mono ?_
    intro res e₁ hq
    rcases hq with ⟨-, hknown, hsame⟩
    refine ⟨fun known hk ↦ ?_, fun error hr _ _ ↦ hsame error hr⟩
    obtain ⟨rfl, -⟩ := hknown known hk
    rw [hinfo]
    exact ensures_run_lift_bind.2 fun info e₂ _ ↦ hsettle _ info e₂

theorem fits_of_coherent (h : Coherent e') (hrun : (register r).run e = .ok (.ok ()) e') :
    Fits r e := by
  refine ⟨fun info hinfo ↦ ?_, fun info hinfo hv ↦ ?_⟩
  · have hnamed : Ensures (register r).run e fun res e' ↦ res = .ok () →
        ∃ k y, e'.entries.get? k = some y ∧ y.name = r.id ∧ y.id = info.id :=
      ensures_register hinfo (fun _ hr ↦ nomatch hr) fun _ e₁ _ _ ↦
        ensures_settle_named.mono fun _ _ hy _ ↦ hy
    obtain ⟨k, y, hy, hname, hid⟩ := hnamed hrun rfl
    rw [← hid, ← hname]
    exact h.id_eq (standing?_of_get? hy)
  by_cases hshow : (r.needsButton (some info) && (entered r info).visible) = true
  · simp only [RegisterRequest.needsButton, Option.all_some, entered, Bool.and_eq_true] at hshow
    obtain ⟨⟨ha, hb⟩, ⟨-, hc⟩, -⟩ := hshow
    exact ⟨hc, ha, Or.inl hb⟩
  -- the window is not shown, so its entry is as it was entered, and all others are as before
  have hentered : Ensures (register r).run e fun res e' ↦ res = .ok () →
      e'.layout.get? info.id = some info ∧ ∃ key x, e.entries.get? key = none ∧
        e'.entries.get? key = some x ∧ x.id = info.id ∧ x.info = entered r info ∧
        ∀ k, k ≠ key → e'.entries.get? k = e.entries.get? k := by
    refine ensures_register hinfo (fun _ hr ↦ nomatch hr) fun _ e₁ he₁ hstored ↦ ?_
    refine (ensures_settle_entered hshow).mono ?_
    rintro _ e₂ ⟨key, b, hadmits⟩ -
    exact ⟨hadmits.layout ▸ hstored, key, _, he₁ ▸ hadmits.fresh, hadmits.get?_self, rfl, rfl,
      fun _ hk ↦ (hadmits.get?_other hk).trans (congrArg (SlotTable.get? · _) he₁)⟩
  obtain ⟨hstored, key, x, hnone, hx, hid, hxinfo, hothers⟩ := hentered hrun rfl
  have hcore := (h.agrees (Set.notMem_empty key) (standing?_of_get? hx) (hid ▸ hstored)).1
  change x.info.core = info.core at hcore
  rw [hxinfo] at hcore
  have hvisible : (entered r info).visible = true :=
    (WindowInfo.visible_of_core hcore).trans hv
  simp only [entered, Bool.and_eq_true] at hvisible
  obtain ⟨⟨-, hc⟩, ha⟩ := hvisible
  refine ⟨hc, ha, Or.inr fun ho k y hy ho' hslot ↦ ?_⟩
  have hne : k ≠ key := by
    rintro rfl
    cases hnone.symm.trans hy
  refine hne (h.exclusive (Set.notMem_empty k) (Set.notMem_empty key)
    (standing?_of_get? ((hothers k hne).trans hy)) (standing?_of_get? hx) ho' ?_ ?_)
  · change x.info.occupiesSlot = true
    rw [hxinfo, WindowInfo.occupiesSlot_of_core hcore]
    exact ho
  · change y.info.slot = x.info.slot
    rw [hxinfo, WindowInfo.slot_of_core hcore]
    exact hslot

end ToolDock.Engine
