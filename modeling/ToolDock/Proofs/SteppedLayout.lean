import ToolDock.Proofs.SteppedRegistration

namespace ToolDock.Engine

variable {e e' : Engine} {key : SlotKey} {x : Entry} {l : Layout} {c : LayoutChange}
  {changes : List LayoutChange} {shown : Bool}

abbrev FreeSteps : Engine → Engine → Prop := Steps fun _ _ ↦ True

theorem Drafted.old_id (hd : Drafted e) (hx : e.entries.get? key = some x) :
    (e.oldInfo x).id = x.id := by
  rcases hd hx with hc | hdraft
  · obtain ⟨info, hinfo⟩ := Layout.contains_iff.1 hc
    rw [oldInfo, hinfo, Option.getD_some]
    exact Layout.id_of_get? hinfo
  · exact id_oldInfo (hdraft.ids.2.trans hdraft.ids.1.symm)

theorem id_settled (hid : (e.oldInfo x).id = x.id) : (e.settled l x).id = x.id := by
  unfold settled
  split
  · exact id_placementIn hid
  · exact id_placementIn hid

theorem Drafted.ids_planned (hd : Drafted e) (hc : c ∈ e.planned l) :
    ∃ x, e.entries.get? c.key = some x ∧ c.old.id = x.id ∧ c.new.id = x.id := by
  have hrows : ∀ rows : List (SlotKey × Entry),
      (∀ row ∈ rows, e.entries.get? row.1 = some row.2) → ∀ m changes, ∀ d,
      d ∈ (rows.foldl e.planEntry (m, changes)).2 → d ∈ changes ∨
        ∃ x, e.entries.get? d.key = some x ∧ d.old.id = x.id ∧ d.new.id = x.id := by
    intro rows hrows
    induction rows with
    | nil => exact fun _ _ d hd ↦ Or.inl hd
    | cons row rows ih =>
      intro m changes d hmem
      have hrow := hrows row (List.mem_cons_self ..)
      have hold := hd.old_id hrow
      obtain ⟨m', hplan, -⟩ := planEntry_eq (e := e) m changes hold
      rw [List.foldl_cons, hplan] at hmem
      rcases ih (fun r hr ↦ hrows r (List.mem_cons_of_mem _ hr)) _ _ d hmem with hmem | hknown
      · rcases List.mem_append.1 hmem with hmem | hmem
        · exact Or.inl hmem
        · rw [Option.mem_toList, plannedChange?, Option.ite_none_left_eq_some] at hmem
          obtain ⟨-, heq⟩ := hmem
          cases heq
          exact Or.inr ⟨row.2, hrow, hold, id_settled hold⟩
      · exact Or.inr hknown
  exact (hrows _ (fun _ h ↦ SlotTable.mem_toList.1 h) l [] c hc).resolve_left
    (List.not_mem_nil (a := c))

theorem steps_applyHiding (hl : e.Lists c.key c.new.id) : FreeSteps e (applyHiding c e).2 ∧
    (applyHiding c e).1.key = c.key ∧ (applyHiding c e).1.old = c.old ∧
      (applyHiding c e).1.new.id = c.new.id := by
  unfold applyHiding
  split
  case isFalse => exact ⟨.refl, rfl, rfl, rfl⟩
  case isTrue =>
    obtain ⟨x, _, hloc, -⟩ := hl.located
    obtain ⟨⟨saved, hsaved⟩, -⟩ :=
      exchanged_removeDecorators (D := False) c.new true hloc.entry False.elim
    exact ⟨steps_removeDecorators hl, rfl, rfl,
      (congrArg WindowInfo.id hsaved).trans (WindowInfo.id_withState ..)⟩

theorem steps_relabelled (hl : e.Lists c.key c.new.id) : FreeSteps e (e.relabelled c) := by
  unfold relabelled
  split
  · exact steps_resetStripeButton hl
  · exact .refl

theorem steps_applyPlace (hd : Drafted e) (hl : e.Lists c.key c.new.id) :
    Ensures (applyPlace c) e fun _ e' ↦ FreeSteps e e' := by
  have hlabelled : FreeSteps e (e.relabelled c) := steps_relabelled hl
  refine ensures_applyPlace_stages (fun _ ↦ ?_) fun _ ↦ hlabelled
  have hdetached : FreeSteps e ((e.relabelled c).removeInternalDecorator c.key true) :=
    hlabelled.trans (steps_removeInternalDecorator (hl.steps hlabelled))
  exact Steps.then hdetached (steps_showWindow true Layout.permissive_true.toStable
    (hd.steps hdetached) (hl.steps hdetached) fun _ _ _ _ ↦ trivial)

theorem steps_leaveSlot (hd : Drafted e) (hl : e.Lists c.key c.old.id) :
    Ensures (leaveSlot c shown) e fun _ e' ↦ FreeSteps e e' := by
  simp only [leaveSlot, ensures_ite, ensures_pure]
  exact ⟨fun _ ↦ steps_hideWindow true false Layout.permissive_true.toLenient hd hl
    fun _ _ _ ↦ trivial, fun _ ↦ .refl⟩

theorem steps_retyped (hl : e.Lists c.key c.old.id) : FreeSteps e (e.retyped c) := by
  unfold retyped
  split
  · exact steps_removeDecorators hl
  · exact .refl

theorem steps_decorate (hl : e.Lists c.key c.new.id) :
    Ensures (decorate c shown) e fun _ e' ↦ FreeSteps e e' := by
  simp only [decorate, ensures_ite, ensures_pure]
  exact ⟨fun _ ↦ steps_addDecorator hl, fun _ ↦ .refl⟩

theorem steps_applyChange (hd : Drafted e) (hl : e.Lists c.key c.new.id)
    (hid : c.old.id = c.new.id) : Ensures (applyChange c) e fun _ e' ↦ FreeSteps e e' := by
  obtain ⟨h₁, hkey, hold, hnew⟩ := steps_applyHiding hl
  -- the placement comes back with what was saved of the window
  obtain ⟨c', e₁, hhiding⟩ : ∃ c' e₁, applyHiding c e = (c', e₁) := ⟨_, _, rfl⟩
  rw [hhiding] at h₁ hkey hold hnew
  refine ensures_applyChange_stages hhiding ?_
  have hl' : e.Lists c'.key c'.new.id := by rwa [hkey, hnew]
  have hlold : e.Lists c'.key c'.old.id := by rwa [hkey, hold, hid]
  refine (h₁.then (steps_applyPlace (hd.steps h₁) (hl'.steps h₁))).mono fun _ e₂ h₂ ↦ ?_
  refine (h₂.then (steps_leaveSlot (hd.steps h₂) (hlold.steps h₂))).mono fun _ e₃ h₃ ↦ ?_
  have h₄ : FreeSteps e (e₃.retyped c') := h₃.trans (steps_retyped (hlold.steps h₃))
  exact (h₄.then (steps_decorate (hl'.steps h₄))).mono fun _ _ h₅ ↦
    h₅.trans (steps_commit _ (hl'.steps h₅) trivial)

theorem rests_applySize (c : LayoutChange) : Rests e (applySize changes e c) := by
  unfold applySize
  split
  case isFalse => exact .refl
  case isTrue =>
    have hrecorded : ∀ (e : Engine) op, Rests e (e.onHost (·.record op)) :=
      fun _ _ ↦ rests_onHost (.of_objects rfl)
    dsimp only
    split
    · split
      · exact .refl
      · exact hrecorded _ _
    · split
      · exact hrecorded _ _
      · exact (hrecorded _ _).trans (hrecorded _ _)

theorem rests_foldl {α : Type} {f : Engine → α → Engine} (hf : ∀ e a, Rests e (f e a))
    (as : List α) : Rests e (as.foldl f e) := by
  induction as generalizing e with
  | nil => exact .refl
  | cons a as ih => exact (hf e a).trans ih

theorem rests_finishLayout : Rests e (e.finishLayout changes) := by
  have hvalidated : ∀ panes : List String, Rests e (panes.foldl validatePane e) :=
    rests_foldl fun _ _ ↦ Idles.validatePane.rests
  have hpainted : ∀ (frames : List UInt32) (e : Engine), Rests e (frames.foldl repaintFrame e) :=
    fun frames _ ↦ rests_foldl (f := repaintFrame) (fun _ _ ↦ rests_onHost (.of_objects rfl)) frames
  exact (hvalidated _).trans (Idles.activateEditor.rests.trans ((hpainted _ _).trans rests_fire))

theorem Concludes.rests (h : Concludes changes e e') : Rests e e' := by
  rcases h with ⟨-, rfl⟩ | ⟨-, applied, rfl⟩
  · exact .refl
  · exact (rests_foldl (fun _ c ↦ rests_applySize c) applied).trans rests_finishLayout

theorem Drafted.replaced (hd : Drafted e) (hx : e.entries.get? key = some x) :
    (e.completed l).contains x.id :=
  contains_completed (fun hy ↦ hd.old_id hy) hx

theorem steps_setLayout (hd : Drafted e) : Ensures (setLayout l).run e fun res e' ↦
    (∃ error, res = .error error ∧ e' = e) ∨
      res = .ok () ∧ FreeSteps (e.replaceLayout (e.completed l)) e' := by
  cases hnone : orderConflict? l with
  | some error =>
    unfold setLayout
    rw [hnone]
    exact ensures_run_throw.2 (Or.inl ⟨error, rfl, rfl⟩)
  | none =>
    let e₀ : Engine := e.replaceLayout (e.completed l)
    have hd₀ : Drafted e₀ := fun _ _ hx ↦ Or.inl (hd.replaced hx)
    have hlists : ∀ c ∈ e.planned l, c.old.id = c.new.id ∧ e₀.Lists c.key c.new.id := by
      intro c hc
      obtain ⟨x, hx, hold, hnew⟩ := hd.ids_planned hc
      exact ⟨hold.trans hnew.symm, x, hx, hnew.symm, hnew ▸ hd.replaced hx⟩
    have hforetold : FreeSteps e₀ (e₀.foretold (e.planned l)) :=
      steps_foldl (P := fun (e : Engine) (c : LayoutChange) ↦ e.Lists c.key c.new.id)
        (fun _ hl ↦ steps_applyToEntry hl) (fun h hl ↦ hl.steps h) hd₀
        fun c hc ↦ (hlists c hc).2
    refine (ensures_setLayout_planned (I := fun rest e₁ ↦ FreeSteps e₀ e₁ ∧
      ∀ c ∈ rest, c.old.id = c.new.id ∧ e₀.Lists c.key c.new.id) hnone ?_
      ⟨hforetold, fun c hc ↦ hlists c (List.mem_filter.1 hc).1⟩).mono ?_
    · intro c rest e₁ hI
      obtain ⟨h₁, hrest⟩ := hI
      obtain ⟨hid, hl⟩ := hrest c (List.mem_cons_self ..)
      exact (h₁.then (steps_applyChange (hd₀.steps h₁) (hl.steps h₁) hid)).mono fun _ _ h ↦
        ⟨h, fun d hd ↦ hrest d (List.mem_cons_of_mem _ hd)⟩
    · intro res e₂ hq
      rcases hq with ⟨hres, e₁, ⟨h₁, -⟩, hlast⟩
      exact Or.inr ⟨hres, h₁.trans (steps_rest hlast.rests)⟩

end ToolDock.Engine
