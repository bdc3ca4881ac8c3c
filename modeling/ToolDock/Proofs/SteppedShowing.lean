import ToolDock.Proofs.Stepping

namespace ToolDock.Engine

variable {may : Layout → Layout → Prop} {e : Engine} {key : SlotKey} {x : Entry}
  {info : WindowInfo} {dirty hideSide : Bool} {mutation : HideMutation} {id : String}
  {slot : Slot} {anchor : Anchor} {ks : List SlotKey} {α : Type}

theorem steps_applyMutation (hl : e.Lists key id) :
    Steps may e (e.applyMutation key info mutation).2 := by
  cases mutation with
  | none => exact .refl
  | removeStripeButton | removeFromStripe => exact steps_removeStripeButton hl

theorem rests_deactivate (key : SlotKey) (hard : Bool) :
    Rests e { e with activeStack := e.activeStack.remove key hard } :=
  ⟨rfl, rfl, rfl, .refl, fun _ h ↦ (ActiveStack.mem_transient_remove.1 h).1,
    fun _ h ↦ (ActiveStack.mem_persistent_remove.1 h).1, fun _ _ h ↦ h⟩

theorem steps_deactivateWindow (hl : e.Lists key id) :
    Steps may e (e.deactivateWindow key info dirty mutation).2 := by
  let quiet : Engine := { e with activeStack := e.activeStack.remove key false }
  let off : WindowInfo := { info with visible := false, activeOnStart := false }
  have hquiet : Steps may e quiet := steps_rest (rests_deactivate key false)
  have hmutated : Steps may e (quiet.applyMutation key off mutation).2 :=
    hquiet.trans (steps_applyMutation (hl.steps hquiet))
  exact hmutated.trans (steps_removeDecorators (hl.steps hmutated))

theorem steps_hidden (dirty : Bool) (hl : e.Lists key info.id)
    (hmay : Layout.MayHide may e.layout mutation info) :
    Steps may e (e.hidden key info dirty mutation) := by
  have hoff : Steps may e (e.deactivateWindow key info dirty mutation).2 :=
    steps_deactivateWindow hl
  obtain ⟨x, _, hloc, -⟩ := hl.located
  obtain ⟨⟨saved, hsaved⟩, hex⟩ := exchanged_deactivateWindow (D := False) info dirty mutation
    hloc.entry False.elim
  have hid : (e.deactivateWindow key info dirty mutation).1.id = info.id := by
    rw [hsaved, WindowInfo.id_withState, id_mutated]
  refine hoff.trans (steps_commit _ (hid ▸ hl.steps hoff) ?_)
  rw [hex.layout, hsaved]
  exact hmay e.layout saved fun _ ↦ rfl

theorem Located.steps_hidden (dirty : Bool) (hstable : Layout.Stable may)
    (hl : Located e key x info) : Steps may e (e.hidden key info dirty .none) :=
  Engine.steps_hidden dirty hl.lists (hstable.mayHide .none hl.place? (by decide))

theorem steps_remembering (hl : e.Lists key info.id) : Steps may e (e.remembering info) := by
  obtain ⟨x, hx, hid, hc⟩ := hl
  unfold remembering
  split
  case isTrue h =>
    rw [Bool.and_eq_true, Bool.and_eq_true] at h
    exact .single (.remember hx (hid ▸ hc) hid.symm h.1.1)
  case isFalse => exact .refl

theorem steps_evict (hstable : Layout.Stable may) (hl : e.Lists key id) :
    Steps may e (e.evict dirty key) := by
  obtain ⟨x, info, hloc, -⟩ := hl.located
  obtain ⟨told, heq⟩ := evict_eq dirty (e := e) (k := key)
  rw [heq, hloc.registeredInfo_eq]
  have hremembered : Steps may e (e.remembering info) := steps_remembering hloc.lists
  have hloc' : Located (e.remembering info) key x info :=
    ⟨get?_remembering info hloc.entry, by rw [layout_remembering]; exact hloc.placement⟩
  exact (hremembered.trans (hloc'.steps_hidden dirty hstable)).trans (steps_rest rests_fire)

theorem steps_deactivateRegistered (hstable : Layout.Stable may) (hl : e.Lists key id) :
    Steps may e (e.deactivateRegistered key dirty) := by
  obtain ⟨x, info, hloc, -⟩ := hl.located
  have heq : e.deactivateRegistered key dirty =
      (e.registeredInfo key).2.hidden key (e.registeredInfo key).1 dirty .none := rfl
  rw [heq, hloc.registeredInfo_eq]
  exact hloc.steps_hidden dirty hstable

theorem steps_foldl {f : Engine → α → Engine} {P : Engine → α → Prop} {as : List α}
    (hf : ∀ {e a}, Drafted e → P e a → Steps may e (f e a))
    (hP : ∀ {e e' a}, Steps may e e' → P e a → P e' a) (hd : Drafted e) (has : ∀ a ∈ as, P e a) :
    Steps may e (as.foldl f e) := by
  induction as generalizing e with
  | nil => exact .refl
  | cons a as ih =>
    have hstep := hf hd (has a (List.mem_cons_self ..))
    exact hstep.trans (ih (hd.steps hstep) fun b hb ↦ hP hstep (has b (List.mem_cons_of_mem _ hb)))

theorem steps_foldl_keys {f : Engine → SlotKey → Engine}
    (hf : ∀ {e key id}, Lists e key id → Steps may e (f e key)) (hd : Drafted e)
    (hks : ∀ k ∈ ks, ∃ id, e.Lists k id) : Steps may e (ks.foldl f e) :=
  steps_foldl (P := fun e k ↦ ∃ id, e.Lists k id) (fun _ h ↦ h.elim fun _ hl ↦ hf hl)
    (fun h hl ↦ hl.imp fun _ hl ↦ hl.steps h) hd hks

theorem Drafted.lists (hd : Drafted e) (hx : e.entries.get? key = some x)
    (hv : x.info.visible = true) : e.Lists key x.id := by
  refine ⟨x, hx, rfl, (hd hx).resolve_right fun hdraft ↦ ?_⟩
  rw [hdraft.hidden] at hv
  cases hv

theorem steps_evictFor (hstable : Layout.Stable may) (hd : Drafted e) :
    Steps may e (e.evictFor key info dirty) := by
  unfold evictFor
  split
  · refine steps_foldl_keys (steps_evict hstable) hd fun k hk ↦ ?_
    obtain ⟨-, y, hy, ho, -⟩ := mem_occupants.1 hk
    exact ⟨y.id, hd.lists hy (WindowInfo.occupiesSlot_iff.1 ho).1⟩
  · exact .refl

theorem samePlaces_evictFor (key : SlotKey) (info : WindowInfo) (dirty : Bool) (hd : Drafted e) :
    e.layout.SamePlaces (e.evictFor key info dirty).layout :=
  (steps_evictFor Layout.stable_samePlaces hd).samePlaces

theorem steps_clearFor (hstable : Layout.Stable may) (hd : Drafted e) :
    Steps may e (e.clearFor key info dirty hideSide) := by
  unfold clearFor
  split
  · have hhidden : Steps may e
        ((e.neighbours key info).foldl (·.deactivateRegistered · dirty) e) := by
      refine steps_foldl_keys (steps_deactivateRegistered hstable) hd fun k hk ↦ ?_
      obtain ⟨y, hy, hp⟩ := mem_keysWhere.1 hk
      simp only [Bool.and_eq_true] at hp
      exact ⟨y.id, hd.lists hy (WindowInfo.occupiesSlot_iff.1 hp.1.2).1⟩
    refine hhidden.trans (steps_rest (rests_withStacks fun a ↦ ?_))
    rw [SideStack.get_clearAnchor]
    split
    · exact List.nil_subset _
    · exact List.Subset.refl _
  · exact .refl

theorem samePlaces_clearFor (key : SlotKey) (info : WindowInfo) (dirty hideSide : Bool)
    (hd : Drafted e) : e.layout.SamePlaces (e.clearFor key info dirty hideSide).layout :=
  (steps_clearFor Layout.stable_samePlaces hd).samePlaces

theorem steps_showWindow (dirty : Bool) (hstable : Layout.Stable may) (hd : Drafted e)
    (hl : e.Lists key info.id) (hmay : Layout.MayShow may e.layout info) :
    Ensures (showWindow key info dirty) e fun _ e' ↦ Steps may e e' := by
  refine ensures_showWindow_cases (fun _ ↦ .refl) fun _ order horder ↦ ?_
  have hevicted : Steps may e (e.evictFor key (info.shownAt order) dirty) :=
    steps_evictFor hstable hd
  have hstored := hevicted.trans (steps_commit (info.shownAt order) (hl.steps hevicted)
    (hmay _ order (samePlaces_evictFor key (info.shownAt order) dirty hd) horder))
  refine (Steps.then hstored (steps_addDecorator (hl.steps hstored))).mono fun _ e₁ h₁ ↦ ?_
  have hforgot := h₁.trans (steps_rest (rests_forgetEvicted info.id))
  have hlabelled := hforgot.trans
    (steps_ensureStripeButton (info.shownAt order) (hl.steps hforgot))
  exact hlabelled.trans (steps_rest rests_fire)

theorem Located.steps_showWindow (dirty : Bool) (hlen : Layout.Lenient may) (hd : Drafted e)
    (hl : Located e key x info) :
    Ensures (showWindow key info dirty) e fun _ e' ↦ Steps may e e' :=
  Engine.steps_showWindow dirty hlen.toStable hd hl.lists (hlen.mayShow hl.place?)

theorem ensures_showWindow_false :
    Ensures (showWindow key info dirty) e fun shown e' ↦ shown = false → e' = e :=
  ensures_showWindow_cases (fun _ _ ↦ rfl) fun _ _ _ _ _ _ h ↦ absurd h Bool.true_eq_false.mp

theorem steps_restoreFrom {stored : List WindowInfo} (hlen : Layout.Lenient may) (hd : Drafted e)
    (hsub : stored ⊆ e.sideStack.get anchor) :
    Ensures (restoreFrom anchor slot dirty stored) e fun _ e' ↦ Steps may e e' := by
  induction stored generalizing e with
  | nil => exact ensures_pure.2 .refl
  | cons stored rest ih =>
    simp only [restoreFrom, ensures_bind, ensures_modify, ensures_ite, ensures_get]
    have hpopped : Steps may e (e.withStacks (e.sideStack.set anchor rest)) := by
      refine steps_rest (rests_withStacks fun a ↦ ?_)
      rw [PerAnchor.get_set]
      split
      case isTrue ha => exact ha ▸ List.Subset.trans (List.subset_cons_self stored rest) hsub
      case isFalse => exact List.Subset.refl _
    have hrest : rest ⊆ (e.withStacks (e.sideStack.set anchor rest)).sideStack.get anchor := by
      rw [withStacks, PerAnchor.get_set, if_pos rfl]
      exact List.Subset.refl _
    have hd₁ : Drafted (e.withStacks (e.sideStack.set anchor rest)) := hd.steps hpopped
    have hskip := hpopped.then (ih hd₁ hrest)
    refine ⟨fun _ ↦ hskip, fun _ ↦ ?_⟩
    cases hkey : keyOf? { e with sideStack := e.sideStack.set anchor rest } stored.id with
    | none => exact hskip
    | some key =>
      obtain ⟨x, hx, -⟩ := get?_of_keyOf? hkey
      simp only [ensures_bind, ensures_get, ensures_ite, ensures_takeInfo, ensures_pure]
      refine ⟨fun _ ↦ hskip, fun _ ↦ ?_⟩
      have htaken : Steps may e
          (registeredInfo (e.withStacks (e.sideStack.set anchor rest)) key).2 :=
        hpopped.trans (steps_registeredInfo hlen hd₁ hx)
      have hrest' : rest ⊆ (registeredInfo
          (e.withStacks (e.sideStack.set anchor rest)) key).2.sideStack.get anchor := by
        rwa [sideStack_registeredInfo]
      have hskip' := Steps.then htaken (ih (hd.steps htaken) hrest')
      refine ⟨fun _ ↦ hskip', fun _ ↦ ?_⟩
      have hshow := (located_registeredInfo hd₁ hx).steps_showWindow dirty hlen
        (hd.steps htaken)
      refine (ensures_and hshow ensures_showWindow_false).mono ?_
      intro shown e₁ hq
      rcases hq with ⟨h₁, hfalse⟩
      refine ⟨fun _ ↦ htaken.trans h₁, fun hnot ↦ ?_⟩
      rw [hfalse (by simpa using hnot)]
      exact hskip'

theorem steps_hideWindow (dirty hideSide : Bool) (hlen : Layout.Lenient may) (hd : Drafted e)
    (hl : e.Lists key info.id) (hmay : Layout.MayHide may e.layout mutation info) :
    Ensures (hideWindow key info dirty hideSide mutation) e fun _ e' ↦ Steps may e e' := by
  have hcleared : Steps may e (e.clearFor key info dirty hideSide) :=
    steps_clearFor hlen.toStable hd
  have hmay' : Layout.MayHide may (e.clearFor key info dirty hideSide).layout mutation info :=
    fun m saved hsame ↦ hmay m saved fun id ↦
      (hsame id).trans (samePlaces_clearFor key info dirty hideSide hd id)
  have hhidden := hcleared.trans (steps_hidden dirty (hl.steps hcleared) hmay')
  refine ensures_hideWindow rfl rfl (fun _ ↦ ?_) fun _ ↦ hhidden
  simp only [restoreEvicted, ensures_bind, ensures_get]
  exact Steps.then hhidden (steps_restoreFrom hlen (hd.steps hhidden) (List.Subset.refl _))

end ToolDock.Engine
