import ToolDock.Proofs.Hiding

namespace ToolDock

def WindowInfo.shownAt (info : WindowInfo) (order : Int32) : WindowInfo :=
  { info with visible := true, showStripeButton := true, order := order }

@[simp] theorem WindowInfo.windowType_shownAt {info : WindowInfo} {order : Int32} :
    (info.shownAt order).windowType = info.windowType := rfl

namespace Engine

variable {κ : Type} {detail : Int32 × Bool × Bool → κ} {D : Prop} {s t : Set SlotKey}
  {e e' e'' : Engine} {key k : SlotKey} {ks : List SlotKey} {x x' y : Entry} {info : WindowInfo}
  {dirty hideSide : Bool} {mutation : HideMutation} {slot : Slot} {l : Layout}

abbrev KeepsRoster (e e' : Engine) : Prop := KeepsEntries Entry.roster e e'

theorem Hides.keepsRoster (h : Hides ks e e') : KeepsRoster e e' := fun _ _ hx ↦ h.registered hx

theorem roster_of_standing (h : x'.standing = x.standing) : x'.roster = x.roster := by
  simp only [Entry.standing, Standing.mk.injEq] at h
  simp only [Entry.roster, h]

def evictFor (e : Engine) (key : SlotKey) (info : WindowInfo) (dirty : Bool) : Engine :=
  if info.windowType.isInternal then e.evictSlot key info dirty else e

theorem evictFor_of_free (hfree : info.windowType.isInternal → e.occupants key info.slot = []) :
    e.evictFor key info dirty = e := by
  unfold evictFor evictSlot
  split
  case isTrue hi =>
    rw [hfree hi]
    rfl
  case isFalse => rfl

theorem get?_foldl_evict {ks : List SlotKey} (dirty : Bool)
    (hks : ∀ k ∈ ks, k ≠ key ∧ ∃ y, e.entries.get? k = some y) :
    (ks.foldl (·.evict dirty ·) e).entries.get? key = e.entries.get? key := by
  induction ks generalizing e with
  | nil => rfl
  | cons k ks ih =>
    obtain ⟨hne, y, hy⟩ := hks k (List.mem_cons_self ..)
    obtain ⟨y', hget⟩ := evict_others dirty hy
    rw [List.foldl_cons, ih fun k' hk' ↦ ?_, hget, if_neg hne.symm]
    obtain ⟨hne', z, hz⟩ := hks k' (List.mem_cons_of_mem _ hk')
    rw [hget]
    split
    · exact ⟨hne', y', rfl⟩
    · exact ⟨hne', z, hz⟩

theorem get?_evictFor (key : SlotKey) (info : WindowInfo) (dirty : Bool) :
    (e.evictFor key info dirty).entries.get? key = e.entries.get? key := by
  unfold evictFor
  split
  · refine get?_foldl_evict dirty fun k hk ↦ ?_
    obtain ⟨hne, y, hy, -⟩ := mem_occupants.1 hk
    exact ⟨hne, y, hy⟩
  · rfl

theorem ensures_showWindow_cases {Q : Bool → Engine → Prop}
    (hno : e.entryIs key Entry.available = false → Q false e)
    (h : e.entryIs key Entry.available → ∀ order,
      (if info.hasOrder then order = info.order
        else e.layout.nextOrder info.pane info.anchor = .ok order) →
      Ensures (addDecorator key (info.shownAt order) dirty)
        ((e.evictFor key (info.shownAt order) dirty).commit key (info.shownAt order)) fun _ e' ↦
        Q true (((e'.forgetEvicted info.id).ensureStripeButton key (info.shownAt order)).fire
          .toolWindowShown info.id)) :
    Ensures (showWindow key info dirty) e Q := by
  have hassigned : Ensures (assignedOrder info) e fun order e' ↦
      (if info.hasOrder then order = info.order
        else e.layout.nextOrder info.pane info.anchor = .ok order) ∧ e' = e := by
    simp only [assignedOrder, ensures_ite, ensures_bind, ensures_get, ensures_check, ensures_pure]
    refine ⟨fun ho ↦ ⟨?_, trivial⟩, fun hn order hnext ↦ ⟨?_, trivial⟩⟩
    · rw [if_pos ho]
      trivial
    · rwa [if_neg hn]
  simp only [showWindow, ensures_bind, ensures_get, ensures_ite, ensures_pure, ensures_modify]
  refine ⟨fun hn ↦ hno (by simpa using hn), fun ha ↦ ?_⟩
  refine hassigned.mono fun order e' ⟨horder, he'⟩ ↦ ?_
  subst he'
  have := h (by simpa using ha) order horder
  rw [evictFor, WindowInfo.windowType_shownAt] at this
  refine ⟨fun hi ↦ ?_, fun hi ↦ ?_⟩
  · rwa [if_pos hi] at this
  · rwa [if_neg hi] at this

theorem ensures_showWindow {Q : Bool → Engine → Prop} (hx : e.entries.get? key = some x)
    (ha : x.available)
    (h : ∀ order, (info.hasOrder → order = info.order) →
      Ensures (addDecorator key (info.shownAt order) dirty)
        ((e.evictFor key (info.shownAt order) dirty).commit key (info.shownAt order)) fun _ e' ↦
        Q true (((e'.forgetEvicted info.id).ensureStripeButton key (info.shownAt order)).fire
          .toolWindowShown info.id)) :
    Ensures (showWindow key info dirty) e Q := by
  refine ensures_showWindow_cases (fun hno ↦ ?_) fun _ order horder ↦ h order fun ho ↦ ?_
  · rw [entryIs_of_get? hx, ha] at hno
    cases hno
  · rwa [if_pos ho] at horder

theorem ensures_showWindow_unavailable {Q : Bool → Engine → Prop}
    (hx : e.entries.get? key = some x) (ha : x.available = false) (h : Q false e) :
    Ensures (showWindow key info dirty) e Q := by
  have hready : e.entryIs key Entry.available = false := by rwa [entryIs_of_get? hx]
  simp only [showWindow, ensures_bind, ensures_get, ensures_ite, ensures_pure, hready]
  exact ⟨fun _ ↦ h, fun hn ↦ absurd rfl hn⟩

theorem Sound.evictFor (info : WindowInfo) (dirty : Bool) (h : Sound detail D {key} t e) :
    Sound detail D {key} t (e.evictFor key info dirty) ∧ KeepsRoster e (e.evictFor key info dirty) ∧
      (e.evictFor key info dirty).entries.get? key = e.entries.get? key ∧
      (info.occupiesSlot → ∀ k y, k ≠ key → (e.evictFor key info dirty).entries.get? k = some y →
        y.info.occupiesSlot → y.info.slot ≠ info.slot) := by
  unfold Engine.evictFor
  split
  case isTrue =>
    obtain ⟨hsound, hhides⟩ := h.evictSlot info dirty subset_rfl
    exact ⟨hsound, hhides.keepsRoster, hhides.others key not_mem_occupants,
      fun _ k y hk hy ho ↦ hhides.slot_free hk hy ho⟩
  case isFalse hext =>
    exact ⟨h, .refl, rfl, fun ho ↦ absurd (WindowInfo.occupiesSlot_iff.1 ho).2 hext⟩

theorem entries_forgetEvicted {id : String} : (e.forgetEvicted id).entries = e.entries := by
  unfold forgetEvicted
  split <;> rfl

theorem layout_forgetEvicted {id : String} : (e.forgetEvicted id).layout = e.layout := by
  unfold forgetEvicted
  split <;> rfl

theorem host_forgetEvicted {id : String} : (e.forgetEvicted id).host = e.host := by
  unfold forgetEvicted
  split <;> rfl

def withStacks (e : Engine) (s : SideStack) : Engine := { e with sideStack := s }

def forgetting (e : Engine) (id : String) (s : SideStack) : SideStack :=
  if e.settings.stackEnabled then s.remove id else s

theorem forgetEvicted_eq {id : String} :
    e.forgetEvicted id = e.withStacks (e.forgetting id e.sideStack) := by
  unfold forgetEvicted forgetting withStacks
  split <;> rfl

theorem Exchanged.restack {side : SideStack} (h : Exchanged D key x x' l (e.withStacks side) e') :
    Exchanged D key x x' l e (e'.withStacks e.sideStack) where
  get? := h.get?
  layout := h.layout
  host := h.host
  foreign := h.foreign
  desktop := h.desktop
  settings := h.settings
  sideStack := rfl

theorem Exchanged.fire {kind : EventKind} {id : Option String} (h : Exchanged D key x x' l e e') :
    Exchanged D key x x' l e (e'.fire kind id) where
  get? := h.get?
  layout := h.layout
  host := h.host
  foreign := h.foreign
  desktop := h.desktop
  settings := h.settings
  sideStack := h.sideStack

theorem ensures_showWindow_ordered (hx : e.entries.get? key = some x) (ha : x.available)
    (hemptied : e.evictFor key info dirty = e') (hx' : e'.entries.get? key = some x) :
    Ensures (showWindow key info dirty) e fun res e'' ↦ res = true ∧ ∃ order x',
      (if info.hasOrder then order = info.order
        else e.layout.nextOrder info.pane info.anchor = .ok order) ∧
        x'.standing = ⟨x.name, x.id, info.shownAt order, x.available⟩ ∧
        Exchanged False key x x' (e'.layout.put (info.shownAt order)) e'
          (e''.withStacks e'.sideStack) ∧
        e''.sideStack = e'.forgetting info.id e'.sideStack := by
  subst hemptied
  refine ensures_showWindow_cases (fun hno ↦ ?_) fun _ order horder ↦ ?_
  · rw [entryIs_of_get? hx, ha] at hno
    cases hno
  have hcommit := exchanged_commit (D := False) (info.shownAt order) hx' (nomatch ·)
  refine (ensures_addDecorator (D := False) hcommit.get?_self (nomatch ·) (nomatch ·)).mono ?_
  intro _ e₂ hq
  rcases hq with ⟨x₂, hdressed, hstanding, -⟩
  have hx₂ : (e₂.forgetEvicted info.id).entries.get? key = some x₂ := by
    rw [entries_forgetEvicted]
    exact hdressed.get?_self
  obtain ⟨b, -, hbutton⟩ := exchanged_ensureStripeButton (D := False) (info.shownAt order) hx₂
    (nomatch ·)
  have hside := hdressed.sideStack.trans hcommit.sideStack
  have hset := hdressed.settings.trans hcommit.settings
  refine ⟨rfl, order, { x₂ with stripeButton := b }, horder, hstanding, ?_, ?_⟩
  · refine (hcommit.andThen hdressed).andThen ?_
    rw [forgetEvicted_eq] at hbutton
    rw [← hside, forgetEvicted_eq]
    exact hbutton.restack.fire
  · apply hbutton.sideStack.trans
    rw [forgetEvicted_eq, withStacks, forgetting, hset, hside, forgetting]

theorem ensures_showWindow_emptied (hx : e.entries.get? key = some x) (ha : x.available)
    (hemptied : e.evictFor key info dirty = e') (hx' : e'.entries.get? key = some x) :
    Ensures (showWindow key info dirty) e fun res e'' ↦ res = true ∧ ∃ order x',
      (info.hasOrder → order = info.order) ∧
        x'.standing = ⟨x.name, x.id, info.shownAt order, x.available⟩ ∧
        Exchanged False key x x' (e'.layout.put (info.shownAt order)) e'
          (e''.withStacks e'.sideStack) ∧
        e''.sideStack = e'.forgetting info.id e'.sideStack := by
  refine (ensures_showWindow_ordered hx ha hemptied hx').mono ?_
  intro res e'' hq
  rcases hq with ⟨hres, order, x', horder, hrest⟩
  exact ⟨hres, order, x', fun ho ↦ by rwa [if_pos ho] at horder, hrest⟩

theorem Sound.present (info : WindowInfo) (dirty : Bool) (h : Sound detail D {key} {key} e)
    (hx : e.entries.get? key = some x)
    (hid : info.id = x.name) (hv : info.visible) (ha : x.available)
    (hbare : D → x.IsBareFor info) :
    Ensures (addDecorator key info dirty) ((e.evictFor key info dirty).commit key info)
      fun _ e' ↦ Sound detail D ∅ ∅ e' ∧ (∃ x', Located e' key x' info) ∧
        (info.windowType = x.info.windowType → KeepsRoster e e') := by
  obtain ⟨hslot, hkept, hkey, hfree⟩ := h.evictFor info dirty
  generalize e.evictFor key info dirty = e₁ at hslot hkept hkey hfree ⊢
  have hx₁ : e₁.entries.get? key = some x := hkey.trans hx
  have hcommit : Sound detail D ∅ {key} (e₁.commit key info) :=
    (hslot.mono (by simp) (by simp)).commit hx₁ hid (fun _ _ ↦ ha)
      (fun _ ho k y _ hk hy ↦ hfree ho k y hk hy) fun _ hk ↦ absurd rfl hk
  have hex := exchanged_commit info hx₁ (hslot.isServed hx₁)
  have hbare₁ : D → Entry.IsBareFor info { x with info := info } := hbare
  refine (ensures_addDecorator hex.get?_self hex.isServed hbare₁).mono ?_
  intro _ e₂ hq
  rcases hq with ⟨x₂, hdressed, hstanding, hbutton, hshape⟩
  have hinfo : x₂.info = info := congrArg Standing.info hstanding
  have hid₂ : x₂.id = info.id := (congrArg Standing.id hstanding).trans
    ((h.id_eq hx).trans hid.symm)
  refine ⟨?_, ⟨x₂, hdressed.get?_self, ?_⟩, fun htype ↦ ?_⟩
  · refine hcommit.redecorate hex.get?_self hdressed hstanding (fun hd hb ↦ ?_) (fun hd _ ↦ ?_)
      fun k hk hm ↦ hk hm
    · exact (hcommit.decorated hd).known hex.get?_self (hbutton ▸ hb)
    · rw [Entry.isDecorated_of_visible (by rw [hinfo]; exact hv), hinfo]
      exact hshape (hbare₁ hd)
  · rw [hdressed.layout, hid₂, get?_commit_layout, if_pos rfl]
  · refine hkept.trans ((hex.keepsEntries hx₁ ?_).trans
      (hdressed.keepsEntries hex.get?_self (roster_of_standing hstanding)))
    simp only [Entry.roster, htype]

theorem Sound.showWindow (info : WindowInfo) (h : Sound detail D {key} {key} e)
    (hx : e.entries.get? key = some x)
    (hid : info.id = x.name) (htype : info.windowType = x.info.windowType) (ha : x.available)
    (hbare : D → x.IsBareFor info) :
    Ensures (showWindow key info dirty) e fun _ e' ↦ Sound detail D ∅ ∅ e' ∧ KeepsRoster e e' := by
  refine ensures_showWindow hx ha fun order _ ↦ ?_
  have hbare' : D → Entry.IsBareFor (info.shownAt order) x := hbare
  refine (h.present (info.shownAt order) _ hx hid rfl ha hbare').mono ?_
  intro _ e₂ hq
  rcases hq with ⟨h₂, ⟨x₂, hl⟩, hkept⟩
  -- the window is in the layout by now, so it may have a stripe button
  have hforget : Sound detail D ∅ ∅ (e₂.forgetEvicted info.id) :=
    h₂.congr entries_forgetEvicted (congrArg Layout.windows layout_forgetEvicted)
      (host_forgetEvicted ▸ .refl)
  have hx₂ : (e₂.forgetEvicted info.id).entries.get? key = some x₂ := by
    rw [entries_forgetEvicted]
    exact hl.entry
  have hknown : (e₂.forgetEvicted info.id).layout.contains x₂.id := by
    rw [layout_forgetEvicted]
    exact Layout.contains_of_get? hl.placement
  obtain ⟨b, -, hensure⟩ := exchanged_ensureStripeButton (info.shownAt order) hx₂
    (hforget.isServed hx₂)
  refine ⟨(hforget.rebutton hx₂ hensure fun _ _ ↦ hknown).congr rfl rfl .refl, ?_⟩
  exact (hkept htype).trans ((KeepsEntries.of_entries entries_forgetEvicted).trans
    (hensure.keepsEntries hx₂ rfl))

theorem Sound.showHidden (info : WindowInfo) (h : Sound detail D ∅ ∅ e)
    (hx : e.entries.get? key = some x)
    (hv : x.info.visible = false) (hid : info.id = x.name)
    (htype : info.windowType = x.info.windowType) (ha : x.available) :
    Ensures (Engine.showWindow key info dirty) e fun _ e' ↦
      Sound detail D ∅ ∅ e' ∧ KeepsRoster e e' := by
  refine (h.mono (Set.empty_subset {key}) (Set.empty_subset {key})).showWindow _ hx hid htype ha
    fun hd ↦ ?_
  obtain ⟨hatt, hf, hw⟩ := (Entry.isDecorated_of_hidden hv).1
    ((h.decorated hd).shape (Set.notMem_empty key) hx)
  exact ⟨hf, hw, Or.inl hatt⟩

theorem Sound.restoreFrom {anchor : Anchor} {stored : List WindowInfo}
    (h : Sound detail D ∅ ∅ e) :
    Ensures (Engine.restoreFrom anchor slot dirty stored) e fun _ e' ↦
      Sound detail D ∅ ∅ e' ∧ KeepsRoster e e' := by
  induction stored generalizing e with
  | nil => exact ensures_pure.2 ⟨h, .refl⟩
  | cons stored rest ih =>
    simp only [Engine.restoreFrom, ensures_bind, ensures_modify, ensures_ite, ensures_get]
    have hpopped : Sound detail D ∅ ∅ { e with sideStack := e.sideStack.set anchor rest } :=
      h.congr rfl rfl .refl
    refine ⟨fun _ ↦ ih hpopped, fun _ ↦ ?_⟩
    cases hkey : keyOf? { e with sideStack := e.sideStack.set anchor rest } stored.id with
    | none => exact ih hpopped
    | some key =>
      obtain ⟨x, hx, -⟩ := get?_of_keyOf? hkey
      simp only [ensures_bind, ensures_get, ensures_ite, ensures_takeInfo, ensures_pure]
      refine ⟨fun _ ↦ ih hpopped, fun ha ↦ ?_⟩
      rw [entryIs_of_get? hx] at ha
      obtain ⟨htaken, hl⟩ := hpopped.registeredInfo hx
      let popped : Engine := { e with sideStack := e.sideStack.set anchor rest }
      have hkept : KeepsRoster popped (popped.registeredInfo key).2 :=
        .of_entries entries_registeredInfo
      refine ⟨fun _ ↦ (ih htaken).mono fun _ e' h' ↦ ⟨h'.1, hkept.trans h'.2⟩, fun hwhere ↦ ?_⟩
      have hv : x.info.visible = false := by
        rw [htaken.visible_eq hl (Set.notMem_empty key)]
        simp only [isWhereEvicted] at hwhere
        grind
      refine (htaken.showHidden _ hl.entry hv (htaken.placement_id hl)
        (htaken.windowType_eq hl (Set.notMem_empty key)).symm (by simpa using ha)).mono ?_
      intro shown e' hq
      rcases hq with ⟨hshown, hroster⟩
      have hroster' := hkept.trans hroster
      exact ⟨fun _ ↦ ⟨hshown, hroster'⟩,
        fun _ ↦ (ih hshown).mono fun _ _ h' ↦ ⟨h'.1, hroster'.trans h'.2⟩⟩

def clearFor (e : Engine) (key : SlotKey) (info : WindowInfo) (dirty hideSide : Bool) : Engine :=
  if hideSide && info.windowType.isInternal then e.clearSide key info dirty else e

def bringsBack (e : Engine) (info off : WindowInfo) (hideSide : Bool) : Bool :=
  info.visible && !hideSide && e.settings.stackEnabled && off.windowType.isInternal

theorem ensures_hideWindow {Q : Unit → Engine → Prop} {cleared : Engine} {off : WindowInfo}
    (hcleared : e.clearFor key info dirty hideSide = cleared)
    (hoff : (cleared.deactivateWindow key info dirty mutation).1 = off)
    (hback : (cleared.hidden key info dirty mutation).bringsBack info off hideSide →
      Ensures (restoreEvicted off dirty) (cleared.hidden key info dirty mutation) Q)
    (hdone : ¬ (cleared.hidden key info dirty mutation).bringsBack info off hideSide →
      Q () (cleared.hidden key info dirty mutation)) :
    Ensures (hideWindow key info dirty hideSide mutation) e Q := by
  subst hcleared hoff
  simp only [hideWindow, ensures_bind, ensures_modify, ensures_modifyGet, ensures_ite, ensures_get,
    ensures_pure]
  unfold clearFor at hback hdone
  by_cases hc : (hideSide && info.windowType.isInternal) = true
  · rw [if_pos hc] at hback hdone
    exact ⟨fun _ ↦ ⟨hback, hdone⟩, fun hn ↦ absurd hc hn⟩
  · rw [if_neg hc] at hback hdone
    exact ⟨fun hp ↦ absurd hp hc, fun _ ↦ ⟨hback, hdone⟩⟩

theorem Sound.clearFor (info : WindowInfo) (dirty hideSide : Bool) (h : Sound detail D {key} t e) :
    Sound detail D {key} t (e.clearFor key info dirty hideSide) ∧
      KeepsRoster e (e.clearFor key info dirty hideSide) ∧
      (e.clearFor key info dirty hideSide).entries.get? key = e.entries.get? key := by
  unfold Engine.clearFor
  split
  · obtain ⟨hsound, hhides⟩ := h.clearSide info dirty subset_rfl
    exact ⟨hsound, hhides.keepsRoster, hhides.others key not_mem_neighbours⟩
  · exact ⟨h, .refl, rfl⟩

/-- Hiding a window, by itself or with its neighbours. Afterwards it is hidden, unless it was
remembered in its own slot and came back. -/
theorem Sound.hideWindow (h : Sound detail D {key} ∅ e) (hx : e.entries.get? key = some x)
    (hid : info.id = x.name) (htype : info.windowType = x.info.windowType) :
    Ensures (Engine.hideWindow key info dirty hideSide mutation) e fun _ e' ↦
      Sound detail D ∅ ∅ e' ∧ KeepsRoster e e' ∧
        ∀ y, e'.entries.get? key = some y → y.info.visible → y.info.windowType.isInternal := by
  obtain ⟨hcleared, hkept, hkey⟩ := h.clearFor info dirty hideSide
  generalize hc : e.clearFor key info dirty hideSide = cleared at hcleared hkept hkey
  have hx₁ : cleared.entries.get? key = some x := hkey.trans hx
  have hoff := (hcleared.mono (by simp) subset_rfl : Sound detail D (insert key ∅) ∅ cleared).hidden
    dirty mutation hx₁ hid
  have hhides := hides_hidden dirty mutation hx₁ htype
  obtain ⟨y, hy, hv, hroster⟩ := hhides.hidden key (List.mem_singleton_self key) x hx₁
  refine ensures_hideWindow hc rfl (fun hback ↦ ?_) fun _ ↦ ?_
  · simp only [restoreEvicted, ensures_bind, ensures_get]
    refine hoff.restoreFrom.mono fun _ e' ⟨hback', hkept'⟩ ↦
      ⟨hback', (hkept.trans hhides.keepsRoster).trans hkept', fun z hz _ ↦ ?_⟩
    -- only windows whose type is internal bring others back, and the type stays
    obtain ⟨z', hz', hroster'⟩ := hkept' hy
    cases hz.symm.trans hz'
    have hinternal : info.windowType.isInternal := by
      obtain ⟨off, saved, heq, hsaved, -⟩ := exchanged_hidden (D := False) info dirty
        mutation hx₁ (nomatch ·)
      rw [hsaved, heq, bringsBack, Bool.and_eq_true, WindowInfo.windowType_withState,
        windowType_mutated] at hback
      exact hback.2
    simp only [Entry.roster, Prod.mk.injEq] at hroster hroster'
    rw [hroster'.2.2.2, hroster.2.2.2, ← htype]
    exact hinternal
  · refine ⟨hoff, hkept.trans hhides.keepsRoster, fun z hz hvis ↦ ?_⟩
    cases hy.symm.trans hz
    rw [hv] at hvis
    cases hvis

end Engine

end ToolDock
