import ToolDock.Proofs.Belongings

/-!
What stripe buttons go by, seen window by window: the names of a window, whether it is available,
whether entry and layout ask for a button, and whether there is one. Most of what the engine does
leaves all of this as it is, and what does not changes it for a single window. Main statements:
`Tagged.evict`, `Tagged.showWindow` and `Tagged.hideWindow`.
-/

namespace ToolDock

structure Tag where
  name : String
  id : String
  infoId : String
  asks : Bool
  /-- Whether the layout asks for a button. A placement that it lacks would be that of the entry. -/
  placedAsks : Bool
  available : Bool
  button : Bool

namespace Tag

def ids (t : Tag) : String × String × String := (t.name, t.id, t.infoId)

/-- A window has no button that is not asked for, and an available one has the button that is. If
`strict` holds, no other window has one. -/
structure Heeds (strict : Prop) (t : Tag) : Prop where
  agrees : t.placedAsks = t.asks
  asked : t.button → t.asks
  granted : t.available → t.asks → t.button
  ready : strict → t.button → t.available

theorem Heeds.of_button {strict : Prop} {t : Tag} (ha : t.available) (hasks : t.asks)
    (hplaced : t.placedAsks) (hb : t.button) : t.Heeds strict :=
  ⟨hplaced.trans hasks.symm, fun _ ↦ hasks, fun _ _ ↦ hb, fun _ _ ↦ ha⟩

theorem Heeds.of_no_button {strict : Prop} {t : Tag} (hagrees : t.placedAsks = t.asks)
    (hb : t.button = false) (hno : t.available → t.asks = false) : t.Heeds strict where
  agrees := hagrees
  asked h := absurd h (by simp [hb])
  granted ha hasks := absurd hasks (by simp [hno ha])
  ready _ h := absurd h (by simp [hb])

def hidden (t : Tag) (asks : Bool) : Engine.HideMutation → Tag
  | .none => { t with asks := asks, placedAsks := asks }
  | .removeStripeButton => { t with asks := asks, placedAsks := asks, button := false }
  | .removeFromStripe => { t with asks := false, placedAsks := false, button := false }

theorem ids_hidden {t : Tag} {asks : Bool} {mutation : Engine.HideMutation} :
    (t.hidden asks mutation).ids = t.ids := by
  cases mutation <;> rfl

end Tag

def Entry.tag (x : Entry) (l : Layout) : Tag where
  name := x.name
  id := x.id
  infoId := x.info.id
  asks := x.info.showStripeButton
  placedAsks := ((l.get? x.id).getD x.info).showStripeButton
  available := x.available
  button := x.stripeButton.isSome

namespace Engine

def tag? (e : Engine) (key : SlotKey) : Option Tag := (e.entries.get? key).map (·.tag e.layout)

def SameTags (e e' : Engine) : Prop := ∀ k, e'.tag? k = e.tag? k

def Retags (key : SlotKey) (t : Tag) (e e' : Engine) : Prop :=
  ∀ k, e'.tag? k = if k = key then some t else e.tag? k

/-- Every window is registered under its id, no two under the same, and all heed what they are asked
for but those in `s`. -/
structure Tagged (strict : Prop) (s : Set SlotKey) (e : Engine) : Prop where
  named : ∀ {k t}, e.tag? k = some t → t.id = t.name ∧ t.infoId = t.name
  unique : ∀ {k k' t t'}, e.tag? k = some t → e.tag? k' = some t' → t.name = t'.name → k = k'
  heeds : ∀ {k t}, k ∉ s → e.tag? k = some t → t.Heeds strict

variable {strict : Prop} {s s' : Set SlotKey} {e e' e'' : Engine} {key k : SlotKey}
  {ks : List SlotKey} {x x' y : Entry} {t t' : Tag} {l : Layout} {info cur : WindowInfo}
  {dirty hideSide : Bool} {mutation : HideMutation} {id : String} {anchor : Anchor} {slot : Slot}

theorem tag?_of_get? (hx : e.entries.get? k = some x) : e.tag? k = some (x.tag e.layout) := by
  rw [tag?, hx, Option.map_some]

theorem tag?_eq_some (h : e.tag? k = some t) :
    ∃ x, e.entries.get? k = some x ∧ x.tag e.layout = t :=
  Option.map_eq_some_iff.1 h

namespace SameTags

theorem refl : SameTags e e := fun _ ↦ rfl

theorem trans (h : SameTags e e') (h' : SameTags e' e'') : SameTags e e'' :=
  fun k ↦ (h' k).trans (h k)

theorem of_windows (he : e'.entries = e.entries) (hl : e'.layout.windows = e.layout.windows) :
    SameTags e e' := fun k ↦ by
  simp only [tag?, he, Entry.tag, Layout.get?, hl]

theorem registered (h : SameTags e e') (hx : e.entries.get? k = some x) :
    ∃ x', e'.entries.get? k = some x' ∧ x'.tag e'.layout = x.tag e.layout :=
  tag?_eq_some ((h k).trans (tag?_of_get? hx))

end SameTags

theorem Rests.sameTags (h : Rests e e') : SameTags e e' := .of_windows h.entries h.windows

theorem Retags.then (h : Retags key t e e') (hs : SameTags e' e'') : Retags key t e e'' :=
  fun k ↦ (hs k).trans (h k)

theorem SameTags.retags (hs : SameTags e e') (h : Retags key t e' e'') : Retags key t e e'' :=
  fun k ↦ (h k).trans (by rw [hs k])

theorem Retags.trans (h : Retags key t e e') (h' : Retags key t' e' e'') :
    Retags key t' e e'' := fun k ↦ by
  rw [h', h]
  split <;> rfl

theorem Retags.self (h : Retags key t e e') : e'.tag? key = some t := (h key).trans (if_pos rfl)

theorem Retags.refl (ht : e.tag? key = some t) : Retags key t e e := fun k ↦ by
  split
  case isTrue hk => rw [hk, ht]
  case isFalse => rfl

theorem Retags.sameTags (h : Retags key t e e') (ht : e.tag? key = some t) : SameTags e e' :=
  fun k ↦ (h k).trans (Retags.refl ht k).symm

theorem retags_of_exchanged (hex : Exchanged False key x x' e.layout e e') :
    Retags key (x'.tag e.layout) e e' := fun k ↦ by
  rw [tag?, hex.get?, hex.layout]
  split <;> rfl

theorem sameTags_of_exchanged (hx : e.entries.get? key = some x)
    (hex : Exchanged False key x x' e.layout e e') (htag : x'.tag e.layout = x.tag e.layout) :
    SameTags e e' :=
  (retags_of_exchanged hex).sameTags (htag ▸ tag?_of_get? hx)

theorem Located.placedAsks (hl : Located e key x info) :
    (x.tag e.layout).placedAsks = info.showStripeButton := by
  rw [Entry.tag, hl.placement, Option.getD_some]

namespace Tagged

theorem congr (h : Tagged strict s e) (hs : SameTags e e') : Tagged strict s e' where
  named ht := h.named ((hs _).symm.trans ht)
  unique ht ht' := h.unique ((hs _).symm.trans ht) ((hs _).symm.trans ht')
  heeds hk ht := h.heeds hk ((hs _).symm.trans ht)

theorem change (h : Tagged strict s e) (hothers : ∀ k, k ≠ key → e'.tag? k = e.tag? k)
    (hself : ∀ t', e'.tag? key = some t' → (∃ t, e.tag? key = some t ∧ t'.ids = t.ids) ∧
      (key ∉ s' → t'.Heeds strict)) (hs : s ⊆ insert key s') : Tagged strict s' e' := by
  have hbefore : ∀ {k t'}, e'.tag? k = some t' → ∃ t, e.tag? k = some t ∧ t'.ids = t.ids := by
    intro k t' ht'
    by_cases hk : k = key
    · exact hk ▸ (hself t' (hk ▸ ht')).1
    · exact ⟨t', (hothers k hk).symm.trans ht', rfl⟩
  refine ⟨fun ht' ↦ ?_, fun ht₁ ht₂ hname ↦ ?_, fun {k t'} hk ht' ↦ ?_⟩
  · obtain ⟨t, ht, hids⟩ := hbefore ht'
    simp only [Tag.ids, Prod.mk.injEq] at hids
    rw [hids.1, hids.2.1, hids.2.2]
    exact h.named ht
  · obtain ⟨t, ht, hids⟩ := hbefore ht₁
    obtain ⟨t', ht', hids'⟩ := hbefore ht₂
    simp only [Tag.ids, Prod.mk.injEq] at hids hids'
    exact h.unique ht ht' (by rw [← hids.1, ← hids'.1, hname])
  · by_cases hkey : k = key
    · exact (hself t' (hkey ▸ ht')).2 (hkey ▸ hk)
    · refine h.heeds (fun hm ↦ ?_) ((hothers k hkey).symm.trans ht')
      exact (hs hm).elim hkey hk

theorem retag (h : Tagged strict s e) (hr : Retags key t' e e') (ht : e.tag? key = some t)
    (hids : t'.ids = t.ids) (hheeds : key ∉ s' → t'.Heeds strict) (hs : s ⊆ insert key s') :
    Tagged strict s' e' := by
  refine h.change (fun k hk ↦ (hr k).trans (if_neg hk)) (fun u hu ↦ ?_) hs
  cases hr.self.symm.trans hu
  exact ⟨⟨t, ht, hids⟩, hheeds⟩

theorem aside (h : Tagged strict s e) (hx : e.entries.get? key = some x) (hr : Retags key t e e')
    (hids : t.ids = (x.tag e.layout).ids) : Tagged strict (insert key s) e' :=
  h.retag hr (tag?_of_get? hx) hids (fun hk ↦ absurd (Set.mem_insert key s) hk)
    fun _ hk ↦ Or.inr (Or.inr hk)

theorem ids_eq (h : Tagged strict s e) (hx : e.entries.get? key = some x) :
    x.id = x.name ∧ x.info.id = x.name :=
  h.named (tag?_of_get? hx)

theorem key_eq (h : Tagged strict s e) (hx : e.entries.get? key = some x)
    (hy : e.entries.get? k = some y) (hid : y.id = x.id) : k = key :=
  h.unique (tag?_of_get? hy) (tag?_of_get? hx)
    ((h.ids_eq hy).1.symm.trans (hid.trans (h.ids_eq hx).1))

theorem retags_put (h : Tagged strict s e) (hx : e.entries.get? key = some x)
    (hex : Exchanged False key x x' (e.layout.put info) e e') (hid : info.id = x.id)
    (hid' : x'.id = x.id) :
    Retags key { x'.tag e.layout with placedAsks := info.showStripeButton } e e' := fun k ↦ by
  rw [tag?, hex.get?, hex.layout]
  split
  case isTrue =>
    have hput : (e.layout.put info).get? x'.id = some info := by
      rw [Layout.get?_put, if_pos (hid'.trans hid.symm)]
    rw [Option.map_some, Entry.tag, hput]
    rfl
  case isFalse hk =>
    cases hy : e.entries.get? k with
    | none => rw [tag?, hy, Option.map_none, Option.map_none]
    | some y =>
      have hput : (e.layout.put info).get? y.id = e.layout.get? y.id := by
        rw [Layout.get?_put, if_neg]
        exact fun heq ↦ hk (h.key_eq hx hy (heq.trans hid))
      rw [tag?_of_get? hy, Option.map_some, Entry.tag, hput, Entry.tag]

theorem asks_eq (h : Tagged strict s e) (hk : key ∉ s) (hl : Located e key x info) :
    x.info.showStripeButton = info.showStripeButton :=
  (h.heeds hk (tag?_of_get? hl.entry)).agrees.symm.trans (hl.placedAsks)

theorem registeredInfo (h : Tagged strict s e) (hx : e.entries.get? key = some x) :
    SameTags e (e.registeredInfo key).2 ∧
      Located (e.registeredInfo key).2 key x (e.registeredInfo key).1 := by
  have hid : x.info.id = x.id := (h.ids_eq hx).2.trans (h.ids_eq hx).1.symm
  rw [registeredInfo_eq hx hid]
  cases hinfo : e.layout.get? x.id with
  | some info => exact ⟨.refl, hx, hinfo⟩
  | none =>
    refine ⟨?_, hx, by rw [get?_storeInfo, if_pos hid.symm]⟩
    refine (h.retags_put hx (exchanged_storeInfo hx False.elim) hid rfl).sameTags ?_
    rw [tag?_of_get? hx, Entry.tag, hinfo]
    rfl

theorem storeInfo (h : Tagged strict s e) (hl : Located e key x cur) (hid : info.id = cur.id)
    (hasks : info.showStripeButton = cur.showStripeButton) : SameTags e (e.storeInfo info) := by
  refine (h.retags_put hl.entry (exchanged_storeInfo hl.entry False.elim)
    (hid.trans (Layout.id_of_get? hl.placement)) rfl).sameTags ?_
  rw [hasks, ← hl.placedAsks]
  exact tag?_of_get? hl.entry

theorem retags_commit (h : Tagged strict s e) (hx : e.entries.get? key = some x)
    (hid : info.id = x.id) : Retags key { x.tag e.layout with
      asks := info.showStripeButton
      placedAsks := info.showStripeButton } e (e.commit key info) := by
  have htag := h.retags_put hx (exchanged_commit info hx False.elim) hid rfl
  have hinfo : ({ x with info := info } : Entry).info.id = x.info.id :=
    hid.trans ((h.ids_eq hx).1.trans (h.ids_eq hx).2.symm)
  simp only [Entry.tag] at htag hinfo ⊢
  rwa [hinfo] at htag

theorem commit (h : Tagged strict s e) (hk : key ∉ s) (hl : Located e key x cur)
    (hid : info.id = cur.id) (hasks : info.showStripeButton = cur.showStripeButton) :
    SameTags e (e.commit key info) := by
  refine (h.retags_commit hl.entry (hid.trans (Layout.id_of_get? hl.placement))).sameTags ?_
  rw [tag?_of_get? hl.entry, hasks, ← hl.placedAsks]
  have hagrees := (h.heeds hk (tag?_of_get? hl.entry)).agrees
  simp only [Entry.tag] at hagrees ⊢
  rw [hagrees]

end Tagged

theorem retags_removeStripeButton (hx : e.entries.get? key = some x) :
    Retags key { x.tag e.layout with button := false } e (e.removeStripeButton key) :=
  retags_of_exchanged (exchanged_removeStripeButton hx False.elim)

theorem retags_ensureStripeButton (info : WindowInfo) (hx : e.entries.get? key = some x) :
    Retags key { x.tag e.layout with button := true } e (e.ensureStripeButton key info) := by
  obtain ⟨b, hb, hex⟩ := exchanged_ensureStripeButton (D := False) info hx False.elim
  have hr := retags_of_exchanged hex
  simp only [Entry.tag, hb] at hr ⊢
  exact hr

theorem retags_refreshStripeButton (info : WindowInfo) (hx : e.entries.get? key = some x) :
    Retags key { x.tag e.layout with button := x.stripeButton.isSome && info.showStripeButton } e
      (e.refreshStripeButton key info) := by
  have hremove := exchanged_removeStripeButton (D := False) hx False.elim
  unfold refreshStripeButton
  rw [entryIs_of_get? hx]
  cases hb : x.stripeButton.isSome with
  | false =>
    refine .refl ?_
    rw [tag?_of_get? hx]
    simp only [Entry.tag, hb, Bool.false_and]
  | true =>
    simp only [if_true, Bool.true_and]
    split
    case isTrue hasks =>
      obtain ⟨b, hcreate⟩ :=
        exchanged_createStripeButton info hremove.get?_self hremove.isServed rfl
      rw [hasks]
      exact retags_of_exchanged (hremove.andThen hcreate)
    case isFalse hasks =>
      rw [Bool.not_eq_true] at hasks
      rw [hasks]
      exact retags_of_exchanged hremove

theorem asks_mutated (mutation : HideMutation) (info : WindowInfo) (t : Tag) :
    (mutated mutation info).showStripeButton =
      (t.hidden info.showStripeButton mutation).asks := by
  cases mutation with
  | none | removeStripeButton => rfl
  | removeFromStripe =>
    simp only [mutated, offStripe]
    split <;> rfl

namespace Tagged

theorem retags_hidden (dirty : Bool) (mutation : HideMutation) (h : Tagged strict s e)
    (hx : e.entries.get? key = some x) (hid : info.id = x.id) :
    Retags key ((x.tag e.layout).hidden info.showStripeButton mutation) e
      (e.hidden key info dirty mutation) := by
  obtain ⟨off, saved, hoff, -, hex⟩ := exchanged_hidden (D := False) info dirty mutation hx
    False.elim
  have hoffid : off.id = x.id := by rw [hoff, WindowInfo.id_withState, id_mutated]; exact hid
  have hasks : off.showStripeButton =
      ((x.tag e.layout).hidden info.showStripeButton mutation).asks := by
    rw [hoff]
    exact asks_mutated mutation _ _
  have hinfo : off.id = x.info.id := hoffid.trans ((h.ids_eq hx).1.trans (h.ids_eq hx).2.symm)
  have htag := h.retags_put hx hex hoffid (by cases mutation <;> rfl)
  simp only [Entry.tag, hasks, hinfo] at htag ⊢
  cases mutation with
  | none | removeStripeButton | removeFromStripe => exact htag

theorem hidden_tag (h : Tagged strict s e) (hk : key ∉ s) (hl : Located e key x info) :
    (x.tag e.layout).hidden info.showStripeButton .none = x.tag e.layout := by
  have hasks := h.asks_eq hk hl
  have hplaced := hl.placedAsks
  simp only [Entry.tag, Tag.hidden] at hplaced ⊢
  rw [hplaced, hasks]

theorem hidden (dirty : Bool) (h : Tagged strict s e) (hk : key ∉ s) (hl : Located e key x info) :
    SameTags e (e.hidden key info dirty .none) := by
  refine (h.retags_hidden dirty .none hl.entry (Layout.id_of_get? hl.placement)).sameTags ?_
  rw [h.hidden_tag hk hl]
  exact tag?_of_get? hl.entry

theorem deactivateRegistered (h : Tagged strict s e) (hk : k ∉ s)
    (hx : e.entries.get? k = some x) : SameTags e (e.deactivateRegistered k dirty) := by
  obtain ⟨hsame, hl⟩ := h.registeredInfo hx
  exact hsame.trans ((h.congr hsame).hidden dirty hk hl)

theorem evict (h : Tagged strict s e) (hk : k ∉ s) (hx : e.entries.get? k = some x) :
    SameTags e (e.evict dirty k) := by
  obtain ⟨hsame, hl⟩ := h.registeredInfo hx
  obtain ⟨told, heq⟩ := evict_eq dirty (e := e) (k := k)
  have hpushed : SameTags e ((e.registeredInfo k).2.remembering (e.registeredInfo k).1) :=
    hsame.trans (.of_windows (entries_remembering _) (by rw [layout_remembering]))
  have hl' : Located ((e.registeredInfo k).2.remembering (e.registeredInfo k).1) k x
      (e.registeredInfo k).1 :=
    ⟨get?_remembering _ hl.entry, by rw [layout_remembering]; exact hl.placement⟩
  rw [heq]
  exact (hpushed.trans ((h.congr hpushed).hidden dirty hk hl')).trans rests_fire.sameTags

theorem foldl {f : Engine → SlotKey → Engine}
    (hf : ∀ {e k x}, Tagged strict s e → k ∉ s → e.entries.get? k = some x → SameTags e (f e k))
    (h : Tagged strict s e) (hks : ∀ k ∈ ks, k ∉ s ∧ ∃ x, e.entries.get? k = some x) :
    SameTags e (ks.foldl f e) := by
  induction ks generalizing e with
  | nil => exact .refl
  | cons k ks ih =>
    obtain ⟨hk, x, hx⟩ := hks k (List.mem_cons_self ..)
    have hstep := hf h hk hx
    refine hstep.trans (ih (h.congr hstep) fun k' hk' ↦ ?_)
    obtain ⟨hnot, y, hy⟩ := hks k' (List.mem_cons_of_mem _ hk')
    obtain ⟨y', hy', -⟩ := hstep.registered hy
    exact ⟨hnot, y', hy'⟩

theorem evictSlot (info : WindowInfo) (dirty : Bool) (h : Tagged strict s e) (hs : s ⊆ {key}) :
    SameTags e (e.evictSlot key info dirty) := by
  refine h.foldl (fun h hk hx ↦ h.evict hk hx) fun k hk ↦ ?_
  obtain ⟨hne, y, hy, -⟩ := mem_occupants.1 hk
  exact ⟨fun hm ↦ hne (hs hm), y, hy⟩

theorem evictFor (info : WindowInfo) (dirty : Bool) (h : Tagged strict s e) (hs : s ⊆ {key}) :
    SameTags e (e.evictFor key info dirty) := by
  unfold Engine.evictFor
  split
  · exact h.evictSlot info dirty hs
  · exact .refl

theorem clearSide (info : WindowInfo) (dirty : Bool) (h : Tagged strict s e) (hs : s ⊆ {key}) :
    SameTags e (e.clearSide key info dirty) := by
  have hcleared :
      SameTags e ((e.neighbours key info).foldl (·.deactivateRegistered · dirty) e) := by
    refine h.foldl (f := (·.deactivateRegistered · dirty))
      (fun h hk hx ↦ h.deactivateRegistered hk hx) fun k hk ↦ ?_
    obtain ⟨y, hy, hp⟩ := mem_keysWhere.1 hk
    simp only [Bool.and_eq_true, bne_iff_ne] at hp
    exact ⟨fun hm ↦ hp.1.1 (hs hm), y, hy⟩
  exact hcleared.trans (.of_windows rfl rfl)

theorem sameTags_addDecorator (hx : e.entries.get? key = some x) :
    Ensures (addDecorator key info dirty) e fun _ e' ↦ SameTags e e' := by
  refine (ensures_addDecorator (D := False) hx False.elim False.elim).mono ?_
  intro _ e' hq
  obtain ⟨x', hex, hstanding, hbutton, -⟩ := hq
  refine sameTags_of_exchanged hx hex ?_
  have hsame := Standing.mk.inj hstanding
  simp only [Entry.tag, hsame.1, hsame.2.1, hsame.2.2.1, hsame.2.2.2, hbutton]

theorem showWindow (dirty : Bool) (h : Tagged strict s e) (hs : s ⊆ {key})
    (hx : e.entries.get? key = some x) (hid : info.id = x.id) :
    Ensures (showWindow key info dirty) e fun shown e' ↦
      (shown = false ∧ x.available = false ∧ e' = e) ∨ (shown = true ∧ x.available = true ∧
        Retags key { x.tag e.layout with asks := true, placedAsks := true, button := true }
          e e') := by
  refine ensures_showWindow_cases (fun ha ↦ ?_) fun ha order _ ↦ ?_
  · rw [entryIs_of_get? hx] at ha
    exact Or.inl ⟨rfl, ha, rfl⟩
  rw [entryIs_of_get? hx] at ha
  have hevict := h.evictFor (info.shownAt order) dirty hs
  obtain ⟨x₁, hx₁, htag⟩ := hevict.registered hx
  have hid₁ : (info.shownAt order).id = x₁.id := hid.trans (congrArg Tag.id htag).symm
  have hcommit := (h.congr hevict).retags_commit hx₁ hid₁
  rw [htag] at hcommit
  have hx₂ := (exchanged_commit (D := False) (info.shownAt order) hx₁ False.elim).get?_self
  refine (sameTags_addDecorator hx₂).mono fun _ e₃ h₃ ↦ Or.inr ⟨rfl, ha, ?_⟩
  have hdone := (hevict.retags hcommit).then (h₃.trans (rests_forgetEvicted info.id).sameTags)
  obtain ⟨x₄, hx₄, htag₄⟩ := tag?_eq_some hdone.self
  have hlast := retags_ensureStripeButton (info.shownAt order) hx₄
  rw [htag₄] at hlast
  exact (hdone.trans hlast).then rests_fire.sameTags

end Tagged

theorem SameTags.keepsNames (h : SameTags e e') : KeepsNames e e' := fun k x hx ↦ by
  obtain ⟨x', hx', htag⟩ := h.registered hx
  exact ⟨x', hx', Prod.ext (congrArg Tag.name htag) (congrArg Tag.id htag)⟩

theorem Retags.keepsNames (h : Retags key t e e') (hx : e.entries.get? key = some x)
    (hids : t.ids = (x.tag e.layout).ids) : KeepsNames e e' := fun k y hy ↦ by
  have hk := h k
  split at hk
  case isTrue heq =>
    cases hx.symm.trans (heq ▸ hy)
    obtain ⟨x', hx', htag⟩ := tag?_eq_some hk
    rw [← htag] at hids
    simp only [Tag.ids, Prod.mk.injEq] at hids
    exact ⟨x', hx', Prod.ext hids.1 hids.2.1⟩
  case isFalse =>
    obtain ⟨y', hy', htag⟩ := tag?_eq_some (hk.trans (tag?_of_get? hy))
    exact ⟨y', hy', Prod.ext (congrArg Tag.name htag) (congrArg Tag.id htag)⟩

structure Keeps (strict : Prop) (e e' : Engine) : Prop where
  tagged : Tagged strict ∅ e'
  names : KeepsNames e e'

theorem Keeps.trans (h : Keeps strict e e') (h' : Keeps strict e' e'') : Keeps strict e e'' :=
  ⟨h'.tagged, h.names.trans h'.names⟩

theorem Keeps.then {α : Type} {action : Action α} (h : Keeps strict e e')
    (hx : Ensures action e' fun _ e'' ↦ Keeps strict e' e'') :
    Ensures action e' fun _ e'' ↦ Keeps strict e e'' :=
  hx.mono fun _ _ h' ↦ h.trans h'

theorem Keeps.same (h : Keeps strict e e') (hs : SameTags e' e'') : Keeps strict e e'' :=
  ⟨h.tagged.congr hs, h.names.trans hs.keepsNames⟩

namespace Tagged

theorem keeps (h : Tagged strict ∅ e) (hs : SameTags e e') : Keeps strict e e' :=
  ⟨h.congr hs, hs.keepsNames⟩

theorem keeps_retag (h : Tagged strict s e) (hs : s ⊆ {key}) (hx : e.entries.get? key = some x)
    (hr : Retags key t e e') (hids : t.ids = (x.tag e.layout).ids) (hheeds : t.Heeds strict) :
    Keeps strict e e' :=
  ⟨h.retag hr (tag?_of_get? hx) hids (fun _ ↦ hheeds) fun _ hk ↦ Or.inl (hs hk),
    hr.keepsNames hx hids⟩

theorem keeps_showWindow (h : Tagged strict s e) (hs : s ⊆ {key})
    (hx : e.entries.get? key = some x) (ha : s = ∅ ∨ x.available = true) (hid : info.id = x.id) :
    Ensures (Engine.showWindow key info dirty) e fun _ e' ↦ Keeps strict e e' := by
  refine (h.showWindow dirty hs hx hid).mono ?_
  intro shown e' hq
  rcases hq with ⟨-, hno, rfl⟩ | ⟨-, hready, hr⟩
  · rcases ha with rfl | ha
    · exact h.keeps .refl
    · cases hno.symm.trans ha
  · exact h.keeps_retag hs hx hr rfl (.of_button hready rfl rfl rfl)

theorem restoreFrom {stored : List WindowInfo} (h : Tagged strict ∅ e) :
    Ensures (Engine.restoreFrom anchor slot dirty stored) e fun _ e' ↦ Keeps strict e e' := by
  induction stored generalizing e with
  | nil => exact ensures_pure.2 (h.keeps .refl)
  | cons stored rest ih =>
    have hpopped : SameTags e { e with sideStack := e.sideStack.set anchor rest } :=
      .of_windows rfl rfl
    have hskip : ∀ {e'}, Keeps strict e e' → Ensures (Engine.restoreFrom anchor slot dirty rest) e'
        fun _ e'' ↦ Keeps strict e e'' := fun h' ↦ h'.then (ih h'.tagged)
    simp only [Engine.restoreFrom, ensures_bind, ensures_modify, ensures_ite, ensures_get]
    refine ⟨fun _ ↦ hskip (h.keeps hpopped), fun _ ↦ ?_⟩
    cases hkey : keyOf? { e with sideStack := e.sideStack.set anchor rest } stored.id with
    | none => exact hskip (h.keeps hpopped)
    | some key =>
      obtain ⟨x, hx, -⟩ := get?_of_keyOf? hkey
      obtain ⟨hsame, hl⟩ := (h.congr hpopped).registeredInfo hx
      have htaken := h.keeps (hpopped.trans hsame)
      simp only [ensures_bind, ensures_get, ensures_ite, ensures_takeInfo, ensures_pure]
      refine ⟨fun _ ↦ hskip (h.keeps hpopped), fun _ ↦ ⟨fun _ ↦ hskip htaken, fun _ ↦ ?_⟩⟩
      refine (htaken.then (htaken.tagged.keeps_showWindow (Set.empty_subset _) hl.entry
        (Or.inl rfl) (Layout.id_of_get? hl.placement))).mono fun _ e' h' ↦ ?_
      exact ⟨fun _ ↦ h', fun _ ↦ hskip h'⟩

theorem clearFor (info : WindowInfo) (dirty hideSide : Bool) (h : Tagged strict s e)
    (hs : s ⊆ {key}) : SameTags e (e.clearFor key info dirty hideSide) := by
  unfold Engine.clearFor
  split
  · exact h.clearSide info dirty hs
  · exact .refl

theorem hideWindow (dirty hideSide : Bool) (h : Tagged strict s e) (hs : s ⊆ {key})
    (hx : e.entries.get? key = some x) (hid : info.id = x.id)
    (hheeds : ((x.tag e.layout).hidden info.showStripeButton mutation).Heeds strict) :
    Ensures (Engine.hideWindow key info dirty hideSide mutation) e fun _ e' ↦
      Keeps strict e e' := by
  have hcleared := h.clearFor info dirty hideSide hs
  obtain ⟨y, hy, htag⟩ := hcleared.registered hx
  have hr := (h.congr hcleared).retags_hidden dirty mutation hy
    (hid.trans (congrArg Tag.id htag).symm)
  rw [htag] at hr
  have hhidden := h.keeps_retag hs hx (hcleared.retags hr) Tag.ids_hidden hheeds
  refine ensures_hideWindow rfl rfl (fun _ ↦ ?_) fun _ ↦ hhidden
  simp only [restoreEvicted, ensures_bind, ensures_get]
  exact hhidden.then hhidden.tagged.restoreFrom

end Tagged

end Engine

end ToolDock
