import ToolDock.Proofs.Soundness

namespace ToolDock

def Entry.roster (x : Entry) : String × String × Bool × WindowType :=
  (x.name, x.id, x.available, x.info.windowType)

namespace Engine

variable {κ : Type} {detail : Int32 × Bool × Bool → κ} {D : Prop} {s t : Set SlotKey}
  {e e' e'' : Engine} {key k : SlotKey} {ks : List SlotKey} {x y : Entry} {info : WindowInfo}
  {dirty : Bool} {mutation : HideMutation} {slot : Slot}

@[simp] theorem entries_registeredInfo : (e.registeredInfo key).2.entries = e.entries := by
  unfold registeredInfo
  repeat' split
  all_goals rfl

theorem sideStack_registeredInfo : (e.registeredInfo key).2.sideStack = e.sideStack := by
  unfold registeredInfo
  repeat' split
  all_goals rfl

theorem settings_registeredInfo : (e.registeredInfo key).2.settings = e.settings := by
  unfold registeredInfo
  repeat' split
  all_goals rfl

theorem registeredInfo_eq (hx : e.entries.get? key = some x) (hid : x.info.id = x.id) :
    e.registeredInfo key = match e.layout.get? x.id with
      | some info => (info, e)
      | none => (x.info, e.storeInfo x.info) := by
  unfold registeredInfo
  rw [hx]
  dsimp only
  cases hinfo : e.layout.get? x.id with
  | some info => rfl
  | none => simp only [Layout.add, hid, hinfo, storeInfo]

namespace CoherentOn

theorem storeInfo (info : WindowInfo) (h : CoherentOn detail s e) (hx : e.entries.get? key = some x)
    (hid : info.id = x.id)
    (hsame : key ∉ s → x.info.core = info.core ∧ detail x.info.marks = detail info.marks) :
    CoherentOn detail s (e.storeInfo info) where
  id_eq := h.id_eq
  info_id := h.info_id
  unique := h.unique
  agrees := by
    intro k y stored hk hy hstored
    have hstand := standing?_of_get? hx
    rw [get?_storeInfo] at hstored
    split at hstored
    case isTrue heq =>
      cases hstored
      have hname : y.name = x.name :=
        (h.id_eq hy).symm.trans ((heq.trans hid).trans (h.id_eq hstand))
      cases h.unique hy hstand hname
      cases hstand.symm.trans hy
      exact hsame hk
    case isFalse => exact h.agrees hk hy hstored
  ready hk hy hv :=
    ⟨(h.ready hk hy hv).1, Layout.contains_put.2 (Or.inr (h.ready hk hy hv).2)⟩
  exclusive := h.exclusive

end CoherentOn

structure Located (e : Engine) (key : SlotKey) (x : Entry) (info : WindowInfo) : Prop where
  entry : e.entries.get? key = some x
  placement : e.layout.get? x.id = some info

theorem Located.eq (h : Located e key x info) {stored : WindowInfo}
    (hs : e.layout.get? x.id = some stored) : stored = info :=
  Option.some.inj (hs.symm.trans h.placement)

theorem Located.contains (h : Located e key x info) : e.layout.contains x.id :=
  Layout.contains_of_get? h.placement

theorem Located.registeredInfo_eq (h : Located e key x info) :
    e.registeredInfo key = (info, e) := by
  unfold registeredInfo
  rw [h.entry]
  dsimp only
  rw [h.placement]

namespace Sound

theorem storeInfo (info : WindowInfo) (h : Sound detail D s t e) (hx : e.entries.get? key = some x)
    (hid : info.id = x.id)
    (hsame : key ∉ s → x.info.core = info.core ∧ detail x.info.marks = detail info.marks) :
    Sound detail D s t (e.storeInfo info) where
  coherent := h.coherent.storeInfo _ hx hid hsame
  decorated hd :=
    (h.decorated hd).congr rfl .refl fun _ hc ↦ Layout.contains_put.2 (Or.inr hc)

theorem registeredInfo (h : Sound detail D s t e) (hx : e.entries.get? key = some x) :
    Sound detail D s t (e.registeredInfo key).2 ∧
      Located (e.registeredInfo key).2 key x (e.registeredInfo key).1 := by
  have hid : x.info.id = x.id := (h.info_id hx).trans (h.id_eq hx).symm
  rw [registeredInfo_eq hx hid]
  cases hinfo : e.layout.get? x.id with
  | some info => exact ⟨h, hx, hinfo⟩
  | none =>
    exact ⟨h.storeInfo _ hx hid fun _ ↦ ⟨rfl, rfl⟩, hx, by rw [get?_storeInfo, if_pos hid.symm]⟩

theorem placement_id (h : Sound detail D s t e) (hl : Located e key x info) : info.id = x.name :=
  (Layout.id_of_get? hl.placement).trans (h.id_eq hl.entry)

theorem core_eq (h : Sound detail D s t e) (hl : Located e key x info) (hk : key ∉ s) :
    x.info.core = info.core :=
  (h.coherent.agrees hk (standing?_of_get? hl.entry) hl.placement).1

theorem detail_eq (h : Sound detail D s t e) (hl : Located e key x info) (hk : key ∉ s) :
    detail x.info.marks = detail info.marks :=
  (h.coherent.agrees hk (standing?_of_get? hl.entry) hl.placement).2

theorem visible_eq (h : Sound detail D s t e) (hl : Located e key x info) (hk : key ∉ s) :
    x.info.visible = info.visible :=
  WindowInfo.visible_of_core (h.core_eq hl hk)

theorem windowType_eq (h : Sound detail D s t e) (hl : Located e key x info) (hk : key ∉ s) :
    x.info.windowType = info.windowType :=
  WindowInfo.windowType_of_core (h.core_eq hl hk)

end Sound

def hidden (e : Engine) (key : SlotKey) (info : WindowInfo) (dirty : Bool)
    (mutation : HideMutation) : Engine :=
  (e.deactivateWindow key info dirty mutation).2.commit key
    (e.deactivateWindow key info dirty mutation).1

theorem standing_undecorated (mutation : HideMutation) :
    (afterMutation mutation x).undecorated.standing = x.standing := by
  cases mutation <;> rfl

theorem id_mutated (mutation : HideMutation) : (mutated mutation info).id = info.id := by
  cases mutation with
  | none | removeStripeButton => rfl
  | removeFromStripe => simp only [mutated, offStripe]; split <;> rfl

theorem visible_mutated (mutation : HideMutation) :
    (mutated mutation info).visible = info.visible := by
  cases mutation with
  | none | removeStripeButton => rfl
  | removeFromStripe => simp only [mutated, offStripe]; split <;> rfl

theorem windowType_mutated : (mutated mutation info).windowType = info.windowType := by
  cases mutation with
  | none | removeStripeButton => rfl
  | removeFromStripe => simp only [mutated, offStripe]; split <;> rfl

theorem exchanged_hidden (info : WindowInfo) (dirty : Bool) (mutation : HideMutation)
    (hx : e.entries.get? key = some x) (hs : D → x.IsServed e.host) :
    ∃ off saved, off =
        (mutated mutation { info with visible := false, activeOnStart := false }).withState saved ∧
      (e.deactivateWindow key info dirty mutation).1 = off ∧
      Exchanged D key x { (afterMutation mutation x).undecorated with info := off }
        (e.layout.put off) e (e.hidden key info dirty mutation) := by
  obtain ⟨⟨saved, hoff⟩, hex⟩ := exchanged_deactivateWindow info dirty mutation hx hs
  have hcommit := exchanged_commit (e.deactivateWindow key info dirty mutation).1
    hex.get?_self hex.isServed
  rw [hex.layout] at hcommit
  exact ⟨_, saved, hoff, rfl, hex.trans hcommit⟩

theorem Sound.hidden (dirty : Bool) (mutation : HideMutation)
    (h : Sound detail D (insert key s) t e) (hx : e.entries.get? key = some x)
    (hid : info.id = x.name) : Sound detail D s t (e.hidden key info dirty mutation) := by
  obtain ⟨⟨saved, hoff⟩, hex⟩ := exchanged_deactivateWindow info dirty mutation hx (h.isServed hx)
  have hstanding := standing_undecorated mutation (x := x)
  have hundecorated : Sound detail D (insert key s) (insert key t)
      (e.deactivateWindow key info dirty mutation).2 := by
    refine h.redecorate hx hex hstanding (fun hd hb ↦ (h.decorated hd).known hx ?_)
      (fun _ hk ↦ absurd (Set.mem_insert key t) hk) fun k _ hk ↦ Set.mem_insert_of_mem key hk
    cases mutation with
    | none => exact hb
    | removeStripeButton | removeFromStripe => cases hb
  have hname : (afterMutation mutation x).undecorated.name = x.name :=
    congrArg Standing.name hstanding
  refine hundecorated.commit_hidden hex.get?_self ?_ ?_ fun _ ↦ ⟨rfl, rfl, rfl⟩
  · rw [hoff, WindowInfo.id_withState, id_mutated _, hname]
    exact hid
  · rw [hoff, WindowInfo.visible_withState, visible_mutated _]

/-- Some windows are hidden, the entries of all others are untouched. -/
structure Hides (ks : List SlotKey) (e e' : Engine) : Prop where
  others : ∀ k ∉ ks, e'.entries.get? k = e.entries.get? k
  hidden : ∀ k ∈ ks, ∀ x, e.entries.get? k = some x →
    ∃ x', e'.entries.get? k = some x' ∧ x'.info.visible = false ∧ x'.roster = x.roster

namespace Hides

theorem congr (h : Hides ks e e') (he : e.entries = e''.entries) {e₁ : Engine}
    (he' : e₁.entries = e'.entries) : Hides ks e'' e₁ where
  others k hk := by rw [he', h.others k hk, he]
  hidden k hk x hx := by
    rw [he']
    exact h.hidden k hk x (he ▸ hx)

theorem nil : Hides [] e e := ⟨fun _ _ ↦ rfl, fun _ hk ↦ (nomatch hk)⟩

theorem cons (h : Hides [k] e e') (h' : Hides ks e' e'') : Hides (k :: ks) e e'' where
  others k' hk' := by
    have hne : k' ∉ [k] := fun hm ↦ hk' (List.mem_singleton.1 hm ▸ List.mem_cons_self ..)
    rw [h'.others k' fun hm ↦ hk' (List.mem_cons_of_mem _ hm), h.others k' hne]
  hidden k' hk' x hx := by
    obtain ⟨x', hx', hv, hr⟩ : ∃ x', e'.entries.get? k' = some x' ∧
        (k' = k → x'.info.visible = false) ∧ x'.roster = x.roster := by
      by_cases hkk : k' = k
      · obtain ⟨x', hx', hv, hr⟩ := h.hidden k' (List.mem_singleton.2 hkk) x hx
        exact ⟨x', hx', fun _ ↦ hv, hr⟩
      · exact ⟨x, (h.others k' fun hm ↦ hkk (List.mem_singleton.1 hm)).trans hx,
          fun heq ↦ absurd heq hkk, rfl⟩
    by_cases hks : k' ∈ ks
    · obtain ⟨x'', hx'', hv', hr'⟩ := h'.hidden k' hks x' hx'
      exact ⟨x'', hx'', hv', hr'.trans hr⟩
    · exact ⟨x', (h'.others k' hks).trans hx', hv ((List.mem_cons.1 hk').resolve_right hks), hr⟩

theorem registered (h : Hides ks e e') (hx : e.entries.get? k = some x) :
    ∃ x', e'.entries.get? k = some x' ∧ x'.roster = x.roster := by
  by_cases hk : k ∈ ks
  · obtain ⟨x', hx', -, hr⟩ := h.hidden k hk x hx
    exact ⟨x', hx', hr⟩
  · exact ⟨x, (h.others k hk).trans hx, rfl⟩

end Hides

theorem hides_hidden (dirty : Bool) (mutation : HideMutation) (hx : e.entries.get? key = some x)
    (htype : info.windowType = x.info.windowType) :
    Hides [key] e (e.hidden key info dirty mutation) := by
  obtain ⟨off, saved, hoff, -, hex⟩ := exchanged_hidden (D := False) info dirty mutation
    hx (nomatch ·)
  refine ⟨fun k hk ↦ hex.get?_other fun heq ↦ hk (List.mem_singleton.2 heq), fun k hk y hy ↦ ?_⟩
  cases List.mem_singleton.1 hk
  cases hx.symm.trans hy
  refine ⟨_, hex.get?_self, ?_, ?_⟩
  · rw [hoff, WindowInfo.visible_withState, visible_mutated _]
  · have hname := standing_undecorated mutation (x := x)
    have htype' : off.windowType = x.info.windowType := by
      rw [hoff, WindowInfo.windowType_withState, windowType_mutated]
      exact htype
    simp only [Entry.standing, Standing.mk.injEq] at hname
    simp only [Entry.roster, hname.1, hname.2.1, hname.2.2.2, htype']

theorem Sound.foldl {f : Engine → SlotKey → Engine}
    (hf : ∀ {e k x}, Sound detail D s t e → k ∉ s → e.entries.get? k = some x →
      Sound detail D s t (f e k) ∧ Hides [k] e (f e k))
    (h : Sound detail D s t e) (hks : ∀ k ∈ ks, k ∉ s ∧ ∃ x, e.entries.get? k = some x) :
    Sound detail D s t (ks.foldl f e) ∧ Hides ks e (ks.foldl f e) := by
  induction ks generalizing e with
  | nil => exact ⟨h, .nil⟩
  | cons k ks ih =>
    obtain ⟨hk, x, hx⟩ := hks k (List.mem_cons_self ..)
    obtain ⟨hstep, hhides⟩ := hf h hk hx
    have hrest : ∀ k' ∈ ks, k' ∉ s ∧ ∃ x, (f e k).entries.get? k' = some x := by
      intro k' hk'
      obtain ⟨hnot, y, hy⟩ := hks k' (List.mem_cons_of_mem _ hk')
      obtain ⟨y', hy', -⟩ := hhides.registered hy
      exact ⟨hnot, y', hy'⟩
    obtain ⟨hsound, hhidden⟩ := ih hstep hrest
    exact ⟨hsound, hhides.cons hhidden⟩

theorem Sound.deactivateRegistered (h : Sound detail D s t e) (hk : k ∉ s)
    (hx : e.entries.get? k = some x) :
    Sound detail D s t (e.deactivateRegistered k dirty) ∧
      Hides [k] e (e.deactivateRegistered k dirty) := by
  obtain ⟨htaken, hl⟩ := h.registeredInfo hx
  have hoff := (htaken.mono (Set.subset_insert k s) subset_rfl).hidden dirty .none
    hl.entry (htaken.placement_id hl)
  have hhides := hides_hidden dirty .none hl.entry
    (htaken.windowType_eq hl hk).symm
  exact ⟨hoff, hhides.congr entries_registeredInfo rfl⟩

def remembering (e : Engine) (info : WindowInfo) : Engine :=
  if e.settings.stackEnabled && info.isDocked && !info.autoHide then
    { e with sideStack := SideStack.push e.sideStack info }
  else e

theorem entries_remembering (info : WindowInfo) : (e.remembering info).entries = e.entries := by
  unfold remembering
  split <;> rfl

theorem get?_remembering (info : WindowInfo) (hx : e.entries.get? k = some x) :
    (e.remembering info).entries.get? k = some x := by
  rwa [entries_remembering]

theorem layout_remembering : (e.remembering info).layout = e.layout := by
  unfold remembering
  split <;> rfl

theorem host_remembering : (e.remembering info).host = e.host := by
  unfold remembering
  split <;> rfl

theorem settings_remembering : (e.remembering info).settings = e.settings := by
  unfold remembering
  split <;> rfl

theorem evict_eq (dirty : Bool) : ∃ id, e.evict dirty k =
    (((e.registeredInfo k).2.remembering (e.registeredInfo k).1).hidden k (e.registeredInfo k).1
      dirty .none).fire .hideToolWindow id :=
  ⟨_, rfl⟩

theorem evict_others (dirty : Bool) (hy : e.entries.get? k = some y) :
    ∃ y', ∀ k', (e.evict dirty k).entries.get? k' =
      if k' = k then some y' else e.entries.get? k' := by
  have hy₁ : (e.registeredInfo k).2.entries.get? k = some y := by
    rw [entries_registeredInfo]
    exact hy
  obtain ⟨off, saved, -, -, hex⟩ := exchanged_hidden (D := False) (e.registeredInfo k).1 dirty .none
    (get?_remembering (e.registeredInfo k).1 hy₁) False.elim
  obtain ⟨id, heq⟩ := evict_eq dirty (e := e) (k := k)
  have hget := hex.get?
  simp only [entries_remembering, entries_registeredInfo] at hget
  rw [heq]
  exact ⟨_, hget⟩

theorem Sound.evict (h : Sound detail D s t e) (hk : k ∉ s) (hx : e.entries.get? k = some x) :
    Sound detail D s t (e.evict dirty k) ∧ Hides [k] e (e.evict dirty k) := by
  obtain ⟨htaken, hl⟩ := h.registeredInfo hx
  obtain ⟨id, heq⟩ := evict_eq dirty (e := e) (k := k)
  rw [heq]
  have hpushed := (htaken.mono (Set.subset_insert k s) subset_rfl).congr
    (entries_remembering (e.registeredInfo k).1) (congrArg Layout.windows layout_remembering)
    (host_remembering ▸ .refl)
  have hentry := get?_remembering (e.registeredInfo k).1 hl.entry
  have hoff := hpushed.hidden dirty .none hentry (htaken.placement_id hl)
  have hhides := hides_hidden dirty .none hentry
    (htaken.windowType_eq hl hk).symm
  exact ⟨hoff.congr rfl rfl .refl,
    hhides.congr ((entries_remembering _).trans entries_registeredInfo) rfl⟩

theorem mem_occupants : k ∈ e.occupants key slot ↔
    k ≠ key ∧ ∃ y, e.entries.get? k = some y ∧ y.info.occupiesSlot ∧ y.info.slot = slot := by
  rw [occupants, mem_keysWhere]
  simp only [Bool.and_eq_true, bne_iff_ne, beq_iff_eq]
  grind

theorem not_mem_occupants : key ∉ e.occupants key slot := fun hk ↦ (mem_occupants.1 hk).1 rfl

theorem occupants_eq_nil_iff : e.occupants key slot = [] ↔ ∀ k y, k ≠ key →
    e.entries.get? k = some y → y.info.occupiesSlot → y.info.slot ≠ slot := by
  rw [List.eq_nil_iff_forall_not_mem]
  simp only [mem_occupants]
  grind

theorem Sound.evictSlot (info : WindowInfo) (dirty : Bool) (h : Sound detail D s t e)
    (hs : s ⊆ {key}) :
    Sound detail D s t (e.evictSlot key info dirty) ∧
      Hides (e.occupants key info.slot) e (e.evictSlot key info dirty) := by
  refine h.foldl (fun h hk hx ↦ h.evict hk hx) fun k hk ↦ ?_
  obtain ⟨hne, y, hy, -⟩ := mem_occupants.1 hk
  exact ⟨fun hm ↦ hne (hs hm), y, hy⟩

theorem Hides.slot_free (h : Hides (e.occupants key slot) e e') (hk : k ≠ key)
    (hy : e'.entries.get? k = some y) (ho : y.info.occupiesSlot) : y.info.slot ≠ slot := by
  by_cases hm : k ∈ e.occupants key slot
  · obtain ⟨-, x, hx, -⟩ := mem_occupants.1 hm
    obtain ⟨y', hy', hv, -⟩ := h.hidden k hm x hx
    cases hy.symm.trans hy'
    rw [WindowInfo.not_occupiesSlot hv] at ho
    cases ho
  · rw [h.others k hm] at hy
    exact fun hslot ↦ hm (mem_occupants.2 ⟨hk, y, hy, ho, hslot⟩)

theorem Sound.clearSide (info : WindowInfo) (dirty : Bool) (h : Sound detail D s t e)
    (hs : s ⊆ {key}) :
    Sound detail D s t (e.clearSide key info dirty) ∧
      Hides (e.neighbours key info) e (e.clearSide key info dirty) := by
  have haside : ∀ k ∈ e.neighbours key info, k ∉ s ∧ ∃ y, e.entries.get? k = some y := by
    intro k hk
    obtain ⟨y, hy, hp⟩ := mem_keysWhere.1 hk
    simp only [Bool.and_eq_true, bne_iff_ne] at hp
    exact ⟨fun hm ↦ hp.1.1 (hs hm), y, hy⟩
  have hfold := Sound.foldl (f := (·.deactivateRegistered · dirty))
    (fun h hk hx ↦ h.deactivateRegistered hk hx) h haside
  exact ⟨hfold.1.congr rfl rfl .refl, hfold.2.congr rfl rfl⟩

theorem not_mem_neighbours : key ∉ e.neighbours key info := by
  intro hk
  obtain ⟨y, -, hp⟩ := mem_keysWhere.1 hk
  simp at hp

end Engine

end ToolDock
