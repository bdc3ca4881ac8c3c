import ToolDock.Proofs.Applying

/-!
An engine that follows a layout: its windows are where the layout puts them, and those of a given
set are visible, whether or not the layout shows them. Evicting, showing and bringing back a window
change that set. Main statements: `Follows.showWindow` and `Follows.hideWindow`.
-/

namespace ToolDock

/-- Whether a layout puts an internal window into a slot, visible or not. -/
def Layout.docks (l : Layout) (slot : Slot) (id : String) : Bool :=
  (l.get? id).any fun w ↦ w.windowType.isInternal && w.slot == slot

/-- Where and how a window is whenever it is visible. -/
def WindowInfo.berth (info : WindowInfo) : Slot × WindowType × Bool :=
  (info.slot, info.windowType, info.autoHide)

namespace SideStack

/-- Placements are on the stacks of their own anchors, where pushing puts them. -/
def Filed (s : SideStack) : Prop := ∀ a, ∀ info ∈ s.get a, info.anchor = a

instance {s : SideStack} : Decidable s.Filed :=
  decidable_of_iff (∀ a ∈ Anchor.all, ∀ info ∈ s.get a, info.anchor = a)
    ⟨fun h a ↦ h a a.mem_all, fun h a _ ↦ h a⟩

structure Extends (pushed : Set WindowInfo) (s s' : SideStack) : Prop where
  filed : s.Filed → s'.Filed
  filter_eq : ∀ a (p : WindowInfo → Bool), (∀ w ∈ pushed, p w = false) →
    (s'.get a).filter p = (s.get a).filter p

variable {pushed pushed' : Set WindowInfo} {s s' s'' : SideStack} {info : WindowInfo} {a : Anchor}
  {ws : List WindowInfo} {id : String}

namespace Extends

theorem refl : Extends pushed s s := ⟨fun hs ↦ hs, fun _ _ _ ↦ rfl⟩

theorem trans (h : Extends pushed s s') (h' : Extends pushed s' s'') : Extends pushed s s'' :=
  ⟨fun hs ↦ h'.filed (h.filed hs), fun a p hp ↦ (h'.filter_eq a p hp).trans (h.filter_eq a p hp)⟩

theorem mono (h : Extends pushed s s') (hsub : pushed ⊆ pushed') : Extends pushed' s s' :=
  ⟨h.filed, fun a p hp ↦ h.filter_eq a p fun w hw ↦ hp w (hsub hw)⟩

theorem push (hinfo : info ∈ pushed) : Extends pushed s (s.push info) := by
  refine ⟨fun hs a w hw ↦ ?_, fun a p hp ↦ ?_⟩
  · rw [get_push] at hw
    split at hw
    case isTrue ha =>
      rcases List.mem_cons.1 hw with rfl | hw
      · exact ha.symm
      · exact hs a w hw
    case isFalse => exact hs a w hw
  · rw [get_push]
    split
    · simp [hp info hinfo]
    · rfl

end Extends

theorem Filed.set (h : s.Filed) (hws : ∀ w ∈ ws, w.anchor = a) : Filed (s.set a ws) := by
  intro b w hw
  rw [PerAnchor.get_set] at hw
  split at hw
  case isTrue hb => exact hb ▸ hws w hw
  case isFalse => exact h b w hw

theorem Filed.remove (h : s.Filed) : Filed (s.remove id) := by
  intro b w hw
  rw [get_remove] at hw
  exact h b w (List.mem_filter.1 hw).1

end SideStack

def Entry.Berthed (l l' : Layout) (shown : Set String) (y : Entry) : Prop :=
  ∃ info stored, l.get? y.id = some info ∧ l'.get? y.id = some stored ∧
    y.info.core = stored.core ∧ stored.berth = info.berth ∧ (stored.visible ↔ y.id ∈ shown)

namespace Engine

variable {l l' : Layout} {start e e' : Engine} {aside aside' : Set SlotKey}
  {shown shown' : Set String} {k k' key : SlotKey} {x y y' : Entry} {info : WindowInfo}
  {dirty : Bool} {slot : Slot} {id : String} {ks : List SlotKey}

def idAt? (e : Engine) (key : SlotKey) : Option String := (e.entries.get? key).map Entry.id

/-- The windows of a coherent engine are still registered, all but those aside are where a layout
puts them, and just those in `shown` are visible. -/
structure Follows (l : Layout) (start : Engine) (aside : Set SlotKey) (shown : Set String)
    (e : Engine) : Prop where
  coherent : CoherentOn (fun _ ↦ ()) ∅ start
  settings : e.settings = start.settings
  identity : ∀ k, (e.entries.get? k).map Entry.identity = (start.entries.get? k).map Entry.identity
  info_id : ∀ {k y}, e.entries.get? k = some y → y.info.id = y.id
  contains : ∀ {k y}, e.entries.get? k = some y → e.layout.contains y.id
  berthed : ∀ {k y}, k ∉ aside → e.entries.get? k = some y → Entry.Berthed l e.layout shown y

namespace Follows

theorem start_of_get? (h : Follows l start aside shown e) (hy : e.entries.get? k = some y) :
    ∃ x, start.entries.get? k = some x ∧ x.identity = y.identity := by
  have hk := h.identity k
  rw [hy, Option.map_some] at hk
  obtain ⟨x, hx, hid⟩ := Option.map_eq_some_iff.1 hk.symm
  exact ⟨x, hx, hid⟩

theorem get?_of_start (h : Follows l start aside shown e) (hx : start.entries.get? k = some x) :
    ∃ y, e.entries.get? k = some y ∧ y.identity = x.identity := by
  have hk := h.identity k
  rw [hx, Option.map_some] at hk
  exact Option.map_eq_some_iff.1 hk

theorem name_eq (h : Follows l start aside shown e) (hy : e.entries.get? k = some y) :
    y.id = y.name := by
  obtain ⟨x, hx, hid⟩ := h.start_of_get? hy
  simp only [Entry.identity, Prod.mk.injEq] at hid
  rw [← hid.1, ← hid.2.1]
  exact h.coherent.id_eq (standing?_of_get? hx)

theorem key_eq (h : Follows l start aside shown e) (hy : e.entries.get? k = some y)
    (hy' : e.entries.get? k' = some y') (hid : y.id = y'.id) : k = k' := by
  obtain ⟨x, hx, hidx⟩ := h.start_of_get? hy
  obtain ⟨x', hx', hidx'⟩ := h.start_of_get? hy'
  have hxid : x.id = y.id := congrArg (·.2.1) hidx
  have hxid' : x'.id = y'.id := congrArg (·.2.1) hidx'
  exact h.coherent.key_eq hx hx' (hxid.trans (hid.trans hxid'.symm))

theorem idAt?_eq (h : Follows l start aside shown e) (hy : e.entries.get? k = some y) :
    start.idAt? k = some y.id := by
  obtain ⟨x, hx, hid⟩ := h.start_of_get? hy
  rw [idAt?, hx, Option.map_some]
  exact congrArg (fun i ↦ some i.2.1) hid

theorem idAt?_inj (h : Follows l start aside shown e) (hk : start.idAt? k = some id)
    (hk' : start.idAt? k' = some id) : k = k' := by
  obtain ⟨x, hx, rfl⟩ := Option.map_eq_some_iff.1 hk
  obtain ⟨x', hx', hid⟩ := Option.map_eq_some_iff.1 hk'
  exact h.coherent.key_eq hx hx' hid.symm

theorem congr (h : Follows l start aside shown e) (he : e'.entries = e.entries)
    (hl : e'.layout = e.layout) (hset : e'.settings = e.settings) :
    Follows l start aside shown e' where
  coherent := h.coherent
  settings := hset.trans h.settings
  identity k := he ▸ h.identity k
  info_id hy := h.info_id (he ▸ hy)
  contains hy := hl ▸ h.contains (he ▸ hy)
  berthed hk hy := hl ▸ h.berthed hk (he ▸ hy)

theorem congr_shown (h : Follows l start aside shown e)
    (hshown : ∀ k y, k ∉ aside → e.entries.get? k = some y → (y.id ∈ shown' ↔ y.id ∈ shown)) :
    Follows l start aside shown' e where
  coherent := h.coherent
  settings := h.settings
  identity := h.identity
  info_id := h.info_id
  contains := h.contains
  berthed hk hy := by
    obtain ⟨info, stored, hinfo, hstored, hcore, hberth, hv⟩ := h.berthed hk hy
    exact ⟨info, stored, hinfo, hstored, hcore, hberth, hv.trans (hshown _ _ hk hy).symm⟩

theorem mono (h : Follows l start aside shown e) (hs : aside ⊆ aside') :
    Follows l start aside' shown e where
  coherent := h.coherent
  settings := h.settings
  identity := h.identity
  info_id := h.info_id
  contains := h.contains
  berthed hk hy := h.berthed (fun hm ↦ hk (hs hm)) hy

theorem exchange (h : Follows l start aside shown e) (hy : e.entries.get? key = some y)
    (hex : Exchanged False key y y' l' e e') (hidentity : y'.identity = y.identity)
    (hinfo : y'.info.id = y.id) (hothers : ∀ id, id ≠ y.id → l'.get? id = e.layout.get? id)
    (hself : l'.contains y.id) (hberthed : key ∉ aside' → Entry.Berthed l l' shown' y')
    (haside : ∀ k, k ≠ key → k ∉ aside' → k ∉ aside)
    (hshown : ∀ id, id ≠ y.id → (id ∈ shown' ↔ id ∈ shown)) :
    Follows l start aside' shown' e' := by
  have hid : y'.id = y.id := congrArg (·.2.1) hidentity
  have hne : ∀ {k z}, k ≠ key → e.entries.get? k = some z → z.id ≠ y.id :=
    fun hk hz heq ↦ hk (h.key_eq hz hy heq)
  refine ⟨h.coherent, hex.settings.trans h.settings, fun k ↦ ?_, fun {k z} hz ↦ ?_,
    fun {k z} hz ↦ ?_, fun {k z} hk hz ↦ ?_⟩
  · rw [hex.get?, ← h.identity k]
    split
    case isTrue hk => rw [hk, hy, Option.map_some, Option.map_some, hidentity]
    case isFalse => rfl
  · rw [hex.get?] at hz
    split at hz
    case isTrue =>
      cases hz
      exact hinfo.trans hid.symm
    case isFalse => exact h.info_id hz
  · rw [hex.layout]
    rw [hex.get?] at hz
    split at hz
    case isTrue =>
      cases hz
      rw [hid]
      exact hself
    case isFalse hk =>
      have hcontains := Layout.contains_iff.1 (h.contains hz)
      rw [← hothers z.id (hne hk hz)] at hcontains
      exact Layout.contains_iff.2 hcontains
  · rw [hex.layout]
    rw [hex.get?] at hz
    split at hz
    case isTrue hkey =>
      cases hz
      exact hberthed (hkey ▸ hk)
    case isFalse hkey =>
      obtain ⟨info, stored, hinfo, hstored, hcore, hberth, hv⟩ :=
        h.berthed (haside k hkey hk) hz
      exact ⟨info, stored, hinfo, (hothers _ (hne hkey hz)).trans hstored, hcore, hberth,
        hv.trans (hshown _ (hne hkey hz)).symm⟩

theorem redecorate (h : Follows l start aside shown e) (hy : e.entries.get? key = some y)
    (hre : Redecorates key y e e') : Follows l start aside shown e' := by
  obtain ⟨y', hex, hst⟩ := hre
  have hinfo : y'.info = y.info := congrArg Standing.info hst
  have hid : y'.id = y.id := congrArg Standing.id hst
  refine h.exchange hy hex (Entry.identity_of_standing hst) (hinfo ▸ h.info_id hy)
    (fun _ _ ↦ rfl) (h.contains hy) (fun hk ↦ ?_) (fun _ _ hk ↦ hk) fun _ _ ↦ Iff.rfl
  obtain ⟨info, stored, hberthed⟩ := h.berthed hk hy
  rw [← hid, ← hinfo] at hberthed
  exact ⟨info, stored, hberthed⟩

theorem commit (h : Follows l start aside shown e) (hy : e.entries.get? key = some y)
    (hid : info.id = y.id) (hasked : key ∉ aside' → ∃ asked, l.get? y.id = some asked ∧
      info.berth = asked.berth ∧ (info.visible ↔ y.id ∈ shown'))
    (haside : ∀ k, k ≠ key → k ∉ aside' → k ∉ aside)
    (hshown : ∀ id, id ≠ y.id → (id ∈ shown' ↔ id ∈ shown)) :
    Follows l start aside' shown' (e.commit key info) := by
  refine h.exchange hy (exchanged_commit info hy (nomatch ·)) rfl hid (fun id hne ↦ ?_) ?_
    (fun hk ↦ ?_) haside hshown
  · rw [Layout.get?_put, if_neg fun heq ↦ hne (heq.trans hid)]
  · exact Layout.contains_put.2 (Or.inl hid.symm)
  · obtain ⟨asked, hget, hberth, hv⟩ := hasked hk
    exact ⟨asked, info, hget, (Layout.get?_put ..).trans (if_pos hid.symm), rfl, hberth, hv⟩

theorem registeredInfo (h : Follows l start aside shown e) (hy : e.entries.get? k = some y) :
    ∃ stored, e.layout.get? y.id = some stored ∧ e.registeredInfo k = (stored, e) := by
  obtain ⟨stored, hstored⟩ := Layout.contains_iff.1 (h.contains hy)
  have hl : Located e k y stored := ⟨hy, hstored⟩
  exact ⟨stored, hstored, hl.registeredInfo_eq⟩

theorem remembering (info : WindowInfo) (h : Follows l start aside shown e) :
    Follows l start aside shown (e.remembering info) :=
  h.congr (entries_remembering info) layout_remembering settings_remembering

end Follows

theorem extends_remembering {pushed : Set WindowInfo} (hinfo : info ∈ pushed) :
    SideStack.Extends pushed e.sideStack (e.remembering info).sideStack := by
  unfold remembering
  split
  · exact .push hinfo
  · exact .refl

namespace Follows

theorem evict (dirty : Bool) (h : Follows l start aside shown e) (hk : k ∉ aside)
    (hy : e.entries.get? k = some y) :
    Follows l start aside (shown \ {y.id}) (e.evict dirty k) ∧
      (∀ k', k' ≠ k → (e.evict dirty k).entries.get? k' = e.entries.get? k') ∧
      ∃ asked, l.get? y.id = some asked ∧ SideStack.Extends {w | w.slot = asked.slot ∧ w.id = y.id}
        e.sideStack (e.evict dirty k).sideStack := by
  obtain ⟨stored, hstored, hreg⟩ := h.registeredInfo hy
  obtain ⟨asked, stored', hasked, hstored', -, hberth, -⟩ := h.berthed hk hy
  cases hstored.symm.trans hstored'
  have hslot : stored.slot = asked.slot := congrArg Prod.fst hberth
  obtain ⟨id, heq⟩ := evict_eq dirty (e := e) (k := k)
  rw [heq, hreg]
  have hr := h.remembering stored
  have hyr := get?_remembering stored hy
  obtain ⟨off, saved, hoff, -, hex⟩ := exchanged_hidden (D := False) stored dirty .none hyr
    (nomatch ·)
  have hid : off.id = y.id := by
    have hsame : stored.id = y.id := Layout.id_of_get? hstored
    rw [hoff]
    exact hsame
  refine ⟨(hr.exchange hyr hex rfl hid (fun id hne ↦ ?_) ?_ (fun _ ↦ ?_) (fun _ _ hk' ↦ hk')
    fun id hne ↦ ?_).congr rfl rfl rfl, fun k' hk' ↦ ?_, asked, hasked, ?_⟩
  · rw [Layout.get?_put, if_neg fun heq ↦ hne (heq.trans hid)]
  · exact Layout.contains_put.2 (Or.inl hid.symm)
  · refine ⟨asked, off, hasked, (Layout.get?_put ..).trans (if_pos hid.symm), rfl, ?_, ?_⟩
    · rw [hoff]
      exact hberth
    · have hv : off.visible = false := by rw [hoff]; rfl
      rw [hv]
      exact ⟨fun hf ↦ (nomatch hf), fun hm ↦ absurd rfl hm.2⟩
  · exact ⟨fun hm ↦ hm.1, fun hm ↦ ⟨hm, hne⟩⟩
  · exact (hex.get?_other hk').trans (by rw [entries_remembering])
  · have hside := hex.sideStack
    exact hside ▸ extends_remembering ⟨hslot, Layout.id_of_get? hstored⟩

theorem foldl_evict (dirty : Bool) (h : Follows l start aside shown e)
    (hks : ∀ k ∈ ks, k ∉ aside ∧ ∃ id asked, start.idAt? k = some id ∧ l.get? id = some asked ∧
      asked.slot = slot) :
    Follows l start aside (shown \ {id | ∃ k ∈ ks, start.idAt? k = some id})
        (ks.foldl (·.evict dirty ·) e) ∧
      (∀ k, k ∉ ks → (ks.foldl (·.evict dirty ·) e).entries.get? k = e.entries.get? k) ∧
      SideStack.Extends {w | w.slot = slot ∧ ∃ k ∈ ks, start.idAt? k = some w.id}
        e.sideStack (ks.foldl (·.evict dirty ·) e).sideStack := by
  induction ks generalizing e shown with
  | nil =>
    refine ⟨h.congr_shown fun _ y _ _ ↦ ?_, fun _ _ ↦ rfl, .refl⟩
    simp
  | cons k ks ih =>
    obtain ⟨hk, id, asked, hidAt, hasked, hslot⟩ := hks k (List.mem_cons_self ..)
    obtain ⟨x, hx, rfl⟩ := Option.map_eq_some_iff.1 hidAt
    obtain ⟨y, hy, hidentity⟩ := h.get?_of_start hx
    have hid : y.id = x.id := congrArg (·.2.1) hidentity
    obtain ⟨hevict, hothers, asked', hasked', hextends⟩ := h.evict dirty hk hy
    rw [hid] at hevict hasked'
    cases hasked.symm.trans hasked'
    obtain ⟨hrest, hothers', hextends'⟩ := ih hevict fun k' hk' ↦ hks k'
      (List.mem_cons_of_mem _ hk')
    refine ⟨hrest.congr_shown fun _ z _ _ ↦ ?_, fun k' hk' ↦ ?_,
      (hextends.mono fun w hw ↦ ?_).trans (hextends'.mono fun w hw ↦ ?_)⟩
    · simp only [Set.mem_sdiff, Set.mem_singleton_iff, Set.mem_ofPred_eq, List.mem_cons,
        exists_eq_or_imp, hidAt, Option.some.injEq]
      grind
    · have hne : k' ≠ k := fun heq ↦ hk' (heq ▸ List.mem_cons_self ..)
      exact (hothers' k' fun hm ↦ hk' (List.mem_cons_of_mem _ hm)).trans (hothers k' hne)
    · refine ⟨hw.1.trans hslot, k, List.mem_cons_self .., ?_⟩
      rw [hidAt, hw.2, hid]
    · obtain ⟨hws, k', hk', hid'⟩ := hw
      exact ⟨hws, k', List.mem_cons_of_mem _ hk', hid'⟩

def HiddenAside (aside : Set SlotKey) (key : SlotKey) (e : Engine) : Prop :=
  ∀ k ∈ aside, k ≠ key → ∀ y, e.entries.get? k = some y → y.info.visible = false

theorem mem_occupants (h : Follows l start aside shown e) (hout : HiddenAside aside key e)
    (hy : e.entries.get? k = some y) :
    k ∈ e.occupants key slot ↔ k ≠ key ∧ k ∉ aside ∧ y.id ∈ shown ∧ l.docks slot y.id := by
  have hocc : k ∈ e.occupants key slot ↔
      k ≠ key ∧ y.info.occupiesSlot = true ∧ y.info.slot = slot := by
    simp only [Engine.mem_occupants, hy, Option.some.injEq, exists_eq_left']
  rw [hocc]
  by_cases hk : k ∈ aside
  · have hnot : k ≠ key → ¬ y.info.occupiesSlot = true := fun hne ho ↦ by
      rw [WindowInfo.not_occupiesSlot (hout k hk hne y hy)] at ho
      cases ho
    simp only [hk, not_true_eq_false, false_and, and_false, iff_false]
    exact fun hp ↦ hnot hp.1 hp.2.1
  · obtain ⟨asked, stored, hasked, -, hcore, hberth, hv⟩ := h.berthed hk hy
    simp only [WindowInfo.berth, Prod.mk.injEq] at hberth
    have hslot := (WindowInfo.slot_of_core hcore).trans hberth.1
    have htype := (WindowInfo.windowType_of_core hcore).trans hberth.2.1
    have hvisible := WindowInfo.visible_of_core hcore
    simp only [hk, not_false_eq_true, true_and, WindowInfo.occupiesSlot, Bool.and_eq_true,
      hvisible, hv, htype, hslot, Layout.docks, hasked, Option.any_some, beq_iff_eq, and_assoc]

end Follows

/-- What may be pushed when a window is shown in a slot: placements of others shown there. -/
def evictable (l : Layout) (start : Engine) (key : SlotKey) (slot : Slot) (shown : Set String) :
    Set WindowInfo :=
  {w | w.slot = slot ∧ w.id ∈ shown ∧ l.docks slot w.id ∧ start.idAt? key ≠ some w.id}

namespace Follows

theorem evictSlot (info : WindowInfo) (dirty : Bool) (h : Follows l start aside shown e)
    (hout : HiddenAside aside key e) :
    Follows l start aside {id | id ∈ shown ∧ (l.docks info.slot id → start.idAt? key = some id)}
        (e.evictSlot key info dirty) ∧
      (e.evictSlot key info dirty).entries.get? key = e.entries.get? key ∧
      SideStack.Extends (evictable l start key info.slot shown) e.sideStack
        (e.evictSlot key info dirty).sideStack := by
  have hks : ∀ k ∈ e.occupants key info.slot, k ∉ aside ∧
      ∃ id asked, start.idAt? k = some id ∧ l.get? id = some asked ∧ asked.slot = info.slot := by
    intro k hk
    obtain ⟨-, y, hy, -⟩ := Engine.mem_occupants.1 hk
    obtain ⟨-, haside, -, hdocks⟩ := (h.mem_occupants hout hy).1 hk
    obtain ⟨asked, hasked, hp⟩ := (Option.any_eq_true _ _).1 hdocks
    rw [Bool.and_eq_true, beq_iff_eq] at hp
    exact ⟨haside, y.id, asked, h.idAt?_eq hy, hasked, hp.2⟩
  obtain ⟨hfold, hothers, hextends⟩ := h.foldl_evict dirty hks
  have hpushed : {w : WindowInfo | w.slot = info.slot ∧
      ∃ k ∈ e.occupants key info.slot, start.idAt? k = some w.id} ⊆
        evictable l start key info.slot shown := by
    intro w hq
    rcases hq with ⟨hslot, k, hk, hid⟩
    obtain ⟨-, y, hy, -⟩ := Engine.mem_occupants.1 hk
    obtain ⟨hne, -, hshown, hdocks⟩ := (h.mem_occupants hout hy).1 hk
    have hsame : y.id = w.id := Option.some.inj ((h.idAt?_eq hy).symm.trans hid)
    exact ⟨hslot, hsame ▸ hshown, hsame ▸ hdocks, fun hkey ↦ hne (h.idAt?_inj hid hkey)⟩
  refine ⟨hfold.congr_shown fun k y hk hy ↦ ?_, hothers key not_mem_occupants,
    hextends.mono hpushed⟩
  have hkid := hfold.idAt?_eq hy
  constructor
  · intro hq
    rcases hq with ⟨hshown, hkey⟩
    refine ⟨hshown, fun ⟨k', hk', hid⟩ ↦ ?_⟩
    obtain ⟨-, y', hy', -⟩ := Engine.mem_occupants.1 hk'
    obtain ⟨hne, -, -, hdocks⟩ := (h.mem_occupants hout hy').1 hk'
    rw [h.idAt?_eq hy', Option.some.injEq] at hid
    rw [hid] at hdocks
    exact hne (h.idAt?_inj ((h.idAt?_eq hy').trans (congrArg some hid)) (hkey hdocks))
  · intro hq
    rcases hq with ⟨hshown, hnot⟩
    refine ⟨hshown, fun hdocks ↦ ?_⟩
    by_cases hkey : k = key
    · rw [← hkey, hkid]
    · obtain ⟨x, hx, hid⟩ := hfold.start_of_get? hy
      obtain ⟨y₀, hy₀, hid₀⟩ := h.get?_of_start hx
      have hsame : y₀.id = y.id := congrArg (·.2.1) (hid₀.trans hid)
      refine absurd ⟨k, (h.mem_occupants hout hy₀).2 ⟨hkey, hk, ?_, ?_⟩, hkid⟩ hnot
      · exact hsame ▸ hshown
      · exact hsame ▸ hdocks

end Follows

/-- What is visible once a window was shown: itself, and not who was in its slot. -/
def shownWith (l : Layout) (info : WindowInfo) (shown : Set String) : Set String :=
  {id | id = info.id ∨
    id ∈ shown ∧ ¬ (info.windowType.isInternal ∧ l.docks info.slot id)}

namespace Follows

theorem evictFor (info : WindowInfo) (dirty : Bool) (h : Follows l start aside shown e)
    (hout : HiddenAside aside key e) :
    Follows l start aside {id | id ∈ shown ∧
        (info.windowType.isInternal ∧ l.docks info.slot id → start.idAt? key = some id)}
        (e.evictFor key info dirty) ∧
      (e.evictFor key info dirty).entries.get? key = e.entries.get? key ∧
      SideStack.Extends (evictable l start key info.slot shown) e.sideStack
        (e.evictFor key info dirty).sideStack := by
  unfold Engine.evictFor
  split
  case isTrue hi =>
    obtain ⟨hfollows, hkey, hextends⟩ := h.evictSlot info dirty hout
    refine ⟨hfollows.congr_shown fun _ y _ _ ↦ ?_, hkey, hextends⟩
    simp only [Set.mem_ofPred_eq, hi, true_and]
  case isFalse hi =>
    refine ⟨h.congr_shown fun _ y _ _ ↦ ?_, rfl, .refl⟩
    exact ⟨fun hm ↦ hm.1, fun hm ↦ ⟨hm, fun hp ↦ absurd hp.1 hi⟩⟩

theorem showWindow (dirty : Bool) (h : Follows l start aside shown e)
    (hy : e.entries.get? key = some y) (ha : y.available) (hid : info.id = y.id)
    (hasked : key ∉ aside → ∃ asked, l.get? y.id = some asked ∧ info.berth = asked.berth)
    (hout : HiddenAside aside key e) :
    Ensures (Engine.showWindow key info dirty) e fun res e' ↦ res = true ∧
      Follows l start aside (shownWith l info shown) e' ∧
      ∃ s, SideStack.Extends (evictable l start key info.slot shown) e.sideStack s ∧
        e'.sideStack = e.forgetting info.id s := by
  obtain ⟨h₁, hkey, hextends⟩ := h.evictFor info dirty hout
  generalize he₁ : e.evictFor key info dirty = e₁ at h₁ hkey hextends
  have hy₁ : e₁.entries.get? key = some y := hkey.trans hy
  have hidAt := h₁.idAt?_eq hy₁
  refine (ensures_showWindow_emptied hy ha he₁ hy₁).mono ?_
  intro res e' hq
  rcases hq with ⟨hres, order, y', -, hstanding, hex, hside⟩
  obtain ⟨hname, hyid, hyinfo, hya⟩ := Standing.mk.inj hstanding
  have hfollows : Follows l start aside (shownWith l info shown) (e'.withStacks e₁.sideStack) := by
    refine h₁.exchange hy₁ hex ?_ (by rw [hyinfo]; exact hid) (fun id hne ↦ ?_) ?_ (fun hk ↦ ?_)
      (fun _ _ hk ↦ hk) fun id hne ↦ ?_
    · simp only [Entry.identity, hname, hyid, hya]
    · rw [Layout.get?_put, if_neg fun heq ↦ hne (heq.trans hid)]
    · exact Layout.contains_put.2 (Or.inl hid.symm)
    · obtain ⟨asked, hget, hberth⟩ := hasked hk
      refine ⟨asked, info.shownAt order, hyid ▸ hget, ?_, by rw [hyinfo], hberth, ?_⟩
      · rw [hyid, Layout.get?_put]
        exact if_pos hid.symm
      · exact iff_of_true rfl (Or.inl (hyid.trans hid.symm))
    · have hne' : ¬ id = info.id := fun heq ↦ hne (heq.trans hid)
      have hother : ¬ y.id = id := fun heq ↦ hne heq.symm
      simp only [shownWith, Set.mem_ofPred_eq, hne', false_or, hidAt, Option.some.injEq, hother]
  refine ⟨hres, hfollows.congr rfl rfl rfl, e₁.sideStack, hextends, ?_⟩
  rw [hside, forgetting, forgetting, h₁.settings.trans h.settings.symm]

end Follows

end Engine

end ToolDock
