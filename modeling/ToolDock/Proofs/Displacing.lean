import Mathlib.Data.List.Nodup
import ToolDock.Proofs.Restoring

/-!
What showing a window does to the other windows of a coherent engine. The one in its slot, if there
is one, goes off the screen and may be remembered; all others are left alone. Main statements:
`Coherent.ousts` about the window that goes, and `Coherent.ensures_presents` about the one that
comes.
-/

namespace ToolDock

theorem SlotTable.filter_toList_eq {α : Type} {t : SlotTable α} {k : SlotKey} {x : α}
    {p : SlotKey × α → Bool} (hx : t.get? k = some x) (hp : p (k, x))
    (hunique : ∀ k' x', t.get? k' = some x' → p (k', x') → k' = k) :
    t.toList.filter p = [(k, x)] := by
  have hnodup : (t.toList.filter p).Nodup := (List.Nodup.of_map Prod.fst t.nodup_keys).filter p
  refine List.perm_singleton.1
    ((List.perm_ext_iff_of_nodup hnodup (List.nodup_singleton _)).2 fun row ↦ ?_)
  obtain ⟨k', x'⟩ := row
  rw [List.mem_filter, mem_toList, List.mem_singleton]
  constructor
  · intro hrow
    obtain ⟨hx', hp'⟩ := hrow
    obtain rfl := hunique k' x' hx' hp'
    rw [Option.some.inj (hx'.symm.trans hx)]
  · intro heq
    cases heq
    exact ⟨hx, hp⟩

structure Entry.Stays (x x' : Entry) : Prop where
  identity : x'.identity = x.identity
  berth : x'.info.berth = x.info.berth
  order : x.info.hasOrder → x'.info.order = x.info.order

theorem Entry.Stays.refl {x : Entry} : x.Stays x := ⟨rfl, rfl, fun _ ↦ rfl⟩

namespace Engine

variable {κ : Type} {detail : Int32 × Bool × Bool → κ} {e e' e₁ : Engine} {key k : SlotKey}
  {x y : Entry} {info : WindowInfo} {dirty : Bool} {slot : Slot}

theorem Coherent.sound (h : Coherent e) : Sound id False ∅ ∅ e := ⟨h, False.elim⟩

theorem Coherent.keyOf?_eq (h : Coherent e) (hx : e.entries.get? key = some x) :
    e.keyOf? x.name = some key :=
  h.namesUnique.keyOf?_eq hx

theorem Coherent.dockedAt_eq (h : Coherent e) (hx : e.entries.get? key = some x)
    (ho : x.info.occupiesSlot) : e.dockedAt x.info.slot = [x.id] := by
  have hrows := SlotTable.filter_toList_eq
    (p := fun r ↦ r.2.info.occupiesSlot && r.2.info.slot == x.info.slot) hx (by simp [ho])
    fun k y hy hp ↦ ?_
  · rw [dockedAt, SlotTable.values, List.filter_map, List.map_map]
    exact congrArg (List.map (Entry.id ∘ Prod.snd)) hrows
  · rw [Bool.and_eq_true, beq_iff_eq] at hp
    exact h.exclusive (Set.notMem_empty k) (Set.notMem_empty key) (standing?_of_get? hy)
      (standing?_of_get? hx) hp.1 ho hp.2

theorem Coherent.occupants_eq (h : Coherent e) (hk : k ∈ e.occupants key slot) :
    e.occupants key slot = [k] := by
  obtain ⟨hne, y, hy, ho, hslot⟩ := mem_occupants.1 hk
  have hrows := SlotTable.filter_toList_eq
    (p := fun r ↦ r.1 != key && r.2.info.occupiesSlot && r.2.info.slot == slot) hy
    (by simp [hne, ho, hslot]) fun k' y' hy' hp ↦ ?_
  · exact congrArg (List.map Prod.fst) hrows
  · simp only [Bool.and_eq_true, beq_iff_eq] at hp
    exact h.exclusive (Set.notMem_empty k') (Set.notMem_empty k) (standing?_of_get? hy')
      (standing?_of_get? hy) hp.1.2 ho (hp.2.trans hslot.symm)

theorem Coherent.evictFor_eq (h : Coherent e) (hi : info.windowType.isInternal)
    (hk : k ∈ e.occupants key info.slot) : e.evictFor key info dirty = e.evict dirty k := by
  rw [evictFor, if_pos hi, evictSlot, h.occupants_eq hk]
  rfl

theorem Coherent.evictFor_cases (h : Coherent e) (key : SlotKey) (info : WindowInfo)
    (dirty : Bool) :
    e.evictFor key info dirty = e ∨ ∃ k y, k ≠ key ∧ e.entries.get? k = some y ∧
      y.info.occupiesSlot ∧ y.info.slot = info.slot ∧
      e.evictFor key info dirty = e.evict dirty k := by
  by_cases hi : info.windowType.isInternal = true
  · cases hocc : e.occupants key info.slot with
    | nil => exact Or.inl (evictFor_of_free fun _ ↦ hocc)
    | cons k ks =>
      have hk : k ∈ e.occupants key info.slot := hocc ▸ List.mem_cons_self ..
      obtain ⟨hne, y, hy, ho, hslot⟩ := mem_occupants.1 hk
      exact Or.inr ⟨k, y, hne, hy, ho, hslot, h.evictFor_eq hi hk⟩
  · exact Or.inl (if_neg hi)

def Turned (visible : Bool) (key : SlotKey) (x : Entry) (e e' : Engine) : Prop :=
  ∃ x', x.Stays x' ∧ x'.info.visible = visible ∧
    ∀ k, e'.entries.get? k = if k = key then some x' else e.entries.get? k

theorem Coherent.occupants_of_turned (h : Coherent e) (hx : e.entries.get? key = some x)
    (ho : x.info.occupiesSlot) (hgoes : Turned false key x e e') :
    e'.occupants k x.info.slot = [] := by
  obtain ⟨x', -, hv, hget⟩ := hgoes
  refine occupants_eq_nil_iff.2 fun k' z _ hz ho' hslot ↦ ?_
  rw [hget] at hz
  split at hz
  case isTrue =>
    cases hz
    rw [WindowInfo.not_occupiesSlot hv] at ho'
    cases ho'
  case isFalse hne =>
    exact hne (h.exclusive (Set.notMem_empty k') (Set.notMem_empty key) (standing?_of_get? hz)
      (standing?_of_get? hx) ho' ho hslot)

structure Ousts (k : SlotKey) (y : Entry) (e e' : Engine) : Prop where
  entries : Turned false k y e e'
  sideStack : ∃ placed, placed.id = y.id ∧ placed.berth = y.info.berth ∧
    e'.sideStack = (e.remembering placed).sideStack
  settings : e'.settings = e.settings

theorem Coherent.berth_eq (h : Coherent e) (hl : Located e key x info) :
    info.berth = x.info.berth ∧ info.order = x.info.order := by
  obtain ⟨hcore, hmarks⟩ := h.agrees (Set.notMem_empty key) (standing?_of_get? hl.entry)
    hl.placement
  have hcore : x.info.core = info.core := hcore
  have hmarks : x.info.marks = info.marks := hmarks
  simp only [WindowInfo.core, WindowInfo.marks, Prod.mk.injEq] at hcore hmarks
  simp only [WindowInfo.berth, hcore, hmarks, and_self]

theorem stays_hidden (dirty : Bool) (hy : e.entries.get? k = some y)
    (hsame : info.berth = y.info.berth ∧ info.order = y.info.order) : ∃ off y',
    (e.deactivateWindow k info dirty .none).1 = off ∧ off.berth = y.info.berth ∧ y.Stays y' ∧
      y'.info.visible = false ∧
      Exchanged False k y y' (e.layout.put off) e (e.hidden k info dirty .none) := by
  obtain ⟨off, saved, hoff, hsaved, hex⟩ := exchanged_hidden (D := False) info dirty .none hy
    False.elim
  have hberth : off.berth = info.berth := by rw [hoff]; rfl
  have horder : off.order = info.order := by rw [hoff]; rfl
  have hv : off.visible = false := by rw [hoff]; rfl
  exact ⟨off, { y.undecorated with info := off }, hsaved, hberth.trans hsame.1,
    ⟨rfl, hberth.trans hsame.1, fun _ ↦ horder.trans hsame.2⟩, hv, hex⟩

theorem Coherent.hidden (dirty : Bool) (h : Coherent e) (hl : Located e key x info) :
    Coherent (e.hidden key info dirty .none) :=
  ((h.sound.mono (Set.subset_insert key ∅) subset_rfl).hidden dirty .none hl.entry
    (h.sound.placement_id hl)).coherent

theorem Coherent.ousts (dirty : Bool) (h : Coherent e) (hy : e.entries.get? k = some y)
    (hv : y.info.visible) : Ousts k y e (e.evict dirty k) := by
  obtain ⟨-, hcontains⟩ := h.ready (Set.notMem_empty k) (standing?_of_get? hy) hv
  obtain ⟨placed, hplaced⟩ := Layout.contains_iff.1 hcontains
  have hl : Located e k y placed := ⟨hy, hplaced⟩
  have hsame := h.berth_eq hl
  obtain ⟨off, y', -, -, hstays, hoff, hex⟩ :=
    stays_hidden dirty (get?_remembering placed hy) hsame
  obtain ⟨id, heq⟩ := evict_eq dirty (e := e) (k := k)
  rw [heq, hl.registeredInfo_eq]
  refine ⟨⟨y', hstays, hoff, fun k' ↦ ?_⟩, ⟨placed, Layout.id_of_get? hplaced, hsame.1,
    hex.sideStack⟩, hex.settings.trans settings_remembering⟩
  have hget := hex.get? k'
  rwa [entries_remembering] at hget

/-- A window comes on the screen, and is remembered no more. -/
structure Presents (key : SlotKey) (x : Entry) (e e' : Engine) : Prop where
  entries : Turned true key x e e'
  sideStack : e'.sideStack = e.forgetting x.id e.sideStack
  settings : e'.settings = e.settings

theorem Presents.of_same (h : Presents key x e₁ e') (he : e₁.entries = e.entries)
    (hside : e₁.sideStack = e.sideStack) (hset : e₁.settings = e.settings) :
    Presents key x e e' where
  entries := by
    obtain ⟨x', hstays, hv, hget⟩ := h.entries
    exact ⟨x', hstays, hv, fun k ↦ he ▸ hget k⟩
  sideStack := by
    rw [h.sideStack, forgetting, forgetting, hset, hside]
  settings := h.settings.trans hset

theorem Presents.get_sideStack {a : Anchor} (h : Presents key x e e')
    (henabled : e.settings.stackEnabled) :
    e'.sideStack.get a = (e.sideStack.get a).filter (·.id != x.id) := by
  rw [h.sideStack, forgetting, if_pos henabled, SideStack.get_remove]

theorem Coherent.ensures_presents (h : Coherent e) (hl : Located e key x info)
    (hv : x.info.visible = false) (ha : x.available) :
    Ensures (showWindow key info dirty) e fun res e' ↦
      res = true ∧ Coherent e' ∧ Presents key x (e.evictFor key info dirty) e' := by
  have hid := h.sound.placement_id hl
  have hxid : info.id = x.id := hid.trans (h.id_eq (standing?_of_get? hl.entry)).symm
  have hsame := h.berth_eq hl
  have hshows : Ensures (showWindow key info dirty) e fun _ e' ↦ Coherent e' :=
    (h.sound.showHidden info hl.entry hv hid (congrArg (·.2.1) hsame.1) ha).mono
      fun _ _ hq ↦ hq.1.coherent
  have hx₁ : (e.evictFor key info dirty).entries.get? key = some x :=
    (get?_evictFor key info dirty).trans hl.entry
  refine (ensures_and hshows (ensures_showWindow_emptied hl.entry ha rfl hx₁)).mono ?_
  intro res e' hq
  rcases hq with ⟨hc, hres, order, x', horder, hstanding, hex, hside⟩
  obtain ⟨hname, hx'id, hxinfo, hxa⟩ := Standing.mk.inj hstanding
  have hstays : x.Stays x' := by
    refine ⟨?_, ?_, fun ho ↦ ?_⟩
    · simp only [Entry.identity, hname, hx'id, hxa]
    · rw [hxinfo]
      exact hsame.1
    · have ho' : info.hasOrder := by
        rw [WindowInfo.hasOrder, hsame.2]
        exact ho
      rw [hxinfo]
      exact (horder ho').trans hsame.2
  refine ⟨hres, hc, ⟨x', hstays, ?_, hex.get?⟩, hxid ▸ hside, hex.settings⟩
  rw [hxinfo]
  rfl

end Engine

end ToolDock
