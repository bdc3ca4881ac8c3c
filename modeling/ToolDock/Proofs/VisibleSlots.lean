import ToolDock.Proofs.Unwinding

namespace ToolDock

def Layout.screen (l : Layout) (id : String) : Option Slot :=
  (l.get? id).bind fun info ↦ if info.visible then some info.slot else none

theorem Layout.screen_put {l : Layout} {info : WindowInfo} {id : String} : (l.put info).screen id =
    if id = info.id then if info.visible then some info.slot else none else l.screen id := by
  rw [screen, get?_put]
  split <;> rfl

namespace Engine

variable {e e' : Engine} {key k : SlotKey} {x y : Entry} {info : WindowInfo} {dirty : Bool}
  {mutation : HideMutation} {slot : Slot} {id other : String} {a : Anchor}

theorem Coherent.entry?_eq (h : Coherent e) (hx : e.entries.get? key = some x) :
    e.entry? x.name = some x :=
  h.namesUnique.entry?_eq hx

theorem Coherent.name_eq (h : Coherent e) (hx : e.entries.get? key = some x) : x.id = x.name :=
  h.id_eq (standing?_of_get? hx)

theorem Coherent.info_id_eq (h : Coherent e) (hx : e.entries.get? key = some x) :
    x.info.id = x.name :=
  h.info_id (standing?_of_get? hx)

theorem Coherent.screen_eq (h : Coherent e) (hx : e.entries.get? key = some x) :
    e.layout.screen x.name = if x.info.visible then some x.info.slot else none := by
  have hst := standing?_of_get? hx
  rw [← h.name_eq hx, Layout.screen]
  cases hinfo : e.layout.get? x.id with
  | some info =>
    have hcore := (h.agrees (Set.notMem_empty key) hst hinfo).1
    rw [Option.bind_some, ← WindowInfo.visible_of_core hcore, ← WindowInfo.slot_of_core hcore]
    rfl
  | none =>
    rw [Option.bind_none, if_neg]
    intro hv
    obtain ⟨info, hsome⟩ := Layout.contains_iff.1 (h.ready (Set.notMem_empty key) hst hv).2
    cases hinfo.symm.trans hsome

theorem mem_dockedAt : id ∈ e.dockedAt slot ↔ ∃ k y, e.entries.get? k = some y ∧
    y.info.occupiesSlot ∧ y.info.slot = slot ∧ y.id = id := by
  rw [dockedAt, SlotTable.values, List.filter_map, List.map_map, List.mem_map]
  constructor
  · rintro ⟨⟨k, y⟩, hrow, rfl⟩
    obtain ⟨hmem, hp⟩ := List.mem_filter.1 hrow
    rw [Function.comp, Bool.and_eq_true, beq_iff_eq] at hp
    exact ⟨k, y, SlotTable.mem_toList.1 hmem, hp.1, hp.2, rfl⟩
  · rintro ⟨k, y, hy, ho, hslot, rfl⟩
    refine ⟨(k, y), List.mem_filter.2 ⟨SlotTable.mem_toList.2 hy, ?_⟩, rfl⟩
    rw [Function.comp, ho, hslot, beq_self_eq_true]
    rfl

theorem Coherent.screen_of_mem_dockedAt (h : Coherent e) (hid : id ∈ e.dockedAt slot) :
    e.layout.screen id = some slot := by
  obtain ⟨k, y, hy, ho, rfl, rfl⟩ := mem_dockedAt.1 hid
  rw [h.name_eq hy, h.screen_eq hy, if_pos (WindowInfo.occupiesSlot_iff.1 ho).1]

theorem Coherent.screen_registeredInfo (h : Coherent e) (hx : e.entries.get? key = some x) :
    (e.registeredInfo key).2.layout.screen = e.layout.screen := by
  have hid : x.info.id = x.id := (h.info_id_eq hx).trans (h.name_eq hx).symm
  rw [registeredInfo_eq hx hid]
  cases hinfo : e.layout.get? x.id with
  | some info => rfl
  | none =>
    have hnone : e.layout.screen x.id = none := by rw [Layout.screen, hinfo, Option.bind_none]
    have hhidden : (if x.info.visible then some x.info.slot else none) = none := by
      rw [← h.screen_eq hx, ← h.name_eq hx, hnone]
    funext other
    change (e.layout.put x.info).screen other = _
    rw [Layout.screen_put, hid]
    split
    case isTrue heq => rw [heq, hhidden, hnone]
    case isFalse => rfl

theorem screen_hidden (info : WindowInfo) (dirty : Bool) (mutation : HideMutation)
    (hx : e.entries.get? key = some x) (other : String) :
    (e.hidden key info dirty mutation).layout.screen other =
      if other = info.id then none else e.layout.screen other := by
  obtain ⟨off, saved, hoff, -, hex⟩ :=
    exchanged_hidden (D := False) info dirty mutation hx (nomatch ·)
  have hid : off.id = info.id := by rw [hoff, WindowInfo.id_withState, id_mutated _]
  have hv : off.visible = false := by rw [hoff, WindowInfo.visible_withState, visible_mutated _]
  rw [hex.layout, Layout.screen_put, hid, hv]
  rfl

theorem Coherent.screen_evict (dirty : Bool) (h : Coherent e) (hy : e.entries.get? k = some y)
    (other : String) :
    (e.evict dirty k).layout.screen other =
      if other = y.name then none else e.layout.screen other := by
  obtain ⟨h₁, hl⟩ := h.sound.registeredInfo hy
  obtain ⟨id, heq⟩ := evict_eq dirty (e := e) (k := k)
  have hhidden := screen_hidden (e.registeredInfo k).1 dirty .none
    (get?_remembering (e.registeredInfo k).1 hl.entry) other
  rw [layout_remembering, h.screen_registeredInfo hy, h₁.placement_id hl] at hhidden
  rw [heq]
  exact hhidden

theorem Coherent.screen_evictFor (info : WindowInfo) (dirty : Bool) (h : Coherent e)
    (hx : e.entries.get? key = some x) (hv : x.info.visible = false) (other : String) :
    (e.evictFor key info dirty).layout.screen other =
      if info.windowType.isInternal ∧ other ∈ e.dockedAt info.slot then none
      else e.layout.screen other := by
  by_cases hi : info.windowType.isInternal = true
  · rw [evictFor, if_pos hi, evictSlot]
    cases hocc : e.occupants key info.slot with
    | nil =>
      rw [List.foldl_nil, if_neg]
      rintro ⟨-, hdocked⟩
      obtain ⟨k, y, hy, ho, hslot, -⟩ := mem_dockedAt.1 hdocked
      have hne : k ≠ key := by
        rintro rfl
        cases hx.symm.trans hy
        rw [WindowInfo.not_occupiesSlot hv] at ho
        cases ho
      exact occupants_eq_nil_iff.1 hocc k y hne hy ho hslot
    | cons k ks =>
      have hk : k ∈ e.occupants key info.slot := hocc ▸ List.mem_cons_self ..
      obtain ⟨-, y, hy, ho, hslot⟩ := mem_occupants.1 hk
      have hdocked : e.dockedAt info.slot = [y.name] := by
        rw [← hslot, h.dockedAt_eq hy ho, h.name_eq hy]
      rw [← hocc, h.occupants_eq hk, List.foldl_cons, List.foldl_nil, h.screen_evict dirty hy,
        hdocked]
      simp [hi]
  · rw [evictFor, if_neg hi, if_neg fun hn ↦ hi hn.1]

theorem occupants_of_dockedAt_eq_nil (hfree : e.dockedAt slot = []) :
    e.occupants key slot = [] := by
  refine occupants_eq_nil_iff.2 fun k y _ hy ho hslot ↦ ?_
  have hmem : y.id ∈ e.dockedAt slot := mem_dockedAt.2 ⟨k, y, hy, ho, hslot, rfl⟩
  rw [hfree] at hmem
  cases hmem

theorem evictFor_eq_self (hfree : info.windowType.isInternal → e.dockedAt info.slot = []) :
    e.evictFor key info dirty = e :=
  evictFor_of_free fun hi ↦ occupants_of_dockedAt_eq_nil (hfree hi)

theorem Coherent.settings_evictFor (key : SlotKey) (info : WindowInfo) (dirty : Bool)
    (h : Coherent e) : (e.evictFor key info dirty).settings = e.settings := by
  rcases h.evictFor_cases key info dirty with heq | ⟨k, y, -, hy, ho, -, heq⟩
  · rw [heq]
  · rw [heq, (h.ousts dirty hy (WindowInfo.occupiesSlot_iff.1 ho).1).settings]

theorem Coherent.ensures_screen (h : Coherent e) (hl : Located e key x info)
    (hv : x.info.visible = false) (ha : x.available) :
    Ensures (showWindow key info dirty) e fun res e' ↦ res = true ∧ Coherent e' ∧
      (∀ other, e'.layout.screen other = if other = x.name then some info.slot
        else if info.windowType.isInternal ∧ other ∈ e.dockedAt info.slot then none
        else e.layout.screen other) ∧
      e'.sideStack = e.forgetting x.name (e.evictFor key info dirty).sideStack := by
  have hid := h.sound.placement_id hl
  have hkept := (h.sound.mono (Set.empty_subset {key}) subset_rfl).evictFor info dirty
  refine (ensures_and (h.ensures_presents hl hv ha)
    (ensures_showWindow_emptied hl.entry ha rfl (hkept.2.2.1.trans hl.entry))).mono ?_
  intro res e' hq
  rcases hq with ⟨⟨hres, hc, hpresents⟩, -, order, x', -, -, hex, -⟩
  refine ⟨hres, hc, fun other ↦ ?_, ?_⟩
  · have hlayout : e'.layout = (e.evictFor key info dirty).layout.put (info.shownAt order) :=
      hex.layout
    have hshownid : (info.shownAt order).id = x.name := hid
    rw [hlayout, Layout.screen_put, hshownid, h.screen_evictFor info dirty hl.entry hv]
    rfl
  · rw [hpresents.sideStack, h.name_eq hl.entry, forgetting, forgetting, h.settings_evictFor]

end Engine

end ToolDock
