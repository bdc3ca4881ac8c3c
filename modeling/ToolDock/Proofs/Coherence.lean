import Mathlib.Data.Set.Insert
import ToolDock.Engine.Visibility
import ToolDock.Proofs.SlotTable

/-!
Coherence: every window is registered under its own id and agrees with the layout, only available
windows of the layout are visible, and no two windows share a slot. Operations that take a window
through several places leave it aside meanwhile: nothing is said about its place until it is put
down again. Main statements: `CoherentOn.change` says that a window aside may be changed freely, and
`CoherentOn.put_down` when it may be put down.
-/

namespace ToolDock

namespace WindowInfo

/-- What decides where a window is seen. -/
def core (info : WindowInfo) : Bool × Slot × WindowType :=
  (info.visible, info.slot, info.windowType)

/-- What else an entry and the layout agree about. -/
def marks (info : WindowInfo) : Int32 × Bool × Bool :=
  (info.order, info.autoHide, info.showStripeButton)

variable {a b : WindowInfo}

theorem occupiesSlot_of_core (h : a.core = b.core) : a.occupiesSlot = b.occupiesSlot := by
  simp only [core, Prod.mk.injEq] at h
  simp only [occupiesSlot, h.1, h.2.2]

theorem visible_of_core (h : a.core = b.core) : a.visible = b.visible := congrArg Prod.fst h

theorem slot_of_core (h : a.core = b.core) : a.slot = b.slot := congrArg (·.2.1) h

theorem windowType_of_core (h : a.core = b.core) : a.windowType = b.windowType :=
  congrArg (·.2.2) h

theorem occupiesSlot_iff : a.occupiesSlot ↔ a.visible ∧ a.windowType.isInternal :=
  Bool.and_eq_true_iff

theorem not_occupiesSlot (hv : a.visible = false) : a.occupiesSlot = false := by
  simp [occupiesSlot, hv]

end WindowInfo

namespace Layout

variable {l m : Layout} {info : WindowInfo} {id : String}

theorem get?_congr (h : m.windows = l.windows) (id : String) : m.get? id = l.get? id := by
  rw [get?, h, get?]

theorem contains_congr (h : m.windows = l.windows) (id : String) :
    m.contains id = l.contains id := by
  rw [contains, h, contains]

theorem contains_iff : l.contains id ↔ ∃ info, l.get? id = some info := by
  rw [contains, get?, ← Option.isSome_iff_exists, List.find?_isSome, List.any_eq_true]

theorem contains_of_get? (h : l.get? id = some info) : l.contains id := contains_iff.2 ⟨info, h⟩

theorem mem_of_get? (h : l.get? id = some info) : info ∈ l.windows := List.mem_of_find?_eq_some h

theorem find?_of_mem {ws : List WindowInfo} (hnodup : (ws.map WindowInfo.id).Nodup)
    (h : info ∈ ws) : ws.find? (·.id == info.id) = some info := by
  induction ws with
  | nil => cases h
  | cons w ws ih =>
    rw [List.map_cons, List.nodup_cons] at hnodup
    rcases List.mem_cons.1 h with rfl | hmem
    · simp
    · have hne : ¬ w.id = info.id := fun heq ↦ hnodup.1 (heq ▸ List.mem_map_of_mem hmem)
      simpa [hne] using ih hnodup.2 hmem

theorem get?_of_mem (h : info ∈ l.windows) : l.get? info.id = some info := find?_of_mem l.nodup h

theorem contains_put : (l.put info).contains id ↔ id = info.id ∨ l.contains id := by
  simp only [contains_iff, get?_put]
  by_cases hid : id = info.id <;> simp [hid]

variable {l' : Layout} {a b : WindowInfo}

theorem eq_of_windows (hw : l.windows = l'.windows) (hu : l.unified = l'.unified) : l = l' := by
  cases l
  cases l'
  cases hw
  cases hu
  rfl

theorem unified_put : (l.put a).unified = l.unified := by
  unfold put
  split <;> rfl

theorem windows_put :
    (l.put a).windows = if l.contains a.id then replaced a l.windows else l.windows ++ [a] := by
  unfold put
  split <;> rfl

theorem put_put (h : a.id = b.id) : (l.put a).put b = l.put b := by
  refine eq_of_windows ?_ (by simp only [unified_put])
  have hself : (l.put a).contains b.id := contains_put.2 (Or.inl h.symm)
  rw [windows_put, if_pos hself, windows_put, windows_put, h]
  split
  case isTrue =>
    simp only [replaced, List.map_map]
    refine List.map_congr_left fun w _ ↦ ?_
    by_cases hw : w.id = b.id <;> simp [h, hw]
  case isFalse hc =>
    have hfresh : replaced b l.windows = l.windows := by
      refine (List.map_congr_left fun w hw ↦ if_neg fun heq ↦ hc ?_).trans l.windows.map_id
      exact contains_eq_true_iff.2 (List.mem_map.2 ⟨w, hw, heq⟩)
    have happend : replaced b (l.windows ++ [a]) = replaced b l.windows ++ [b] := by
      simp [replaced, h]
    rw [happend, hfresh]

end Layout

structure Standing where
  name : String
  id : String
  info : WindowInfo
  available : Bool

def Entry.standing (x : Entry) : Standing := ⟨x.name, x.id, x.info, x.available⟩

namespace Engine

def standing? (e : Engine) (key : SlotKey) : Option Standing :=
  (e.entries.get? key).map Entry.standing

variable {κ : Type}

/-- The engine is coherent about all windows but those aside, with entries and layout agreeing on
`detail` of the marks besides the core. -/
structure CoherentOn (detail : Int32 × Bool × Bool → κ) (aside : Set SlotKey) (e : Engine) :
    Prop where
  id_eq : ∀ {key x}, e.standing? key = some x → x.id = x.name
  info_id : ∀ {key x}, e.standing? key = some x → x.info.id = x.name
  unique : ∀ {k k' x x'}, e.standing? k = some x → e.standing? k' = some x' →
    x.name = x'.name → k = k'
  agrees : ∀ {key x info}, key ∉ aside → e.standing? key = some x →
    e.layout.get? x.id = some info →
    x.info.core = info.core ∧ detail x.info.marks = detail info.marks
  ready : ∀ {key x}, key ∉ aside → e.standing? key = some x → x.info.visible →
    x.available ∧ e.layout.contains x.id
  exclusive : ∀ {k k' x x'}, k ∉ aside → k' ∉ aside → e.standing? k = some x →
    e.standing? k' = some x' → x.info.occupiesSlot → x'.info.occupiesSlot →
    x.info.slot = x'.info.slot → k = k'

/-- Every window is registered under its own id; its entry has the visible flag, place, type, order,
auto-hide and button flag that the layout has for it; only available windows of the layout are
visible; and no two visible internal windows share a slot. -/
def Coherent (e : Engine) : Prop := CoherentOn id ∅ e

variable {detail : Int32 × Bool × Bool → κ} {s t : Set SlotKey} {e e' : Engine} {key k : SlotKey}
  {x : Standing} {info : WindowInfo}

theorem standing?_eq_some :
    e.standing? key = some x ↔ ∃ entry, e.entries.get? key = some entry ∧ entry.standing = x :=
  Option.map_eq_some_iff

theorem standing?_of_get? {entry : Entry} (h : e.entries.get? key = some entry) :
    e.standing? key = some entry.standing :=
  standing?_eq_some.2 ⟨entry, h, rfl⟩

namespace CoherentOn

theorem mono (h : CoherentOn detail s e) (hs : s ⊆ t) : CoherentOn detail t e where
  id_eq := h.id_eq
  info_id := h.info_id
  unique := h.unique
  agrees hk := h.agrees fun hm ↦ hk (hs hm)
  ready hk := h.ready fun hm ↦ hk (hs hm)
  exclusive hk hk' := h.exclusive (fun hm ↦ hk (hs hm)) fun hm ↦ hk' (hs hm)

theorem coarsen {κ' : Type} {coarse : Int32 × Bool × Bool → κ'} (h : CoherentOn detail s e)
    (hc : ∀ m m', detail m = detail m' → coarse m = coarse m') : CoherentOn coarse s e where
  id_eq := h.id_eq
  info_id := h.info_id
  unique := h.unique
  agrees hk hx hinfo :=
    ⟨(h.agrees hk hx hinfo).1, hc _ _ (h.agrees hk hx hinfo).2⟩
  ready := h.ready
  exclusive := h.exclusive

theorem key_eq {x y : Entry} (h : CoherentOn detail s e) (hx : e.entries.get? key = some x)
    (hy : e.entries.get? k = some y) (hid : x.id = y.id) : key = k := by
  have hxn : x.id = x.name := h.id_eq (standing?_of_get? hx)
  have hyn : y.id = y.name := h.id_eq (standing?_of_get? hy)
  exact h.unique (standing?_of_get? hx) (standing?_of_get? hy) (hxn.symm.trans (hid.trans hyn))

theorem namesUnique (h : CoherentOn detail s e) : NamesUnique e := fun _ _ _ _ hx hy hname ↦
  h.unique (standing?_of_get? hx) (standing?_of_get? hy) hname

theorem congr (h : CoherentOn detail s e) (hst : e'.standing? = e.standing?)
    (hl : e'.layout.windows = e.layout.windows) : CoherentOn detail s e' where
  id_eq hx := h.id_eq (hst ▸ hx)
  info_id hx := h.info_id (hst ▸ hx)
  unique hx hx' := h.unique (hst ▸ hx) (hst ▸ hx')
  agrees hk hx hinfo := h.agrees hk (hst ▸ hx) (Layout.get?_congr hl _ ▸ hinfo)
  ready hk hx hv := (h.ready hk (hst ▸ hx) hv).imp_right (Layout.contains_congr hl _).trans
  exclusive hk hk' hx hx' := h.exclusive hk hk' (hst ▸ hx) (hst ▸ hx')

theorem change (h : CoherentOn detail s e) (hk : key ∈ s) (hx : e.standing? key = some x)
    {available : Bool} (hid : info.id = x.name)
    (hst : ∀ k, e'.standing? k =
      if k = key then some ⟨x.name, x.id, info, available⟩ else e.standing? k)
    (hl : ∀ id, id ≠ x.id → e'.layout.get? id = e.layout.get? id)
    (hc : ∀ id, e.layout.contains id → e'.layout.contains id) : CoherentOn detail s e' := by
  have hother : ∀ {k y}, k ∉ s → e'.standing? k = some y → e.standing? k = some y := by
    intro k y hks hy
    rwa [hst, if_neg fun heq : k = key ↦ hks (heq ▸ hk)] at hy
  have hnamed : ∀ {k y}, e'.standing? k = some y →
      ∃ z, e.standing? k = some z ∧ z.name = y.name ∧ z.id = y.id := by
    intro k y hy
    rw [hst] at hy
    split at hy
    case isTrue heq =>
      cases hy
      exact ⟨x, heq ▸ hx, rfl, rfl⟩
    case isFalse => exact ⟨y, hy, rfl, rfl⟩
  refine ⟨?_, ?_, ?_, ?_, ?_, ?_⟩
  · intro k y hy
    obtain ⟨z, hz, hn, hi⟩ := hnamed hy
    rw [← hn, ← hi]
    exact h.id_eq hz
  · intro k y hy
    rw [hst] at hy
    split at hy
    case isTrue => cases hy; exact hid
    case isFalse => exact h.info_id hy
  · intro k k' y y' hy hy' hn
    obtain ⟨z, hz, hzn, -⟩ := hnamed hy
    obtain ⟨z', hz', hzn', -⟩ := hnamed hy'
    exact h.unique hz hz' (by rw [hzn, hzn', hn])
  · intro k y info' hks hy hinfo
    have hz := hother hks hy
    apply h.agrees hks hz
    rwa [← hl]
    intro heq
    rw [h.id_eq hz, h.id_eq hx] at heq
    exact hks (h.unique hz hx heq ▸ hk)
  · intro k y hks hy hv
    obtain ⟨ha, hm⟩ := h.ready hks (hother hks hy) hv
    exact ⟨ha, hc _ hm⟩
  · intro k k' y y' hks hks' hy hy'
    exact h.exclusive hks hks' (hother hks hy) (hother hks' hy')

theorem put_down (h : CoherentOn detail (insert key s) e) (hx : e.standing? key = some x)
    (hagrees : ∀ info, e.layout.get? x.id = some info →
      x.info.core = info.core ∧ detail x.info.marks = detail info.marks)
    (hready : x.info.visible → x.available ∧ e.layout.contains x.id)
    (hfree : x.info.occupiesSlot → ∀ k y, k ∉ s → k ≠ key → e.standing? k = some y →
      y.info.occupiesSlot → y.info.slot ≠ x.info.slot) : CoherentOn detail s e := by
  have haside : ∀ {k}, k ∉ s → k ≠ key → k ∉ insert key s := fun hks hne hm ↦
    (Set.mem_insert_iff.1 hm).elim hne hks
  refine ⟨h.id_eq, h.info_id, h.unique, ?_, ?_, ?_⟩
  · intro k y info hk hy hinfo
    by_cases hkey : k = key
    · subst hkey
      cases hx.symm.trans hy
      exact hagrees info hinfo
    · exact h.agrees (haside hk hkey) hy hinfo
  · intro k y hk hy hv
    by_cases hkey : k = key
    · subst hkey
      cases hx.symm.trans hy
      exact hready hv
    · exact h.ready (haside hk hkey) hy hv
  · intro k k' y y' hk hk' hy hy' ho ho' hs
    by_cases hkey : k = key
    · subst hkey
      cases hx.symm.trans hy
      by_contra hne
      exact hfree ho k' y' hk' (fun heq ↦ hne heq.symm) hy' ho' hs.symm
    · by_cases hkey' : k' = key
      · subst hkey'
        cases hx.symm.trans hy'
        exact absurd hs (hfree ho' k y hk hkey hy ho)
      · exact h.exclusive (haside hk hkey) (haside hk' hkey') hy hy' ho ho' hs

end CoherentOn

end Engine

end ToolDock
