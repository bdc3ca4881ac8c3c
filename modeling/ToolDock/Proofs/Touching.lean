import ToolDock.Proofs.Discarding

namespace ToolDock.Engine

variable {D : Prop} {e e' e'' : Engine} {key k : SlotKey} {x x' y : Entry} {l : Layout}
  {info placed : WindowInfo} {ids : Set String}

def ChangesOnly (ids : Set String) (e e' : Engine) : Prop :=
  ∀ id ∉ ids, e'.layout.get? id = e.layout.get? id ∧ e'.windowInfo? id = e.windowInfo? id

namespace ChangesOnly

theorem refl : ChangesOnly ids e e := fun _ _ ↦ ⟨rfl, rfl⟩

theorem trans (h : ChangesOnly ids e e') (h' : ChangesOnly ids e' e'') : ChangesOnly ids e e'' :=
  fun id hid ↦ ⟨(h' id hid).1.trans (h id hid).1, (h' id hid).2.trans (h id hid).2⟩

theorem mono {ids' : Set String} (h : ChangesOnly ids e e') (hsub : ids ⊆ ids') :
    ChangesOnly ids' e e' :=
  fun id hid ↦ h id fun hmem ↦ hid (hsub hmem)

theorem of_eq (he : e'.entries = e.entries) (hl : e'.layout = e.layout) : ChangesOnly ids e e' := by
  intro id _
  rw [hl, windowInfo?, windowInfo?, entry?, entry?, keyOf?, keyOf?, he]
  exact ⟨rfl, rfl⟩

end ChangesOnly

theorem Exchanged.windowInfo? (hex : Exchanged D key x x' l e e') (hc : Coherent e)
    (hc' : Coherent e') (hx : e.entries.get? key = some x) (hname : x'.name = x.name)
    (id : String) :
    e'.windowInfo? id = if id = x.name then some x'.info else e.windowInfo? id := by
  split
  case isTrue hid => rw [hid, ← hname, hc'.windowInfo?_eq hex.get?_self]
  case isFalse hid =>
    -- the entry of another window is found under the same key
    refine congrArg (Option.map _) (Option.ext fun y ↦ ?_)
    rw [hc'.entry?_eq_some, hc.entry?_eq_some]
    refine exists_congr fun k ↦ ?_
    by_cases hk : k = key
    · subst hk
      rw [hex.get?_self, hx]
      refine iff_of_false ?_ ?_
      · rintro ⟨⟨⟩, rfl⟩
        exact hid hname
      · rintro ⟨⟨⟩, rfl⟩
        exact hid rfl
    · rw [hex.get?_other hk]

theorem Exchanged.changesOnly (hex : Exchanged D key x x' (e.layout.put placed) e e')
    (hc : Coherent e) (hc' : Coherent e') (hx : e.entries.get? key = some x)
    (hname : x'.name = x.name) (hid : placed.id = x.name) (hmem : x.name ∈ ids) :
    ChangesOnly ids e e' := by
  intro other hother
  have hne : other ≠ x.name := fun heq ↦ hother (heq ▸ hmem)
  constructor
  · rw [hex.layout, Layout.get?_put, if_neg (hid ▸ hne)]
  · rw [hex.windowInfo? hc hc' hx hname, if_neg hne]

section Hidden

variable (dirty : Bool) (mutation : HideMutation)

theorem Coherent.coherent_hidden (h : Coherent e) (hx : e.entries.get? key = some x)
    (hid : info.id = x.name) : Coherent (e.hidden key info dirty mutation) :=
  ((h.sound.mono (Set.subset_insert key ∅) subset_rfl).hidden dirty mutation hx hid).coherent

theorem Located.hidden (hx : e.entries.get? key = some x) (hl : Located e k y placed) :
    ∃ y' placed', Located (e.hidden key info dirty mutation) k y' placed' ∧ y'.name = y.name := by
  obtain ⟨off, saved, -, -, hex⟩ :=
    exchanged_hidden (D := False) info dirty mutation hx False.elim
  have hstanding := standing_undecorated mutation (x := x)
  have hknown : ∃ placed', (e.hidden key info dirty mutation).layout.get? y.id = some placed' := by
    rw [hex.layout]
    exact Layout.contains_iff.1 (Layout.contains_put.2 (Or.inr hl.contains))
  obtain ⟨placed', hplaced⟩ := hknown
  by_cases hk : k = key
  · subst hk
    cases hx.symm.trans hl.entry
    have hid : (afterMutation mutation x).undecorated.id = x.id := congrArg Standing.id hstanding
    exact ⟨_, placed', ⟨hex.get?_self, hid ▸ hplaced⟩, congrArg Standing.name hstanding⟩
  · exact ⟨y, placed', ⟨(hex.get?_other hk).trans hl.entry, hplaced⟩, rfl⟩

theorem Coherent.changesOnly_hidden (h : Coherent e) (hx : e.entries.get? key = some x)
    (hid : info.id = x.name) (hmem : x.name ∈ ids) :
    ChangesOnly ids e (e.hidden key info dirty mutation) := by
  obtain ⟨off, saved, hoff, -, hex⟩ :=
    exchanged_hidden (D := False) info dirty mutation hx False.elim
  have hoffid : off.id = x.name := by rw [hoff, WindowInfo.id_withState, id_mutated mutation, hid]
  exact hex.changesOnly h (h.coherent_hidden dirty mutation hx hid) hx
    (congrArg Standing.name (standing_undecorated mutation)) hoffid hmem

end Hidden

end ToolDock.Engine
