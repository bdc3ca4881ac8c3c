import ToolDock.Engine.Basic

namespace ToolDock

namespace SlotTable

variable {α : Type} {t : SlotTable α} {k : SlotKey} {x : α}

theorem mem_listFrom {slots : List (TableSlot α)} {i : Nat} :
    (k, x) ∈ listFrom i slots ↔
      i ≤ k.index ∧ slots[k.index - i]? = some ⟨k.version, some x⟩ := by
  induction slots generalizing i with
  | nil => simp [listFrom]
  | cons s slots ih =>
    obtain ⟨v, y⟩ := s
    have hhead : i ≤ k.index ∧ (⟨v, y⟩ :: slots)[k.index - i]? = some ⟨k.version, some x⟩ ↔
        (k.index = i ∧ v = k.version ∧ y = some x) ∨
          (i + 1 ≤ k.index ∧ slots[k.index - (i + 1)]? = some ⟨k.version, some x⟩) := by
      by_cases hi : k.index = i
      · have : ¬ i + 1 ≤ i := by omega
        simp [hi, this]
      · by_cases hle : i + 1 ≤ k.index
        · have hsub : k.index - i = k.index - (i + 1) + 1 := by omega
          rw [hsub, List.getElem?_cons_succ]
          simp [hi, hle, Nat.le_of_succ_le hle]
        · have : ¬ i ≤ k.index := by omega
          simp [hi, hle, this]
    rw [hhead, ← ih]
    cases y with
    | none => simp [listFrom]
    | some y =>
      obtain ⟨ki, kv⟩ := k
      simp only [listFrom, List.mem_cons, Prod.mk.injEq, SlotKey.mk.injEq, Option.some.injEq]
      constructor
      · intro hq
        rcases hq with ⟨⟨rfl, rfl⟩, rfl⟩ | h
        · exact Or.inl ⟨rfl, rfl, rfl⟩
        · exact Or.inr h
      · intro hq
        rcases hq with ⟨rfl, rfl, rfl⟩ | h
        · exact Or.inl ⟨⟨rfl, rfl⟩, rfl⟩
        · exact Or.inr h

theorem mem_toList : (k, x) ∈ t.toList ↔ t.get? k = some x := by
  rw [toList, mem_listFrom]
  simp only [Nat.zero_le, true_and, Nat.sub_zero, get?]
  cases t.slots[k.index]? with
  | none => simp
  | some s =>
    obtain ⟨v, y⟩ := s
    by_cases hv : v = k.version <;> simp [hv]

theorem pairwise_index_listFrom (slots : List (TableSlot α)) (i : Nat) :
    (listFrom i slots).Pairwise fun a b ↦ a.1.index < b.1.index := by
  induction slots generalizing i with
  | nil => exact .nil
  | cons s slots ih =>
    obtain ⟨v, y⟩ := s
    cases y with
    | none => exact ih (i + 1)
    | some y =>
      refine List.pairwise_cons.2 ⟨fun r hr ↦ ?_, ih (i + 1)⟩
      obtain ⟨key, z⟩ := r
      have := (mem_listFrom.1 hr).1
      exact this

theorem nodup_keys (t : SlotTable α) : t.keys.Nodup := by
  refine List.pairwise_map.2 ((pairwise_index_listFrom t.slots 0).imp fun {a b} h heq ↦ ?_)
  rw [heq] at h
  omega

theorem get?_of_findKey? {p : α → Bool} (h : t.findKey? p = some k) :
    ∃ x, t.get? k = some x ∧ p x := by
  obtain ⟨⟨key, x⟩, hfind, rfl⟩ := Option.map_eq_some_iff.1 h
  have hp := List.find?_some hfind
  exact ⟨x, mem_toList.1 (List.mem_of_find?_eq_some hfind), hp⟩

theorem not_of_findKey?_eq_none {p : α → Bool} (h : t.findKey? p = none) (hx : t.get? k = some x) :
    p x = false := by
  have := List.find?_eq_none.1 (Option.map_eq_none_iff.1 h) (k, x) (mem_toList.2 hx)
  simpa using this

end SlotTable

namespace Engine

variable {e : Engine} {key : SlotKey} {entry : Entry} {id : String}

theorem mem_keysWhere {p : SlotKey → Entry → Bool} :
    key ∈ e.keysWhere p ↔ ∃ entry, e.entries.get? key = some entry ∧ p key entry := by
  simp only [keysWhere, List.mem_map, List.mem_filter, Prod.exists]
  constructor
  · intro hq
    rcases hq with ⟨k, entry, ⟨hmem, hp⟩, rfl⟩
    exact ⟨entry, SlotTable.mem_toList.1 hmem, hp⟩
  · intro hq
    rcases hq with ⟨entry, hget, hp⟩
    exact ⟨key, entry, ⟨SlotTable.mem_toList.2 hget, hp⟩, rfl⟩

theorem get?_of_keyOf? (h : e.keyOf? id = some key) :
    ∃ entry, e.entries.get? key = some entry ∧ entry.name = id := by
  obtain ⟨entry, hget, hname⟩ := SlotTable.get?_of_findKey? h
  exact ⟨entry, hget, by simpa using hname⟩

theorem name_ne_of_keyOf?_eq_none (h : e.keyOf? id = none)
    (hget : e.entries.get? key = some entry) :
    entry.name ≠ id := by
  have := SlotTable.not_of_findKey?_eq_none h hget
  simpa using this

theorem entryIs_of_get? {p : Entry → Bool} (hget : e.entries.get? key = some entry) :
    e.entryIs key p = p entry := by
  simp [entryIs, hget]

def NamesUnique (e : Engine) : Prop :=
  ∀ ⦃k k' x x'⦄, e.entries.get? k = some x → e.entries.get? k' = some x' → x.name = x'.name →
    k = k'

theorem NamesUnique.keyOf?_eq (hu : NamesUnique e) (hget : e.entries.get? key = some entry) :
    e.keyOf? entry.name = some key := by
  cases hkey : e.keyOf? entry.name with
  | none => exact absurd rfl (name_ne_of_keyOf?_eq_none hkey hget)
  | some k =>
    obtain ⟨other, hother, hname⟩ := get?_of_keyOf? hkey
    rw [hu hother hget hname]

theorem NamesUnique.keyOf?_eq_some (hu : NamesUnique e) :
    e.keyOf? id = some key ↔ (e.entries.get? key).map Entry.name = some id := by
  rw [Option.map_eq_some_iff]
  constructor
  · exact get?_of_keyOf?
  · rintro ⟨x, hx, rfl⟩
    exact hu.keyOf?_eq hx

theorem NamesUnique.entry?_eq (hu : NamesUnique e) (hget : e.entries.get? key = some entry) :
    e.entry? entry.name = some entry := by
  rw [Engine.entry?, hu.keyOf?_eq hget]
  exact hget

theorem NamesUnique.entry?_eq_some (hu : NamesUnique e) :
    e.entry? id = some entry ↔ ∃ k, e.entries.get? k = some entry ∧ entry.name = id := by
  constructor
  · intro hentry
    obtain ⟨k, hkey, hget⟩ := Option.bind_eq_some_iff.1 hentry
    obtain ⟨y, hy, hname⟩ := get?_of_keyOf? hkey
    cases hget.symm.trans hy
    exact ⟨k, hget, hname⟩
  · rintro ⟨k, hget, rfl⟩
    exact hu.entry?_eq hget

def SameNames (e e' : Engine) : Prop :=
  ∀ k, (e'.entries.get? k).map Entry.name = (e.entries.get? k).map Entry.name

namespace SameNames

variable {e' : Engine}

theorem namesUnique (h : SameNames e e') (hu : NamesUnique e) : NamesUnique e' := by
  intro k k' x' y' hx' hy' hname
  have hk := h k
  have hk' := h k'
  rw [hx', Option.map_some, eq_comm, Option.map_eq_some_iff] at hk
  rw [hy', Option.map_some, eq_comm, Option.map_eq_some_iff] at hk'
  obtain ⟨x, hx, hxname⟩ := hk
  obtain ⟨y, hy, hyname⟩ := hk'
  exact hu hx hy (hxname.trans (hname.trans hyname.symm))

theorem keyOf?_eq (h : SameNames e e') (hu : NamesUnique e) (id : String) :
    e'.keyOf? id = e.keyOf? id := by
  refine Option.ext fun k ↦ ?_
  rw [(h.namesUnique hu).keyOf?_eq_some, hu.keyOf?_eq_some, h k]

end SameNames

end Engine

end ToolDock
