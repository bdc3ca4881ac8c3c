/-!
Values in numbered slots. A slot whose value was removed is used again, the one freed last first,
and counts its removals; a key names a slot and a count, so the key of a removed value never leads
to another one. Main statements: `get?_insert`, `get?_remove` and `get?_modify` say what the
operations do to a look-up.
-/

namespace ToolDock

structure SlotKey where
  index : Nat
  version : Nat
deriving DecidableEq, Repr, Inhabited

structure TableSlot (α : Type) where
  version : Nat
  value : Option α
deriving DecidableEq

structure SlotTable (α : Type) where
  slots : List (TableSlot α)
  /-- The vacant slots to be used again, last freed first. -/
  free : List Nat
  free_nodup : free.Nodup
  free_vacant : ∀ i ∈ free, ∃ version, slots[i]? = some ⟨version, none⟩
deriving DecidableEq

namespace SlotTable

variable {α : Type}

def empty : SlotTable α := ⟨[], [], List.nodup_nil, fun _ h ↦ nomatch h⟩

instance : Inhabited (SlotTable α) := ⟨empty⟩

def get? (t : SlotTable α) (k : SlotKey) : Option α :=
  match t.slots[k.index]? with
  | some s => if s.version = k.version then s.value else none
  | none => none

def listFrom (i : Nat) : List (TableSlot α) → List (SlotKey × α)
  | [] => []
  | ⟨version, some x⟩ :: rest => (⟨i, version⟩, x) :: listFrom (i + 1) rest
  | ⟨_, none⟩ :: rest => listFrom (i + 1) rest

def toList (t : SlotTable α) : List (SlotKey × α) := listFrom 0 t.slots

def keys (t : SlotTable α) : List SlotKey := t.toList.map Prod.fst

def values (t : SlotTable α) : List α := t.toList.map Prod.snd

def size (t : SlotTable α) : Nat := t.toList.length

def findKey? (t : SlotTable α) (p : α → Bool) : Option SlotKey :=
  (t.toList.find? fun r ↦ p r.2).map Prod.fst

theorem free_vacant_set {slots : List (TableSlot α)} {free : List Nat} {i : Nat}
    {s : TableSlot α} (h : ∀ j ∈ free, ∃ version, slots[j]? = some ⟨version, none⟩)
    (hi : i ∉ free) : ∀ j ∈ free, ∃ version, (slots.set i s)[j]? = some ⟨version, none⟩ := by
  intro j hj
  have hne : i ≠ j := fun hij ↦ hi (hij ▸ hj)
  rw [List.getElem?_set_ne hne]
  exact h j hj

/-- Stores a value in the slot freed last, or in a new one behind all others. -/
def insert (t : SlotTable α) (x : α) : SlotKey × SlotTable α :=
  match hf : t.free with
  | [] =>
    (⟨t.slots.length, 0⟩,
      { slots := t.slots ++ [⟨0, some x⟩]
        free := []
        free_nodup := List.nodup_nil
        free_vacant := fun _ h ↦ nomatch h })
  | i :: rest =>
    let version := match t.slots[i]? with
      | some s => s.version
      | none => 0
    (⟨i, version⟩,
      { slots := t.slots.set i ⟨version, some x⟩
        free := rest
        free_nodup := (List.nodup_cons.1 (hf ▸ t.free_nodup)).2
        free_vacant := free_vacant_set
          (fun j hj ↦ t.free_vacant j (hf ▸ List.mem_cons_of_mem _ hj))
          (List.nodup_cons.1 (hf ▸ t.free_nodup)).1 })

def remove (t : SlotTable α) (k : SlotKey) : SlotTable α :=
  match hs : t.slots[k.index]? with
  | some ⟨version, some x⟩ =>
    if version = k.version then
      have hfree : k.index ∉ t.free := fun h ↦ by
        obtain ⟨v, hv⟩ := t.free_vacant k.index h
        rw [hs] at hv
        cases hv
      { slots := t.slots.set k.index ⟨version + 1, none⟩
        free := k.index :: t.free
        free_nodup := List.nodup_cons.2 ⟨hfree, t.free_nodup⟩
        free_vacant := fun j hj ↦ by
          by_cases hji : j = k.index
          · subst hji
            obtain ⟨hlt, _⟩ := List.getElem?_eq_some_iff.1 hs
            exact ⟨version + 1, List.getElem?_set_self hlt⟩
          · refine free_vacant_set t.free_vacant hfree j ?_
            exact (List.mem_cons.1 hj).resolve_left hji }
    else t
  | _ => t

def modifySlots (k : SlotKey) (f : α → α) (slots : List (TableSlot α)) : List (TableSlot α) :=
  slots.modify k.index fun s ↦
    if s.version = k.version then { s with value := s.value.map f } else s

def modify (t : SlotTable α) (k : SlotKey) (f : α → α) : SlotTable α where
  slots := modifySlots k f t.slots
  free := t.free
  free_nodup := t.free_nodup
  free_vacant := fun j hj ↦ by
    obtain ⟨v, hv⟩ := t.free_vacant j hj
    refine ⟨v, ?_⟩
    rw [modifySlots, List.getElem?_modify, hv]
    by_cases hj : k.index = j <;> by_cases hk : v = k.version <;> simp [hj, hk]

theorem get?_modify (t : SlotTable α) (k j : SlotKey) (f : α → α) :
    (t.modify k f).get? j = if j = k then (t.get? j).map f else t.get? j := by
  obtain ⟨ki, kv⟩ := k
  obtain ⟨ji, jv⟩ := j
  simp only [modify, modifySlots, get?, List.getElem?_modify, SlotKey.mk.injEq]
  cases hs : t.slots[ji]? with
  | none => simp
  | some s =>
    by_cases hi : ki = ji
    · subst hi
      by_cases hv : s.version = kv
      · subst hv
        by_cases hj : s.version = jv
        · simp [hj]
        · simp [hj]
      · by_cases hj : s.version = jv
        · subst hj
          simp [hv]
        · simp [hv, hj]
    · have hne : ¬ ji = ki := fun h ↦ hi h.symm
      simp [hi, hne]

theorem get?_remove (t : SlotTable α) (k j : SlotKey) :
    (t.remove k).get? j = if j = k then none else t.get? j := by
  obtain ⟨ki, kv⟩ := k
  obtain ⟨ji, jv⟩ := j
  simp only [SlotKey.mk.injEq]
  unfold remove
  split
  case h_1 version x hs =>
    by_cases hver : version = kv
    · subst hver
      obtain ⟨hlt, _⟩ := List.getElem?_eq_some_iff.1 hs
      simp only at hs hlt
      by_cases hi : ki = ji
      · subst hi
        simp only [get?, if_true, List.getElem?_set_self hlt, hs, true_and]
        by_cases hj : jv = version
        · simp [hj]
        · have : ¬ version = jv := fun h ↦ hj h.symm
          simp [hj, this]
      · have hne : ¬ ji = ki := fun h ↦ hi h.symm
        simp [get?, List.getElem?_set_ne hi, hne]
    · simp only [hver, if_false]
      by_cases h : ji = ki ∧ jv = kv
      · obtain ⟨rfl, rfl⟩ := h
        simp only at hs
        simp [get?, hs, hver]
      · simp [h]
  case h_2 hs =>
    by_cases h : ji = ki ∧ jv = kv
    · obtain ⟨rfl, rfl⟩ := h
      simp only [get?, and_self, if_true]
      cases hg : t.slots[ji]? with
      | none => rfl
      | some s =>
        obtain ⟨v, x⟩ := s
        cases x with
        | none => simp
        | some x => exact absurd hg (hs v x)
    · simp [h]

theorem get?_insert (t : SlotTable α) (x : α) (j : SlotKey) :
    (t.insert x).2.get? j = if j = (t.insert x).1 then some x else t.get? j := by
  obtain ⟨ji, jv⟩ := j
  unfold insert
  split
  case h_1 hf =>
    simp only [get?, SlotKey.mk.injEq]
    by_cases hlt : ji < t.slots.length
    · have hne : ¬ ji = t.slots.length := by omega
      simp [List.getElem?_append_left hlt, hne]
    · by_cases hi : ji = t.slots.length
      · subst hi
        by_cases hv : jv = 0
        · simp [hv]
        · have : ¬ 0 = jv := fun h ↦ hv h.symm
          simp [hv, this]
      · have h1 : t.slots[ji]? = none := List.getElem?_eq_none (by omega)
        have h2 : (t.slots ++ [⟨0, some x⟩])[ji]? = none := by
          refine List.getElem?_eq_none ?_
          rw [List.length_append, List.length_singleton]
          omega
        rw [h1, h2]
        simp [hi]
  case h_2 i rest hf =>
    obtain ⟨v, hv⟩ := t.free_vacant i (by rw [hf]; exact List.mem_cons_self ..)
    obtain ⟨hlt, _⟩ := List.getElem?_eq_some_iff.1 hv
    simp only [hv, get?, SlotKey.mk.injEq]
    by_cases hi : i = ji
    · subst hi
      rw [List.getElem?_set_self hlt, hv]
      by_cases hj : jv = v
      · simp [hj]
      · have : ¬ v = jv := fun h ↦ hj h.symm
        simp [hj, this]
    · have hne : ¬ ji = i := fun h ↦ hi h.symm
      simp [List.getElem?_set_ne hi, hne]

end SlotTable

end ToolDock
