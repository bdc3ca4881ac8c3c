/-!
The most recently activated windows, front first. The persistent list survives plain hides, so
that focus can return to a window that is no longer visible. Main statements: `mem_transient_push`,
`mem_persistent_push` and their companions say what each operation does to the two lists.
-/

namespace ToolDock

structure ActiveStack (κ : Type) where
  transient : List κ
  persistent : List κ
deriving DecidableEq, Repr

namespace ActiveStack

variable {κ : Type} [DecidableEq κ]

def empty : ActiveStack κ := ⟨[], []⟩

instance : Inhabited (ActiveStack κ) := ⟨empty⟩

def without (key : κ) (keys : List κ) : List κ := keys.filter (· != key)

def push (s : ActiveStack κ) (key : κ) : ActiveStack κ :=
  ⟨key :: without key s.transient, key :: without key s.persistent⟩

/-- Drops the key from the transient list, and from the persistent one too if `hard` is set. -/
def remove (s : ActiveStack κ) (key : κ) (hard : Bool) : ActiveStack κ :=
  ⟨without key s.transient, if hard then without key s.persistent else s.persistent⟩

def clear (s : ActiveStack κ) : ActiveStack κ := { s with transient := [] }

variable {s : ActiveStack κ} {key other : κ} {keys : List κ} {hard : Bool}

theorem mem_without : other ∈ without key keys ↔ other ∈ keys ∧ other ≠ key := by
  simp [without]

theorem nodup_without (h : keys.Nodup) : (without key keys).Nodup :=
  h.sublist List.filter_sublist

theorem nodup_cons_without (h : keys.Nodup) : (key :: without key keys).Nodup :=
  List.nodup_cons.2 ⟨fun hm ↦ (mem_without.1 hm).2 rfl, nodup_without h⟩

theorem mem_transient_push :
    other ∈ (s.push key).transient ↔ other = key ∨ other ∈ s.transient := by
  by_cases h : other = key <;> simp [push, mem_without, h]

theorem mem_persistent_push :
    other ∈ (s.push key).persistent ↔ other = key ∨ other ∈ s.persistent := by
  by_cases h : other = key <;> simp [push, mem_without, h]

theorem mem_transient_remove :
    other ∈ (s.remove key hard).transient ↔ other ∈ s.transient ∧ other ≠ key := mem_without

theorem mem_persistent_remove :
    other ∈ (s.remove key hard).persistent ↔
      other ∈ s.persistent ∧ (hard = true → other ≠ key) := by
  cases hard <;> simp [remove, mem_without]

end ActiveStack

end ToolDock
