/-!
Debounced values: scheduling under a key supersedes what is still pending under it, and a value is
delivered once its delay has passed. Time is virtual, in milliseconds. Main statements:
`mem_pending_schedule` and `mem_pending_advance` say what stays pending, `mem_due_advance` what is
delivered.
-/

namespace ToolDock

structure Pending (κ α : Type) where
  key : κ
  due : Nat
  value : α
deriving DecidableEq, Repr

structure Debouncer (κ α : Type) where
  now : Nat
  /-- What is still to be delivered, oldest request first. -/
  pending : List (Pending κ α)
deriving DecidableEq, Repr

namespace Debouncer

variable {κ α : Type}

def empty : Debouncer κ α := ⟨0, []⟩

instance : Inhabited (Debouncer κ α) := ⟨empty⟩

def isDueBy (time : Nat) (p : Pending κ α) : Bool := p.due ≤ time

/-- Lets time pass and gives what came due, the end of the interval included: by due time, and
what is due at once in the order of the requests. -/
def advance (d : Debouncer κ α) (elapsed : Nat) : List (Pending κ α) × Debouncer κ α :=
  let time := d.now + elapsed
  ((d.pending.filter (isDueBy time)).mergeSort (fun p q ↦ p.due ≤ q.due),
    ⟨time, d.pending.filter (!isDueBy time ·)⟩)

variable {d : Debouncer κ α} {p : Pending κ α} {elapsed : Nat}

theorem mem_due_advance :
    p ∈ (d.advance elapsed).1 ↔ p ∈ d.pending ∧ p.due ≤ d.now + elapsed := by
  simp [advance, isDueBy, List.mem_mergeSort]

theorem mem_pending_advance :
    p ∈ (d.advance elapsed).2.pending ↔ p ∈ d.pending ∧ d.now + elapsed < p.due := by
  simp [advance, isDueBy]

variable [DecidableEq κ] {key : κ} {delay : Nat} {value : α}

def cancel (d : Debouncer κ α) (key : κ) : Debouncer κ α :=
  { d with pending := d.pending.filter (·.key != key) }

def schedule (d : Debouncer κ α) (key : κ) (delay : Nat) (value : α) : Debouncer κ α :=
  { d with pending := (d.cancel key).pending ++ [⟨key, d.now + delay, value⟩] }

def isPending (d : Debouncer κ α) (key : κ) : Bool := d.pending.any (·.key == key)

theorem mem_pending_cancel : p ∈ (d.cancel key).pending ↔ p ∈ d.pending ∧ p.key ≠ key := by
  simp [cancel]

theorem mem_pending_schedule :
    p ∈ (d.schedule key delay value).pending ↔
      (p ∈ d.pending ∧ p.key ≠ key) ∨ p = ⟨key, d.now + delay, value⟩ := by
  rw [schedule, List.mem_append, mem_pending_cancel, List.mem_singleton]

end Debouncer

end ToolDock
