import Mathlib.Data.List.Basic
import ToolDock.Stack.Active

/-!
What the two histories of activations say of the past. The persistent one holds the keys that were
pushed and not removed for good since, the latest push first, and the transient one those of them
that were not removed or cleared since either, in the same order. Main statements:
`remains_concat_iff`, `Recounts.step` and `recounts_after`.
-/

namespace ToolDock.ActiveStack

/-- What may be done to the histories. -/
inductive Call (κ : Type) where
  | push (key : κ)
  | remove (key : κ) (hard : Bool)
  | clear

variable {κ : Type}

/-- The key was pushed, and no call since its last push undid this. -/
def Remains (undoes : Call κ → Prop) (calls : List (Call κ)) (key : κ) : Prop :=
  ∃ earlier later, calls = earlier ++ .push key :: later ∧
    ∀ call ∈ later, call ≠ .push key ∧ ¬ undoes call

/-- After the last push of the other key, which there was, the key was pushed. -/
def PushedAfter (calls : List (Call κ)) (key other : κ) : Prop :=
  ∃ earlier later, calls = earlier ++ .push key :: later ∧
    .push other ∈ earlier ∧ .push other ∉ later

variable {undoes : Call κ → Prop} {calls : List (Call κ)} {call : Call κ} {key other : κ}

theorem not_remains_nil : ¬ Remains undoes [] key := by
  rintro ⟨earlier, later, h, -⟩
  simp at h

theorem remains_concat_iff :
    Remains undoes (calls ++ [call]) key ↔
      call = .push key ∨ call ≠ .push key ∧ ¬ undoes call ∧ Remains undoes calls key := by
  constructor
  · -- nothing comes after the push, or the last call does
    rintro ⟨earlier, later, heq, hlater⟩
    rcases List.eq_nil_or_concat' later with rfl | ⟨later, last, rfl⟩
    · obtain ⟨-, hlast⟩ := List.append_inj' heq rfl
      exact .inl (List.singleton_inj.1 hlast)
    · rw [← List.cons_append, ← List.append_assoc] at heq
      obtain ⟨rfl, hlast⟩ := List.append_inj' heq rfl
      obtain rfl := List.singleton_inj.1 hlast
      obtain ⟨hne, hundo⟩ := hlater call (by simp)
      exact .inr ⟨hne, hundo, earlier, later, rfl, fun c hc ↦ hlater c (by simp [hc])⟩
  · rintro (rfl | ⟨hne, hundo, earlier, later, rfl, hlater⟩)
    · exact ⟨calls, [], rfl, by simp⟩
    · refine ⟨earlier, later ++ [call], by simp, fun c hc ↦ ?_⟩
      rcases List.mem_append.1 hc with hc | hc
      · exact hlater c hc
      · obtain rfl := List.mem_singleton.1 hc
        exact ⟨hne, hundo⟩

theorem remains_concat_push_iff (hundoes : ¬ undoes (.push key)) :
    Remains undoes (calls ++ [.push key]) other ↔ other = key ∨ Remains undoes calls other := by
  rw [remains_concat_iff]
  by_cases hkey : other = key
  · simp [hkey]
  · simp [hkey, Ne.symm hkey, hundoes]

theorem Remains.mem (h : Remains undoes calls key) : .push key ∈ calls := by
  obtain ⟨earlier, later, rfl, -⟩ := h
  simp

theorem pushedAfter_concat_push (h : .push other ∈ calls) :
    PushedAfter (calls ++ [.push key]) key other :=
  ⟨calls, [], rfl, h, List.not_mem_nil⟩

theorem PushedAfter.concat (h : PushedAfter calls key other) (hne : call ≠ .push other) :
    PushedAfter (calls ++ [call]) key other := by
  obtain ⟨earlier, later, rfl, hearlier, hlater⟩ := h
  refine ⟨earlier, later ++ [call], by simp, hearlier, fun hm ↦ ?_⟩
  rcases List.mem_append.1 hm with hm | hm
  · exact hlater hm
  · exact hne (List.mem_singleton.1 hm).symm

/-- What the histories say of the calls so far. -/
structure Recounts (calls : List (Call κ)) (s : ActiveStack κ) : Prop where
  nodup_persistent : s.persistent.Nodup
  nodup_transient : s.transient.Nodup
  sublist : s.transient.Sublist s.persistent
  persistent_iff : ∀ key, key ∈ s.persistent ↔ Remains (· = .remove key true) calls key
  latest_first : s.persistent.Pairwise (PushedAfter calls)
  transient_iff : ∀ key, key ∈ s.transient ↔
    Remains (fun call ↦ call = .clear ∨ ∃ hard, call = .remove key hard) calls key

theorem Recounts.empty : Recounts [] (empty : ActiveStack κ) where
  nodup_persistent := .nil
  nodup_transient := .nil
  sublist := .slnil
  persistent_iff _ := iff_of_false List.not_mem_nil not_remains_nil
  latest_first := .nil
  transient_iff _ := iff_of_false List.not_mem_nil not_remains_nil

variable {s : ActiveStack κ}

theorem Recounts.latest_first_concat (h : Recounts calls s) (hcall : ∀ key, call ≠ .push key)
    {keys : List κ} (hkeys : keys.Sublist s.persistent) :
    keys.Pairwise (PushedAfter (calls ++ [call])) :=
  (h.latest_first.sublist hkeys).imp fun hafter ↦ hafter.concat (hcall _)

theorem Recounts.clear (h : Recounts calls s) : Recounts (calls ++ [.clear]) s.clear where
  nodup_persistent := h.nodup_persistent
  nodup_transient := .nil
  sublist := List.nil_sublist _
  persistent_iff key := by
    rw [remains_concat_iff]
    simpa [ActiveStack.clear] using h.persistent_iff key
  latest_first := h.latest_first_concat (by simp) (.refl _)
  transient_iff key := by
    rw [remains_concat_iff]
    simp [ActiveStack.clear]

variable [DecidableEq κ]

/-- What a call leaves of the histories. -/
def Call.run (s : ActiveStack κ) : Call κ → ActiveStack κ
  | push key => s.push key
  | remove key hard => s.remove key hard
  | clear => s.clear

/-- The histories after calls, one after another. -/
def after (s : ActiveStack κ) (calls : List (Call κ)) : ActiveStack κ := calls.foldl Call.run s

theorem Recounts.push (h : Recounts calls s) (key : κ) :
    Recounts (calls ++ [.push key]) (s.push key) where
  nodup_persistent := nodup_cons_without h.nodup_persistent
  nodup_transient := nodup_cons_without h.nodup_transient
  sublist := (h.sublist.filter _).cons_cons key
  persistent_iff other := by
    rw [mem_persistent_push, h.persistent_iff, remains_concat_push_iff (by simp)]
  latest_first := by
    refine List.pairwise_cons.2 ⟨fun other hm ↦ ?_, ?_⟩
    · exact pushedAfter_concat_push ((h.persistent_iff other).1 (mem_without.1 hm).1).mem
    · -- the keys behind the pushed one are not pushed again
      refine (h.latest_first.filter _).imp_of_mem fun _ hm hafter ↦ hafter.concat ?_
      simpa using (mem_without.1 hm).2.symm
  transient_iff other := by
    rw [mem_transient_push, h.transient_iff, remains_concat_push_iff (by simp)]

theorem Recounts.remove (h : Recounts calls s) (key : κ) (hard : Bool) :
    Recounts (calls ++ [.remove key hard]) (s.remove key hard) := by
  have hpersistent : (s.remove key hard).persistent.Sublist s.persistent := by
    cases hard
    · exact .refl _
    · exact List.filter_sublist
  have hsublist : (s.remove key hard).transient.Sublist (s.remove key hard).persistent := by
    cases hard
    · exact List.filter_sublist.trans h.sublist
    · exact h.sublist.filter _
  refine ⟨h.nodup_persistent.sublist hpersistent, nodup_without h.nodup_transient, hsublist,
    fun other ↦ ?_, h.latest_first_concat (by simp) hpersistent, fun other ↦ ?_⟩
  · rw [mem_persistent_remove, h.persistent_iff, remains_concat_iff]
    cases hard <;> simp [and_comm, eq_comm]
  · rw [mem_transient_remove, h.transient_iff, remains_concat_iff]
    simp [and_comm, eq_comm]

theorem Recounts.step (h : Recounts calls s) (call : Call κ) :
    Recounts (calls ++ [call]) (call.run s) := by
  cases call with
  | push key => exact h.push key
  | remove key hard => exact h.remove key hard
  | clear => exact h.clear

theorem Recounts.steps (h : Recounts calls s) (next : List (Call κ)) :
    Recounts (calls ++ next) (s.after next) := by
  induction next generalizing calls s with
  | nil => rwa [List.append_nil]
  | cons call next ih =>
    rw [List.append_cons]
    exact ih (h.step call)

/-- After any calls neither history holds a key twice, and what is in the transient history is in
the persistent one in the same order. The persistent history holds just the keys that were pushed
and not removed for good since their last push, the one that was pushed last in front; the transient
one holds just the keys that were neither removed in any way since their last push nor cleared. -/
theorem recounts_after (calls : List (Call κ)) : Recounts calls (empty.after calls) :=
  Recounts.empty.steps calls

/-- A window that was hidden is gone from the transient history only. -/
example : empty.after [.push 1, .push 2, .push 3, .push 1, .remove 3 false] =
    ⟨[1, 2], [1, 3, 2]⟩ := by decide

end ToolDock.ActiveStack
