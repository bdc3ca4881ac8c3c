/-!
Objects under handles that are given out in ascending order and never twice. Main statements:
`get?_alloc`, `get?_free` and `get?_modify` say what the operations do to a look-up.
-/

namespace ToolDock

abbrev Handle := Nat

structure HandleTable (α : Type) where
  rows : List (Handle × α)
  /-- The next handle to be given out. -/
  next : Handle
  nodup : (rows.map Prod.fst).Nodup
  fresh : ∀ r ∈ rows, r.1 < next
deriving DecidableEq

namespace HandleTable

variable {α : Type}

/-- No objects yet; the first handle is 1. -/
def empty : HandleTable α := ⟨[], 1, List.nodup_nil, fun _ h ↦ nomatch h⟩

instance : Inhabited (HandleTable α) := ⟨empty⟩

def get? (t : HandleTable α) (h : Handle) : Option α := t.rows.lookup h

def values (t : HandleTable α) : List α := t.rows.map Prod.snd

def alloc (t : HandleTable α) (x : α) : Handle × HandleTable α :=
  (t.next,
    { rows := t.rows ++ [(t.next, x)]
      next := t.next + 1
      nodup := by
        rw [List.map_append, List.nodup_append]
        refine ⟨t.nodup, by simp, fun a ha b hb hab ↦ ?_⟩
        obtain ⟨r, hr, rfl⟩ := List.mem_map.1 ha
        simp only [List.map_cons, List.map_nil, List.mem_singleton] at hb
        exact Nat.ne_of_lt (t.fresh r hr) (hab.trans hb)
      fresh := fun r hr ↦ by
        rcases List.mem_append.1 hr with h | h
        · exact Nat.lt_succ_of_lt (t.fresh r h)
        · simp only [List.mem_singleton] at h
          subst h
          exact Nat.lt_succ_self _ })

def free (t : HandleTable α) (h : Handle) : HandleTable α where
  rows := t.rows.filter (·.1 != h)
  next := t.next
  nodup := t.nodup.sublist (List.Sublist.map _ List.filter_sublist)
  fresh := fun r hr ↦ t.fresh r (List.mem_filter.1 hr).1

def modify (t : HandleTable α) (h : Handle) (f : α → α) : HandleTable α where
  rows := t.rows.map fun r ↦ if r.1 = h then (r.1, f r.2) else r
  next := t.next
  nodup := by
    rw [List.map_map]
    have : (Prod.fst ∘ fun r : Handle × α ↦ if r.1 = h then (r.1, f r.2) else r) = Prod.fst := by
      funext r
      simp only [Function.comp]
      split <;> rfl
    rw [this]
    exact t.nodup
  fresh := fun r hr ↦ by
    obtain ⟨s, hs, rfl⟩ := List.mem_map.1 hr
    split
    · exact t.fresh s hs
    · exact t.fresh s hs

theorem get?_eq_some_iff {t : HandleTable α} {k : Handle} {x : α} :
    t.get? k = some x ↔ (k, x) ∈ t.rows := by
  have hrows : ∀ rows : List (Handle × α), (rows.map Prod.fst).Nodup →
      (rows.lookup k = some x ↔ (k, x) ∈ rows) := by
    intro rows
    induction rows with
    | nil => simp
    | cons r rows ih =>
      obtain ⟨b, y⟩ := r
      intro hnodup
      obtain ⟨hb, hrest⟩ := List.nodup_cons.1 hnodup
      rw [List.lookup_cons, List.mem_cons, Prod.mk.injEq]
      by_cases hk : k = b
      · subst hk
        have hnot : (k, x) ∉ rows := fun hm ↦ hb (List.mem_map.2 ⟨(k, x), hm, rfl⟩)
        simp [hnot, eq_comm]
      · have hne : (k == b) = false := beq_eq_false_iff_ne.2 hk
        rw [hne, ih hrest]
        simp [hk]
  exact hrows t.rows t.nodup

theorem get?_eq_none_of_le (t : HandleTable α) {k : Handle} (h : t.next ≤ k) : t.get? k = none :=
  Option.eq_none_iff_forall_ne_some.2 fun x hx ↦
    Nat.not_le_of_lt (t.fresh (k, x) (get?_eq_some_iff.1 hx)) h

theorem get?_alloc (t : HandleTable α) (x : α) (k : Handle) :
    (t.alloc x).2.get? k = if k = t.next then some x else t.get? k := by
  refine Option.ext fun y ↦ ?_
  rw [get?_eq_some_iff, alloc, List.mem_append, ← get?_eq_some_iff, List.mem_singleton,
    Prod.mk.injEq]
  split
  case isTrue hk =>
    rw [hk, t.get?_eq_none_of_le (Nat.le_refl _)]
    simp [eq_comm]
  case isFalse hk => simp [hk]

theorem get?_free (t : HandleTable α) (h k : Handle) :
    (t.free h).get? k = if k = h then none else t.get? k := by
  refine Option.ext fun y ↦ ?_
  rw [get?_eq_some_iff, free, List.mem_filter, ← get?_eq_some_iff, bne_iff_ne]
  split
  case isTrue hk => simp [hk]
  case isFalse hk => simp [hk]

theorem get?_modify (t : HandleTable α) (h k : Handle) (f : α → α) :
    (t.modify h f).get? k = if k = h then (t.get? k).map f else t.get? k := by
  have hrow : ∀ y, (k, y) ∈ (t.modify h f).rows ↔
      ∃ x, (k, x) ∈ t.rows ∧ (if k = h then f x else x) = y := by
    intro y
    rw [modify, List.mem_map]
    constructor
    · intro hq
      obtain ⟨⟨b, x⟩, hr, heq⟩ := hq
      dsimp only at heq
      split at heq
      case isTrue hb =>
        cases heq
        exact ⟨x, hr, if_pos hb⟩
      case isFalse hb =>
        cases heq
        exact ⟨y, hr, if_neg hb⟩
    · intro hq
      obtain ⟨x, hx, rfl⟩ := hq
      exact ⟨(k, x), hx, by split <;> rfl⟩
  refine Option.ext fun y ↦ ?_
  rw [get?_eq_some_iff, hrow]
  simp only [← get?_eq_some_iff]
  split
  case isTrue => rw [Option.map_eq_some_iff]
  case isFalse => simp

end HandleTable

end ToolDock
