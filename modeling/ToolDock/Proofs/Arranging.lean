import Mathlib.Data.List.Basic
import ToolDock.Proofs.Replacement

/-!
The order of the screens. A host may list its screens in any order: as long as no two of them have
one center, sorting by the centers leaves one sequence, and with it one screen that starts at the
origin and goes to the front. What is asked of the screens later is asked of this sequence, also
which of several nearest screens is taken. Main statements: `exists_orderByPosition`,
`orderByPosition_of_perm` and `ofList_of_perm`.
-/

namespace ToolDock

namespace Checked

variable {α β : Type} {g : α → Checked β} {l : List α} {tagged : List (β × α)}

theorem mapM_tagged (h : l.mapM (fun a ↦ return (← g a, a)) = .ok tagged) :
    tagged.map (·.2) = l ∧ ∀ t ∈ tagged, g t.2 = .ok t.1 := by
  induction l generalizing tagged with
  | nil =>
    cases h
    exact ⟨rfl, by simp⟩
  | cons a l ih =>
    simp only [List.mapM_cons, bind_eq_ok_iff, pure, Except.pure, Except.ok.injEq] at h
    obtain ⟨_, ⟨b, hb, rfl⟩, rest, hrest, rfl⟩ := h
    obtain ⟨hmap, htags⟩ := ih hrest
    exact ⟨congrArg (a :: ·) hmap, List.forall_mem_cons.2 ⟨hb, htags⟩⟩

theorem exists_mapM_tagged (h : ∀ a ∈ l, ∃ b, g a = .ok b) :
    ∃ tagged, l.mapM (fun a ↦ return (← g a, a)) = .ok tagged := by
  induction l with
  | nil => exact ⟨[], rfl⟩
  | cons a l ih =>
    obtain ⟨b, hb⟩ := h a (List.mem_cons_self ..)
    obtain ⟨rest, hrest⟩ := ih fun a' ha' ↦ h a' (List.mem_cons_of_mem _ ha')
    refine ⟨(b, a) :: rest, ?_⟩
    rw [List.mapM_cons, hb, hrest]
    rfl

end Checked

def Screen.Before (s t : Screen) : Prop :=
  ∃ c d, s.frame.center = .ok c ∧ t.frame.center = .ok d ∧ (c.x < d.x ∨ c.x = d.x ∧ c.y < d.y)

theorem Screen.Before.asymm {s t : Screen} (h : s.Before t) (h' : t.Before s) : False := by
  obtain ⟨c, d, hc, hd, hlt⟩ := h
  obtain ⟨d', c', hd', hc', hlt'⟩ := h'
  cases hc.symm.trans hc'
  cases hd.symm.trans hd'
  simp only [Int32.lt_iff_toInt_lt, ← Int32.toInt_inj] at hlt hlt'
  omega

namespace ScreenSet

open Checked

variable {screens sorted others : List Screen}

theorem precedes_iff {p q : Point × Screen} :
    precedes p q ↔ p.1.x < q.1.x ∨ p.1.x = q.1.x ∧ p.1.y ≤ q.1.y := by
  simp [precedes]

theorem precedes_trans (p q r : Point × Screen) (h : precedes p q) (h' : precedes q r) :
    precedes p r := by
  simp only [precedes_iff, Int32.lt_iff_toInt_lt, Int32.le_iff_toInt_le, ← Int32.toInt_inj]
    at h h' ⊢
  omega

theorem precedes_total (p q : Point × Screen) : precedes p q || precedes q p := by
  simp only [Bool.or_eq_true, precedes_iff, Int32.lt_iff_toInt_lt, Int32.le_iff_toInt_le,
    ← Int32.toInt_inj]
  omega

theorem before_of_precedes {p q : Point × Screen} (hp : p.2.frame.center = .ok p.1)
    (hq : q.2.frame.center = .ok q.1) (hne : p.2.frame.center ≠ q.2.frame.center)
    (h : precedes p q) : p.2.Before q.2 := by
  refine ⟨p.1, q.1, hp, hq, ?_⟩
  rcases precedes_iff.1 h with hx | hxy
  · exact .inl hx
  · refine .inr ⟨hxy.1, Int32.lt_of_le_of_ne hxy.2 fun hy ↦ hne ?_⟩
    have hpoint : p.1 = q.1 := congrArg₂ Point.mk hxy.1 hy
    rw [hp, hq, hpoint]

theorem exists_placed (hcenters : ∀ s ∈ screens, ∃ c, s.frame.center = .ok c) :
    ∃ placed : List (Point × Screen), placed.map (·.2) = screens ∧
      (∀ p ∈ placed, p.2.frame.center = .ok p.1) ∧
      orderByPosition screens = .ok ((placed.mergeSort precedes).map (·.2)) := by
  obtain ⟨placed, hplaced⟩ := exists_mapM_tagged hcenters
  obtain ⟨hmap, hcentered⟩ := mapM_tagged hplaced
  refine ⟨placed, hmap, hcentered, ?_⟩
  match screens with
  | [] =>
    rw [List.map_eq_nil_iff.1 hmap, List.mergeSort_nil]
    rfl
  | [s] =>
    obtain ⟨p, rfl, rfl⟩ := List.map_eq_singleton_iff.1 hmap
    rw [List.mergeSort_singleton]
    rfl
  | s :: t :: rest =>
    have hsort : orderByPosition (s :: t :: rest) =
        ((s :: t :: rest).mapM fun s ↦ return (← s.frame.center, s)) >>= fun placed ↦
          pure ((placed.mergeSort precedes).map (·.2)) := rfl
    rw [hsort, hplaced]
    rfl

theorem exists_orderByPosition (hcenters : ∀ s ∈ screens, ∃ c, s.frame.center = .ok c)
    (hdistinct : screens.Pairwise fun s t ↦ s.frame.center ≠ t.frame.center) :
    ∃ sorted, orderByPosition screens = .ok sorted ∧ sorted.Perm screens ∧
      sorted.Pairwise Screen.Before := by
  obtain ⟨placed, rfl, hcentered, hsort⟩ := exists_placed hcenters
  have hperm := List.mergeSort_perm placed precedes
  refine ⟨_, hsort, hperm.map _, ?_⟩
  rw [List.pairwise_map] at hdistinct
  have hapart : (placed.mergeSort precedes).Pairwise
      fun p q ↦ p.2.frame.center ≠ q.2.frame.center :=
    (hperm.pairwise_iff fun h ↦ h.symm).2 hdistinct
  have hsorted := List.pairwise_mergeSort precedes_trans precedes_total placed
  rw [List.pairwise_map]
  refine (hsorted.and hapart).imp_of_mem fun hp hq h ↦ ?_
  exact before_of_precedes (hcentered _ (hperm.mem_iff.1 hp)) (hcentered _ (hperm.mem_iff.1 hq))
    h.2 h.1

theorem orderByPosition_of_perm (hcenters : ∀ s ∈ screens, ∃ c, s.frame.center = .ok c)
    (hdistinct : screens.Pairwise fun s t ↦ s.frame.center ≠ t.frame.center)
    (hperm : others.Perm screens) : orderByPosition others = orderByPosition screens := by
  obtain ⟨sorted, hsorted, hp, hbefore⟩ := exists_orderByPosition hcenters hdistinct
  obtain ⟨sorted', hsorted', hp', hbefore'⟩ := exists_orderByPosition
    (fun s hs ↦ hcenters s (hperm.mem_iff.1 hs)) ((hperm.pairwise_iff fun h ↦ h.symm).2 hdistinct)
  have hsame : sorted' = sorted := List.Perm.eq_of_pairwise
    (fun _ _ _ _ h h' ↦ (h.asymm h').elim) hbefore' hbefore (hp'.trans (hperm.trans hp.symm))
  rw [hsorted, hsorted', hsame]

/-- The screens by their positions, but in front the first of them that starts at the origin, if
there is one. -/
inductive Arranges (screens : List Screen) : List Screen → Prop
  | plain {sorted : List Screen} (hperm : sorted.Perm screens)
    (hsorted : sorted.Pairwise Screen.Before) (hnone : ∀ s ∈ sorted, s.frame.origin ≠ ⟨0, 0⟩) :
    Arranges screens sorted
  | main {before after : List Screen} {main : Screen}
    (hperm : (before ++ main :: after).Perm screens)
    (hsorted : (before ++ main :: after).Pairwise Screen.Before)
    (hmain : main.frame.origin = ⟨0, 0⟩) (hfirst : ∀ s ∈ before, s.frame.origin ≠ ⟨0, 0⟩) :
    Arranges screens (main :: (before ++ after))

theorem arranges_mainFirst (hperm : sorted.Perm screens)
    (hsorted : sorted.Pairwise Screen.Before) : Arranges screens (mainFirst sorted) := by
  unfold mainFirst
  cases hfind : sorted.find? startsAtOrigin with
  | none =>
    simp only [List.find?_eq_none, startsAtOrigin, beq_iff_eq] at hfind
    exact .plain hperm hsorted hfind
  | some main =>
    obtain ⟨hmain, before, after, rfl, hbefore⟩ := List.find?_eq_some_iff_append.1 hfind
    have hnot : ∀ s ∈ before, ¬ startsAtOrigin s := fun s hs ↦ by simpa using hbefore s hs
    have herase : (before ++ main :: after).eraseP startsAtOrigin = before ++ after := by
      rw [List.eraseP_append_right _ hnot, List.eraseP_cons_of_pos hmain]
    rw [herase]
    simp only [startsAtOrigin, beq_iff_eq] at hmain hnot
    exact .main hperm hsorted hmain hnot

theorem mem_of_mem_mainFirst {s : Screen} (h : s ∈ mainFirst sorted) : s ∈ sorted := by
  unfold mainFirst at h
  split at h
  case h_1 main hfind =>
    rcases List.mem_cons.1 h with rfl | h
    · exact List.mem_of_find?_eq_some hfind
    · exact List.mem_of_mem_eraseP h
  case h_2 => exact h

theorem nearestOf_eq_none {l : List (Int × Screen)} (h : nearestOf l = none) : l = [] := by
  cases l with
  | nil => rfl
  | cons a rest =>
    rw [nearestOf] at h
    split at h
    · split at h <;> cases h
    · cases h

theorem nearestOf_eq_some {l : List (Int × Screen)} {a : Int × Screen} (h : nearestOf l = some a) :
    ∃ before after, l = before ++ a :: after ∧ (∀ b ∈ before, a.1 < b.1) ∧
      ∀ b ∈ after, a.1 ≤ b.1 := by
  induction l generalizing a with
  | nil => cases h
  | cons s rest ih =>
    rw [nearestOf] at h
    cases hrest : nearestOf rest with
    | none =>
      rw [hrest] at h
      cases h
      exact ⟨[], rest, rfl, by simp, by simp [nearestOf_eq_none hrest]⟩
    | some t =>
      obtain ⟨before, after, rfl, hbefore, hafter⟩ := ih hrest
      simp only [hrest] at h
      split at h
      case isTrue hlt =>
        cases h
        exact ⟨s :: before, after, rfl, List.forall_mem_cons.2 ⟨hlt, hbefore⟩, hafter⟩
      case isFalse hnot =>
        cases h
        have hle := Int.not_lt.1 hnot
        refine ⟨[], before ++ t :: after, rfl, by simp, fun b hb ↦ ?_⟩
        rcases List.mem_append.1 hb with hb | hb
        · exact Int.le_trans hle (Int.le_of_lt (hbefore b hb))
        · rcases List.mem_cons.1 hb with rfl | hb
          · exact hle
          · exact Int.le_trans hle (hafter b hb)

/-- `s` is at the least distance from a point, and the first of those that are. -/
def NearestFirst (screens : List Screen) (p : Point) (s : Screen) : Prop :=
  ∃ before after d, screens = before ++ s :: after ∧ s.frame.distanceSq p = .ok d ∧
    (∀ t ∈ before, ∃ d', t.frame.distanceSq p = .ok d' ∧ d < d') ∧
    ∀ t ∈ after, ∃ d', t.frame.distanceSq p = .ok d' ∧ d ≤ d'

theorem nearestFirst_of_nearest? {set : ScreenSet} {r : Rect} {s : Screen}
    (h : set.nearest? r = .ok (some s)) :
    ∃ c, r.center = .ok c ∧ NearestFirst set.screens c s := by
  rw [nearest?, bind_eq_ok_iff] at h
  obtain ⟨c, hc, h⟩ := h
  rw [bind_eq_ok_iff] at h
  obtain ⟨placed, hplaced, h⟩ := h
  obtain ⟨hmap, hdistances⟩ := mapM_tagged hplaced
  obtain ⟨t, ht, rfl⟩ := Option.map_eq_some_iff.1 (Except.ok.inj h)
  obtain ⟨before, after, rfl, hbefore, hafter⟩ := nearestOf_eq_some ht
  simp only [List.forall_mem_append, List.forall_mem_cons] at hdistances
  obtain ⟨hdistances, hdistance, hdistances'⟩ := hdistances
  rw [List.map_append, List.map_cons] at hmap
  refine ⟨c, hc, before.map (·.2), after.map (·.2), t.1, hmap.symm, hdistance, ?_, ?_⟩
  · intro s hs
    obtain ⟨b, hb, rfl⟩ := List.mem_map.1 hs
    exact ⟨b.1, hdistances b hb, hbefore b hb⟩
  · intro s hs
    obtain ⟨b, hb, rfl⟩ := List.mem_map.1 hs
    exact ⟨b.1, hdistances' b hb, hafter b hb⟩

/-- Screens with centers of their own are arranged by these, but the first of them that starts at
the origin, if there is one, goes to the front; and so they are however they were listed. All that
is asked of them is answered alike, also where several screens are nearest: the first of these is
taken, as they are arranged. -/
theorem ofList_of_perm (hcenters : ∀ s ∈ screens, ∃ c, s.frame.center = .ok c)
    (hdistinct : screens.Pairwise fun s t ↦ s.frame.center ≠ t.frame.center) :
    ∃ set, ofList screens = .ok set ∧ Arranges screens set.screens ∧
      (∀ r s, set.nearest? r = .ok (some s) →
        ∃ c, r.center = .ok c ∧ NearestFirst set.screens c s) ∧
      ∀ others, others.Perm screens → ∃ set', ofList others = .ok set' ∧
        set'.screens = set.screens ∧ set'.main? = set.main? ∧
        (∀ r, set'.nearest? r = set.nearest? r) ∧
        (∀ p, set'.isPointVisible p = set.isPointVisible p) ∧
        (∀ r, set'.isRectVisible r = set.isRectVisible r) ∧
        ∀ r, ExternalBounds.isValid r set' = ExternalBounds.isValid r set := by
  obtain ⟨sorted, hsorted, hperm, hbefore⟩ := exists_orderByPosition hcenters hdistinct
  have hset : ofList screens = .ok ⟨mainFirst sorted⟩ := by
    rw [ofList, hsorted]
    rfl
  refine ⟨_, hset, arranges_mainFirst hperm hbefore, fun r s ↦ nearestFirst_of_nearest?, ?_⟩
  intro others hothers
  have hsame : ofList others = .ok ⟨mainFirst sorted⟩ := by
    rw [← hset, ofList, orderByPosition_of_perm hcenters hdistinct hothers, ofList]
  exact ⟨_, hsame, rfl, rfl, fun _ ↦ rfl, fun _ ↦ rfl, fun _ ↦ rfl, fun _ ↦ rfl⟩

def rowOfScreens : List Screen :=
  [⟨2, ⟨-1920, 0, 1920, 1080⟩⟩, ⟨1, ⟨0, 0, 1920, 1080⟩⟩, ⟨3, ⟨1920, 0, 1280, 1024⟩⟩]

/-- Listed in either direction the screens are arranged alike, and of the two that are as far from a
window across their common edge the main one is taken. -/
theorem ofList_of_perm_rowOfScreens : ∃ set set', ofList rowOfScreens = .ok set ∧
    ofList rowOfScreens.reverse = .ok set' ∧ set.screens.map (·.id) = [1, 2, 3] ∧
    set'.screens = set.screens ∧
    set'.nearest? ⟨-100, 440, 200, 200⟩ = .ok (some ⟨1, ⟨0, 0, 1920, 1080⟩⟩) := by
  have hcenters : ∀ s ∈ rowOfScreens, ∃ c, s.frame.center = .ok c := by
    simp only [rowOfScreens, List.forall_mem_cons]
    exact ⟨⟨_, rfl⟩, ⟨_, rfl⟩, ⟨_, rfl⟩, by simp⟩
  obtain ⟨set, hset, -, -, halike⟩ := ofList_of_perm hcenters (by decide)
  obtain ⟨set', hset', hsame, -, hnearest, -⟩ := halike _ (List.reverse_perm _)
  have harranged : ofList rowOfScreens = .ok ⟨mainFirst rowOfScreens⟩ := by
    let placed := [(-960, 540), (960, 540), (2560, 512)].zipWith (fun p s ↦ (Point.mk p.1 p.2, s))
      rowOfScreens
    have hsorted : placed.Pairwise (precedes · ·) := by decide
    show Except.ok (ScreenSet.mk (mainFirst ((placed.mergeSort precedes).map (·.2)))) = _
    rw [List.mergeSort_of_pairwise hsorted]
    rfl
  cases hset.symm.trans harranged
  refine ⟨_, set', hset, hset', rfl, hsame, (hnearest _).trans ?_⟩
  decide +kernel

end ScreenSet

end ToolDock
