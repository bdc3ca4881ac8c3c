import Mathlib.Data.List.Forall2
import ToolDock.Layout.Move
import ToolDock.Proofs.Coherence

namespace ToolDock

section Rel

variable {α β γ : Type} {r : α → β → Prop} {o : Option α} {o' : Option β} {a : α} {b : β}

theorem exists_right_of_rel (h : Option.Rel r o o') (ha : o = some a) :
    ∃ b, o' = some b ∧ r a b := by
  subst ha
  cases h with
  | some h => exact ⟨_, rfl, h⟩

theorem exists_left_of_rel (h : Option.Rel r o o') (hb : o' = some b) :
    ∃ a, o = some a ∧ r a b := by
  subst hb
  cases h with
  | some h => exact ⟨_, rfl, h⟩

theorem rel_mono {q : α → β → Prop} (h : Option.Rel r o o')
    (hq : ∀ a b, o = some a → o' = some b → r a b → q a b) : Option.Rel q o o' := by
  cases h with
  | none => exact .none
  | some h => exact .some (hq _ _ rfl rfl h)

theorem rel_comp {r' : β → γ → Prop} {q : α → γ → Prop} {o'' : Option γ} (h : Option.Rel r o o')
    (h' : Option.Rel r' o' o'') (hq : ∀ a b c, o = some a → r a b → r' b c → q a c) :
    Option.Rel q o o'' := by
  cases h with
  | none =>
    cases h'
    exact .none
  | some h =>
    cases h' with
    | some h' => exact .some (hq _ _ _ rfl h h')

theorem rel_find? {p : α → Bool} {q : β → Bool} {as : List α} {bs : List β}
    (h : List.Forall₂ r as bs) (hpq : ∀ a b, r a b → q b = p a) :
    Option.Rel r (as.find? p) (bs.find? q) := by
  induction h with
  | nil => exact .none
  | @cons a b as bs hab _ ih =>
    rw [List.find?_cons, List.find?_cons, hpq a b hab]
    cases p a with
    | true => exact .some hab
    | false => exact ih

end Rel

def WindowInfo.Reordered (a b : WindowInfo) : Prop := b = { a with order := b.order }

namespace WindowInfo.Reordered

variable {a b c : WindowInfo}

theorem refl : Reordered a a := rfl

theorem trans (h : Reordered a b) (h' : Reordered b c) : Reordered a c := by
  unfold Reordered at *
  rw [h', h]

theorem id_eq (h : Reordered a b) : b.id = a.id := by
  rw [h]

theorem core_eq (h : Reordered a b) : b.core = a.core := by
  rw [h]
  rfl

theorem eq_of_order (h : Reordered a b) (ho : a.order = b.order) : b = a := by
  rw [h, ← ho]

end WindowInfo.Reordered

namespace Layout

open WindowInfo (Reordered)

variable {l l' l'' : Layout} {ws ws' changed : List WindowInfo} {info cur : WindowInfo}
  {id other pane : String} {anchor : Anchor} {order : Int32} {here : WindowInfo → Bool}

theorem forall₂_raiseOrders : List.Forall₂ Reordered ws (raiseOrders here ws).1 := by
  induction ws with
  | nil => exact .nil
  | cons w ws ih =>
    unfold raiseOrders
    split
    · split
      · exact .cons rfl ih
      · exact List.forall₂_same.2 fun _ _ ↦ .refl
    · exact .cons .refl ih

theorem forall₂_renumberFrom {front : List WindowInfo} :
    List.Forall₂ Reordered ws (renumberFrom here front ws) := by
  induction ws generalizing front with
  | nil => exact .nil
  | cons w ws ih =>
    refine .cons ?_ ih
    split
    · rfl
    · exact .refl

def Reorders (l l' : Layout) : Prop := ∀ id, Option.Rel Reordered (l.get? id) (l'.get? id)

theorem reorders_of_windows (h : List.Forall₂ Reordered l.windows l'.windows) : Reorders l l' :=
  fun _ ↦ rel_find? h fun a b hab ↦ by rw [hab.id_eq]

theorem reorders_renumbered (pane : String) (anchor : Anchor) :
    Reorders l (l.renumbered pane anchor) :=
  reorders_of_windows forall₂_renumberFrom

theorem get?_relocated : (l.relocated id pane anchor order).get? other =
    if other = id then
      (l.get? other).map ({ · with pane := pane, anchor := anchor, order := order })
    else l.get? other := by
  have hids : ((fun w : WindowInfo ↦ w.id == other) ∘ fun w ↦
      if w.id = id then { w with pane := pane, anchor := anchor, order := order } else w) =
      (·.id == other) := by
    funext w
    simp only [Function.comp]
    split <;> rfl
  simp only [get?, relocated, mapWindows, List.find?_map, hids]
  cases hw : l.windows.find? (·.id == other) with
  | none => simp
  | some w =>
    have hid : w.id = other := by simpa using List.find?_some hw
    by_cases ho : other = id <;> simp [hid, ho]

structure Moves (id : String) (moved : WindowInfo) (l l' : Layout) : Prop where
  self : ∃ placed, moved.Reordered placed ∧ l'.get? id = some placed
  others : ∀ other, other ≠ id → Option.Rel Reordered (l.get? other) (l'.get? other)

theorem rel_trans {a b c : Option WindowInfo} (h : Option.Rel Reordered a b)
    (h' : Option.Rel Reordered b c) : Option.Rel Reordered a c :=
  rel_comp h h' fun _ _ _ _ ↦ Reordered.trans

theorem Moves.reorders (h : Moves id info l l') (h' : Reorders l' l'') : Moves id info l l'' where
  self := by
    obtain ⟨placed, hplaced, hself⟩ := h.self
    obtain ⟨placed', hplaced', hre⟩ := exists_right_of_rel (h' id) hself
    exact ⟨placed', hplaced.trans hre, hplaced'⟩
  others other hne := rel_trans (h.others other hne) (h' other)

theorem moves_relocated (pane : String) (anchor : Anchor) (order : Int32) (h : Reorders l l')
    (hcur : l.get? id = some cur) :
    Moves id { cur with pane := pane, anchor := anchor } l
      (l'.relocated id pane anchor order) where
  self := by
    obtain ⟨w, hw, hre⟩ := exists_right_of_rel (h id) hcur
    refine ⟨{ w with pane := pane, anchor := anchor, order := order }, ?_, ?_⟩
    · rw [hre]
      rfl
    · rw [get?_relocated, if_pos rfl, hw]
      rfl
  others other hne := by
    rw [get?_relocated, if_neg hne]
    exact h other

theorem Reorders.refl : Reorders l l := fun id ↦ by
  cases l.get? id with
  | none => exact .none
  | some info => exact .some .refl

theorem setAnchor_cases (hcur : l.get? id = some cur)
    (h : setAnchor id pane anchor order l = .ok changed l') :
    Moves id { cur with pane := pane, anchor := anchor } l l' ∧ changed = reordered l l' id := by
  have hfinish : ∀ {room : Layout} {order : Int32} {r : EStateM.Result Fault Layout _},
      Reorders l room → r = .ok changed l' →
      (let moved := (room.relocated id pane anchor order).renumbered pane anchor
       let settled :=
         if cur.isAt pane anchor then moved else moved.renumbered cur.pane cur.anchor
       .ok (reordered l settled id) settled) = r →
      Moves id { cur with pane := pane, anchor := anchor } l l' ∧
        changed = reordered l l' id := by
    intro room order r hroom hr heq
    have hmoved := (moves_relocated pane anchor order hroom hcur).reorders
      (reorders_renumbered pane anchor)
    rw [hr] at heq
    dsimp only at heq
    split at heq <;> cases heq
    · exact ⟨hmoved, rfl⟩
    · exact ⟨hmoved.reorders (reorders_renumbered _ _), rfl⟩
  unfold setAnchor at h
  rw [hcur] at h
  dsimp only at h
  split at h
  · split at h
    · exact hfinish .refl h rfl
    · cases h
  · split at h
    · exact hfinish (reorders_of_windows forall₂_raiseOrders) h rfl
    · cases h

end Layout

end ToolDock
