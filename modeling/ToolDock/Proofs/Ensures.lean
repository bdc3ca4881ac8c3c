import Mathlib.Data.List.Forall2
import ToolDock.Engine.Basic

/-!
What holds whenever an action returns. An action that ends in a fault ensures everything; one that
is refused returns the refusal.
-/

namespace ToolDock.Engine

variable {α β : Type} {e : Engine}

/-- Whenever the action returns, `Q` holds of its result and of the engine that it leaves. -/
def Ensures (x : Action α) (e : Engine) (Q : α → Engine → Prop) : Prop :=
  ∀ ⦃a e'⦄, x e = .ok a e' → Q a e'

theorem Ensures.mono {x : Action α} {Q R : α → Engine → Prop} (h : Ensures x e Q)
    (hQ : ∀ a e', Q a e' → R a e') : Ensures x e R :=
  fun a e' ha ↦ hQ a e' (h ha)

theorem ensures_and {x : Action α} {Q R : α → Engine → Prop} (hQ : Ensures x e Q)
    (hR : Ensures x e R) : Ensures x e fun a e' ↦ Q a e' ∧ R a e' :=
  fun _ _ ha ↦ ⟨hQ ha, hR ha⟩

theorem ensures_pure {a : α} {Q : α → Engine → Prop} : Ensures (pure a) e Q ↔ Q a e := by
  constructor
  · intro h
    exact h rfl
  · intro h b e' hb
    cases hb
    exact h

theorem ensures_bind {x : Action α} {f : α → Action β} {Q : β → Engine → Prop} :
    Ensures (x >>= f) e Q ↔ Ensures x e fun a e' ↦ Ensures (f a) e' Q := by
  have hrun : (x >>= f) e = EStateM.bind x f e := rfl
  unfold Ensures
  rw [hrun, EStateM.bind]
  cases hx : x e with
  | ok a e' =>
    refine ⟨fun h b e'' hb ↦ ?_, fun h ↦ h rfl⟩
    cases hb
    exact h
  | error f e' => exact ⟨fun _ _ _ ha ↦ (nomatch ha), fun _ _ _ hb ↦ (nomatch hb)⟩

theorem ensures_map {x : Action α} {f : α → β} {Q : β → Engine → Prop} :
    Ensures (f <$> x) e Q ↔ Ensures x e fun a e' ↦ Q (f a) e' := by
  rw [map_eq_pure_bind, ensures_bind]
  exact ⟨fun h ↦ h.mono fun _ _ ↦ ensures_pure.1, fun h ↦ h.mono fun _ _ ↦ ensures_pure.2⟩

theorem ensures_get {Q : Engine → Engine → Prop} : Ensures get e Q ↔ Q e e :=
  ensures_pure (a := e)

theorem ensures_modify {f : Engine → Engine} {Q : Unit → Engine → Prop} :
    Ensures (modify f) e Q ↔ Q () (f e) :=
  ensures_pure (a := ()) (e := f e)

theorem ensures_modifyGet {f : Engine → α × Engine} {Q : α → Engine → Prop} :
    Ensures (modifyGet f) e Q ↔ Q (f e).1 (f e).2 :=
  ensures_pure (a := (f e).1) (e := (f e).2)

theorem ensures_takeInfo {key : SlotKey} {Q : WindowInfo → Engine → Prop} :
    Ensures (takeInfo key) e Q ↔ Q (e.registeredInfo key).1 (e.registeredInfo key).2 :=
  ensures_modifyGet

theorem ensures_check {x : Checked α} {Q : α → Engine → Prop} :
    Ensures (check x) e Q ↔ ∀ a, x = .ok a → Q a e := by
  cases x with
  | error f => exact ⟨fun _ _ ha ↦ (nomatch ha), fun _ _ _ ha ↦ (nomatch ha)⟩
  | ok a =>
    refine (ensures_pure (a := a)).trans ⟨fun h b hb ↦ ?_, fun h ↦ h a rfl⟩
    cases hb
    exact h

theorem ensures_ite {c : Prop} [Decidable c] {x y : Action α} {Q : α → Engine → Prop} :
    Ensures (if c then x else y) e Q ↔ (c → Ensures x e Q) ∧ (¬ c → Ensures y e Q) := by
  by_cases hc : c <;> simp [hc]

/-- What holds of the elements still to come before each turn of a loop holds of none after it. -/
theorem ensures_forIn_remaining {I : List α → Engine → Prop} {f : α → Action Unit} {xs : List α}
    (hstep : ∀ x xs e, I (x :: xs) e → Ensures (f x) e fun _ e' ↦ I xs e') (h : I xs e) :
    Ensures (forIn xs PUnit.unit fun x _ ↦ do f x; pure (ForInStep.yield PUnit.unit)) e
      fun _ e' ↦ I [] e' := by
  induction xs generalizing e with
  | nil => exact ensures_pure.2 h
  | cons x xs ih =>
    rw [List.forIn_cons]
    simp only [ensures_bind, ensures_pure]
    exact (hstep x xs e h).mono fun _ _ h' ↦ ih h'

theorem ensures_forIn {I : Engine → Prop} {f : α → Action Unit} (xs : List α)
    (hstep : ∀ x ∈ xs, ∀ e, I e → Ensures (f x) e fun _ e' ↦ I e') (h : I e) :
    Ensures (forIn xs PUnit.unit fun x _ ↦ do f x; pure (ForInStep.yield PUnit.unit)) e
      fun _ e' ↦ I e' := by
  refine (ensures_forIn_remaining (I := fun ys e ↦ ys ⊆ xs ∧ I e) (fun x ys e h ↦ ?_)
    ⟨List.Subset.refl xs, h⟩).mono fun _ _ h' ↦ h'.2
  obtain ⟨hx, hys⟩ := List.cons_subset.1 h.1
  exact (hstep x hx e h.2).mono fun _ _ h' ↦ ⟨hys, h'⟩

theorem ensures_mapM_related {I : List α → Engine → Prop} {R : α → β → Prop} {f : α → Action β}
    {xs : List α}
    (hstep : ∀ x xs e, I (x :: xs) e → Ensures (f x) e fun y e' ↦ R x y ∧ I xs e')
    (h : I xs e) : Ensures (xs.mapM f) e fun ys e' ↦ List.Forall₂ R xs ys ∧ I [] e' := by
  induction xs generalizing e with
  | nil => exact ensures_pure.2 ⟨.nil, h⟩
  | cons x xs ih =>
    simp only [List.mapM_cons, ensures_bind, ensures_pure]
    refine (hstep x xs e h).mono fun y e' ⟨hy, h'⟩ ↦ ?_
    exact (ih h').mono fun ys e'' ⟨hys, h''⟩ ↦ ⟨.cons hy hys, h''⟩

section Operation

variable {Q : Except EngineError α → Engine → Prop}

theorem ensures_run_pure {a : α} : Ensures (pure a : Operation α).run e Q ↔ Q (.ok a) e :=
  ensures_pure

theorem ensures_run_throw {error : EngineError} :
    Ensures (throw error : Operation α).run e Q ↔ Q (.error error) e :=
  ensures_pure

theorem ensures_run_throw_bind {error : EngineError} {f : β → Operation α} :
    Ensures ((throw error : Operation β) >>= f).run e Q ↔ Q (.error error) e :=
  ensures_pure

theorem ensures_run_bind {x : Operation β} {f : β → Operation α} :
    Ensures (x >>= f).run e Q ↔
      Ensures x.run e fun r e' ↦
        (∀ b, r = .ok b → Ensures (f b).run e' Q) ∧
          ∀ error, r = .error error → Q (.error error) e' := by
  rw [ExceptT.run_bind, ensures_bind]
  refine ⟨fun h ↦ h.mono fun r e' hr ↦ ?_, fun h ↦ h.mono fun r e' hr ↦ ?_⟩
  · cases r with
    | ok b => exact ⟨fun c hc ↦ by cases hc; exact hr, fun _ hc ↦ nomatch hc⟩
    | error error =>
      exact ⟨fun _ hc ↦ (nomatch hc), fun _ hc ↦ by cases hc; exact ensures_pure.1 hr⟩
  · cases r with
    | ok b => exact hr.1 b rfl
    | error error => exact ensures_pure.2 (hr.2 error rfl)

theorem ensures_run_lift {x : Action α} :
    Ensures (liftM x : Operation α).run e Q ↔ Ensures x e fun a e' ↦ Q (.ok a) e' :=
  ensures_map

theorem ensures_run_lift_bind {x : Action β} {f : β → Operation α} :
    Ensures (liftM x >>= f).run e Q ↔ Ensures x e fun b e' ↦ Ensures (f b).run e' Q := by
  rw [ensures_run_bind, ensures_run_lift]
  exact ⟨fun h ↦ h.mono fun b _ hb ↦ hb.1 b rfl,
    fun h ↦ h.mono fun b _ hb ↦ ⟨fun c hc ↦ by cases hc; exact hb, fun _ hc ↦ (nomatch hc)⟩⟩

theorem ensures_run_get_bind {f : Engine → Operation α} :
    Ensures (get >>= f).run e Q ↔ Ensures (f e).run e Q :=
  ensures_run_lift_bind (x := get).trans ensures_get

theorem ensures_run_modify_bind {g : Engine → Engine} {f : Unit → Operation α} :
    Ensures (modify g >>= f).run e Q ↔ Ensures (f ()).run (g e) Q :=
  ensures_run_lift_bind (x := modify g).trans ensures_modify

theorem ensures_run_modifyGet_bind {g : Engine → β × Engine} {f : β → Operation α} :
    Ensures (modifyGet g >>= f).run e Q ↔ Ensures (f (g e).1).run (g e).2 Q :=
  ensures_run_lift_bind (x := modifyGet g).trans ensures_modifyGet

theorem ensures_run_ite {c : Prop} [Decidable c] {x y : Operation α} :
    Ensures (if c then x else y).run e Q ↔
      (c → Ensures x.run e Q) ∧ (¬ c → Ensures y.run e Q) := by
  by_cases hc : c <;> simp [hc]

theorem ensures_keyOf_bind {id : String} {f : SlotKey → Operation α} :
    Ensures (keyOf id >>= f).run e Q ↔
      (∀ key, e.keyOf? id = some key → Ensures (f key).run e Q) ∧
        (e.keyOf? id = none → Q (.error (.notRegistered id)) e) := by
  rw [ensures_run_bind, keyOf, ensures_run_get_bind]
  cases hk : e.keyOf? id with
  | none =>
    rw [ensures_run_throw]
    simp
  | some key =>
    rw [ensures_run_pure]
    simp

end Operation

theorem ensures_run_modify {g : Engine → Engine} {Q : Except EngineError Unit → Engine → Prop} :
    Ensures (modify g : Operation Unit).run e Q ↔ Q (.ok ()) (g e) :=
  ensures_run_lift (x := modify g).trans ensures_modify

end ToolDock.Engine
