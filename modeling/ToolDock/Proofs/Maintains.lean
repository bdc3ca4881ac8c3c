import ToolDock.Proofs.Ensures

namespace ToolDock.Engine

variable {α β : Type} {I : Engine → Prop}

def Maintains (I : Engine → Prop) (x : Action α) : Prop :=
  ∀ ⦃e⦄, I e → Ensures x e fun _ e' ↦ I e'

theorem maintains_pure (a : α) : Maintains I (pure a) := fun _ h ↦ ensures_pure.2 h

theorem maintains_get : Maintains I get := fun _ h ↦ ensures_get.2 h

theorem maintains_modify {g : Engine → Engine} (hg : ∀ e, I e → I (g e)) :
    Maintains I (modify g) :=
  fun e h ↦ ensures_modify.2 (hg e h)

theorem maintains_modifyGet {g : Engine → α × Engine} (hg : ∀ e, I e → I (g e).2) :
    Maintains I (modifyGet g) :=
  fun e h ↦ ensures_modifyGet.2 (hg e h)

theorem maintains_check (x : Checked α) : Maintains I (check x) := fun _ h ↦
  ensures_check.2 fun _ _ ↦ h

theorem Maintains.bind {x : Action α} {f : α → Action β} (hx : Maintains I x)
    (hf : ∀ a, Maintains I (f a)) : Maintains I (x >>= f) := fun _ h ↦
  ensures_bind.2 ((hx h).mono fun a _ h' ↦ hf a h')

theorem Maintains.ite {c : Prop} [Decidable c] {x y : Action α} (hx : Maintains I x)
    (hy : Maintains I y) : Maintains I (if c then x else y) := fun _ h ↦
  ensures_ite.2 ⟨fun _ ↦ hx h, fun _ ↦ hy h⟩

theorem Maintains.forIn {f : α → Action Unit} (xs : List α) (hf : ∀ a, Maintains I (f a)) :
    Maintains I (forIn xs PUnit.unit fun a _ ↦ do f a; pure (ForInStep.yield PUnit.unit)) :=
  fun _ h ↦ ensures_forIn xs (fun a _ _ h' ↦ hf a h') h

section Operation

variable {op : Operation α} {f : α → Operation β}

theorem maintains_run_pure (a : α) : Maintains I (pure a : Operation α).run := maintains_pure _

theorem maintains_run_throw (error : EngineError) : Maintains I (throw error : Operation α).run :=
  maintains_pure _

theorem Maintains.run_lift {x : Action α} (hx : Maintains I x) :
    Maintains I (liftM x : Operation α).run := fun _ h ↦ ensures_run_lift.2 (hx h)

theorem maintains_run_get : Maintains I (get : Operation Engine).run := maintains_get.run_lift

theorem maintains_run_modify {g : Engine → Engine} (hg : ∀ e, I e → I (g e)) :
    Maintains I (modify g : Operation PUnit).run :=
  (maintains_modify hg).run_lift

theorem Maintains.run_bind (hop : Maintains I op.run) (hf : ∀ a, Maintains I (f a).run) :
    Maintains I (op >>= f).run := fun _ h ↦
  ensures_run_bind.2 ((hop h).mono fun _ _ h' ↦ ⟨fun a _ ↦ hf a h', fun _ _ ↦ h'⟩)

theorem Maintains.run_ite {c : Prop} [Decidable c] {x y : Operation α} (hx : Maintains I x.run)
    (hy : Maintains I y.run) : Maintains I (if c then x else y).run := fun _ h ↦
  ensures_run_ite.2 ⟨fun _ ↦ hx h, fun _ ↦ hy h⟩

theorem maintains_keyOf (id : String) : Maintains I (keyOf id).run := by
  refine maintains_run_get.run_bind fun e ↦ ?_
  split
  · exact maintains_run_pure _
  · exact maintains_run_throw _

theorem Maintains.attempt {op : Operation Unit} (hop : Maintains I op.run) :
    Maintains I (attempt op) :=
  hop.bind fun _ ↦ maintains_pure _

end Operation

end ToolDock.Engine
