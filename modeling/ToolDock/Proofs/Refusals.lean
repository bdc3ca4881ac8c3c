import ToolDock.Engine.Session
import ToolDock.Proofs.Maintains
import ToolDock.Proofs.Requests

/-!
Refusals. An operation checks everything that it could be refused for before it changes anything, so
a call that is refused was never made. Main statement: `unchanged_of_refused`, for every request,
every layout that is put in place, and every store that one is loaded from.
-/

namespace ToolDock.Engine

section Combinators

variable {α β ε : Type} {op : Operation α} {f : α → Operation β}

def Atomic (op : ExceptT ε Action α) : Prop :=
  ∀ e, Ensures op.run e fun res e' ↦ ∀ error, res = .error error → e' = e

def Unrefused (op : Operation α) : Prop :=
  ∀ e, Ensures op.run e fun res _ ↦ ∀ error, res ≠ .error error

def Inspects (op : Operation α) : Prop := ∀ e, Maintains (· = e) op.run

theorem Unrefused.atomic (hop : Unrefused op) : Atomic op := fun e ↦
  (hop e).mono fun _ _ hok error hr ↦ absurd hr (hok error)

theorem unrefused_pure (a : α) : Unrefused (pure a) := fun _ ↦
  ensures_run_pure.2 fun _ h ↦ nomatch h

theorem unrefused_lift (x : Action α) : Unrefused (liftM x : Operation α) := fun _ ↦
  ensures_run_lift.2 fun _ _ _ _ h ↦ nomatch h

theorem Unrefused.bind (hop : Unrefused op) (hf : ∀ a, Unrefused (f a)) : Unrefused (op >>= f) :=
  fun e ↦ ensures_run_bind.2 ((hop e).mono fun _ e' hok ↦
    ⟨fun a _ ↦ hf a e', fun error hr ↦ absurd hr (hok error)⟩)

theorem unrefused_lift_bind {x : Action α} (hf : ∀ a, Unrefused (f a)) :
    Unrefused (liftM x >>= f) :=
  (unrefused_lift x).bind hf

theorem Unrefused.ite {c : Prop} [Decidable c] {x y : Operation α} (hx : Unrefused x)
    (hy : Unrefused y) : Unrefused (if c then x else y) := fun e ↦
  ensures_run_ite.2 ⟨fun _ ↦ hx e, fun _ ↦ hy e⟩

theorem Atomic.bind (hop : Atomic op) (hf : ∀ a, Unrefused (f a)) : Atomic (op >>= f) := fun e ↦
  ensures_run_bind.2 ((hop e).mono fun _ e' hsame ↦
    ⟨fun a _ ↦ (hf a e').mono fun _ _ hok error hr ↦ absurd hr (hok error),
      fun error hr _ _ ↦ hsame error hr⟩)

theorem Inspects.bind (hop : Inspects op) (hf : ∀ a, Atomic (f a)) : Atomic (op >>= f) := fun e ↦
  ensures_run_bind.2 ((hop e rfl).mono fun _ e' hsame ↦ by
    cases hsame
    exact ⟨fun a _ ↦ hf a e, fun _ _ _ _ ↦ rfl⟩)

theorem Atomic.ite {c : Prop} [Decidable c] {x y : Operation α} (hx : Atomic x) (hy : Atomic y) :
    Atomic (if c then x else y) := fun e ↦
  ensures_run_ite.2 ⟨fun _ ↦ hx e, fun _ ↦ hy e⟩

theorem inspects_get : Inspects (get : Operation Engine) := fun _ ↦ maintains_run_get

theorem inspects_keyOf (id : String) : Inspects (keyOf id) := fun _ ↦ maintains_keyOf id

theorem inspects_check (x : Checked α) : Inspects (liftM (check x) : Operation α) := fun _ ↦
  (maintains_check x).run_lift

theorem atomic_throw (error : EngineError) : Atomic (throw error : Operation α) := fun _ ↦
  ensures_run_throw.2 fun _ _ ↦ rfl

theorem atomic_throw_bind (error : EngineError) :
    Atomic ((throw error : Operation α) >>= f) := fun _ ↦
  ensures_run_throw_bind.2 fun _ _ ↦ rfl

theorem atomic_keyOf_bind {id : String} {f : SlotKey → Operation α}
    (hf : ∀ key, Unrefused (f key)) : Atomic (keyOf id >>= f) :=
  (inspects_keyOf id).bind fun key ↦ (hf key).atomic

end Combinators

variable {id pane : String} {anchor : Anchor} {order : Int32} {split : Bool} {l : Layout}

theorem atomic_register (r : RegisterRequest) : Atomic (register r) := fun _ ↦
  ensures_register_refused

theorem atomic_reveal : Atomic (reveal id) := by
  unfold reveal
  refine atomic_keyOf_bind fun key ↦ unrefused_lift_bind fun e ↦
    Unrefused.ite (unrefused_pure _) ?_
  refine unrefused_lift_bind fun info ↦ unrefused_lift_bind fun shown ↦ ?_
  exact Unrefused.ite (unrefused_lift _) (unrefused_pure _)

theorem atomic_hideWith {options : HideOptions} : Atomic (hideWith id options) := by
  unfold hideWith
  refine atomic_keyOf_bind fun key ↦ unrefused_lift_bind fun info ↦ Unrefused.ite ?_ ?_
  · exact Unrefused.ite (unrefused_lift _) (unrefused_pure _)
  · refine unrefused_lift_bind fun before ↦ unrefused_lift_bind fun _ ↦
      unrefused_lift_bind fun _ ↦ ?_
    exact unrefused_lift_bind fun e ↦ Unrefused.ite (unrefused_lift _) (unrefused_pure _)

theorem atomic_deactivate : Atomic (deactivate id) := by
  unfold deactivate
  exact atomic_keyOf_bind fun key ↦ unrefused_lift_bind fun info ↦
    Unrefused.ite (unrefused_lift _) (unrefused_pure _)

theorem atomic_activate {autoFocus : Bool} : Atomic (activate id autoFocus) := by
  unfold activate
  refine atomic_keyOf_bind fun key ↦ unrefused_lift_bind fun _ ↦ unrefused_lift_bind fun info ↦
    unrefused_lift_bind fun _ ↦ unrefused_lift_bind fun e ↦ Unrefused.ite ?_ (unrefused_lift _)
  exact unrefused_lift_bind fun e ↦ Unrefused.ite (unrefused_lift _) (unrefused_pure _)

theorem atomic_toolWindowFocused : Atomic (toolWindowFocused id) := by
  unfold toolWindowFocused
  exact atomic_keyOf_bind fun key ↦ unrefused_lift _

theorem atomic_focusByDefault : Atomic focusByDefault := by
  unfold focusByDefault
  refine inspects_get.bind fun e ↦ (inspects_check _).bind fun target ↦ ?_
  cases target with
  | some id => exact atomic_activate.bind fun _ ↦ unrefused_pure _
  | none => exact (unrefused_pure _).atomic

theorem atomic_setAnchor : Atomic (setAnchor id pane anchor order) := by
  unfold setAnchor
  refine (inspects_keyOf id).bind fun key ↦ Atomic.ite (atomic_throw_bind _) ?_
  refine Unrefused.atomic (unrefused_lift_bind fun e ↦ unrefused_lift_bind fun info ↦
    Unrefused.ite ?_ (unrefused_pure _))
  exact Unrefused.ite (unrefused_lift_bind fun _ ↦ unrefused_lift _)
    (unrefused_lift_bind fun _ ↦ unrefused_lift _)

theorem atomic_setSideTool : Atomic (setSideTool id split) := by
  unfold setSideTool
  refine atomic_keyOf_bind fun key ↦ unrefused_lift_bind fun info ↦
    Unrefused.ite ?_ (unrefused_pure _)
  exact unrefused_lift_bind fun _ ↦ unrefused_lift _

theorem atomic_setSideToolAndAnchor : Atomic (setSideToolAndAnchor id pane anchor order split) := by
  unfold setSideToolAndAnchor
  refine atomic_keyOf_bind fun key ↦ unrefused_lift_bind fun e ↦ unrefused_lift_bind fun info ↦
    Unrefused.ite ?_ (unrefused_pure _)
  exact unrefused_lift_bind fun _ ↦ unrefused_lift _

theorem atomic_setType {type : WindowType} : Atomic (setType id type) := by
  unfold setType
  refine atomic_keyOf_bind fun key ↦ unrefused_lift_bind fun info ↦
    Unrefused.ite (unrefused_lift_bind fun e ↦ ?_) (unrefused_pure _)
  exact Unrefused.ite (unrefused_lift_bind fun _ ↦ unrefused_lift _)
    (unrefused_lift_bind fun _ ↦ unrefused_lift _)

theorem atomic_changeProperty {differs : WindowInfo → Bool} {change : WindowInfo → WindowInfo}
    {kind : EventKind} : Atomic (changeProperty id differs change kind) := by
  unfold changeProperty
  exact atomic_keyOf_bind fun key ↦ unrefused_lift_bind fun info ↦
    Unrefused.ite (unrefused_lift _) (unrefused_pure _)

theorem atomic_setShowStripeButton {showButton : Bool} :
    Atomic (setShowStripeButton id showButton) := by
  unfold setShowStripeButton
  refine atomic_keyOf_bind fun key ↦ unrefused_lift_bind fun info ↦
    Unrefused.ite ?_ (unrefused_pure _)
  exact Unrefused.ite (unrefused_lift_bind fun _ ↦ unrefused_lift _)
    (unrefused_lift_bind fun _ ↦ unrefused_lift _)

theorem atomic_makeAvailable : Atomic (makeAvailable id) := by
  have hshow : ∀ key info, Unrefused (do
      if info.visible && (← get).entryIs key Entry.hasContent then
        let _ ← showWindow key info false
      modify (·.fire .toolWindowAvailable id)) := fun key info ↦
    unrefused_lift_bind fun e ↦ Unrefused.ite (unrefused_lift_bind fun _ ↦ unrefused_lift _)
      (unrefused_lift _)
  unfold makeAvailable
  refine atomic_keyOf_bind fun key ↦ unrefused_lift_bind fun e ↦
    Unrefused.ite ?_ (unrefused_pure _)
  exact unrefused_lift_bind fun _ ↦ unrefused_lift_bind fun info ↦
    Unrefused.ite (unrefused_lift_bind fun _ ↦ hshow key info) (hshow key info)

theorem atomic_makeUnavailable : Atomic (makeUnavailable id) := by
  unfold makeUnavailable
  refine atomic_keyOf_bind fun key ↦ unrefused_lift_bind fun e ↦
    Unrefused.ite ?_ (unrefused_pure _)
  refine unrefused_lift_bind fun _ ↦ unrefused_lift_bind fun info ↦ unrefused_lift_bind fun e ↦
    unrefused_lift_bind fun _ ↦ unrefused_lift_bind fun _ ↦ ?_
  exact Unrefused.ite (unrefused_lift _) (unrefused_pure _)

theorem atomic_movedOrResized {g : DecoratorGeometry} : Atomic (movedOrResized id g) := by
  unfold movedOrResized
  refine atomic_keyOf_bind fun key ↦ Unrefused.ite ?_ (unrefused_pure _)
  refine unrefused_lift_bind fun info ↦ Unrefused.ite (unrefused_lift_bind fun e ↦ ?_) ?_
  · split
    · exact unrefused_lift _
    · exact unrefused_pure _
  · exact Unrefused.ite (unrefused_lift_bind fun _ ↦ unrefused_lift _) (unrefused_pure _)

theorem atomic_run (request : Request) : Atomic request.run := by
  cases request with
  | register r => exact atomic_register r
  | unregister id => exact (unrefused_lift _).atomic
  | reveal id => exact atomic_reveal
  | hide id => exact atomic_hideWith
  | hideWith id options => exact atomic_hideWith
  | activate id autoFocus => exact atomic_activate
  | deactivate id => exact atomic_deactivate
  | toolWindowFocused id => exact atomic_toolWindowFocused
  | focusMovedTo focused => exact (unrefused_lift _).atomic
  | focusByDefault => exact atomic_focusByDefault.bind fun _ ↦ unrefused_pure _
  | setAnchor id pane anchor order => exact atomic_setAnchor
  | setSideTool id split => exact atomic_setSideTool
  | setSideToolAndAnchor id pane anchor order split => exact atomic_setSideToolAndAnchor
  | setType id type => exact atomic_setType
  | setAutoHide id autoHide => exact atomic_changeProperty
  | setContentUi id ui => exact atomic_changeProperty
  | setShowStripeButton id showButton => exact atomic_setShowStripeButton
  | makeAvailable id => exact atomic_makeAvailable
  | makeUnavailable id => exact atomic_makeUnavailable
  | movedOrResized id g => exact atomic_movedOrResized
  | addPane pane => exact (unrefused_lift _).atomic
  | removePane pane => exact (unrefused_lift _).atomic

theorem atomic_setInitialLayout : Atomic (setInitialLayout l) := by
  unfold setInitialLayout
  exact inspects_get.bind fun e ↦ Atomic.ite (unrefused_lift _).atomic (atomic_throw _)

theorem atomic_setLayout : Atomic (setLayout l) := by
  unfold setLayout
  split
  · exact atomic_throw _
  · refine Unrefused.atomic (unrefused_lift_bind fun e ↦ unrefused_lift_bind fun _ ↦ ?_)
    exact Unrefused.ite (unrefused_lift _) (unrefused_pure _)

theorem ensures_load_declined {stored : Option Layout} (e : Engine) :
    Ensures (load stored) e fun applied e' ↦ applied = false → e' = e := by
  cases stored with
  | none => exact ensures_pure.2 fun _ ↦ rfl
  | some l =>
    have happly : Atomic (if e.entries.size == 0 then setInitialLayout l else setLayout l) :=
      Atomic.ite atomic_setInitialLayout atomic_setLayout
    refine ensures_bind.2 (ensures_get.2 (ensures_bind.2 ((happly e).mono fun res e' hsame ↦ ?_)))
    cases res with
    | ok _ => exact ensures_pure.2 fun h ↦ nomatch h
    | error error => exact ensures_pure.2 fun _ ↦ hsame error rfl

theorem ensures_loadFrom {ε : Type} {answer : Except ε (Option Layout)} (e : Engine) :
    Ensures (loadFrom answer).run e fun res e' ↦
      (∀ error, res = .error error → e' = e) ∧ (res = .ok false → e' = e) := by
  cases answer with
  | error error => exact ensures_pure.2 ⟨fun _ _ ↦ rfl, fun _ ↦ rfl⟩
  | ok stored =>
    refine ensures_map.2 ((ensures_load_declined e).mono fun applied e' hsame ↦ ?_)
    refine ⟨fun _ h ↦ (nomatch h), fun h ↦ hsame ?_⟩
    cases h
    rfl

theorem ensures_applyScheduled_refused (e : Engine) :
    Ensures applyScheduled.run e fun res e' ↦
      ∀ error, res = .error error → e' = { e with mailbox := [] } := by
  unfold applyScheduled
  simp only [ensures_run_get_bind, ensures_run_modify_bind]
  split
  · exact (atomic_setLayout.bind fun _ ↦ unrefused_pure _) _
  · exact ensures_run_pure.2 fun _ h ↦ nomatch h

/-- A call that is refused or declined, with the engine before and after it. -/
inductive Refused (e : Engine) : Engine → Prop
  | request {request : Request} {error : EngineError} {e' : Engine} :
    request.run.run e = .ok (.error error) e' → Refused e e'
  | focusByDefault {error : EngineError} {e' : Engine} :
    focusByDefault.run e = .ok (.error error) e' → Refused e e'
  | setInitialLayout {l : Layout} {error : EngineError} {e' : Engine} :
    (setInitialLayout l).run e = .ok (.error error) e' → Refused e e'
  | setLayout {l : Layout} {error : EngineError} {e' : Engine} :
    (setLayout l).run e = .ok (.error error) e' → Refused e e'
  /-- The store has an error. -/
  | unanswered {ε : Type} {answer : Except ε (Option Layout)} {error : ε} {e' : Engine} :
    (loadFrom answer).run e = .ok (.error error) e' → Refused e e'
  /-- The store has no layout, or one that is refused. -/
  | declined {ε : Type} {answer : Except ε (Option Layout)} {e' : Engine} :
    (loadFrom answer).run e = .ok (.ok false) e' → Refused e e'

/-- A refused call leaves the whole engine as it was, the host and what it was asked for included.
Only a scheduled layout that is refused is no longer in the mailbox. -/
theorem unchanged_of_refused (e e' : Engine) :
    (Refused e e' → e' = e) ∧
      ∀ error, applyScheduled.run e = .ok (.error error) e' → e' = { e with mailbox := [] } := by
  refine ⟨fun h ↦ ?_, fun error hrun ↦ ensures_applyScheduled_refused e hrun error rfl⟩
  cases h with
  | request hrun => exact atomic_run _ e hrun _ rfl
  | focusByDefault hrun => exact atomic_focusByDefault e hrun _ rfl
  | setInitialLayout hrun => exact atomic_setInitialLayout e hrun _ rfl
  | setLayout hrun => exact atomic_setLayout e hrun _ rfl
  | unanswered hrun => exact (ensures_loadFrom e hrun).1 _ rfl
  | declined hrun => exact (ensures_loadFrom e hrun).2 rfl

def tiedLayout : Layout :=
  .ofList [{ WindowInfo.new "A" .left with order := 0 },
    { WindowInfo.new "B" .left with order := 0 }]

/-- Refused as a scheduled layout it leaves nothing behind, nor does a request after it for a window
that nobody registered. -/
theorem unchanged_tiedLayout : ∃ error e e',
    applyScheduled.run { blank with mailbox := [tiedLayout] } = .ok (.error error) e ∧
      e = blank ∧ Refused e e' ∧ e' = e := by
  obtain ⟨error, e, e', hrun, hrefused⟩ : ∃ error e e',
      applyScheduled.run { blank with mailbox := [tiedLayout] } = .ok (.error error) e ∧
        (Request.reveal "A").run.run e = .ok (.error (.notRegistered "A")) e' :=
    ⟨_, _, _, rfl, rfl⟩
  refine ⟨error, e, e', hrun, ?_, .request hrefused, ?_⟩
  · exact (unchanged_of_refused _ e).2 error hrun
  · exact (unchanged_of_refused e e').1 (.request hrefused)

end ToolDock.Engine
