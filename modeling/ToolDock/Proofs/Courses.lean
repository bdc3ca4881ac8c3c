import ToolDock.Engine.Session
import ToolDock.Proofs.SteppedLayout

/-!
Everything that may be asked of an engine, and what happens to it from outside. Whatever it is, it
goes on in steps; at most it begins by admitting a window, by taking one out, or by putting a layout
in place. Main statements: `turn_of_run` and `Course.drafted`.
-/

namespace ToolDock.Engine

/-- What is asked of an engine, or happens to it or to its host. -/
inductive Call where
  | request (request : Request)
  | setLayout (layout : Layout)
  | setInitialLayout (layout : Layout)
  | setDefaultLayout (layout : Layout)
  | load (stored : Option Layout)
  | applyScheduled
  | closeProject
  | editorFocused
  | clearSideStack
  | restoreLater (layout : Option Layout)
  | schedule (scheduler : Nat) (layout : Layout) (delay : Nat)
  | advance (elapsed : Nat)
  | dispatchKey (event : KeyEvent) (now : Nat)
  | tick (now : Nat)
  | takeEvents
  | takeOps
  | setFocused (id : Option String)
  | setApplicationActive (active : Bool)
  | moveExternal (id : String) (bounds : Rect)
  | maximizeExternal (id : String) (maximized : Bool)

/-- What a call does; its answer does not matter here. -/
def Call.run : Call → Operation Unit
  | request r => r.run
  | setLayout layout => Engine.setLayout layout
  | setInitialLayout layout => Engine.setInitialLayout layout
  | setDefaultLayout layout => modify (·.setDefaultLayout layout)
  | load stored => discard (Engine.load stored : Operation Bool)
  | applyScheduled => discard Engine.applyScheduled
  | closeProject => modify Engine.closeProject
  | editorFocused => modify Engine.editorFocused
  | clearSideStack => modify Engine.clearSideStack
  | restoreLater layout => modify ({ · with layoutToRestoreLater := layout })
  | schedule scheduler layout delay => modify (·.schedule scheduler layout delay)
  | advance elapsed => modify (·.advance elapsed)
  | dispatchKey event now => modify (·.dispatchKey event now)
  | tick now => modify (·.tick now)
  | takeEvents => modify fun e ↦ e.takeEvents.2
  | takeOps => modify fun e ↦ e.takeOps.2
  | setFocused id => modify (·.onHost (·.setFocused id))
  | setApplicationActive active => modify (·.onHost (·.setApplicationActive active))
  | moveExternal id bounds => modify (·.onHost (·.moveExternal id bounds))
  | maximizeExternal id maximized => modify (·.onHost (·.maximizeExternal id maximized))

/-- The engines that calls lead to, one after another, as long as each is allowed. -/
abbrev Course (allowed : Engine → Call → Prop) : Engine → Engine → Prop :=
  Relation.ReflTransGen fun e e' ↦
    ∃ call result, allowed e call ∧ (Call.run call).run e = .ok result e'

inductive Turn (e : Engine) : Call → Engine → Prop
  | steps {call : Call} {e' : Engine} (h : FreeSteps e e') : Turn e call e'
  | register {r : RegisterRequest} {info : WindowInfo} {button : Bool} {l : Layout} {e' : Engine}
    (hnew : e.isRegistered r.id = false) (h : Intake r e.layout info button l)
    (hsteps : FreeSteps (admitted { e with layout := l } r info button).2 e') :
    Turn e (.request (.register r)) e'
  | unregister {id : String} {key : SlotKey} (hkey : e.keyOf? id = some key) :
    Turn e (.request (.unregister id)) (e.unregister id)
  | replace {call : Call} {l : Layout} {e₁ e' : Engine} (hrests : Rests e e₁)
    (h : FreeSteps (e₁.replaceLayout (e₁.completed l)) e') : Turn e call e'

variable {allowed : Engine → Call → Prop} {e e₀ e' : Engine} {call : Call} {l : Layout}
  {result : Except EngineError Unit}

theorem Rests.drafted (h : Rests e e') (hd : Drafted e) : Drafted e' :=
  have hsteps : FreeSteps e e' := steps_rest h
  hd.steps hsteps

theorem Turn.drafted (h : Turn e call e') (hd : Drafted e) : Drafted e' := by
  cases h with
  | steps h => exact hd.steps h
  | register hnew h hsteps => exact (hd.admitted h).steps hsteps
  | unregister hkey =>
    obtain ⟨x, hx, hname⟩ := get?_of_keyOf? hkey
    rw [unregister_eq hkey]
    exact rests_fire.drafted (hd.steps
      (steps_stripped Layout.permissive_true.toStable hd hx hname)).without
  | replace hrests h =>
    refine Drafted.steps (fun _ _ hx ↦ Or.inl ?_) h
    exact (hrests.drafted hd).replaced hx

theorem turn_rests (h : Rests e e') : Turn e call e' := .steps (steps_rest h)

theorem rests_overlay (change : Option OverlayChange) : Rests e (e.overlay change) := by
  unfold overlay
  split
  · exact rests_onHost (.of_objects rfl)
  · exact rests_onHost (.of_objects rfl)
  · exact .refl

theorem rests_chord (change : Option OverlayChange) (chord : KeyChord) :
    Rests e ({ e with keyChord := chord }.overlay change) := by
  have hstored : Rests e { e with keyChord := chord } :=
    ⟨rfl, rfl, rfl, .refl, fun _ h ↦ h, fun _ h ↦ h, fun _ _ h ↦ h⟩
  exact hstored.trans (rests_overlay change)

theorem completed_of_empty (h : e.entries.size = 0) : e.completed l = l := by
  have hnil : e.entries.toList = [] := List.eq_nil_of_length_eq_zero h
  rw [completed, planLayout, hnil]
  rfl

theorem turn_setLayout (hd : Drafted e') (h : Rests e e') :
    Ensures (setLayout l).run e' fun _ e'' ↦ Turn e call e'' := by
  refine (steps_setLayout hd).mono fun res e'' hq ↦ ?_
  rcases hq with ⟨_, -, rfl⟩ | ⟨-, hsteps⟩
  · exact turn_rests h
  · exact .replace h hsteps

theorem turn_setInitialLayout :
    Ensures (setInitialLayout l).run e fun _ e' ↦ Turn e call e' := by
  simp only [setInitialLayout, ensures_run_get_bind, ensures_run_ite, ensures_run_modify]
  refine ⟨fun hsize ↦ ?_, fun _ ↦ ensures_run_throw.2 (turn_rests .refl)⟩
  refine .replace (l := l) .refl ?_
  rw [completed_of_empty (by simpa using hsize)]

theorem ensures_load {stored : Option Layout} {Q : Engine → Prop} (h : Q e)
    (hinitial : ∀ l, Ensures (setInitialLayout l).run e fun _ e' ↦ Q e')
    (hset : ∀ l, Ensures (setLayout l).run e fun _ e' ↦ Q e') :
    Ensures (load stored) e fun _ e' ↦ Q e' := by
  unfold load
  cases stored with
  | none => exact ensures_pure.2 h
  | some l =>
    simp only [ensures_bind, ensures_get]
    have happlied : Ensures (if e.entries.size == 0 then setInitialLayout l else setLayout l).run e
        fun _ e' ↦ Q e' := ensures_run_ite.2 ⟨fun _ ↦ hinitial l, fun _ ↦ hset l⟩
    refine happlied.mono fun res e' h ↦ ?_
    cases res with
    | ok _ => exact ensures_pure.2 h
    | error _ => exact ensures_pure.2 h

theorem ensures_applyScheduled {Q : Engine → Prop} (h : Q { e with mailbox := [] })
    (hset : ∀ l, Ensures (setLayout l).run { e with mailbox := [] } fun _ e' ↦ Q e') :
    Ensures applyScheduled.run e fun _ e' ↦ Q e' := by
  simp only [applyScheduled, ensures_run_get_bind, ensures_run_modify_bind]
  cases e.mailbox.getLast? with
  | none => exact ensures_run_pure.2 h
  | some l =>
    exact ensures_run_bind.2 ((hset l).mono fun _ _ h ↦
      ⟨fun _ _ ↦ ensures_run_pure.2 h, fun _ _ ↦ h⟩)

theorem ensures_discard {α : Type} {op : Operation α} {Q : Engine → Prop}
    (h : Ensures op.run e fun _ e' ↦ Q e') : Ensures (discard op).run e fun _ e' ↦ Q e' := by
  have hrun : (discard op : Operation Unit) = op >>= fun _ ↦ pure () := rfl
  rw [hrun, ensures_run_bind]
  exact h.mono fun _ _ h ↦ ⟨fun _ _ ↦ ensures_run_pure.2 h, fun _ _ ↦ h⟩

theorem turn_register (hd : Drafted e) {r : RegisterRequest} :
    Ensures (register r).run e fun _ e' ↦ Turn e (.request (.register r)) e' := by
  refine ensures_register_admitted (fun _ ↦ turn_rests .refl) fun hnew info button l h ↦ ?_
  exact (steps_settle Layout.permissive_true.toLenient hd h).mono fun _ _ hq ↦
    .register hnew h hq.2

theorem turn_request (hd : Drafted e) {request : Request} :
    Ensures request.run.run e fun _ e' ↦ Turn e (.request request) e' := by
  have hsteps : (∀ r, request ≠ .register r) → (∀ id, request ≠ .unregister id) →
      Ensures request.run.run e fun _ e' ↦ Turn e (.request request) e' :=
    fun hregister hunregister _ _ hrun ↦ .steps (steps_run Layout.permissive_true hd
      (fun _ _ _ _ _ _ ↦ trivial) hregister hunregister hrun)
  cases request with
  | register r => exact turn_register hd
  | unregister id =>
    refine ensures_run_modify.2 ?_
    cases hkey : e.keyOf? id with
    | none =>
      rw [unregister_of_none hkey]
      exact turn_rests .refl
    | some key => exact .unregister hkey
  | _ => exact hsteps (fun _ ↦ by simp) fun _ ↦ by simp

theorem turn_of_run (hd : Drafted e) (hrun : call.run.run e = .ok result e') :
    Turn e call e' := by
  suffices h : Ensures call.run.run e fun _ e' ↦ Turn e call e' from h hrun
  have hrests : ∀ {e' : Engine}, Rests e e' → Turn e call e' := turn_rests
  cases call with
  | request request => exact turn_request hd
  | setLayout l => exact turn_setLayout hd .refl
  | setInitialLayout l => exact turn_setInitialLayout
  | load stored =>
    exact ensures_discard (ensures_run_lift.2 (ensures_load (turn_rests .refl)
      (fun _ ↦ turn_setInitialLayout) fun _ ↦ turn_setLayout hd .refl))
  | applyScheduled =>
    have hemptied : Rests e { e with mailbox := [] } :=
      ⟨rfl, rfl, rfl, .refl, fun _ h ↦ h, fun _ h ↦ h, fun _ _ h ↦ h⟩
    exact ensures_discard (ensures_applyScheduled (turn_rests hemptied) fun _ ↦
      turn_setLayout (hemptied.drafted hd) hemptied)
  | closeProject => exact ensures_run_modify.2 (.steps (steps_closeProject hd))
  | dispatchKey event now =>
    have hkey : Rests e (e.dispatchKey event now) :=
      rests_chord (e.keyChord.onKey event now).1 (e.keyChord.onKey event now).2
    exact ensures_run_modify.2 (hrests hkey)
  | tick now =>
    have htick : Rests e (e.tick now) :=
      rests_chord (e.keyChord.tick now).1 (e.keyChord.tick now).2
    exact ensures_run_modify.2 (hrests htick)
  | editorFocused => exact ensures_run_modify.2 (hrests Idles.editorFocused.rests)
  | clearSideStack =>
    refine ensures_run_modify.2 (hrests (rests_withStacks fun a ↦ ?_))
    cases a <;> exact List.nil_subset _
  | setDefaultLayout | restoreLater | schedule | advance | takeEvents =>
    exact ensures_run_modify.2 (hrests
      ⟨rfl, rfl, rfl, .refl, fun _ h ↦ h, fun _ h ↦ h, fun _ _ h ↦ h⟩)
  | takeOps =>
    exact ensures_run_modify.2 (hrests
      ⟨rfl, rfl, rfl, .of_objects rfl, fun _ h ↦ h, fun _ h ↦ h, fun _ _ h ↦ h⟩)
  | setFocused | setApplicationActive =>
    exact ensures_run_modify.2 (hrests (rests_onHost (.of_objects rfl)))
  | moveExternal id bounds =>
    exact ensures_run_modify.2 (hrests (rests_onHost Host.keepsButtons_moveExternal))
  | maximizeExternal id maximized =>
    exact ensures_run_modify.2 (hrests (rests_onHost Host.keepsButtons_maximizeExternal))

theorem drafted_of_empty (h : e.entries = .empty) : Drafted e := by
  intro k x hx
  rw [h] at hx
  cases hx

theorem Course.drafted (hc : Course allowed e₀ e) (hd : Drafted e₀) : Drafted e := by
  induction hc with
  | refl => exact hd
  | tail _ hstep ih =>
    obtain ⟨call, result, -, hrun⟩ := hstep
    exact (turn_of_run ih hrun).drafted ih

theorem Session.drafted {allowed : Engine → Request → Prop} (hs : Session allowed e₀ e)
    (hd : Drafted e₀) : Drafted e := by
  induction hs with
  | start => exact hd
  | step _ _ hrun ih => exact (turn_request ih hrun).drafted ih

theorem Course.invariant {I : Engine → Prop} (hc : Course allowed e₀ e) (hd : Drafted e₀)
    (hI : I e₀)
    (hturn : ∀ {e call e'}, Drafted e → allowed e call → Turn e call e' → I e → I e') : I e := by
  suffices h : Drafted e ∧ I e from h.2
  induction hc with
  | refl => exact ⟨hd, hI⟩
  | tail _ hstep ih =>
    obtain ⟨call, result, hallowed, hrun⟩ := hstep
    have hturned := turn_of_run ih.1 hrun
    exact ⟨hturned.drafted ih.1, hturn ih.1 hallowed hturned ih.2⟩

end ToolDock.Engine
