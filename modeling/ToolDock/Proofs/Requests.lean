import ToolDock.Proofs.Admission

/-!
The requests that a host may make about single windows, and what none of them breaks. Main
statements: by `coherent_run_iff` entries and layout agree after a request and no two windows share
a slot, unless a registration does not fit; by `decorated_run` what the host shows is then what
entries and layout say. Both hold throughout a session.
-/

namespace ToolDock.Engine

inductive Request where
  | register (r : RegisterRequest)
  | unregister (id : String)
  | reveal (id : String)
  | hide (id : String)
  | hideWith (id : String) (options : HideOptions)
  | activate (id : String) (autoFocus : Bool)
  | deactivate (id : String)
  | toolWindowFocused (id : String)
  | focusMovedTo (focused : Option String)
  | focusByDefault
  | setAnchor (id pane : String) (anchor : Anchor) (order : Int32)
  | setSideTool (id : String) (split : Bool)
  | setSideToolAndAnchor (id pane : String) (anchor : Anchor) (order : Int32) (split : Bool)
  | setType (id : String) (type : WindowType)
  | setAutoHide (id : String) (autoHide : Bool)
  | setContentUi (id : String) (ui : ContentUi)
  | setShowStripeButton (id : String) (showButton : Bool)
  | makeAvailable (id : String)
  | makeUnavailable (id : String)
  | movedOrResized (id : String) (g : DecoratorGeometry)
  | addPane (pane : String)
  | removePane (pane : String)

namespace Request

/-- The operation that a request asks for; what it answers besides does not matter here. -/
def run : Request → Operation Unit
  | register r => Engine.register r
  | unregister id => modify (·.unregister id)
  | reveal id => Engine.reveal id
  | hide id => Engine.hide id
  | hideWith id options => Engine.hideWith id options
  | activate id autoFocus => Engine.activate id autoFocus
  | deactivate id => Engine.deactivate id
  | toolWindowFocused id => Engine.toolWindowFocused id
  | focusMovedTo focused => (Engine.focusMovedTo focused : Action Unit)
  | focusByDefault => discard Engine.focusByDefault
  | setAnchor id pane anchor order => Engine.setAnchor id pane anchor order
  | setSideTool id split => Engine.setSideTool id split
  | setSideToolAndAnchor id pane anchor order split =>
    Engine.setSideToolAndAnchor id pane anchor order split
  | setType id type => Engine.setType id type
  | setAutoHide id autoHide => Engine.setAutoHide id autoHide
  | setContentUi id ui => Engine.setContentUi id ui
  | setShowStripeButton id showButton => Engine.setShowStripeButton id showButton
  | makeAvailable id => Engine.makeAvailable id
  | makeUnavailable id => Engine.makeUnavailable id
  | movedOrResized id g => Engine.movedOrResized id g
  | addPane pane => modify (·.addPane pane)
  | removePane pane => (Engine.removePane pane : Action Unit)

/-- What a registration must satisfy; any other request may be made at any time. -/
def Fits (e : Engine) : Request → Prop
  | register r => Engine.Fits r e
  | _ => True

/-- Registration of a window that is visible only if it gets a button, has content and is
available; any other request. -/
def Presents (e : Engine) : Request → Prop
  | register r => ∀ info, known? r e.layout = some info →
    info.id = r.id ∧ (info.visible → info.showStripeButton ∧ r.hasContent ∧ r.available)
  | _ => True

end Request

variable {κ : Type} {detail : Int32 × Bool × Bool → κ} {D : Prop} {s : Set SlotKey} {e e' : Engine}
  {request : Request} {result : Except EngineError Unit}

/-- Every request leaves a sound engine sound, one case for each. -/
theorem Sound.run (h : Sound detail D ∅ ∅ e) (hfits : request.Fits e)
    (hpresents : D → request.Presents e) :
    Ensures request.run.run e fun _ e' ↦ Sound detail D ∅ ∅ e' := by
  cases request with
  | register r => exact h.register hfits fun hd info hinfo hv ↦ ((hpresents hd info hinfo).2 hv).1
  | unregister id => exact ensures_run_modify.2 h.unregister
  | reveal id => exact rule_sound.reveal h
  | hide id => exact rule_sound.hideWith h
  | hideWith id options => exact rule_sound.hideWith h
  | activate id autoFocus => exact rule_sound.activate h
  | deactivate id => exact rule_sound.deactivate h
  | toolWindowFocused id => exact rule_sound.toolWindowFocused h
  | focusMovedTo focused => exact ensures_run_lift.2 (rule_sound.focusMovedTo h)
  | focusByDefault => exact rule_sound.focusByDefault.discard h
  | setAnchor id pane anchor order => exact obeys_setAnchor h
  | setSideTool id split => exact obeys_setSideTool h
  | setSideToolAndAnchor id pane anchor order split => exact obeys_setSideToolAndAnchor h
  | setType id type => exact obeys_setType h
  | setAutoHide id autoHide => exact rule_sound.setAutoHide h
  | setContentUi id ui => exact rule_sound.setContentUi h
  | setShowStripeButton id showButton => exact obeys_setShowStripeButton h
  | makeAvailable id => exact obeys_makeAvailable h
  | makeUnavailable id => exact obeys_makeUnavailable h
  | movedOrResized id g => exact rule_sound.movedOrResized h
  | addPane pane => exact ensures_run_modify.2 (h.idle .addPane)
  | removePane pane => exact ensures_run_lift.2 (rule_sound.removePane h)

/-- A request that fits, refused or not, leaves a coherent engine coherent. -/
theorem coherent_run (h : Coherent e) (hfits : request.Fits e)
    (hrun : request.run.run e = .ok result e') : Coherent e' :=
  (Sound.run (D := False) ⟨h, (nomatch ·)⟩ hfits (nomatch ·) hrun).coherent

theorem Request.fits_of_presents (h : request.Presents e) : request.Fits e := by
  cases request with
  | register r =>
    refine ⟨fun info hinfo ↦ (h info hinfo).1, fun info hinfo hv ↦ ?_⟩
    obtain ⟨hb, hc, ha⟩ := (h info hinfo).2 hv
    exact ⟨hc, ha, Or.inl hb⟩
  | _ => trivial

theorem coherentOn_of_empty (h : e.entries = .empty) : CoherentOn detail s e := by
  have hnone : ∀ {k x}, e.standing? k ≠ some x := by
    intro k x hx
    obtain ⟨y, hy, -⟩ := standing?_eq_some.1 hx
    rw [h] at hy
    cases hy
  exact ⟨fun hx ↦ absurd hx hnone, fun hx ↦ absurd hx hnone, fun hx ↦ absurd hx hnone,
    fun _ hx ↦ absurd hx hnone, fun _ hx ↦ absurd hx hnone, fun _ _ hx ↦ absurd hx hnone⟩

theorem decoratedOn_of_empty (h : e.entries = .empty) (hhost : e.host.objects = .empty) :
    DecoratedOn s e := by
  have hnone : ∀ {k x}, e.entries.get? k ≠ some x := by
    intro k x hx
    rw [h] at hx
    cases hx
  refine ⟨fun _ hx ↦ absurd hx hnone, fun hx ↦ absurd hx hnone,
    ⟨fun a ↦ ?_, fun hx ↦ absurd hx hnone⟩, ⟨fun a ↦ ?_, fun hx ↦ absurd hx hnone⟩⟩
  · have hopen : e.host.isOpen a = false := by
      rw [Host.isOpen, hhost]
      rfl
    simp [hopen, hnone]
  · have hbutton : e.host.isButton a = false := by
      rw [Host.isButton, hhost]
      rfl
    simp [hbutton, hnone]

/-- The engines that requests lead to, one after another, as long as each is allowed. -/
inductive Session (allowed : Engine → Request → Prop) (e : Engine) : Engine → Prop
  | start : Session allowed e e
  | step {e₁ e₂ : Engine} {request : Request} {result : Except EngineError Unit} :
    Session allowed e e₁ → allowed e₁ request → request.run.run e₁ = .ok result e₂ →
      Session allowed e e₂

theorem Session.coherent (hs : Session Request.Fits e e') (h : Coherent e) : Coherent e' := by
  induction hs with
  | start => exact h
  | step _ hfits hrun ih => exact coherent_run ih hfits hrun

theorem Session.sound (hs : Session Request.Presents e e') (h : Sound detail D ∅ ∅ e) :
    Sound detail D ∅ ∅ e' := by
  induction hs with
  | start => exact h
  | step _ hp hrun ih => exact ih.run (Request.fits_of_presents hp) (fun _ ↦ hp) hrun

/-- A coherent engine stays coherent unless it accepts a registration that does not fit. -/
theorem coherent_run_iff (h : Coherent e) (hrun : request.run.run e = .ok result e') :
    Coherent e' ↔ (result = .ok () → request.Fits e) := by
  constructor
  · rintro h' rfl
    cases request with
    | register r => exact fits_of_coherent h' hrun
    | _ => trivial
  · intro hfits
    cases result with
    | ok _ => exact coherent_run h (hfits rfl) hrun
    | error error =>
      cases request with
      | register r => exact ensures_register_refused hrun error rfl ▸ h
      | _ =>
        refine coherent_run h ?_ hrun
        trivial

def accepts (e : Engine) (op : Operation Unit) : Bool :=
  match op.run e with
  | .ok (.ok _) _ => true
  | _ => false

theorem exists_run_of_accepts {op : Operation Unit} (h : e.accepts op) :
    ∃ e', op.run e = .ok (.ok ()) e' := by
  unfold accepts at h
  split at h
  case h_1 e' hrun => exact ⟨e', hrun⟩
  case h_2 => cases h

def leadsTo (e : Engine) (op : Operation Unit) (p : Engine → Bool) : Bool :=
  match op.run e with
  | .ok (.ok ()) e' => p e'
  | _ => false

theorem exists_run_of_leadsTo {op : Operation Unit} {p : Engine → Bool} (h : e.leadsTo op p) :
    ∃ e', op.run e = .ok (.ok ()) e' ∧ p e' := by
  unfold leadsTo at h
  split at h
  case h_1 e' hrun => exact ⟨e', hrun, h⟩
  case h_2 => cases h

def registersTo (e : Engine) (r : RegisterRequest) (p : Engine → Bool) : Bool :=
  (known? r e.layout).isNone && e.leadsTo (register r) p

namespace Session

variable {allowed : Engine → Request → Prop} {r : RegisterRequest} {p : Engine → Bool} {e₀ : Engine}

theorem exists_of_leadsTo (hs : Session allowed e₀ e) (h : e.leadsTo request.run p)
    (hallowed : allowed e request) : ∃ e', Session allowed e₀ e' ∧ p e' := by
  obtain ⟨e', hrun, hp⟩ := exists_run_of_leadsTo h
  exact ⟨e', hs.step hallowed hrun, hp⟩

theorem exists_of_registersTo (hs : Session allowed e₀ e) (h : e.registersTo r p)
    (hallowed : known? r e.layout = none → allowed e (.register r)) :
    ∃ e', Session allowed e₀ e' ∧ p e' := by
  rw [registersTo, Bool.and_eq_true, Option.isNone_iff_eq_none] at h
  have hleads : e.leadsTo (Request.register r).run p := h.2
  exact hs.exists_of_leadsTo hleads (hallowed h.1)

theorem exists_presenting (hs : Session Request.Presents e₀ e) (h : e.registersTo r p) :
    ∃ e', Session Request.Presents e₀ e' ∧ p e' :=
  hs.exists_of_registersTo h fun hnone _ hknown ↦ (nomatch hnone.symm.trans hknown)

end Session

theorem exists_session_of_leadsTo {p : Engine → Bool} {e₀ : Engine}
    (hs : Session Request.Fits e₀ e) (h : e.leadsTo request.run p) (hfits : request.Fits e) :
    ∃ e', Session Request.Fits e₀ e' ∧ p e' :=
  hs.exists_of_leadsTo h hfits

theorem exists_session_of_registersTo {r : RegisterRequest} {p : Engine → Bool} {e₀ : Engine}
    (hs : Session Request.Fits e₀ e) (h : e.registersTo r p) :
    ∃ e', Session Request.Fits e₀ e' ∧ p e' := by
  refine hs.exists_of_registersTo h fun hnone ↦ ?_
  constructor
  all_goals
    intro info hknown
    cases hnone.symm.trans hknown

def blank : Engine := .new (.new .default) .default defaultKeyChord

def visibleRequest (hasContent : Bool) : RegisterRequest where
  id := "A"
  anchor := .left
  split := false
  available := true
  hasContent := hasContent
  placement := some { WindowInfo.new "A" .left with visible := true }

def hiddenRequest (id : String) : RegisterRequest where
  id := id
  anchor := .left
  split := false
  available := true
  hasContent := true
  placement := none

theorem coherent_run_visibleRequest :
    ∃ e', (Request.register (visibleRequest true)).run.run blank = .ok (.ok ()) e' ∧
      Coherent e' := by
  obtain ⟨e', hrun⟩ : ∃ e', (Request.register (visibleRequest true)).run.run blank =
      .ok (.ok ()) e' := ⟨_, rfl⟩
  refine ⟨e', hrun, (coherent_run_iff (coherentOn_of_empty rfl) hrun).2 fun _ ↦ ⟨?_, ?_⟩⟩
  · rintro _ ⟨⟩
    rfl
  · rintro _ ⟨⟩ -
    exact ⟨rfl, rfl, Or.inl rfl⟩

/-- Without content the entry of such a window is hidden, but the layout has it visible. -/
theorem not_coherent_visibleRequest :
    Coherent blank ∧ ∃ e', (Request.register (visibleRequest false)).run.run blank =
      .ok (.ok ()) e' ∧ ¬ Coherent e' := by
  refine ⟨coherentOn_of_empty rfl, _, rfl, fun h ↦ ?_⟩
  have hcore := (h.agrees (Set.notMem_empty (⟨0, 0⟩ : SlotKey)) rfl rfl).1
  exact absurd (congrArg Prod.fst hcore) Bool.false_ne_true

/-- Entries agree with the layout about place and type, whatever else they say, only available
windows of the layout are visible, and no two share a slot. -/
def CoherentCore (e : Engine) : Prop := CoherentOn (fun _ ↦ ()) ∅ e

/-- Every window has the decorators that its placement asks for, and the host no others. -/
def Decorated (e : Engine) : Prop := DecoratedOn ∅ e

/-- Whatever windows are asked to do, decorators keep matching what is visible, and the host is left
with nothing that no window holds. -/
theorem decorated_run (hc : CoherentCore e) (hd : Decorated e) (hpresents : request.Presents e)
    (hrun : request.run.run e = .ok result e') : CoherentCore e' ∧ Decorated e' := by
  have hsound : Sound (fun _ ↦ ()) True ∅ ∅ e := ⟨hc, fun _ ↦ hd⟩
  have h := hsound.run (Request.fits_of_presents hpresents) (fun _ ↦ hpresents) hrun
  exact ⟨h.coherent, h.decorated trivial⟩

theorem decorated_run_visibleRequest :
    ∃ e', (Request.register (visibleRequest true)).run.run blank = .ok (.ok ()) e' ∧
      CoherentCore e' ∧ Decorated e' := by
  obtain ⟨e', hrun⟩ : ∃ e', (Request.register (visibleRequest true)).run.run blank =
      .ok (.ok ()) e' := ⟨_, rfl⟩
  refine ⟨e', hrun, decorated_run (coherentOn_of_empty rfl) (decoratedOn_of_empty rfl rfl) ?_ hrun⟩
  rintro _ ⟨⟩
  exact ⟨rfl, fun _ ↦ ⟨rfl, rfl, rfl⟩⟩

end ToolDock.Engine
