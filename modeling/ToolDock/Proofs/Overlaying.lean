import Mathlib.Data.List.ReduceOption
import ToolDock.Engine.Session

/-!
The overlay of the stripes from the key presses to the host. A chord sees key events and the time
that passes, in any order and with any timestamps. What it keeps between two of them is `Timed`: a
pending second press has a deadline, and the overlay is up just while the second press lasts. An
expiry can therefore never end an overlay, which is why the one that precedes every key event may
go unreported.

Main statements: `KeyChord.Timed.step` for one input, `KeyChord.alternates_changes` for a run of
them, and `Engine.stripesOverlaid_heed_iff` for what reaches the host.
-/

namespace ToolDock

/-- What a chord is told: a key event, or only that time passes. -/
inductive ChordInput where
  | key (event : KeyEvent) (now : Nat)
  | tick (now : Nat)
deriving DecidableEq, Repr

inductive OverlayChange.Alternates : OverlayChange → List OverlayChange → Prop
  | nil (c : OverlayChange) : Alternates c []
  | appear {cs : List OverlayChange} : Alternates .vanish cs → Alternates .appear (.appear :: cs)
  | vanish {cs : List OverlayChange} : Alternates .appear cs → Alternates .vanish (.vanish :: cs)

namespace KeyChord

variable {k : KeyChord}

def step (k : KeyChord) : ChordInput → Option OverlayChange × KeyChord
  | .key event now => k.onKey event now
  | .tick now => k.tick now

/-- The chord after some inputs. -/
def after (k : KeyChord) : List ChordInput → KeyChord
  | [] => k
  | i :: is => (k.step i).2.after is

def answers (k : KeyChord) : List ChordInput → List (Option OverlayChange)
  | [] => []
  | i :: is => (k.step i).1 :: (k.step i).2.answers is

def changes (k : KeyChord) (is : List ChordInput) : List OverlayChange :=
  (k.answers is).reduceOption

def due (k : KeyChord) : OverlayChange := if k.overlaid then .vanish else .appear

/-- Only a released chord has a deadline, only a held one is overlaid, and none is suppressed. -/
structure Timed (k : KeyChord) : Prop where
  deadline : k.deadline.isSome ↔ k.state = .released
  overlaid : k.overlaid = true ↔ k.state = .hold
  unsuppressed : k.suppressed = false

theorem Timed.new (mask : Modifiers) (delay : Nat) : Timed (.new mask delay) := by
  constructor <;> simp [KeyChord.new]

/-- An answer is right if it is the change that was due, and then the other one is due, or if there
is no change and the same one stays due. -/
def Answered (k : KeyChord) (a : Option OverlayChange × KeyChord) : Prop :=
  Timed a.2 ∧ (a.1 = none ∧ a.2.overlaid = k.overlaid ∨
    a.1 = some k.due ∧ a.2.overlaid = !k.overlaid)

theorem Timed.unanswered (h : Timed k) : Answered k (none, k) := ⟨h, .inl ⟨rfl, rfl⟩⟩

theorem Timed.reset (h : Timed k) : Answered k k.reset := by
  refine ⟨⟨by simp [KeyChord.reset], by simp [KeyChord.reset], h.unsuppressed⟩, ?_⟩
  cases ho : k.overlaid <;> simp [KeyChord.reset, due, ho]

theorem Timed.tick (h : Timed k) (now : Nat) :
    (k.tick now).1 = none ∧ Timed (k.tick now).2 ∧ (k.tick now).2.overlaid = k.overlaid := by
  unfold KeyChord.tick
  split
  case h_2 => exact ⟨rfl, h, rfl⟩
  case h_1 deadline hd =>
    have hreleased : k.state = .released := h.deadline.mp (by simp [hd])
    have hdown : k.overlaid = false := by
      rw [Bool.eq_false_iff]
      exact fun hup ↦ by simpa [hreleased] using h.overlaid.mp hup
    split
    case isFalse => exact ⟨rfl, h, rfl⟩
    case isTrue =>
      rw [if_neg (by simp [hreleased])]
      refine ⟨by simp [KeyChord.reset, hdown], ?_, by simp [KeyChord.reset, hdown]⟩
      exact ⟨by simp [KeyChord.reset], by simp [KeyChord.reset], h.unsuppressed⟩

theorem Timed.press (h : Timed k) : Answered k k.press := by
  have hup := h.overlaid
  have hdeadline := h.deadline
  unfold KeyChord.press
  cases hs : k.state with
  | waiting =>
    refine ⟨⟨?_, ?_, h.unsuppressed⟩, .inl ⟨rfl, rfl⟩⟩
    · simpa [hs] using hdeadline
    · simpa [hs] using hup
  | released =>
    have hdown : k.overlaid = false := by simpa [hs] using hup
    simp only [h.unsuppressed, Bool.false_eq_true, if_false]
    exact ⟨⟨by simp, by simp, rfl⟩, .inr ⟨by simp [due, hdown], by simp [hdown]⟩⟩
  | pressed => exact h.unanswered
  | hold => exact h.unanswered

theorem Timed.release (h : Timed k) (now : Nat) : Answered k (k.release now) := by
  unfold KeyChord.release
  split
  case isFalse => exact h.reset
  case isTrue hs =>
    refine ⟨⟨by simp, ?_, h.unsuppressed⟩, .inl ⟨rfl, rfl⟩⟩
    simpa [hs] using h.overlaid

theorem Timed.handle (h : Timed k) (event : KeyEvent) (now : Nat) :
    Answered k (k.handle event now) := by
  unfold KeyChord.handle
  split_ifs
  · exact h.reset
  · exact h.unanswered
  · exact h.reset
  · exact h.unanswered
  · exact h.press
  · exact h.reset
  · exact h.release now

theorem Timed.step (h : Timed k) (i : ChordInput) : Answered k (k.step i) := by
  cases i with
  | tick now =>
    obtain ⟨hnone, htimed, hsame⟩ := h.tick now
    exact ⟨htimed, .inl ⟨hnone, hsame⟩⟩
  | key event now =>
    obtain ⟨-, htimed, hsame⟩ := h.tick now
    have ha := htimed.handle event now
    simpa only [Answered, due, hsame, KeyChord.step, onKey] using ha

theorem Timed.after (h : Timed k) (is : List ChordInput) : Timed (k.after is) := by
  induction is generalizing k with
  | nil => exact h
  | cons i is ih => exact ih (h.step i).1

/-- From any chord that keeps time, the changes come in turns, beginning with the one due. -/
theorem alternates_changes (h : Timed k) (is : List ChordInput) :
    k.due.Alternates (k.changes is) := by
  induction is generalizing k with
  | nil => exact .nil _
  | cons i is ih =>
    obtain ⟨htimed, ⟨hnone, hsame⟩ | ⟨hsome, hother⟩⟩ := h.step i
    · have hrest := ih htimed
      simpa [changes, answers, hnone, due, hsame] using hrest
    · -- the change that was due is reported, and the other one is due next
      have hrest := ih htimed
      simp only [changes, answers, hsome, List.reduceOption_cons_of_some]
      cases ho : k.overlaid <;> simp only [due, ho, hother] at hrest ⊢
      · exact .appear hrest
      · exact .vanish hrest

end KeyChord

def OverlayChange.op : OverlayChange → HostOp
  | .appear => .setStripesOverlaid true
  | .vanish => .setStripesOverlaid false

def HostOp.overlaid (up : Bool) : HostOp → Bool
  | .setStripesOverlaid overlaid => overlaid
  | _ => up

def Host.stripesOverlaid (h : Host) : Bool := h.ops.foldl HostOp.overlaid false

namespace KeyChord

variable {k : KeyChord}

theorem overlaid_changes (h : Timed k) (is : List ChordInput) :
    ((k.changes is).map OverlayChange.op).foldl HostOp.overlaid k.overlaid =
      (k.after is).overlaid := by
  induction is generalizing k with
  | nil => rfl
  | cons i is ih =>
    obtain ⟨htimed, ⟨hnone, hsame⟩ | ⟨hsome, hother⟩⟩ := h.step i
    · have hrest := ih htimed
      simpa [changes, answers, hnone, hsame, after] using hrest
    · have hrest := ih htimed
      have hup : HostOp.overlaid k.overlaid k.due.op = !k.overlaid := by
        cases ho : k.overlaid <;> simp [due, ho, OverlayChange.op, HostOp.overlaid]
      simpa [changes, answers, hsome, hup, hother, after] using hrest

end KeyChord

namespace Engine

variable {e : Engine}

def heed (e : Engine) : ChordInput → Engine
  | .key event now => e.dispatchKey event now
  | .tick now => e.tick now

theorem heed_eq (e : Engine) (i : ChordInput) :
    e.heed i = { e with keyChord := (e.keyChord.step i).2 }.overlay (e.keyChord.step i).1 := by
  cases i <;> rfl

@[simp]
theorem keyChord_overlay (e : Engine) (c : Option OverlayChange) :
    (e.overlay c).keyChord = e.keyChord := by
  rcases c with _ | _ | _ <;> rfl

@[simp]
theorem ops_overlay (e : Engine) (c : Option OverlayChange) :
    (e.overlay c).host.ops = e.host.ops ++ c.toList.map OverlayChange.op := by
  rcases c with _ | _ | _ <;> simp [overlay, onHost, Host.record, OverlayChange.op]

theorem foldl_heed (e : Engine) (is : List ChordInput) :
    (is.foldl heed e).keyChord = e.keyChord.after is ∧
      (is.foldl heed e).host.ops =
        e.host.ops ++ (e.keyChord.changes is).map OverlayChange.op := by
  induction is generalizing e with
  | nil => simp [KeyChord.after, KeyChord.changes, KeyChord.answers]
  | cons i is ih =>
    obtain ⟨hchord, hops⟩ := ih (e.heed i)
    rw [List.foldl_cons, hchord, hops, heed_eq]
    refine ⟨by simp [KeyChord.after], ?_⟩
    cases hc : (e.keyChord.step i).1 <;> simp [KeyChord.changes, KeyChord.answers, hc]

/-- After any key events and ticks, with any timestamps, the deadline is set just in `released` and
the overlay flag just in `hold`, the changes came in turns beginning with the overlay's appearance,
and no expiry (the one before a key event in particular) has a change to report. The host was asked
for these changes and for nothing else, and overlays its stripes just in `hold`. -/
theorem stripesOverlaid_heed_iff (desktop : Desktop) (settings : Settings) (mask : Modifiers)
    (delay : Nat) (is : List ChordInput) :
    let k := (KeyChord.new mask delay).after is
    let changes := (KeyChord.new mask delay).changes is
    let e := is.foldl heed (.new (.new desktop) settings (.new mask delay))
    (k.deadline.isSome ↔ k.state = .released) ∧ (k.overlaid = true ↔ k.state = .hold) ∧
      OverlayChange.Alternates .appear changes ∧ (∀ now, (k.tick now).1 = none) ∧
      e.keyChord = k ∧ e.host.ops = changes.map OverlayChange.op ∧
      (e.host.stripesOverlaid = true ↔ k.state = .hold) := by
  intro k changes e
  have hnew := KeyChord.Timed.new mask delay
  have htimed : KeyChord.Timed k := hnew.after is
  obtain ⟨hchord, happended⟩ := foldl_heed (.new (.new desktop) settings (.new mask delay)) is
  have hops : e.host.ops = changes.map OverlayChange.op := happended
  have hup : e.host.stripesOverlaid = k.overlaid := by
    rw [Host.stripesOverlaid, hops]
    exact KeyChord.overlaid_changes hnew is
  exact ⟨htimed.deadline, htimed.overlaid, KeyChord.alternates_changes hnew is,
    fun now ↦ (htimed.tick now).1, hchord, hops, by rw [hup, htimed.overlaid]⟩

/-- A press, a release and a second press that lasts, all within the delay. -/
example :
    let press := KeyEvent.mk .alt true KeyCode.alt.modifiers false
    let release := KeyEvent.mk .alt false .none false
    (KeyChord.new KeyCode.alt.modifiers 300).changes
      [.key press 0, .key release 50, .key press 100, .tick 500, .key release 900] =
        [.appear, .vanish] := by
  decide

end Engine

end ToolDock
