import ToolDock.Modifiers

/-!
The double press of the activation modifier, which overlays the stripes while the second press
lasts. Times are milliseconds.
-/

namespace ToolDock

structure KeyEvent where
  code : KeyCode
  pressed : Bool
  /-- The modifiers held after the event. -/
  modifiers : Modifiers
  mouseButtonDown : Bool
deriving DecidableEq, Repr

inductive OverlayChange where
  | appear
  | vanish
deriving DecidableEq, Repr

inductive KeyState where
  | waiting
  | pressed
  | released
  | hold
deriving DecidableEq, Repr, Inhabited

structure KeyChord where
  state : KeyState
  mask : Modifiers
  delay : Nat
  /-- When a pending second press expires. -/
  deadline : Option Nat
  overlaid : Bool
  /-- Whether the overlay is never requested. -/
  suppressed : Bool
deriving DecidableEq, Repr

namespace KeyChord

def new (mask : Modifiers) (delay : Nat) : KeyChord := ⟨.waiting, mask, delay, none, false, false⟩

def reset (k : KeyChord) : Option OverlayChange × KeyChord :=
  (if k.overlaid then some .vanish else none,
    { k with state := .waiting, deadline := none, overlaid := false })

def tick (k : KeyChord) (now : Nat) : Option OverlayChange × KeyChord :=
  match k.deadline with
  | some deadline =>
    if deadline ≤ now then
      let expired := { k with deadline := none }
      if k.state = .hold then (none, expired) else expired.reset
    else (none, k)
  | none => (none, k)

def press (k : KeyChord) : Option OverlayChange × KeyChord :=
  match k.state with
  | .waiting => (none, { k with state := .pressed })
  | .released =>
    let held := { k with state := .hold, deadline := none }
    if k.suppressed then (none, held) else (some .appear, { held with overlaid := true })
  | .pressed | .hold => (none, k)

def release (k : KeyChord) (now : Nat) : Option OverlayChange × KeyChord :=
  if k.state = .pressed then
    (none, { k with state := .released, deadline := some (now + k.delay) })
  else k.reset

def handle (k : KeyChord) (e : KeyEvent) (now : Nat) : Option OverlayChange × KeyChord :=
  if !e.code.isModifier then
    if e.modifiers.isEmpty then k.reset else (none, k)
  else if k.mask.isEmpty then k.reset
  else if !k.mask.contains e.code.modifiers || e.mouseButtonDown then (none, k)
  else if e.pressed then
    if e.modifiers = k.mask then k.press else k.reset
  else k.release now

/-- Whatever the expiry itself changes is not reported: the overlay is only up in `hold`, which
has no deadline. -/
def onKey (k : KeyChord) (e : KeyEvent) (now : Nat) : Option OverlayChange × KeyChord :=
  (k.tick now).2.handle e now

end KeyChord

end ToolDock
