namespace ToolDock

structure Modifiers where
  shift : Bool
  control : Bool
  command : Bool
  alt : Bool
deriving DecidableEq, Repr, Inhabited

namespace Modifiers

def none : Modifiers := ⟨false, false, false, false⟩

def isEmpty (m : Modifiers) : Bool := m == none

/-- The set as a mask: shift is 1, control 2, command 4 and alt 8. -/
def toMask (m : Modifiers) : Nat :=
  m.shift.toNat + 2 * m.control.toNat + 4 * m.command.toNat + 8 * m.alt.toNat

def ofMask (n : Nat) : Modifiers := ⟨n.testBit 0, n.testBit 1, n.testBit 2, n.testBit 3⟩

def union (a b : Modifiers) : Modifiers :=
  ⟨a.shift || b.shift, a.control || b.control, a.command || b.command, a.alt || b.alt⟩

def contains (a b : Modifiers) : Bool := a.union b == a

def size (m : Modifiers) : Nat :=
  m.shift.toNat + m.control.toNat + m.command.toNat + m.alt.toNat

def ofName? (name : String) : Option Modifiers :=
  let lower := name.map Char.toLower
  if lower == "shift" then some { none with shift := true }
  else if lower == "ctrl" || lower == "control" then some { none with control := true }
  else if lower == "meta" || lower == "cmd" || lower == "command" then
    some { none with command := true }
  else if lower == "alt" || lower == "option" then some { none with alt := true }
  else Option.none

theorem ofMask_toMask (m : Modifiers) : ofMask m.toMask = m := by
  obtain ⟨a, b, c, d⟩ := m
  cases a <;> cases b <;> cases c <;> cases d <;> decide

end Modifiers

inductive KeyCode where
  | shift
  | control
  | command
  | alt
  /-- Any key that is no modifier. -/
  | other (code : UInt32)
deriving DecidableEq, Repr

namespace KeyCode

def modifiers : KeyCode → Modifiers
  | .shift => { Modifiers.none with shift := true }
  | .control => { Modifiers.none with control := true }
  | .command => { Modifiers.none with command := true }
  | .alt => { Modifiers.none with alt := true }
  | .other _ => .none

def isModifier : KeyCode → Bool
  | .other _ => false
  | _ => true

end KeyCode

/-- The modifier that overlays the stripes: the single modifier of the activation shortcut,
otherwise the default of the platform. Empty when the gesture is disabled. -/
def activationMask (shortcut : Option Modifiers) (disabled isMac : Bool) : Modifiers :=
  if disabled then .none
  else
    let default := if isMac then KeyCode.command.modifiers else KeyCode.alt.modifiers
    match shortcut with
    | some m => if m.size == 1 then m else default
    | none => default

end ToolDock
