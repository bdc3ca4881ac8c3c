import ToolDock.Geometry

namespace ToolDock

structure Screen where
  id : UInt32
  /-- The usable area. -/
  frame : Rect
deriving DecidableEq, Repr, Inhabited

structure ScreenSet where
  screens : List Screen
deriving DecidableEq, Repr, Inhabited

namespace ScreenSet

def precedes (a b : Point × Screen) : Bool :=
  a.1.x < b.1.x || (a.1.x == b.1.x && a.1.y ≤ b.1.y)

/-- The screens by the positions of their centers, ties in the given order. A single screen needs
no center. -/
def orderByPosition : List Screen → Checked (List Screen)
  | [] => return []
  | [s] => return [s]
  | screens => do
    let placed ← screens.mapM fun s ↦ return (← s.frame.center, s)
    return (placed.mergeSort precedes).map (·.2)

def startsAtOrigin (s : Screen) : Bool := s.frame.origin == ⟨0, 0⟩

/-- The first screen that starts at the origin is the main one and goes to the front; the others
keep their order. -/
def mainFirst (screens : List Screen) : List Screen :=
  match screens.find? startsAtOrigin with
  | some main => main :: screens.eraseP startsAtOrigin
  | none => screens

def ofList (screens : List Screen) : Checked ScreenSet :=
  return ⟨mainFirst (← orderByPosition screens)⟩

def isEmpty (s : ScreenSet) : Bool := s.screens.isEmpty

def main? (s : ScreenSet) : Option Screen := s.screens.head?

def isPointVisible (s : ScreenSet) (p : Point) : Checked Bool :=
  s.screens.anyM (·.frame.contains p)

def double (n : Int) : Float := Float.ofBits (Float.Model.ofInt n).toBits

/-- Whether more than a tenth of the total area is in the part. -/
def isSensiblePortion (part total : Int) : Bool := double part / double total > 0.1

def isRectVisible (s : ScreenSet) (r : Rect) : Checked Bool :=
  if r.isEmpty then return false
  else do
    let total ← r.area
    s.screens.anyM fun screen ↦ do
      match ← screen.frame.intersection r with
      | some i => return isSensiblePortion (← i.area) total
      | none => return false

def nearestOf : List (Int × Screen) → Option (Int × Screen)
  | [] => none
  | s :: rest =>
    match nearestOf rest with
    | some t => if t.1 < s.1 then some t else some s
    | none => some s

def nearest? (s : ScreenSet) (r : Rect) : Checked (Option Screen) := do
  let center ← r.center
  let placed ← s.screens.mapM fun screen ↦ return (← screen.frame.distanceSq center, screen)
  return (nearestOf placed).map (·.2)

end ScreenSet

end ToolDock
