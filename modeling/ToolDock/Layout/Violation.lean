import ToolDock.Layout.Basic
import ToolDock.Text.Quoted

/-!
What a layout can be wrong about: an order given twice in one slot's bucket, and a slot with
several visible internal windows.
-/

namespace ToolDock

inductive LayoutViolation where
  | duplicateOrder (slot : Slot) (order : Int32) (ids : List String)
  | sharedSlot (slot : Slot) (ids : List String)
deriving DecidableEq, Repr

namespace LayoutViolation

def placeText (s : Slot) : String :=
  s.pane ++ "/" ++ s.anchor.name ++ " (split=" ++ (if s.split then "true" else "false") ++ ")"

def message : LayoutViolation → String
  | .duplicateOrder slot order ids =>
    "windows " ++ Quoted.quoteAll ids ++ " share order " ++ Digits.integer order.toInt ++ " at "
      ++ placeText slot
  | .sharedSlot slot ids =>
    "windows " ++ Quoted.quoteAll ids ++ " are all visible in slot " ++ placeText slot

end LayoutViolation

namespace Layout

/-- The keys that several of the windows have, in order of first occurrence, each with the ids of
those windows. -/
def collisions {κ : Type} [BEq κ] (key : WindowInfo → κ) (ws : List WindowInfo) :
    List (κ × List String) :=
  (ws.map key).eraseDups.filterMap fun k ↦
    let ids := (ws.filter fun w ↦ key w == k).map WindowInfo.id
    if 1 < ids.length then some (k, ids) else none

/-- Order collisions and then doubly occupied slots, in layout order. -/
def violations (l : Layout) : List LayoutViolation :=
  (collisions (fun w ↦ (w.slot, w.order)) (l.windows.filter (·.hasOrder))).map
      (fun c ↦ .duplicateOrder c.1.1 c.1.2 c.2)
    ++ (collisions WindowInfo.slot (l.windows.filter (·.occupiesSlot))).map
      fun c ↦ .sharedSlot c.1 c.2

end Layout

end ToolDock
