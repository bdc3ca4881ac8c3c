import ToolDock.Window.Info

/-!
Placements of windows that were evicted from their slots, one stack for each anchor, newest first.
Main statements: `get_push`, `get_remove` and `get_clearAnchor` say what the operations do to the
stack of an anchor.
-/

namespace ToolDock

abbrev SideStack := PerAnchor (List WindowInfo)

namespace SideStack

def empty : SideStack := .const []

def push (s : SideStack) (info : WindowInfo) : SideStack :=
  s.set info.anchor (info :: s.get info.anchor)

def pop (s : SideStack) (a : Anchor) : Option (WindowInfo × SideStack) :=
  match s.get a with
  | [] => none
  | info :: rest => some (info, s.set a rest)

def remove (s : SideStack) (id : String) : SideStack := s.map (·.filter (·.id != id))

def clearAnchor (s : SideStack) (a : Anchor) : SideStack := s.set a []

def size (s : SideStack) (a : Anchor) : Nat := (s.get a).length

variable {s : SideStack} {info : WindowInfo} {a b : Anchor} {id : String}

theorem get_empty : empty.get a = [] := PerAnchor.get_const [] a

theorem get_push :
    (s.push info).get a = if a = info.anchor then info :: s.get a else s.get a := by
  rw [push, PerAnchor.get_set]
  by_cases h : a = info.anchor
  · rw [if_pos h, if_pos h, h]
  · rw [if_neg h, if_neg h]

theorem get_remove : (s.remove id).get a = (s.get a).filter (·.id != id) := PerAnchor.get_map _ _ _

theorem get_clearAnchor : (s.clearAnchor b).get a = if a = b then [] else s.get a :=
  PerAnchor.get_set _ _ _ _

end SideStack

end ToolDock
