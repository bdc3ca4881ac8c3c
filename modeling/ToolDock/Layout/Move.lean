import ToolDock.Layout.Basic

/-!
Moving a window along and between stripes. The orders of a stripe are renumbered from zero after
every move, across its two slots.
-/

namespace ToolDock.Layout

variable {ws : List WindowInfo}

/-- Raises by one the order of every window that `here` selects, in layout order. A window whose
order has no successor stops it: the windows before it keep their new orders. -/
def raiseOrders (here : WindowInfo → Bool) : List WindowInfo → List WindowInfo × Option Fault
  | [] => ([], none)
  | w :: ws =>
    if here w then
      match Checked.add32 w.order 1 with
      | .ok order =>
        let (rest, fault) := raiseOrders here ws
        ({ w with order := order } :: rest, fault)
      | .error fault => (w :: ws, some fault)
    else
      let (rest, fault) := raiseOrders here ws
      (w :: rest, fault)

theorem map_id_raiseOrders (here : WindowInfo → Bool) (ws : List WindowInfo) :
    (raiseOrders here ws).1.map WindowInfo.id = ws.map WindowInfo.id := by
  induction ws with
  | nil => rfl
  | cons w ws ih =>
    unfold raiseOrders
    split
    · split
      · simp [ih]
      · rfl
    · simp [ih]

/-- The number of windows that come before `w` on its stripe: those with a smaller order, and of
those with the same order the ones in front of it in the layout. -/
def rank (here : WindowInfo → Bool) (front back : List WindowInfo) (w : WindowInfo) : Nat :=
  front.countP (fun o ↦ here o && o.order ≤ w.order)
    + back.countP fun o ↦ here o && o.order < w.order

def renumberFrom (here : WindowInfo → Bool) (front : List WindowInfo) :
    List WindowInfo → List WindowInfo
  | [] => []
  | w :: ws =>
    (if here w then { w with order := Int32.ofNat (rank here front ws w) } else w)
      :: renumberFrom here (front ++ [w]) ws

theorem map_id_renumberFrom (here : WindowInfo → Bool) (front ws : List WindowInfo) :
    (renumberFrom here front ws).map WindowInfo.id = ws.map WindowInfo.id := by
  induction ws generalizing front with
  | nil => rfl
  | cons w ws ih =>
    simp only [renumberFrom, List.map_cons, ih]
    split <;> rfl

def isOrderedAt (pane : String) (anchor : Anchor) (w : WindowInfo) : Bool :=
  w.isAt pane anchor && w.hasOrder

def renumbered (l : Layout) (pane : String) (anchor : Anchor) : Layout :=
  l.mapWindows (renumberFrom (isOrderedAt pane anchor) [])
    (map_id_renumberFrom (isOrderedAt pane anchor) [])

def relocated (l : Layout) (id pane : String) (anchor : Anchor) (order : Int32) : Layout :=
  l.mapWindows
    (fun ws ↦ ws.map fun w ↦
      if w.id = id then { w with pane := pane, anchor := anchor, order := order } else w)
    (fun ws ↦ by
      rw [List.map_map]
      refine List.map_congr_left fun w _ ↦ ?_
      simp only [Function.comp]
      split <;> rfl)

def reordered (before after : Layout) (id : String) : List WindowInfo :=
  after.windows.filter fun w ↦ w.id != id && (before.get? w.id).map (·.order) != some w.order

/-- Moves `id` to `order` at another place, or to the end for the unassigned order, and renumbers
the old and the new stripe. Gives every other window whose order changed. A fault keeps what was
raised before it. -/
def setAnchor (id pane : String) (anchor : Anchor) (order : Int32) :
    EStateM Fault Layout (List WindowInfo) := fun l ↦
  match l.get? id with
  | none => .ok [] l
  | some current =>
    let finish (order : Int32) (room : Layout) :=
      let moved := (room.relocated id pane anchor order).renumbered pane anchor
      let settled :=
        if current.isAt pane anchor then moved
        else moved.renumbered current.pane current.anchor
      .ok (reordered l settled id) settled
    if order = unassignedOrder then
      match l.nextOrder pane anchor with
      | .ok last => finish last l
      | .error fault => .error fault l
    else
      let above (w : WindowInfo) := w.id != id && isOrderedAt pane anchor w && order ≤ w.order
      let room := l.mapWindows (fun ws ↦ (raiseOrders above ws).1) (map_id_raiseOrders above)
      match (raiseOrders above l.windows).2 with
      | none => finish order room
      | some fault => .error fault room

end ToolDock.Layout
