import ToolDock.Engine.Decoration

/-!
Showing and hiding. A slot shows one internal window at a time: showing a window evicts the one in
its slot, and hiding it brings the newest evicted one back.
-/

namespace ToolDock.Engine

inductive HideMutation where
  | none
  | removeStripeButton
  /-- The window goes back to the default pane and loses its stripe button. -/
  | removeFromStripe
deriving DecidableEq, Repr

/-- The placement of a window that was removed from its stripe. The order means nothing on another
pane. -/
def offStripe (info : WindowInfo) : WindowInfo :=
  if info.pane = defaultPane then { info with showStripeButton := false }
  else { info with showStripeButton := false, pane := defaultPane, order := unassignedOrder }

def applyMutation (e : Engine) (key : SlotKey) (info : WindowInfo) :
    HideMutation → WindowInfo × Engine
  | .none => (info, e)
  | .removeStripeButton => (info, e.removeStripeButton key)
  | .removeFromStripe => (offStripe info, e.removeStripeButton key)

def deactivateWindow (e : Engine) (key : SlotKey) (info : WindowInfo) (dirty : Bool)
    (mutation : HideMutation) : WindowInfo × Engine :=
  let e := { e with activeStack := e.activeStack.remove key false }
  let (info, e) :=
    e.applyMutation key { info with visible := false, activeOnStart := false } mutation
  e.removeDecorators key info dirty

def deactivateRegistered (e : Engine) (key : SlotKey) (dirty : Bool) : Engine :=
  let (info, e) := e.registeredInfo key
  let (info, e) := e.deactivateWindow key info dirty .none
  e.commit key info

/-- Takes one occupant out of its slot. A docked window that does not hide by itself is
remembered. -/
def evict (e : Engine) (dirty : Bool) (key : SlotKey) : Engine :=
  let (info, e) := e.registeredInfo key
  let e :=
    if e.settings.stackEnabled && info.isDocked && !info.autoHide then
      { e with sideStack := SideStack.push e.sideStack info }
    else e
  let (info, e) := e.deactivateWindow key info dirty .none
  (e.commit key info).fire .hideToolWindow info.id

def occupants (e : Engine) (key : SlotKey) (slot : Slot) : List SlotKey :=
  e.keysWhere fun other entry ↦ other != key && entry.info.occupiesSlot && entry.info.slot == slot

def evictSlot (e : Engine) (key : SlotKey) (info : WindowInfo) (dirty : Bool) : Engine :=
  (e.occupants key info.slot).foldl (·.evict dirty ·) e

def forgetEvicted (e : Engine) (id : String) : Engine :=
  if e.settings.stackEnabled then { e with sideStack := SideStack.remove e.sideStack id } else e

def assignedOrder (info : WindowInfo) : Action Int32 := do
  if info.hasOrder then return info.order
  check ((← get).layout.nextOrder info.pane info.anchor)

/-- Shows the window that a placement describes. An unavailable window stays hidden; the result
tells whether the window was shown. -/
def showWindow (key : SlotKey) (info : WindowInfo) (dirty : Bool) : Action Bool := do
  if !(← get).entryIs key Entry.available then return false
  let order ← assignedOrder info
  let info := { info with visible := true, showStripeButton := true, order := order }
  if info.windowType.isInternal then modify (·.evictSlot key info dirty)
  modify (·.commit key info)
  addDecorator key info dirty
  modify fun e ↦
    ((e.forgetEvicted info.id).ensureStripeButton key info).fire .toolWindowShown info.id
  return true

def isWhereEvicted (current stored : WindowInfo) : Bool :=
  !current.visible && current.slot == stored.slot && current.windowType == stored.windowType
    && current.autoHide == stored.autoHide

/-- Goes through evicted placements, newest first, until one is from the slot `slot` and its window
can be shown there. The others are forgotten. -/
def restoreFrom (anchor : Anchor) (slot : Slot) (dirty : Bool) : List WindowInfo → Action Unit
  | [] => return
  | stored :: rest => do
    modify fun e ↦ { e with sideStack := e.sideStack.set anchor rest }
    if stored.split != slot.split || stored.pane != slot.pane then
      restoreFrom anchor slot dirty rest
    else
      match (← get).keyOf? stored.id with
      | none => restoreFrom anchor slot dirty rest
      | some key =>
        if !(← get).entryIs key Entry.available then restoreFrom anchor slot dirty rest
        else
          let current ← takeInfo key
          if !isWhereEvicted current stored then restoreFrom anchor slot dirty rest
          else if ← showWindow key current dirty then return
          else restoreFrom anchor slot dirty rest

def restoreEvicted (hidden : WindowInfo) (dirty : Bool) : Action Unit := do
  restoreFrom hidden.anchor hidden.slot dirty ((← get).sideStack.get hidden.anchor)

def neighbours (e : Engine) (key : SlotKey) (info : WindowInfo) : List SlotKey :=
  e.keysWhere fun other entry ↦
    other != key && entry.info.occupiesSlot && entry.info.isAt info.pane info.anchor

def clearSide (e : Engine) (key : SlotKey) (info : WindowInfo) (dirty : Bool) : Engine :=
  let e := (e.neighbours key info).foldl (·.deactivateRegistered · dirty) e
  { e with sideStack := SideStack.clearAnchor e.sideStack info.anchor }

/-- Hides a window, and the others at its anchor if `hideSide` is set; otherwise the window that it
evicted comes back. -/
def hideWindow (key : SlotKey) (info : WindowInfo) (dirty hideSide : Bool)
    (mutation : HideMutation) : Action Unit := do
  if hideSide && info.windowType.isInternal then modify (·.clearSide key info dirty)
  let hidden ← modifyGet fun e ↦
    let (hidden, e) := e.deactivateWindow key info dirty mutation
    (hidden, e.commit key hidden)
  if info.visible && !hideSide && (← get).settings.stackEnabled && hidden.windowType.isInternal then
    restoreEvicted hidden dirty

end ToolDock.Engine
