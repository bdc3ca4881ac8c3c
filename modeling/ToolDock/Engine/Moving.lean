import ToolDock.Engine.Showing
import ToolDock.Layout.Move

namespace ToolDock.Engine

/-- Runs a change of the layout; what it changed before a fault stays changed. -/
def onLayout {α : Type} (change : EStateM Fault Layout α) : Action α := fun e ↦
  match change e.layout with
  | .ok a layout => .ok a { e with layout := layout }
  | .error f layout => .error f { e with layout := layout }

def relabelEntry (e : Engine) (info : WindowInfo) (key : SlotKey) : Engine :=
  (e.refreshStripeButton key info).applyToEntry key info

def relabelSibling (e : Engine) (info : WindowInfo) : Engine :=
  match e.keyOf? info.id with
  | some key => e.relabelEntry info key
  | none => e

def relabel (key : SlotKey) (pane : String) (anchor : Anchor) (order : Int32) : Action Unit := do
  match (← get).entries.get? key with
  | none => return
  | some entry =>
    let changed ← onLayout (Layout.setAnchor entry.id pane anchor order)
    modify fun e ↦
      let e := match e.layout.get? entry.id with
        | some info => e.relabelEntry info key
        | none => e
      changed.foldl relabelSibling e

def validatePanes (e : Engine) (first second : String) : Engine :=
  let e := e.validatePane first
  if first = second then e else e.validatePane second

def moveVisible (key : SlotKey) (id : String) (info : WindowInfo) (pane : String) (anchor : Anchor)
    (order : Int32) : Action Unit := do
  let before ← get
  let wasFocused := before.host.hasFocus id
  modify (·.removeInternalDecorator key true)
  relabel key pane anchor order
  let moved ← takeInfo key
  let shown ← showWindow key moved true
  if shown && wasFocused then modify (·.requestFocus id)
  modify fun e ↦ (e.validatePanes (before.paneFor info.pane) pane).repaintPane pane

def isThere (info : WindowInfo) (pane : String) (anchor : Anchor) (order : Int32) : Bool :=
  info.isAt pane anchor && (info.order == order || order == unassignedOrder)

def setAnchor (id pane : String) (anchor : Anchor) (order : Int32) : Operation Unit := do
  let key ← keyOf id
  if order < unassignedOrder then throw (.conflictingOrder id order .neverAssigned)
  let pane := (← get).paneFor pane
  let info ← takeInfo key
  if !isThere info pane anchor order then
    if !info.visible || info.isAt pane anchor || info.isExternal then
      relabel key pane anchor order
    else moveVisible key id info pane anchor order
    modify (·.fire .setToolWindowAnchor id)

/-- Runs a change on a hidden window, and shows the window again if it was visible, so that it
claims its new slot by eviction. -/
def whileHidden (key : SlotKey) (change : Action Unit) : Action Unit := do
  let info ← takeInfo key
  let before ← get
  let oldPane := before.paneFor info.pane
  if info.visible then hideWindow key info true false .none
  change
  let info' ← takeInfo key
  if info.visible then
    let _ ← showWindow key { info' with visible := true } true
    if before.host.hasFocus info.id then modify (·.requestFocus info'.id)
  modify fun e ↦
    let pane := e.paneFor info'.pane
    (e.validatePanes oldPane pane).repaintPane pane

def changeSplit (key : SlotKey) (split : Bool) : Action Unit := do
  let info ← takeInfo key
  let info := { info with split := split }
  modify fun e ↦ ((e.storeInfo info).refreshStripeButton key info).applyToEntry key info

def setSideTool (id : String) (split : Bool) : Operation Unit := do
  let key ← keyOf id
  let info ← takeInfo key
  if info.split != split then
    whileHidden key (changeSplit key split)
    modify (·.fire .setSideTool id)

def changePlace (key : SlotKey) (pane : String) (anchor : Anchor) (order : Int32) (split : Bool) :
    Action Unit := do
  let info ← takeInfo key
  modify (·.storeInfo { info with split := split })
  relabel key pane anchor order

def setSideToolAndAnchor (id pane : String) (anchor : Anchor) (order : Int32) (split : Bool) :
    Operation Unit := do
  let key ← keyOf id
  let pane := (← get).paneFor pane
  let info ← takeInfo key
  if !(isThere info pane anchor order && info.split == split) then
    whileHidden key (changePlace key pane anchor order split)
    modify (·.fire .setSideToolAndAnchor id)

def retypeVisible (key : SlotKey) (id : String) (info : WindowInfo) (type : WindowType) :
    Action Unit := do
  let dirty := info.windowType.isInternal
  let saved ← modifyGet (·.removeDecorators key info dirty)
  let info := saved.withType type
  if type.isInternal then modify (·.evictSlot key info dirty)
  modify (·.commit key info)
  addDecorator key info dirty
  modify fun e ↦
    let e := if e.host.applicationActive then e.requestFocus id else e
    let pane := e.paneFor info.pane
    (e.validatePane pane).repaintPane pane

def setType (id : String) (type : WindowType) : Operation Unit := do
  let key ← keyOf id
  let info ← takeInfo key
  if info.windowType != type then
    if (← get).entryIs key (·.info.visible) then retypeVisible key id info type
    else modify (·.commit key (info.withType type))
    modify (·.fire .setToolWindowType id)

end ToolDock.Engine
