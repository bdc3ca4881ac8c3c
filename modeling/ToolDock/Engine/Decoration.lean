import ToolDock.Engine.Basic
import ToolDock.ExternalBounds

/-!
Decorators: internal windows are attached to their panes, external ones get windows of their own,
which are placed on screen. Removing a decorator first saves what the user did to its window.
-/

namespace ToolDock.Engine

def decoratorOf (e : Engine) (key : SlotKey) : Handle × Engine :=
  match e.entries.get? key with
  | none => (0, e)
  | some entry =>
    match entry.decorator with
    | some decorator => (decorator, e)
    | none =>
      let (decorator, host) := e.host.decorator entry.id
      (decorator,
        { e with host := host }.updateEntry key fun x ↦ { x with decorator := some decorator })

/-- Saves the state of an external window in a placement. Maximized bounds are not those that the
user chose, so a maximized window is restored first. -/
def saveExternalState (e : Engine) (key : SlotKey) (info : WindowInfo) : WindowInfo × Engine :=
  match e.entries.get? key with
  | none => (info, e)
  | some entry =>
    match entry.floating, entry.windowed with
    | some handle, _ =>
      ({ info with
          floatingBounds := some (e.host.externalBounds handle)
          activeOnStart := e.host.isExternalActive handle }, e)
    | none, some handle =>
      let info := { info with activeOnStart := e.host.isExternalActive handle }
      if e.host.isExternalShowing handle then
        let maximized := e.host.isExternalMaximized handle
        let e := if maximized then e.onHost (·.setExternalMaximized handle false) else e
        ({ info with
            floatingBounds := some (e.host.externalBounds handle)
            maximized := maximized }, e)
      else (info, e)
    | none, none => (info, e)

def closeHandle (e : Engine) (handle : Option Handle) : Engine :=
  match handle with
  | some h => e.onHost (·.closeExternal h)
  | none => e

def removeExternalDecorators (e : Engine) (key : SlotKey) : Engine :=
  match e.entries.get? key with
  | none => e
  | some entry =>
    ((e.updateEntry key fun x ↦ { x with floating := none, windowed := none }).closeHandle
      entry.floating).closeHandle entry.windowed

def removeInternalDecorator (e : Engine) (key : SlotKey) (dirty : Bool) : Engine :=
  match e.entries.get? key with
  | none => e
  | some entry =>
    let detached := e.updateEntry key fun x ↦ { x with attached := none }
    match entry.decorator, entry.attached with
    | some decorator, some attached => detached.onHost (·.detach decorator attached dirty)
    | _, _ => detached

/-- Saves the state of an external window and removes every decorator of the entry. The visible
flag of the placement is left alone. -/
def removeDecorators (e : Engine) (key : SlotKey) (info : WindowInfo) (dirty : Bool) :
    WindowInfo × Engine :=
  let (info, e) := e.saveExternalState key info
  (info, (e.removeExternalDecorators key).removeInternalDecorator key dirty)

def addInternalDecorator (e : Engine) (key : SlotKey) (info : WindowInfo) (dirty : Bool) : Engine :=
  let (decorator, e) := e.decoratorOf key
  (e.onHost (·.attach decorator info dirty)).updateEntry key fun x ↦
    { x with attached := some info }

/-- Where the external window of a handle goes: computed on the screen nearest to the frame, and
centered over the frame if its stored bounds cannot be kept. -/
def externalPlacement (h : Host) (handle : Handle) (info : WindowInfo) : Checked Rect := do
  let frame := h.desktop.frameBounds
  let screens ← ScreenSet.ofList h.desktop.screens
  let fit := match ← screens.nearest? frame with
    | some screen => screen.frame
    | none => frame
  let placed ← ExternalBounds.compute info.floatingBounds screens fit h.desktop.decoratorSize
    h.desktop.preferredSize (h.externalBounds handle).origin
  if placed.needsCentering then placed.bounds.centeredIn frame else return placed.bounds

def placeExternal (handle : Handle) (info : WindowInfo) : Action Unit := do
  let bounds ← check (externalPlacement (← get).host handle info)
  modify (·.onHost (·.setExternalBounds handle bounds))

def openExternal (kind : ExternalKind) (info : WindowInfo) : Action Handle :=
  modifyGet fun e ↦
    let (handle, host) := e.host.openExternal kind info
    (handle, { e with host := host })

def addFloatingDecorator (key : SlotKey) (info : WindowInfo) : Action Unit := do
  modify fun e ↦ (e.decoratorOf key).2
  let handle ← openExternal .floating info
  modify (·.updateEntry key fun x ↦ { x with floating := some handle })
  placeExternal handle info
  modify (·.onHost (·.showExternal handle info.activeOnStart))

def addWindowedDecorator (key : SlotKey) (info : WindowInfo) : Action Unit := do
  if (← get).host.desktop.headless then return
  modify fun e ↦ (e.decoratorOf key).2
  let handle ← openExternal .windowed info
  placeExternal handle info
  modify (·.updateEntry key fun x ↦ { x with windowed := some handle })
  modify (·.onHost (·.showExternal handle info.activeOnStart))
  if info.maximized then modify (·.onHost (·.setExternalMaximized handle true))

def addDecorator (key : SlotKey) (info : WindowInfo) (dirty : Bool) : Action Unit :=
  match info.windowType with
  | .floating => addFloatingDecorator key info
  | .windowed => addWindowedDecorator key info
  | .docked | .sliding => modify (·.addInternalDecorator key info dirty)

end ToolDock.Engine
