import ToolDock.Engine.Showing

namespace ToolDock.Engine

def remember (e : Engine) (id : String) : Engine :=
  { e with recent := id :: e.recent.filter (· != id) }

def pushActive (e : Engine) (key : SlotKey) : Engine :=
  { e with activeStack := e.activeStack.push key }

def tryFocus (id : String) : Action Bool :=
  modifyGet fun e ↦
    if e.host.applicationActive then
      let (moved, host) := e.host.requestFocus id
      (moved, { e with host := host })
    else (false, e)

/-- Shows an available window or refreshes a visible one, and makes it the active one. A focus that
moved reports back on its own. -/
def activateAvailable (key : SlotKey) (id : String) (info : WindowInfo) (autoFocus : Bool) :
    Action Unit := do
  if !(← get).entryIs key (·.info.visible) then
    let _ ← showWindow key { info with activeOnStart := autoFocus } false
  else
    modify (·.applyToEntry key info)
    if !autoFocus && info.isExternal then modify (·.onHost (·.record (.bringToFront id)))
  let focused ← if autoFocus then tryFocus id else pure false
  if !focused then modify (·.pushActive key)
  modify (·.fire .activateToolWindow id)

def sharedWeight (e : Engine) (info : WindowInfo) : WindowInfo × Engine :=
  if e.settings.unifiedWeights then
    let info := { info with weight := e.layout.unifiedWeight info.anchor }
    (info, e.storeInfo info)
  else (info, e)

/-- An unavailable window can be active while another application has the focus; it is not
shown. -/
def activate (id : String) (autoFocus : Bool) : Operation Unit := do
  let key ← keyOf id
  let info ← takeInfo key
  let info ← modifyGet (·.sharedWeight info)
  modify (·.remember id)
  if !(← get).entryIs key Entry.available then
    if autoFocus && !(← get).host.hasFocus id then modify (·.requestFocus id)
  else activateAvailable key id info autoFocus

def toolWindowFocused (id : String) : Operation Unit := do
  let key ← keyOf id
  modify (·.pushActive key)

def editorFocused (e : Engine) : Engine := { e with activeStack := e.activeStack.clear }

def losingFocus (e : Engine) (focused : Option String) : List String :=
  (e.entries.values.filter fun x ↦
    x.info.visible && (x.info.autoHide || x.info.windowType == .sliding)
      && some x.id != focused).map Entry.id

def focusMovedTo (focused : Option String) : Action Unit := do
  for id in (← get).losingFocus focused do
    attempt (deactivate id)
  match focused with
  | some id =>
    if (← get).isRegistered id then attempt (toolWindowFocused id) else modify editorFocused
  | none => return

def focusTarget? (e : Engine) : Checked (Option String) :=
  return (← e.findEntry? (·.info.visible)
    (e.activeStack.transient ++ e.activeStack.persistent)).map Entry.id

def focusByDefault : Operation (Option String) := do
  match ← (check (← get).focusTarget? : Action _) with
  | some id =>
    activate id true
    return id
  | none => return none

def clearSideStack (e : Engine) : Engine := { e with sideStack := SideStack.empty }

end ToolDock.Engine
