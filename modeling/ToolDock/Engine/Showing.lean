import ToolDock.Engine.Visibility

namespace ToolDock.Engine

/-- Shows a window; one that is visible already, or unavailable, is left alone. -/
def reveal (id : String) : Operation Unit := do
  let key ← keyOf id
  if (← get).entryIs key (·.info.visible) then return
  let info ← takeInfo key
  if ← showWindow key info false then modify (·.fire .showToolWindow id)

structure HideOptions where
  /-- Whether the other windows at the anchor are hidden too, and those evicted there forgotten. -/
  hideSide : Bool
  /-- Whether the editor gets the focus if the hidden window had it. -/
  moveFocus : Bool
  /-- Whether the window loses its stripe button and goes back to the default pane. -/
  removeFromStripe : Bool
deriving DecidableEq, Repr

def HideOptions.default : HideOptions := ⟨false, true, false⟩

def removeHiddenFromStripe (key : SlotKey) (id : String) (info : WindowInfo) : Action Unit :=
  modify fun e ↦
    let (info, e) := e.applyMutation key info .removeFromStripe
    (e.commit key info).fire .hideToolWindow id

def hideWith (id : String) (options : HideOptions) : Operation Unit := do
  let key ← keyOf id
  let info ← takeInfo key
  if !info.visible then
    if options.removeFromStripe && info.showStripeButton then removeHiddenFromStripe key id info
  else
    let before ← get
    let moveFocus := options.moveFocus && before.host.hasFocus id
    let mutation := if options.removeFromStripe then .removeFromStripe else .none
    hideWindow key info false options.hideSide mutation
    modify fun e ↦ (e.validatePane (before.paneFor info.pane)).fire .hideToolWindow id
    if moveFocus && (← get).host.applicationActive then modify activateEditor

def hide (id : String) : Operation Unit := hideWith id .default

def deactivate (id : String) : Operation Unit := do
  let key ← keyOf id
  let info ← takeInfo key
  if info.visible then
    modify fun e ↦
      let (hidden, next) := e.deactivateWindow key info false .none
      ((next.commit key hidden).validatePane (e.paneFor info.pane)).fire .hideToolWindow id

end ToolDock.Engine
