import ToolDock.Engine.Showing

namespace ToolDock.Engine

/-- Changes one property of the placement of a window, and tells the listeners if `differs` holds
of the old one. -/
def changeProperty (id : String) (differs : WindowInfo → Bool) (change : WindowInfo → WindowInfo)
    (kind : EventKind) : Operation Unit := do
  let key ← keyOf id
  let info ← takeInfo key
  if differs info then modify fun e ↦ (e.commit key (change info)).fire kind id

def setAutoHide (id : String) (autoHide : Bool) : Operation Unit :=
  changeProperty id (·.autoHide != autoHide) ({ · with autoHide := autoHide })
    .setToolWindowAutoHide

def setContentUi (id : String) (ui : ContentUi) : Operation Unit :=
  changeProperty id (·.contentUi != ui) ({ · with contentUi := ui }) .setContentUiType

def withdrawButton (key : SlotKey) (info : WindowInfo) : Action Unit := do
  if info.visible then
    let pane := (← get).paneFor info.pane
    hideWindow key info false false .removeStripeButton
    modify (·.validatePane pane)
  else modify fun e ↦ (e.removeStripeButton key).commit key info

def setShowStripeButton (id : String) (showButton : Bool) : Operation Unit := do
  let key ← keyOf id
  let info ← takeInfo key
  if info.showStripeButton != showButton then
    let info := { info with showStripeButton := showButton }
    if showButton then
      modify fun e ↦ ((e.storeInfo info).ensureStripeButton key info).applyToEntry key info
    else withdrawButton key info
    modify (·.fire .setShowStripeButton id)

def setAvailable (e : Engine) (key : SlotKey) (available : Bool) : Engine :=
  e.updateEntry key fun entry ↦ { entry with available := available }

def makeAvailable (id : String) : Operation Unit := do
  let key ← keyOf id
  if !(← get).entryIs key Entry.available then
    modify (·.setAvailable key true)
    let info ← takeInfo key
    if info.showStripeButton then modify (·.ensureStripeButton key info)
    if info.visible && (← get).entryIs key Entry.hasContent then
      let _ ← showWindow key info false
    modify (·.fire .toolWindowAvailable id)

/-- The window has no content any more: it is hidden and loses its stripe button. -/
def makeUnavailable (id : String) : Operation Unit := do
  let key ← keyOf id
  if (← get).entryIs key Entry.available then
    modify (·.setAvailable key false)
    let info ← takeInfo key
    let moveFocus := info.visible && (← get).host.hasFocus id
    hideWindow key info false false .removeStripeButton
    modify (·.fire .toolWindowUnavailable id)
    if moveFocus then modify activateEditor

end ToolDock.Engine
