import ToolDock.Engine.Showing

/-!
Registration: windows and panes come and go. A window takes the placement that the request brings,
else the one of the layout, else a new one at the end of its stripe.
-/

namespace ToolDock

structure RegisterRequest where
  id : String
  anchor : Anchor
  split : Bool
  available : Bool
  /-- Whether content can be created for the window. -/
  hasContent : Bool
  /-- A stored placement, which is used instead of the layout's. -/
  placement : Option WindowInfo
deriving DecidableEq

namespace RegisterRequest

def newPlacement (r : RegisterRequest) : WindowInfo :=
  { WindowInfo.new r.id r.anchor with split := r.split }

def needsButton (r : RegisterRequest) (known : Option WindowInfo) : Bool :=
  r.available && known.all (·.showStripeButton)

end RegisterRequest

namespace Engine

def orderOwner? (l : Layout) (info : WindowInfo) : Option String :=
  if info.hasOrder then
    ((l.bucket info.slot).find? fun o ↦ o.id != info.id && o.order == info.order).map
      WindowInfo.id
  else none

def knownPlacement (r : RegisterRequest) : Operation (Option WindowInfo) := do
  match r.placement with
  | some info =>
    match orderOwner? (← get).layout info with
    | some owner => throw (.conflictingOrder r.id info.order (.usedBy owner))
    | none =>
      modify (·.storeInfo info)
      return some info
  | none => return (← get).layout.get? r.id

/-- A new placement joins the layout, at the end of its stripe, if the window gets a button. Without
an order it could never be moved in front of its siblings. -/
def newPlacement (r : RegisterRequest) (needsButton : Bool) : Action WindowInfo := do
  let info := r.newPlacement
  if needsButton then
    let info := { info with order := ← check ((← get).layout.nextOrder info.pane info.anchor) }
    modify fun e ↦ { e with layout := (e.layout.add info).2 }
    return info
  return info

def insertEntry (r : RegisterRequest) (info : WindowInfo) (needsButton : Bool) : Action SlotKey :=
  modifyGet fun e ↦
    let (key, entries) := e.entries.insert (.new r.id info r.available r.hasContent)
    let e := { e with entries := entries }
    (key, if needsButton then e.createStripeButton key info else e)

def startsActive (info : WindowInfo) : Bool := info.activeOnStart && info.isExternal

def register (r : RegisterRequest) : Operation Unit := do
  if (← get).isRegistered r.id then throw (.alreadyRegistered r.id)
  let known ← knownPlacement r
  let needsButton := r.needsButton known
  let info ← match known with
    | some info => pure info
    | none => newPlacement r needsButton
  let entryInfo := { info with visible := info.visible && r.hasContent && r.available }
  let key ← insertEntry r entryInfo needsButton
  if needsButton && entryInfo.visible then
    let _ ← showWindow key info false
    if startsActive entryInfo && (← get).host.applicationActive then modify (·.requestFocus r.id)
  modify fun e ↦ (e.validatePane (e.paneFor entryInfo.pane)).fire .registerToolWindow r.id

/-- Takes the decorators, the history and the button of a window away; the layout remembers where
it was. -/
def withdraw (e : Engine) (key : SlotKey) (id : String) (info : WindowInfo) : Engine :=
  let (info, e) := e.removeDecorators key info false
  let e := e.storeInfo info
  let e := { e with activeStack := e.activeStack.remove key true }
  let e := (e.forgetEvicted id).removeStripeButton key
  e.validatePane (e.paneFor info.pane)

def unregister (e : Engine) (id : String) : Engine :=
  match e.keyOf? id with
  | none => e
  | some key =>
    let e := match e.layout.get? id with
      | some info => e.withdraw key id info
      | none => e
    { e with entries := e.entries.remove key }.fire .unregisterToolWindow id

def addPane (e : Engine) (pane : String) : Engine :=
  if e.panes.contains pane then e else { e with panes := e.panes ++ [pane] }

/-- Hides every window of a pane, takes it off its stripe and moves it to the default pane, which
itself cannot be removed. -/
def removePane (pane : String) : Action Unit := do
  if pane != defaultPane then
    let here := (← get).entries.values.filter (·.info.pane == pane)
    for id in here.map Entry.id do
      attempt (hideWith id { HideOptions.default with removeFromStripe := true })
    modify fun e ↦ { e with panes := e.panes.filter (· != pane) }

def closeProject (e : Engine) : Engine :=
  (e.keysWhere fun _ entry ↦ entry.info.isExternal).foldl removeExternalDecorators e

end Engine

end ToolDock
