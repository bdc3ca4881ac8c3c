import ToolDock.Engine.Showing
import ToolDock.Layout.Violation

/-!
Replacing the whole layout at runtime. Only windows whose placement differs are touched, in three
passes: windows are shown, hidden and moved; then sizes go to the host; then every affected pane is
validated, and every affected frame repainted, once.
-/

namespace ToolDock.Engine

/-- A registered window whose placement differs between the old layout and the new one. -/
structure LayoutChange where
  key : SlotKey
  old : WindowInfo
  new : WindowInfo
deriving DecidableEq

def orderConflict? (l : Layout) : Option EngineError :=
  l.violations.findSome? fun
    | .duplicateOrder _ order ids =>
      some (.conflictingOrder (ids.headD "") order (.sharedBy ids))
    | .sharedSlot .. => none

/-- The placement of a registered window that a new layout lacks: the one of the default layout, or
its old one without button and off the screen, as nobody knows about the window. -/
def fallbackFor (e : Engine) (id : String) (old : WindowInfo) : WindowInfo :=
  (e.defaultLayout.get? id).getD { old with visible := false, showStripeButton := false }

/-- Takes one entry into account: a placement that the new layout lacks is added to it, and a window
that is not available stays hidden in it. -/
def planEntry (e : Engine) (plan : Layout × List LayoutChange) (row : SlotKey × Entry) :
    Layout × List LayoutChange :=
  let (layout, changes) := plan
  let (key, entry) := row
  let old := (e.layout.get? entry.id).getD entry.info
  let (new, layout) := match layout.get? entry.id with
    | some info => (info, layout)
    | none =>
      let info := e.fallbackFor entry.id old
      (info, layout.put info)
  if old.agrees new then (layout, changes)
  else if entry.available then (layout, changes ++ [⟨key, old, new⟩])
  else
    let new := { new with visible := false }
    (layout.put new, changes ++ [⟨key, old, new⟩])

def planLayout (e : Engine) (layout : Layout) : Layout × List LayoutChange :=
  e.entries.toList.foldl e.planEntry (layout, [])

def resetStripeButton (e : Engine) (key : SlotKey) (info : WindowInfo) : Engine :=
  let e := e.removeStripeButton key
  if info.showStripeButton && e.entryIs key Entry.available then e.ensureStripeButton key info
  else e

namespace LayoutChange

def relabels (c : LayoutChange) : Bool :=
  !c.old.isAt c.new.pane c.new.anchor || c.old.order != c.new.order
    || c.old.showStripeButton != c.new.showStripeButton

def movesSlot (c : LayoutChange) : Bool :=
  !c.old.isAt c.new.pane c.new.anchor && c.old.occupiesSlot && c.new.occupiesSlot

def changesSplit (c : LayoutChange) : Bool :=
  c.old.split != c.new.split && c.old.windowType.isInternal && c.new.windowType.isInternal
    && c.old.visible

def changesType (c : LayoutChange) : Bool := c.old.windowType != c.new.windowType

end LayoutChange

/-- A window that the new layout hides leaves the screen; the state of its external window goes to
the new placement. -/
def applyHiding (c : LayoutChange) (e : Engine) : LayoutChange × Engine :=
  if c.old.visible && !c.new.visible then
    let (new, e) := e.removeDecorators c.key c.new true
    ({ c with new := new }, e)
  else (c, e)

def applyPlace (c : LayoutChange) : Action Bool := do
  if c.relabels then modify (·.resetStripeButton c.key c.new)
  if c.movesSlot then
    modify (·.removeInternalDecorator c.key true)
    let _ ← showWindow c.key c.new true
    return true
  return false

/-- Applies one change; it comes back with the placement that was stored. -/
def applyChange (change : LayoutChange) : Action LayoutChange := do
  let c ← modifyGet (applyHiding change)
  let shown ← applyPlace c
  let resplit := !shown && c.changesSplit
  if resplit then hideWindow c.key c.old true false .none
  if c.changesType then
    modify fun e ↦ (e.removeDecorators c.key c.old c.old.windowType.isInternal).2
  let toShow := c.new.visible && (resplit || c.changesType || !c.old.visible)
  if toShow && !shown then addDecorator c.key c.new true
  modify (·.commit c.key c.new)
  return c

def beside? (changes : List LayoutChange) (c : LayoutChange) : Option LayoutChange :=
  changes.find? fun o ↦
    o.key != c.key && o.new.visible && o.new.isDocked && o.new.isAt c.new.pane c.new.anchor

/-- The weight that the host gets for a change. Windows side by side share one splitter. -/
def hostWeight (s : Settings) (changes : List LayoutChange) (c : LayoutChange) : Weight :=
  if s.ultrawideLayout && !c.new.anchor.isHorizontal then
    match beside? changes c with
    | some o => c.new.weight + o.new.weight
    | none => c.new.weight
  else c.new.weight

def applySize (changes : List LayoutChange) (e : Engine) (c : LayoutChange) : Engine :=
  if c.new.visible && c.new.isDocked then
    let pane := e.paneFor c.new.pane
    let e :=
      if c.old.weight.equals c.new.weight then e
      else
        let weight := hostWeight e.settings changes c
        e.onHost (·.record (.setWeight pane c.new.anchor weight))
    if c.old.sideWeight.equals c.new.sideWeight then e
    else e.onHost (·.record (.setSideWeight pane c.new.id c.new.sideWeight))
  else e

def finishLayout (e : Engine) (changes : List LayoutChange) : Engine :=
  let panes :=
    (changes.flatMap fun c ↦ [e.paneFor c.old.pane, e.paneFor c.new.pane]).eraseDups
  let frames := (panes.map e.host.frameOf).eraseDups
  let e := (panes.foldl validatePane e).activateEditor
  (frames.foldl repaintFrame e).fire .setLayout none

/-- Runs the three passes. A window that is not available only has its placement changed. -/
def applyChanges (changes : List LayoutChange) : Action Unit := do
  modify fun e ↦ changes.foldl (fun e c ↦ e.applyToEntry c.key c.new) e
  let e ← get
  let live := changes.filter fun c ↦ e.entryIs c.key Entry.available
  let applied ← live.mapM applyChange
  modify fun e ↦ (applied.foldl (applySize applied) e).finishLayout applied

/-- Applies a layout. One that gives an order twice in a slot is refused; without registered windows
it is put in place as it is. -/
def setLayout (layout : Layout) : Operation Unit := do
  match orderConflict? layout with
  | some error => throw error
  | none =>
    let e ← get
    let (layout, changes) := e.planLayout layout
    modify (·.replaceLayout layout)
    if !changes.isEmpty then applyChanges changes

def setInitialLayout (layout : Layout) : Operation Unit := do
  let e ← get
  if e.entries.size == 0 then modify (·.replaceLayout layout)
  else throw (.alreadyInitialized e.entries.size)

def setDefaultLayout (e : Engine) (layout : Layout) : Engine := { e with defaultLayout := layout }

/-- Applies a stored layout, if there is one, as the initial one or at runtime; tells whether it was
applied. -/
def load (stored : Option Layout) : Action Bool := do
  match stored with
  | none => return false
  | some layout =>
    let apply := if (← get).entries.size == 0 then setInitialLayout layout else setLayout layout
    match ← apply.run with
    | .ok () => return true
    | .error _ => return false

def loadFrom {ε : Type} (answer : Except ε (Option Layout)) : ExceptT ε Action Bool :=
  match answer with
  | .ok stored => load stored
  | .error error => throw error

end ToolDock.Engine
