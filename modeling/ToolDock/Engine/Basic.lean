import ToolDock.Debounce
import ToolDock.Engine.Error
import ToolDock.Engine.Event
import ToolDock.Engine.SlotTable
import ToolDock.Host.Basic
import ToolDock.KeyChord
import ToolDock.Settings
import ToolDock.Stack.Active
import ToolDock.Stack.Side

/-!
The engine: the layout, the registered windows, and the stacks that remember what was active and
what was evicted. Changes that cannot fail are functions on engines; what may end in a fault is an
`Action`, which keeps what changed before the fault; what may be refused is an `Operation`.
-/

namespace ToolDock

/-- The runtime state of a registered window. The handles belong to the host. -/
structure Entry where
  /-- The id under which the window was registered. -/
  name : String
  id : String
  /-- A snapshot; the layout holds the authoritative copy. -/
  info : WindowInfo
  available : Bool
  hasContent : Bool
  stripeButton : Option Handle
  decorator : Option Handle
  /-- The placement with which the decorator was attached, while it is in a pane. -/
  attached : Option WindowInfo
  floating : Option Handle
  windowed : Option Handle
deriving DecidableEq

namespace Entry

def new (name : String) (info : WindowInfo) (available hasContent : Bool) : Entry :=
  ⟨name, info.id, info, available, hasContent, none, none, none, none, none⟩

def external? (entry : Entry) : Option Handle := entry.windowed.or entry.floating

end Entry

structure Engine where
  host : Host
  settings : Settings
  layout : Layout
  /-- Where windows are found that a new layout lacks. -/
  defaultLayout : Layout
  /-- The layout as readers see it. -/
  snapshot : Layout
  entries : SlotTable Entry
  activeStack : ActiveStack SlotKey
  sideStack : SideStack
  panes : List String
  /-- The ids activated last, newest first. -/
  recent : List String
  layoutToRestoreLater : Option Layout
  keyChord : KeyChord
  /-- Layouts that were scheduled, under the number of their scheduler. -/
  scheduled : Debouncer Nat Layout
  /-- Layouts that came due and were not applied yet, oldest first. -/
  mailbox : List Layout
  /-- What listeners were told, oldest first. -/
  events : List Event
deriving DecidableEq

/-- A change of an engine that may end in a fault. -/
abbrev Action := EStateM Fault Engine

/-- A change of an engine that may also be refused. -/
abbrev Operation := ExceptT EngineError Action

namespace Engine

def new (host : Host) (settings : Settings) (keyChord : KeyChord) : Engine where
  host := host
  settings := settings
  layout := .empty
  defaultLayout := .empty
  snapshot := .empty
  entries := .empty
  activeStack := .empty
  sideStack := .empty
  panes := [defaultPane]
  recent := []
  layoutToRestoreLater := none
  keyChord := keyChord
  scheduled := .empty
  mailbox := []
  events := []

def defaultPressDelay : Nat := 300

def defaultKeyChord : KeyChord := .new (activationMask none false false) defaultPressDelay

def keyOf? (e : Engine) (id : String) : Option SlotKey := e.entries.findKey? (·.name == id)

def entry? (e : Engine) (id : String) : Option Entry := (e.keyOf? id).bind e.entries.get?

def isRegistered (e : Engine) (id : String) : Bool := (e.keyOf? id).isSome

def windowInfo? (e : Engine) (id : String) : Option WindowInfo := (e.entry? id).map (·.info)

def isVisible (e : Engine) (id : String) : Bool := (e.windowInfo? id).any (·.visible)

def entryIs (e : Engine) (key : SlotKey) (p : Entry → Bool) : Bool := (e.entries.get? key).any p

def keysWhere (e : Engine) (p : SlotKey → Entry → Bool) : List SlotKey :=
  (e.entries.toList.filter fun r ↦ p r.1 r.2).map Prod.fst

/-- Panes that were never added, or were removed, fall back to the default one. -/
def paneFor (e : Engine) (pane : String) : String :=
  if e.panes.contains pane then pane else defaultPane

def dockedAt (e : Engine) (slot : Slot) : List String :=
  (e.entries.values.filter fun x ↦ x.info.occupiesSlot && x.info.slot == slot).map Entry.id

def visibleInSlot? (e : Engine) (slot : Slot) : Option String :=
  (e.snapshot.windows.find? fun w ↦ w.occupiesSlot && w.slot == slot).map WindowInfo.id

/-- The entries under some keys; a key of a removed entry is a fault. -/
def entriesOf (e : Engine) (keys : List SlotKey) : Checked (List Entry) :=
  keys.mapM fun key ↦
    match e.entries.get? key with
    | some entry => .ok entry
    | none => .error .staleKey

/-- The first of the entries under some keys that satisfies `p`. A key of a removed entry that
comes before it is a fault. -/
def findEntry? (e : Engine) (p : Entry → Bool) : List SlotKey → Checked (Option Entry)
  | [] => .ok none
  | key :: keys =>
    match e.entries.get? key with
    | some entry => if p entry then .ok (some entry) else e.findEntry? p keys
    | none => .error .staleKey

def activeIds (e : Engine) : Checked (List String) :=
  return (← e.entriesOf e.activeStack.transient).map Entry.id

def persistentActiveIds (e : Engine) : Checked (List String) :=
  return (← e.entriesOf e.activeStack.persistent).map Entry.id

/-- The most recently activated window that is available, even if it is hidden. -/
def lastActiveId? (e : Engine) : Checked (Option String) :=
  return (← e.findEntry? Entry.available e.activeStack.persistent).map Entry.id

def updateEntry (e : Engine) (key : SlotKey) (f : Entry → Entry) : Engine :=
  { e with entries := e.entries.modify key f }

def storeInfo (e : Engine) (info : WindowInfo) : Engine := { e with layout := e.layout.put info }

def applyToEntry (e : Engine) (key : SlotKey) (info : WindowInfo) : Engine :=
  e.updateEntry key fun entry ↦ { entry with info := info }

def commit (e : Engine) (key : SlotKey) (info : WindowInfo) : Engine :=
  (e.storeInfo info).applyToEntry key info

/-- The layout's placement of a registered window. A window registered without a stripe button has
none yet; its snapshot is added first. -/
def registeredInfo (e : Engine) (key : SlotKey) : WindowInfo × Engine :=
  match e.entries.get? key with
  | none => (default, e)
  | some entry =>
    match e.layout.get? entry.id with
    | some info => (info, e)
    | none =>
      let (info, layout) := e.layout.add entry.info
      (info, { e with layout := layout })

def fire (e : Engine) (kind : EventKind) (id : Option String) : Engine :=
  { e with snapshot := e.layout, events := e.events ++ [⟨kind, id⟩] }

def replaceLayout (e : Engine) (layout : Layout) : Engine :=
  { e with layout := layout, snapshot := layout }

def onHost (e : Engine) (f : Host → Host) : Engine := { e with host := f e.host }

def validatePane (e : Engine) (pane : String) : Engine := e.onHost (·.record (.validatePane pane))

def repaintFrame (e : Engine) (frame : UInt32) : Engine := e.onHost (·.record (.repaintFrame frame))

def repaintPane (e : Engine) (pane : String) : Engine := e.repaintFrame (e.host.frameOf pane)

def requestFocus (e : Engine) (id : String) : Engine := e.onHost fun h ↦ (h.requestFocus id).2

def activateEditor (e : Engine) : Engine := e.onHost Host.activateEditor

def removeStripeButton (e : Engine) (key : SlotKey) : Engine :=
  match (e.entries.get? key).bind Entry.stripeButton with
  | some button =>
    (e.updateEntry key fun entry ↦ { entry with stripeButton := none }).onHost
      (·.removeStripeButton button)
  | none => e

def createStripeButton (e : Engine) (key : SlotKey) (info : WindowInfo) : Engine :=
  let (button, host) := e.host.createStripeButton info
  { e with host := host }.updateEntry key fun entry ↦ { entry with stripeButton := some button }

def ensureStripeButton (e : Engine) (key : SlotKey) (info : WindowInfo) : Engine :=
  if e.entryIs key (·.stripeButton.isNone) then e.createStripeButton key info else e

/-- Replaces a stripe button that there is; a new one only if the placement asks for it. -/
def refreshStripeButton (e : Engine) (key : SlotKey) (info : WindowInfo) : Engine :=
  if e.entryIs key (·.stripeButton.isSome) then
    let removed := e.removeStripeButton key
    if info.showStripeButton then removed.createStripeButton key info else removed
  else e

def check {α : Type} (x : Checked α) : Action α :=
  match x with
  | .ok a => pure a
  | .error f => throw f

def takeInfo (key : SlotKey) : Action WindowInfo := modifyGet (·.registeredInfo key)

def keyOf (id : String) : Operation SlotKey := do
  match (← get).keyOf? id with
  | some key => return key
  | none => throw (.notRegistered id)

def attempt (op : Operation Unit) : Action Unit := do
  let _ ← op.run

variable {e : Engine} {key other : SlotKey} {info : WindowInfo} {id : String}
  {f : Entry → Entry}

theorem get?_updateEntry :
    (e.updateEntry key f).entries.get? other =
      if other = key then (e.entries.get? other).map f else e.entries.get? other :=
  SlotTable.get?_modify _ _ _ _

theorem get?_storeInfo :
    (e.storeInfo info).layout.get? id = if id = info.id then some info else e.layout.get? id :=
  Layout.get?_put _ _ _

theorem layout_updateEntry : (e.updateEntry key f).layout = e.layout := rfl

theorem get?_commit_layout :
    (e.commit key info).layout.get? id = if id = info.id then some info else e.layout.get? id :=
  get?_storeInfo

end Engine

end ToolDock
