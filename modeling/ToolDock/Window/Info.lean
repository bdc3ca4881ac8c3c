import ToolDock.Geometry
import ToolDock.Number.Single
import ToolDock.Window.Anchor

/-!
The placement of one tool window. A window that is docked or sliding lives inside the frame and
competes for the slot of its pane, anchor and split flag; a floating or windowed one has a window
of its own.
-/

namespace ToolDock

inductive WindowType where
  | docked
  | sliding
  | floating
  | windowed
deriving DecidableEq, Repr, Inhabited

namespace WindowType

def all : List WindowType := [.docked, .sliding, .floating, .windowed]

def name : WindowType → String
  | .docked => "docked"
  | .sliding => "sliding"
  | .floating => "floating"
  | .windowed => "windowed"

def ofName? (s : String) : Option WindowType := all.find? (·.name == s)

def isInternal : WindowType → Bool
  | .docked | .sliding => true
  | .floating | .windowed => false

theorem ofName?_name (t : WindowType) : ofName? t.name = some t := by cases t <;> rfl

end WindowType

inductive ContentUi where
  | tabbed
  | combo
deriving DecidableEq, Repr, Inhabited

namespace ContentUi

def all : List ContentUi := [.tabbed, .combo]

def name : ContentUi → String
  | .tabbed => "tabbed"
  | .combo => "combo"

def ofName? (s : String) : Option ContentUi := all.find? (·.name == s)

theorem ofName?_name (u : ContentUi) : ofName? u.name = some u := by cases u <;> rfl

end ContentUi

def defaultPane : String := "main"

def defaultWeight : Weight := Weight.ofDecimal false 33 (-2)

def defaultSideWeight : Weight := Weight.ofDecimal false 5 (-1)

def unassignedOrder : Int32 := -1

/-- The place that at most one visible internal window holds. -/
structure Slot where
  pane : String
  anchor : Anchor
  split : Bool
deriving DecidableEq, Repr, Inhabited

structure WindowInfo where
  id : String
  pane : String
  anchor : Anchor
  windowType : WindowType
  /-- The last internal type, to which an external window returns. -/
  internalType : WindowType
  visible : Bool
  activeOnStart : Bool
  autoHide : Bool
  split : Bool
  order : Int32
  weight : Weight
  sideWeight : Weight
  floatingBounds : Option Rect
  maximized : Bool
  contentUi : ContentUi
  showStripeButton : Bool
  /-- Whether the placement was loaded from a stored layout. -/
  persisted : Bool
deriving DecidableEq

namespace WindowInfo

def new (id : String) (anchor : Anchor) : WindowInfo where
  id := id
  pane := defaultPane
  anchor := anchor
  windowType := .docked
  internalType := .docked
  visible := false
  activeOnStart := false
  autoHide := false
  split := false
  order := unassignedOrder
  weight := defaultWeight
  sideWeight := defaultSideWeight
  floatingBounds := none
  maximized := false
  contentUi := .tabbed
  showStripeButton := true
  persisted := false

instance : Inhabited WindowInfo := ⟨new "" .left⟩

/-- The same placement; where the two were loaded from makes no difference. Weights are compared
as numbers. -/
def agrees (a b : WindowInfo) : Bool :=
  a.id == b.id && a.pane == b.pane && a.anchor == b.anchor && a.windowType == b.windowType
    && a.internalType == b.internalType && a.visible == b.visible
    && a.activeOnStart == b.activeOnStart && a.autoHide == b.autoHide && a.split == b.split
    && a.order == b.order && a.weight.equals b.weight
    && a.sideWeight.equals b.sideWeight && a.floatingBounds == b.floatingBounds
    && a.maximized == b.maximized && a.contentUi == b.contentUi
    && a.showStripeButton == b.showStripeButton

def withType (info : WindowInfo) (t : WindowType) : WindowInfo :=
  { info with windowType := t, internalType := if t.isInternal then t else info.internalType }

def isDocked (info : WindowInfo) : Bool := info.windowType == .docked

def isExternal (info : WindowInfo) : Bool := !info.windowType.isInternal

def slot (info : WindowInfo) : Slot := ⟨info.pane, info.anchor, info.split⟩

def occupiesSlot (info : WindowInfo) : Bool := info.visible && info.windowType.isInternal

def hasOrder (info : WindowInfo) : Bool := info.order != unassignedOrder

def isAt (info : WindowInfo) (pane : String) (anchor : Anchor) : Bool :=
  info.pane == pane && info.anchor == anchor

end WindowInfo

end ToolDock
