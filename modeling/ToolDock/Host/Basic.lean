import ToolDock.Host.HandleTable
import ToolDock.Host.Operation
import ToolDock.Screen

/-!
A host without any user interface: it records what it is asked to do, and keeps external windows,
stripe buttons and the focus well enough to answer for them.
-/

namespace ToolDock

structure ExternalWindow where
  id : String
  kind : ExternalKind
  bounds : Rect
  showing : Bool
  active : Bool
  maximized : Bool
deriving DecidableEq, Repr

inductive HostObject where
  /-- The decorator of a window id. -/
  | decorator (id : String)
  | external (window : ExternalWindow)
  /-- The stripe button of a window id. -/
  | button (id : String)
deriving DecidableEq, Repr

/-- What does not change while the host runs. -/
structure Desktop where
  /-- A headless host never opens windowed decorators. -/
  headless : Bool
  screens : List Screen
  frameBounds : Rect
  /-- The frames of panes. -/
  frames : List (String × UInt32)
  decoratorSize : Size
  preferredSize : Size
  /-- Where new external windows open. -/
  externalOrigin : Point
  /-- Whether a request for focus moves it. -/
  focusTransfers : Bool
deriving DecidableEq

def Desktop.default : Desktop where
  headless := false
  screens := [⟨1, ⟨0, 0, 1920, 1080⟩⟩]
  frameBounds := ⟨0, 0, 1920, 1080⟩
  frames := []
  decoratorSize := ⟨0, 0⟩
  preferredSize := ⟨400, 300⟩
  externalOrigin := ⟨0, 0⟩
  focusTransfers := false

structure Host where
  desktop : Desktop
  /-- What was asked for, oldest first. -/
  ops : List HostOp
  objects : HandleTable HostObject
  focused : Option String
  applicationActive : Bool
deriving DecidableEq

namespace Host

def new (desktop : Desktop) : Host := ⟨desktop, [], .empty, none, true⟩

def record (h : Host) (op : HostOp) : Host := { h with ops := h.ops ++ [op] }

/-- The frame of a pane: its own, else that of the default pane, else frame zero. -/
def frameOf (h : Host) (pane : String) : UInt32 :=
  ((h.desktop.frames.lookup pane).or (h.desktop.frames.lookup defaultPane)).getD 0

def decorator (h : Host) (id : String) : Handle × Host :=
  match h.objects.rows.find? (·.2 == .decorator id) with
  | some row => (row.1, h)
  | none =>
    let (handle, objects) := h.objects.alloc (.decorator id)
    (handle, { h with objects := objects })

def decoratorId (h : Host) (decorator : Handle) : String :=
  match h.objects.get? decorator with
  | some (.decorator id) => id
  | _ => ""

def attach (h : Host) (decorator : Handle) (info : WindowInfo) (dirty : Bool) : Host :=
  h.record (.attach (h.decoratorId decorator) info.slot dirty)

def detach (h : Host) (decorator : Handle) (info : WindowInfo) (dirty : Bool) : Host :=
  h.record (.detach (h.decoratorId decorator) info.slot dirty)

def external? (h : Host) (handle : Handle) : Option ExternalWindow :=
  match h.objects.get? handle with
  | some (.external w) => some w
  | _ => none

def externals (h : Host) : List (Handle × ExternalWindow) :=
  h.objects.rows.filterMap fun r ↦
    match r.2 with
    | .external w => some (r.1, w)
    | _ => none

def externalsOf (h : Host) (id : String) : List (Handle × ExternalWindow) :=
  h.externals.filter (·.2.id == id)

def updateExternal (h : Host) (handle : Handle) (f : ExternalWindow → ExternalWindow) : Host :=
  { h with
    objects := h.objects.modify handle fun
      | .external w => .external (f w)
      | object => object }

def openExternal (h : Host) (kind : ExternalKind) (info : WindowInfo) : Handle × Host :=
  let window : ExternalWindow :=
    ⟨info.id, kind, .ofParts h.desktop.externalOrigin ⟨0, 0⟩, false, false, false⟩
  let (handle, objects) := h.objects.alloc (.external window)
  (handle, { h with objects := objects }.record (.openExternal info.id kind))

def externalId (h : Host) (handle : Handle) : String :=
  match h.external? handle with
  | some w => w.id
  | none => ""

def showExternal (h : Host) (handle : Handle) (focus : Bool) : Host :=
  (h.updateExternal handle fun w ↦ { w with showing := true, active := focus }).record
    (.showExternal (h.externalId handle) focus)

def closeExternal (h : Host) (handle : Handle) : Host :=
  match h.external? handle with
  | some w => { h with objects := h.objects.free handle }.record (.closeExternal w.id)
  | none => h

def externalBounds (h : Host) (handle : Handle) : Rect :=
  match h.external? handle with
  | some w => w.bounds
  | none => ⟨0, 0, 0, 0⟩

def setExternalBounds (h : Host) (handle : Handle) (bounds : Rect) : Host :=
  (h.updateExternal handle fun w ↦ { w with bounds := bounds }).record
    (.setExternalBounds (h.externalId handle) bounds)

def isExternalActive (h : Host) (handle : Handle) : Bool := (h.external? handle).any (·.active)

def isExternalShowing (h : Host) (handle : Handle) : Bool := (h.external? handle).any (·.showing)

def isExternalMaximized (h : Host) (handle : Handle) : Bool :=
  (h.external? handle).any (·.maximized)

def setExternalMaximized (h : Host) (handle : Handle) (maximized : Bool) : Host :=
  (h.updateExternal handle fun w ↦ { w with maximized := maximized }).record
    (.setExternalMaximized (h.externalId handle) maximized)

def createStripeButton (h : Host) (info : WindowInfo) : Handle × Host :=
  let (handle, objects) := h.objects.alloc (.button info.id)
  (handle,
    { h with objects := objects }.record (.createStripeButton info.id info.anchor info.split))

def removeStripeButton (h : Host) (handle : Handle) : Host :=
  match h.objects.get? handle with
  | some (.button id) => { h with objects := h.objects.free handle }.record (.removeStripeButton id)
  | _ => h

def buttonIds (h : Host) : List String :=
  h.objects.values.filterMap fun
    | .button id => some id
    | _ => none

def hasFocus (h : Host) (id : String) : Bool := h.focused == some id

def requestFocus (h : Host) (id : String) : Bool × Host :=
  let asked := h.record (.requestFocus id)
  (h.desktop.focusTransfers,
    if h.desktop.focusTransfers then { asked with focused := some id } else asked)

def activateEditor (h : Host) : Host := { h with focused := none }.record .activateEditor

def setFocused (h : Host) (id : Option String) : Host := { h with focused := id }

def setApplicationActive (h : Host) (active : Bool) : Host := { h with applicationActive := active }

def moveExternal (h : Host) (id : String) (bounds : Rect) : Host :=
  match (h.externalsOf id).head? with
  | some (handle, _) => h.updateExternal handle fun w ↦ { w with bounds := bounds }
  | none => h

def maximizeExternal (h : Host) (id : String) (maximized : Bool) : Host :=
  match (h.externalsOf id).head? with
  | some (handle, _) => h.updateExternal handle fun w ↦ { w with maximized := maximized }
  | none => h

def takeOps (h : Host) : List HostOp × Host := (h.ops, { h with ops := [] })

end Host

end ToolDock
