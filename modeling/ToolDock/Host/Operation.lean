import ToolDock.Layout.Json

namespace ToolDock

inductive ExternalKind where
  | floating
  | windowed
deriving DecidableEq, Repr

def ExternalKind.name : ExternalKind → String
  | .floating => "floating"
  | .windowed => "windowed"

def ExternalKind.title : ExternalKind → String
  | .floating => "Floating"
  | .windowed => "Windowed"

inductive HostOp where
  | attach (id : String) (slot : Slot) (dirty : Bool)
  | detach (id : String) (slot : Slot) (dirty : Bool)
  | openExternal (id : String) (kind : ExternalKind)
  | showExternal (id : String) (focus : Bool)
  | closeExternal (id : String)
  | setExternalBounds (id : String) (bounds : Rect)
  | setExternalMaximized (id : String) (maximized : Bool)
  | createStripeButton (id : String) (anchor : Anchor) (split : Bool)
  | removeStripeButton (id : String)
  | setWeight (pane : String) (anchor : Anchor) (weight : Weight)
  | setSideWeight (pane : String) (id : String) (weight : Weight)
  | validatePane (pane : String)
  | repaintFrame (frame : UInt32)
  | requestFocus (id : String)
  | bringToFront (id : String)
  | activateEditor
  | setStripesOverlaid (overlaid : Bool)
deriving DecidableEq

namespace HostOp

/-- Whether the operation touches the widget tree or causes a repaint. -/
def isStructural : HostOp → Bool
  | attach .. | detach .. | openExternal .. | closeExternal .. | validatePane ..
  | repaintFrame .. => true
  | _ => false

def boolText (b : Bool) : String := if b then "true" else "false"

def slotText (s : Slot) : String :=
  s.pane ++ "/" ++ s.anchor.name ++ " split=" ++ boolText s.split

def intText (n : Int32) : String := Digits.integer n.toInt

def text : HostOp → String
  | attach id slot dirty =>
    "attach " ++ id ++ " -> " ++ slotText slot ++ " dirty=" ++ boolText dirty
  | detach id slot dirty =>
    "detach " ++ id ++ " <- " ++ slotText slot ++ " dirty=" ++ boolText dirty
  | openExternal id kind => "open " ++ kind.title ++ " window for " ++ id
  | showExternal id focus => "show external " ++ id ++ " focus=" ++ boolText focus
  | closeExternal id => "close external " ++ id
  | setExternalBounds id r =>
    "bounds " ++ id ++ " = " ++ intText r.width ++ "x" ++ intText r.height ++ "+" ++ intText r.x
      ++ "+" ++ intText r.y
  | setExternalMaximized id maximized => "maximized " ++ id ++ " = " ++ boolText maximized
  | createStripeButton id anchor split =>
    "stripe button " ++ id ++ " at " ++ anchor.name ++ " split=" ++ boolText split
  | removeStripeButton id => "remove stripe button " ++ id
  | setWeight pane anchor weight =>
    "weight " ++ pane ++ "/" ++ anchor.name ++ " = " ++ weight.text Weight.plain
  | setSideWeight pane id weight =>
    "side weight " ++ pane ++ "/" ++ id ++ " = " ++ weight.text Weight.plain
  | validatePane pane => "validate " ++ pane
  | repaintFrame frame => "repaint frame " ++ Digits.integer frame.toNat
  | requestFocus id => "focus " ++ id
  | bringToFront id => "bring " ++ id ++ " to front"
  | activateEditor => "activate editor"
  | setStripesOverlaid overlaid => "stripes overlaid = " ++ boolText overlaid

def jsonFields : HostOp → String × List (String × Json)
  | attach id slot dirty => ("attach", [("id", .string id)] ++ slotFields slot dirty)
  | detach id slot dirty => ("detach", [("id", .string id)] ++ slotFields slot dirty)
  | openExternal id kind => ("open_external", [("id", .string id), ("kind", .string kind.name)])
  | showExternal id focus => ("show_external", [("id", .string id), ("focus", .bool focus)])
  | closeExternal id => ("close_external", [("id", .string id)])
  | setExternalBounds id r => ("set_external_bounds", [("id", .string id), ("bounds", r.toJson)])
  | setExternalMaximized id maximized =>
    ("set_external_maximized", [("id", .string id), ("maximized", .bool maximized)])
  | createStripeButton id anchor split =>
    ("create_stripe_button",
      [("id", .string id), ("anchor", .string anchor.name), ("split", .bool split)])
  | removeStripeButton id => ("remove_stripe_button", [("id", .string id)])
  | setWeight pane anchor weight =>
    ("set_weight",
      [("pane", .string pane), ("anchor", .string anchor.name), ("weight", weight.toJson)])
  | setSideWeight pane id weight =>
    ("set_side_weight",
      [("pane", .string pane), ("id", .string id), ("side_weight", weight.toJson)])
  | validatePane pane => ("validate_pane", [("pane", .string pane)])
  | repaintFrame frame => ("repaint_frame", [("frame", .integer frame.toNat)])
  | requestFocus id => ("request_focus", [("id", .string id)])
  | bringToFront id => ("bring_to_front", [("id", .string id)])
  | activateEditor => ("activate_editor", [])
  | setStripesOverlaid overlaid => ("set_stripes_overlaid", [("overlaid", .bool overlaid)])
where
  slotFields (slot : Slot) (dirty : Bool) : List (String × Json) :=
    [("pane", .string slot.pane), ("anchor", .string slot.anchor.name),
      ("split", .bool slot.split), ("dirty", .bool dirty)]

def toJson (op : HostOp) : Json :=
  .object (("op", .string op.jsonFields.1) :: op.jsonFields.2)

end HostOp

end ToolDock
