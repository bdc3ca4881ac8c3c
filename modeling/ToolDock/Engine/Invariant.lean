import ToolDock.Engine.Basic
import ToolDock.Layout.Violation

/-!
What an engine can be wrong about: visible external windows without a host window, windows that are
visible in the engine and hidden in the layout, and whatever the layout itself is wrong about.
-/

namespace ToolDock

inductive EngineViolation where
  | missingDecorator (id : String) (type : WindowType)
  | hiddenInLayout (id : String)
  | ofLayout (violation : LayoutViolation)
deriving DecidableEq, Repr

def EngineViolation.message : EngineViolation → String
  | .missingDecorator id type => "visible " ++ type.name ++ " window " ++ id ++ " has no decorator"
  | .hiddenInLayout id => "window " ++ id ++ " is visible in the engine but hidden in the layout"
  | .ofLayout violation => violation.message

namespace Engine

/-- Whether a visible window should have an external window and has none. A headless host opens no
windowed ones. -/
def lacksDecorator (e : Engine) (entry : Entry) : Bool :=
  match entry.info.windowType with
  | .floating => entry.floating.isNone
  | .windowed => !e.host.desktop.headless && entry.windowed.isNone
  | .docked | .sliding => false

def isHiddenInLayout (e : Engine) (entry : Entry) : Bool :=
  (e.layout.get? entry.id).any (!·.visible)

def entryViolations (e : Engine) (entry : Entry) : List EngineViolation :=
  if entry.info.visible then
    (if e.lacksDecorator entry then [.missingDecorator entry.id entry.info.windowType] else [])
      ++ if e.isHiddenInLayout entry then [.hiddenInLayout entry.id] else []
  else []

def violations (e : Engine) : List EngineViolation :=
  e.entries.values.flatMap e.entryViolations ++ e.layout.violations.map .ofLayout

end Engine

end ToolDock
