import ToolDock.Engine.Reconcile
import ToolDock.Engine.Registration
import ToolDock.Engine.Session

namespace ToolDock

namespace Engine

def headless (settings : Settings) : Engine :=
  .new (.new { Desktop.default with headless := true }) settings defaultKeyChord

def registerAgain (info : WindowInfo) : Operation Unit :=
  register ⟨info.id, info.anchor, info.split, true, true, none⟩

/-- Starts with one layout, with all of its windows registered, and applies another one. What was
asked of the host up to then is forgotten. -/
def replay (source target : Layout) : Operation (List HostOp) := do
  setInitialLayout source
  for info in source.windows do
    registerAgain info
  modify fun e ↦ e.takeOps.2
  setLayout target
  return (← get).host.ops

end Engine

def Layout.diff (settings : Settings) (source target : Layout) :
    Checked (Except EngineError (List HostOp)) :=
  match (Engine.replay source target).run (.headless settings) with
  | .ok answer _ => .ok answer
  | .error fault _ => .error fault

end ToolDock
