import ToolDock.Config.Basic
import ToolDock.Engine.Reconcile

/-!
Starting an engine, and what reaches a running one from outside its own operations: layouts that
were scheduled, key presses, and the time that passes.
-/

namespace ToolDock.Engine

def ofConfig (host : Host) (c : Config) : Engine :=
  .new host c.engine
    (.new (activationMask c.keys.shortcut c.keys.disableOverlay false) c.keys.doublePressMs)

/-- Schedules a layout with one of several schedulers; it supersedes what is still pending there. -/
def schedule (e : Engine) (scheduler : Nat) (layout : Layout) (delay : Nat) : Engine :=
  { e with scheduled := e.scheduled.schedule scheduler delay layout }

def advance (e : Engine) (elapsed : Nat) : Engine :=
  let (due, scheduled) := e.scheduled.advance elapsed
  { e with scheduled := scheduled, mailbox := e.mailbox ++ due.map Pending.value }

/-- Applies the layout that was delivered last and drops the others; tells whether there was one. -/
def applyScheduled : Operation Bool := do
  let delivered := (← get).mailbox
  modify fun e ↦ { e with mailbox := [] }
  match delivered.getLast? with
  | some layout =>
    setLayout layout
    return true
  | none => return false

def overlay (e : Engine) : Option OverlayChange → Engine
  | some .appear => e.onHost (·.record (.setStripesOverlaid true))
  | some .vanish => e.onHost (·.record (.setStripesOverlaid false))
  | none => e

def dispatchKey (e : Engine) (event : KeyEvent) (now : Nat) : Engine :=
  let (change, keyChord) := e.keyChord.onKey event now
  { e with keyChord := keyChord }.overlay change

def tick (e : Engine) (now : Nat) : Engine :=
  let (change, keyChord) := e.keyChord.tick now
  { e with keyChord := keyChord }.overlay change

def takeEvents (e : Engine) : List Event × Engine := (e.events, { e with events := [] })

def takeOps (e : Engine) : List HostOp × Engine :=
  let (ops, host) := e.host.takeOps
  (ops, { e with host := host })

end ToolDock.Engine
