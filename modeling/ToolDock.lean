import ToolDock.Command.FileTree
import ToolDock.Engine.Attributes
import ToolDock.Engine.Focus
import ToolDock.Engine.Invariant
import ToolDock.Engine.Moving
import ToolDock.Engine.Resizing
import ToolDock.Main
import ToolDock.OwningThread
import ToolDock.Proofs.Arriving
import ToolDock.Proofs.Batching
import ToolDock.Proofs.Bounding
import ToolDock.Proofs.Clearing
import ToolDock.Proofs.Colliding
import ToolDock.Proofs.Composing
import ToolDock.Proofs.Decimals
import ToolDock.Proofs.Delivering
import ToolDock.Proofs.Digits
import ToolDock.Proofs.Discarding
import ToolDock.Proofs.Docking
import ToolDock.Proofs.Emptying
import ToolDock.Proofs.Focusing
import ToolDock.Proofs.Forgetting
import ToolDock.Proofs.Histories
import ToolDock.Proofs.Inserting
import ToolDock.Proofs.Installing
import ToolDock.Proofs.Labelling
import ToolDock.Proofs.Numbering
import ToolDock.Proofs.Ordering
import ToolDock.Proofs.Outlining
import ToolDock.Proofs.Overlaying
import ToolDock.Proofs.Overwriting
import ToolDock.Proofs.Preferring
import ToolDock.Proofs.Pressing
import ToolDock.Proofs.Publishing
import ToolDock.Proofs.Quoting
import ToolDock.Proofs.Reapplying
import ToolDock.Proofs.Recency
import ToolDock.Proofs.Refusals
import ToolDock.Proofs.Reloading
import ToolDock.Proofs.Reopening
import ToolDock.Proofs.Repeating
import ToolDock.Proofs.Replacing
import ToolDock.Proofs.Replaying
import ToolDock.Proofs.Reporting
import ToolDock.Proofs.Rereading
import ToolDock.Proofs.Resuming
import ToolDock.Proofs.RevealByLayout
import ToolDock.Proofs.Revealing
import ToolDock.Proofs.Rounding
import ToolDock.Proofs.Saving
import ToolDock.Proofs.Shortest
import ToolDock.Proofs.Sizing
import ToolDock.Proofs.Steadiness
import ToolDock.Proofs.TitleBar
import ToolDock.Proofs.UnregisteredSlots
import ToolDock.Proofs.Unwinding
