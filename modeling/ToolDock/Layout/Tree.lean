import ToolDock.Layout.Basic
import ToolDock.Text.Tree

namespace ToolDock

def WindowInfo.summary (w : WindowInfo) : String :=
  w.id ++ " #" ++ Digits.integer w.order.toInt ++ " " ++ w.windowType.name ++ " "
    ++ if w.visible then "visible" else "hidden"

namespace Layout

def slotTree? (l : Layout) (pane : String) (anchor : Anchor) (split : Bool) : Option Tree :=
  match l.bucket ⟨pane, anchor, split⟩ with
  | [] => none
  | ws => some (.node (if split then "split" else "primary") [.leaf (ws.map WindowInfo.summary)])

def anchorTree? (l : Layout) (pane : String) (anchor : Anchor) : Option Tree :=
  match [false, true].filterMap (l.slotTree? pane anchor) with
  | [] => none
  | slots => some (.node anchor.name slots)

def paneTree (l : Layout) (pane : String) : Tree :=
  .node pane (Anchor.all.filterMap (l.anchorTree? pane))

def tree (l : Layout) (title : String) : Tree := .node title (l.panes.map l.paneTree)

end Layout

end ToolDock
