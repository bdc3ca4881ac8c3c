import ToolDock.Engine.Basic
import ToolDock.ExternalBounds

namespace ToolDock

structure SplitterGeometry where
  size : Size
  dividerWidth : Int32
  /-- Whether the resized window is its second part. -/
  isSecond : Bool
deriving DecidableEq, Repr

structure DecoratorGeometry where
  showing : Bool
  decorator : Size
  rootPane : Size
  splitter : Option SplitterGeometry
  /-- Whether the size of the docking area is settled. -/
  sizeTrusted : Bool
deriving DecidableEq, Repr

namespace Engine

def extentAlong (a : Anchor) (s : Size) : Int32 := if a.isHorizontal then s.height else s.width

def extentAcross (a : Anchor) (s : Size) : Int32 :=
  if a.isSplitVertically then s.height else s.width

/-- The share of its splitter that a window takes, the divider counted to the second part. -/
def splitterShare (a : Anchor) (decorator : Size) (s : SplitterGeometry) : Checked Weight := do
  let part := extentAcross a decorator
  let total := extentAcross a s.size
  if s.isSecond then adjustedRatio (← Checked.add32 part s.dividerWidth) total (-1)
  else adjustedRatio part total 1

/-- The placement of a docked window after a resize, and the share of the root pane that its whole
docking area takes. -/
def measured (info : WindowInfo) (g : DecoratorGeometry) : Checked (WindowInfo × Weight) := do
  let a := info.anchor
  let sideWeight ← match g.splitter with
    | some s => splitterShare a g.decorator s
    | none => pure info.sideWeight
  let area := match g.splitter with
    | some s => s.size
    | none => g.decorator
  let root := extentAlong a g.rootPane
  let weight ← adjustedRatio (extentAlong a g.decorator) root 1
  let areaWeight ← adjustedRatio (extentAlong a area) root 1
  return ({ info with weight := weight, sideWeight := sideWeight }, areaWeight)

def placed? (h : Host) (entry : Entry) (info : WindowInfo) : Option WindowInfo :=
  match info.windowType with
  | .floating =>
    entry.floating.map fun handle ↦ { info with floatingBounds := some (h.externalBounds handle) }
  | .windowed =>
    (entry.windowed.filter h.isExternalShowing).map fun handle ↦
      { info with
        floatingBounds := some (h.externalBounds handle)
        maximized := h.isExternalMaximized handle }
  | .docked | .sliding => none

def learnShares (key : SlotKey) (info : WindowInfo) (g : DecoratorGeometry) : Action Unit := do
  let (info, areaWeight) ← check (measured info g)
  modify fun e ↦
    { e with layout := e.layout.setUnifiedWeight info.anchor areaWeight }.commit key info

/-- The host moved or resized a window. Nothing can be measured while the window does not show, nor
in a docking area whose size is not settled. -/
def movedOrResized (id : String) (g : DecoratorGeometry) : Operation Unit := do
  let key ← keyOf id
  if g.showing then
    let info ← takeInfo key
    if info.isExternal then
      let e ← get
      match (e.entries.get? key).bind (placed? e.host · info) with
      | some info => modify fun e ↦ (e.commit key info).fire .movedOrResized id
      | none => return
    else if g.sizeTrusted then
      learnShares key info g
      modify (·.fire .movedOrResized id)

end Engine

end ToolDock
