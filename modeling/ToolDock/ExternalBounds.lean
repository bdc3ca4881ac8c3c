import ToolDock.Number.Single
import ToolDock.Screen

namespace ToolDock

structure ExternalBounds where
  bounds : Rect
  needsCentering : Bool
deriving DecidableEq, Repr

namespace ExternalBounds

/-- Stored bounds stay valid while some of the title bar and a sensible portion of the window are
on screen. -/
def isValid (bounds : Rect) (screens : ScreenSet) : Checked Bool := do
  let leftVisible ← screens.isPointVisible bounds.topLeft
  let headerVisible ←
    if leftVisible then pure true else screens.isPointVisible (← bounds.topRight)
  if bounds.isEmpty || !headerVisible then return false
  screens.isRectVisible bounds

/-- Bounds without a usable stored rectangle: the current size, or the preferred one where the
current size has no area. -/
def initial (current preferred : Size) (origin : Point) : ExternalBounds :=
  ⟨.ofParts origin (if current.isDegenerate then preferred else current), true⟩

def compute (stored : Option Rect) (screens : ScreenSet) (fit : Rect) (current preferred : Size)
    (origin : Point) : Checked ExternalBounds :=
  match stored with
  | none => return initial current preferred origin
  | some bounds => do
    if ← isValid bounds screens then return ⟨bounds, false⟩
    if bounds.isEmpty then return initial current preferred origin
    return ⟨← bounds.translatedInto fit, true⟩

end ExternalBounds

/-- The ratio of `part` in `total`, nudged halfway toward the next pixel in `direction`, so that
rounding to whole pixels on the way back does not drift. -/
def adjustedRatio (part total direction : Int32) : Checked Weight :=
  if total ≤ 0 then return Weight.ofInt 0
  else do
    let all := Weight.ofInt total.toInt
    let ratio := Weight.ofInt part.toInt / all
    let next ← Checked.add32 part direction
    return ratio + (Weight.ofInt next.toInt / all - ratio) / Weight.ofInt 2

end ToolDock
