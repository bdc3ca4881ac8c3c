import ToolDock.Fault

namespace ToolDock

structure Point where
  x : Int32
  y : Int32
deriving DecidableEq, Repr, Inhabited

structure Size where
  width : Int32
  height : Int32
deriving DecidableEq, Repr, Inhabited

structure Rect where
  x : Int32
  y : Int32
  width : Int32
  height : Int32
deriving DecidableEq, Repr, Inhabited

def Size.isDegenerate (s : Size) : Bool := s.width ≤ 0 || s.height ≤ 0

namespace Rect

open Checked

def ofParts (origin : Point) (size : Size) : Rect := ⟨origin.x, origin.y, size.width, size.height⟩

def origin (r : Rect) : Point := ⟨r.x, r.y⟩

def size (r : Rect) : Size := ⟨r.width, r.height⟩

def maxX (r : Rect) : Checked Int32 := add32 r.x r.width

def maxY (r : Rect) : Checked Int32 := add32 r.y r.height

def topLeft (r : Rect) : Point := r.origin

def topRight (r : Rect) : Checked Point := return ⟨← r.maxX, r.y⟩

def center (r : Rect) : Checked Point := do
  let x ← add32 r.x (r.width / 2)
  let y ← add32 r.y (r.height / 2)
  return ⟨x, y⟩

def isEmpty (r : Rect) : Bool := r.size.isDegenerate

def area (r : Rect) : Checked Int :=
  if r.isEmpty then return 0 else mul64 r.width.toInt r.height.toInt

/-- Whether `p` lies inside. The right and bottom edges count as inside, so the top-right corner
of a window flush with a screen edge is still visible. -/
def contains (r : Rect) (p : Point) : Checked Bool := do
  if r.isEmpty || p.x < r.x then return false
  if (← r.maxX) < p.x || p.y < r.y then return false
  return p.y ≤ (← r.maxY)

def intersection (r s : Rect) : Checked (Option Rect) := do
  let x := if s.x < r.x then r.x else s.x
  let y := if s.y < r.y then r.y else s.y
  let rx ← r.maxX
  let sx ← s.maxX
  let mx := if sx < rx then sx else rx
  let ry ← r.maxY
  let sy ← s.maxY
  let my := if sy < ry then sy else ry
  if mx ≤ x || my ≤ y then return none
  let width ← sub32 mx x
  let height ← sub32 my y
  return some ⟨x, y, width, height⟩

/-- The position nearest to `pos` at which an interval of length `len` lies inside the interval of
length `extent` at `start`; one that is too long is pinned to `start`. -/
def fitInterval (pos len start extent : Int32) : Checked Int32 := do
  if extent ≤ len then return start
  let last ← sub32 (← add32 start extent) len
  clamp32 pos start last

def translatedInto (r bounds : Rect) : Checked Rect := do
  let x ← fitInterval r.x r.width bounds.x bounds.width
  let y ← fitInterval r.y r.height bounds.y bounds.height
  return ⟨x, y, r.width, r.height⟩

def centeredIn (r frame : Rect) : Checked Rect := do
  let x ← add32 frame.x ((← sub32 frame.width r.width) / 2)
  let y ← add32 frame.y ((← sub32 frame.height r.height) / 2)
  return ⟨x, y, r.width, r.height⟩

def distanceSq (r : Rect) (p : Point) : Checked Int := do
  let c ← r.center
  let dx ← sub32 c.x p.x
  let dy ← sub32 c.y p.y
  let xx ← mul64 dx.toInt dx.toInt
  let yy ← mul64 dy.toInt dy.toInt
  add64 xx yy

end Rect

end ToolDock
