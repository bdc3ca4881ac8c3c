import ToolDock.Layout.Basic
import ToolDock.Notation.Value.Reader
import ToolDock.Notation.Value.Writer

/-!
Stored layouts: a layout as a value of the object notation and as text. A field that a stored window
lacks has the value of a new window, fields that are not known are ignored, and no known field may
stand twice.
-/

namespace ToolDock

open Notation

/-- Numbers in stored layouts: plain notation, a whole number with a fraction of one zero. A
not-a-number keeps its sign. -/
def storedNumber : Weight.Format :=
  { Weight.plain with showsFraction := true, negativeNan := "-NaN" }

namespace Weight

/-- Infinity and not-a-number are names where no sign stands before them. -/
def toValue (w : Weight) : Value :=
  if w.parts.exponent = 255 ∧ !w.parts.negative then .ident false (w.text storedNumber)
  else .number (w.text storedNumber)

def ofValue? : Value → Option Weight
  | .number s => Numeral.readWeight? s
  | .ident false s => Numeral.readWeight? s
  | _ => none

end Weight

namespace Stored

def flag (b : Bool) : Value := .ident false (if b then "true" else "false")

def flag? : Value → Option Bool
  | .ident false "true" => some true
  | .ident false "false" => some false
  | _ => none

def text? : Value → Option String
  | .text s => some s
  | _ => none

def int (n : Int32) : Value := .number (Digits.integer n.toInt)

def int? : Value → Option Int32
  | .number s => Numeral.readInt32? s
  | _ => none

def name? {α : Type} (ofName? : String → Option α) : Value → Option α
  | .ident _ s => ofName? s
  | _ => none

def fields? (exts : Extensions) (name : String) : Value → Option (List (String × Value))
  | .record none fields => if exts.explicitNames then none else some fields
  | .record (some n) fields => if n == name then some fields else none
  | .unit | .tuple none [] => if exts.explicitNames then none else some []
  | .tuple (some n) [] => if n == name then some [] else none
  | _ => none

def field? (fields : List (String × Value)) (name : String) : Option (Option Value) :=
  match fields.filter (·.1 == name) with
  | [] => some none
  | [(_, v)] => some (some v)
  | _ => none

def optional {α : Type} (fields : List (String × Value)) (name : String) (read : Value → Option α)
    (default : α) : Option α := do
  match ← field? fields name with
  | some v => read v
  | none => some default

def required {α : Type} (fields : List (String × Value)) (name : String)
    (read : Value → Option α) : Option α := do
  read (← (← field? fields name))

end Stored

open Stored

namespace Rect

def toValue (r : Rect) : Value :=
  .record none [("x", int r.x), ("y", int r.y), ("width", int r.width), ("height", int r.height)]

def ofFields? (fields : List (String × Value)) : Option Rect := do
  return {
    x := ← required fields "x" int?
    y := ← required fields "y" int?
    width := ← required fields "width" int?
    height := ← required fields "height" int? }

def ofValue? (exts : Extensions) (v : Value) : Option Rect := do
  ofFields? (← fields? exts "Rect" v)

/-- The levels around the bounds of a window, two for each of the layout, its list of windows and
the window. -/
def enclosingLevels : Nat := 6

/-- A rectangle or its absence. A rectangle without `Some` takes the level of the option too. -/
def ofOption? (exts : Extensions) : Value → Option (Option Rect)
  | .ident false "None" => some none
  | .option true v => if exts.unwrapVariants then none else (ofValue? exts v).map some
  | .option false (.record none fields) => (ofFields? fields).map some
  | .option false v => (ofValue? exts v).map some
  | v =>
    if exts.implicitSome && enclosingLevels + 1 + v.depth ≤ Value.maxDepth then
      (ofValue? exts v).map some
    else none

end Rect

namespace WindowInfo

def toValue (w : WindowInfo) : Value :=
  .record none
    ([("id", .text w.id), ("pane_id", .text w.pane), ("anchor", .ident false w.anchor.name),
        ("type", .ident false w.windowType.name),
        ("internal_type", .ident false w.internalType.name), ("visible", flag w.visible),
        ("active_on_start", flag w.activeOnStart), ("auto_hide", flag w.autoHide),
        ("split", flag w.split), ("order", int w.order), ("weight", w.weight.toValue),
        ("side_weight", w.sideWeight.toValue)]
      ++ (w.floatingBounds.map fun r ↦
        ("floating_bounds", Value.option true r.toValue)).toList
      ++ [("maximized", flag w.maximized), ("content_ui_type", .ident false w.contentUi.name),
        ("show_stripe_button", flag w.showStripeButton)])

def ofValue? (exts : Extensions) (v : Value) : Option WindowInfo := do
  let fields ← fields? exts "WindowInfo" v
  let new := WindowInfo.new "" .left
  return {
    id := ← optional fields "id" text? new.id
    pane := ← optional fields "pane_id" text? new.pane
    anchor := ← optional fields "anchor" (name? Anchor.ofName?) new.anchor
    windowType := ← optional fields "type" (name? WindowType.ofName?) new.windowType
    internalType := ← optional fields "internal_type" (name? WindowType.ofName?) new.internalType
    visible := ← optional fields "visible" flag? new.visible
    activeOnStart := ← optional fields "active_on_start" flag? new.activeOnStart
    autoHide := ← optional fields "auto_hide" flag? new.autoHide
    split := ← optional fields "split" flag? new.split
    order := ← optional fields "order" int? new.order
    weight := ← optional fields "weight" Weight.ofValue? new.weight
    sideWeight := ← optional fields "side_weight" Weight.ofValue? new.sideWeight
    floatingBounds := ← optional fields "floating_bounds" (Rect.ofOption? exts) new.floatingBounds
    maximized := ← optional fields "maximized" flag? new.maximized
    contentUi := ← optional fields "content_ui_type" (name? ContentUi.ofName?) new.contentUi
    showStripeButton := ← optional fields "show_stripe_button" flag? new.showStripeButton
    persisted := new.persisted }

end WindowInfo

namespace Layout

def toValue (l : Layout) : Value :=
  .record none
    [("windows", .list (l.windows.map WindowInfo.toValue)),
      ("unified_weights", .map (l.setWeights.map fun p ↦ (.ident false p.1.name, p.2.toValue)))]

/-- Shared weights from the entries of a map; the last of several for one anchor counts. -/
def weightsOfEntries? (entries : List (Value × Value)) : Option (PerAnchor (Option Weight)) :=
  entries.foldlM
    (fun weights entry ↦ do
      return weights.set (← name? Anchor.ofName? entry.1) (some (← Weight.ofValue? entry.2)))
    (.const none)

def windowsOfValue? (exts : Extensions) : Value → Option (List WindowInfo)
  | .list items => items.mapM (WindowInfo.ofValue? exts)
  | _ => none

def weightsOfValue? : Value → Option (PerAnchor (Option Weight))
  | .map entries => weightsOfEntries? entries
  | _ => none

def ofValue? (exts : Extensions) (v : Value) : Option Layout := do
  let fields ← fields? exts "LayoutRepr" v
  let windows ← optional fields "windows" (windowsOfValue? exts) []
  let weights ← optional fields "unified_weights" weightsOfValue? (.const none)
  return .loaded windows weights

def write (l : Layout) : String := l.toValue.write ""

def read? (s : String) : Option Layout := do
  let (exts, v) ← Value.read? s
  ofValue? exts v

end Layout

inductive LayoutFile where
  | missing
  | unreadable
  | text (content : String)
deriving DecidableEq

inductive LayoutFileError where
  | unreadable
  | malformed
deriving DecidableEq, Repr

/-- The layout in a file. Where nothing was saved there is none, which is not an error. -/
def LayoutFile.load : LayoutFile → Except LayoutFileError (Option Layout)
  | missing => .ok none
  | unreadable => .error .unreadable
  | text content =>
    match Layout.read? content with
    | some layout => .ok (some layout)
    | none => .error .malformed

end ToolDock
