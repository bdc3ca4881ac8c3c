import ToolDock.Layout.Basic
import ToolDock.Number.Double
import ToolDock.Text.Json.Parser

/-!
Layouts as JSON objects, with the fields of stored layouts. A field that a window lacks has the
value of a new window, and fields that are not known are ignored. An object may also be given as the
array of its values in the order of their fields.
-/

namespace ToolDock

/-- Numbers in JSON: at least one digit after the point, exponents outside of `1e-6` to `1e13`. -/
def jsonNumber : Weight.Format := ⟨.toEven, true, some (-6, 12), "null", "null", "null", "null"⟩

namespace Weight

def toJson (w : Weight) : Json := .number (w.text jsonNumber)

def ofDouble? (j : Json) : Option Weight := do
  let (negative, w) ← j.written?
  let d ← w.toFloat?
  return .ofFloat (if negative then -d else d).toFloat32

/-- A number. An integer of 64 bits is rounded once, any other number as a double. -/
def ofJson? (j : Json) : Option Weight :=
  match j.integer? with
  | some n =>
    if -9223372036854775808 ≤ n ∧ n ≤ 18446744073709551615 then some (ofInt n) else ofDouble? j
  | none => ofDouble? j

end Weight

namespace Json

def int32? (j : Json) : Option Int32 := do
  (Checked.fit32 .addOverflow (← j.integer?)).toOption

/-- One of the names that `ofName?` knows, as a text or as the field of an object with nothing in
it. -/
def name? {α : Type} (ofName? : String → Option α) : Json → Option α
  | string s | object [(s, null)] => ofName? s
  | _ => none

/-- The object with the given fields in this order, of which the last may be missing, if it is an
array of their values. -/
def named? (keys : List String) : Json → Option Json
  | object fields => some (object fields)
  | array items => if items.length ≤ keys.length then some (object (keys.zip items)) else none
  | _ => none

def nullable? {α : Type} (read : Json → Option α) : Json → Option (Option α)
  | null => some none
  | j => (read j).map some

def optional {α : Type} (j : Json) (key : String) (read : Json → Option α) (default : α) :
    Option α :=
  match j.field? key with
  | some x => read x
  | none => some default

end Json

namespace Rect

def toJson (r : Rect) : Json :=
  .object [("x", .integer r.x.toInt), ("y", .integer r.y.toInt),
    ("width", .integer r.width.toInt), ("height", .integer r.height.toInt)]

def ofJson? (j : Json) : Option Rect := do
  let j ← j.named? ["x", "y", "width", "height"]
  return {
    x := ← (← j.field? "x").int32?
    y := ← (← j.field? "y").int32?
    width := ← (← j.field? "width").int32?
    height := ← (← j.field? "height").int32? }

end Rect

namespace WindowInfo

def toJson (w : WindowInfo) : Json :=
  .object
    ([("id", .string w.id), ("pane_id", .string w.pane), ("anchor", .string w.anchor.name),
        ("type", .string w.windowType.name), ("internal_type", .string w.internalType.name),
        ("visible", .bool w.visible), ("active_on_start", .bool w.activeOnStart),
        ("auto_hide", .bool w.autoHide), ("split", .bool w.split),
        ("order", .integer w.order.toInt), ("weight", w.weight.toJson),
        ("side_weight", w.sideWeight.toJson)]
      ++ (w.floatingBounds.map fun r ↦ ("floating_bounds", r.toJson)).toList
      ++ [("maximized", .bool w.maximized), ("content_ui_type", .string w.contentUi.name),
        ("show_stripe_button", .bool w.showStripeButton)])

def jsonKeys : List String :=
  ["id", "pane_id", "anchor", "type", "internal_type", "visible", "active_on_start", "auto_hide",
    "split", "order", "weight", "side_weight", "floating_bounds", "maximized", "content_ui_type",
    "show_stripe_button"]

def ofJson? (j : Json) : Option WindowInfo := do
  let j ← j.named? jsonKeys
  let new := WindowInfo.new "" .left
  return {
    id := ← j.optional "id" Json.text? new.id
    pane := ← j.optional "pane_id" Json.text? new.pane
    anchor := ← j.optional "anchor" (Json.name? Anchor.ofName?) new.anchor
    windowType := ← j.optional "type" (Json.name? WindowType.ofName?) new.windowType
    internalType := ← j.optional "internal_type" (Json.name? WindowType.ofName?) new.internalType
    visible := ← j.optional "visible" Json.flag? new.visible
    activeOnStart := ← j.optional "active_on_start" Json.flag? new.activeOnStart
    autoHide := ← j.optional "auto_hide" Json.flag? new.autoHide
    split := ← j.optional "split" Json.flag? new.split
    order := ← j.optional "order" Json.int32? new.order
    weight := ← j.optional "weight" Weight.ofJson? new.weight
    sideWeight := ← j.optional "side_weight" Weight.ofJson? new.sideWeight
    floatingBounds :=
      ← j.optional "floating_bounds" (Json.nullable? Rect.ofJson?) new.floatingBounds
    maximized := ← j.optional "maximized" Json.flag? new.maximized
    contentUi := ← j.optional "content_ui_type" (Json.name? ContentUi.ofName?) new.contentUi
    showStripeButton := ← j.optional "show_stripe_button" Json.flag? new.showStripeButton
    persisted := new.persisted }

end WindowInfo

namespace Layout

def toJson (l : Layout) : Json :=
  .object
    [("windows", .array (l.windows.map WindowInfo.toJson)),
      ("unified_weights", .object (l.setWeights.map fun p ↦ (p.1.name, p.2.toJson)))]

/-- Shared weights from an object with a field for each anchor; the last of several for one anchor
counts. -/
def weightsOfJson? (j : Json) : Option (PerAnchor (Option Weight)) := do
  (← j.fields?).foldlM
    (fun weights field ↦ do
      return weights.set (← Anchor.ofName? field.1) (some (← Weight.ofJson? field.2)))
    (.const none)

def ofJson? (j : Json) : Option Layout := do
  let j ← j.named? ["windows", "unified_weights"]
  let windows ← j.optional "windows" (fun x ↦ do (← x.items?).mapM WindowInfo.ofJson?) []
  let weights ← j.optional "unified_weights" weightsOfJson? (.const none)
  return .loaded windows weights

end Layout

end ToolDock
