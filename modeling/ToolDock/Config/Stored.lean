import ToolDock.Config.Basic
import ToolDock.Toml.Document

/-!
The configuration as text. Every section and every key may be missing; an unknown one and a value
of another type are refused.
-/

namespace ToolDock

inductive ConfigError where
  | invalid
deriving DecidableEq, Repr

def ConfigError.message : ConfigError → String
  | .invalid => "invalid dockyard configuration"

namespace Config

open Toml (Entries Value)

def field {α : Type} (read : Value → Option α) (default : α) (es : Entries) (key : String) :
    Option α :=
  match es.lookup key with
  | some v => read v
  | none => some default

def boolean? : Value → Option Bool
  | .boolean b => some b
  | _ => none

def text? : Value → Option String
  | .text s => some s
  | _ => none

def natural? : Value → Option Nat
  | .integer (some n) => if 0 ≤ n ∧ n ≤ 18446744073709551615 then some n.toNat else none
  | _ => none

def texts? : Value → Option (List String)
  | .array items => items.mapM text?
  | _ => none

/-- The entries of a section with the given keys. A section can also be an array, which has the
values of its first keys. -/
def section? (keys : List String) : Value → Option Entries
  | .table _ es => if es.all fun e ↦ keys.contains e.1 then some es else none
  | .array items => some (keys.zip items)
  | _ => none

def engineKeys : List String :=
  ["stack_enabled", "unified_weights", "ultrawide_layout", "check_invariants",
    "require_owning_thread"]

def engine? (v : Value) : Option Settings := do
  let es ← section? engineKeys v
  let default := Settings.default
  return {
    stackEnabled := ← field boolean? default.stackEnabled es "stack_enabled"
    unifiedWeights := ← field boolean? default.unifiedWeights es "unified_weights"
    ultrawideLayout := ← field boolean? default.ultrawideLayout es "ultrawide_layout"
    checkInvariants := ← field boolean? default.checkInvariants es "check_invariants"
    requireOwningThread := ← field boolean? default.requireOwningThread es "require_owning_thread" }

def keys? (v : Value) : Option KeySettings := do
  let es ← section? ["double_press_ms", "disable_double_key_overlay", "activation_modifiers"] v
  let default := KeySettings.default
  return {
    doublePressMs := ← field natural? default.doublePressMs es "double_press_ms"
    disableOverlay := ← field boolean? default.disableOverlay es "disable_double_key_overlay"
    activationModifiers := ← field (fun v ↦ (texts? v).map some) none es "activation_modifiers" }

def buttons? (v : Value) : Option ButtonSettings := do
  let es ← section? ["override", "probe_timeout_ms"] v
  let default := ButtonSettings.default
  return {
    layout := ← field (fun v ↦ (text? v).map some) none es "override"
    probeTimeoutMs := ← field natural? default.probeTimeoutMs es "probe_timeout_ms" }

def layoutPath? (v : Value) : Option (Option String) := do
  field (fun v ↦ (text? v).map some) none (← section? ["path"] v) "path"

def ofEntries? (es : Entries) : Option Config := do
  let es ← section? ["engine", "keys", "window_buttons", "layout"] (.table .header es)
  return {
    engine := ← field engine? .default es "engine"
    keys := ← field keys? .default es "keys"
    buttons := ← field buttons? .default es "window_buttons"
    layoutPath := ← field layoutPath? none es "layout" }

def read (text : String) : Except ConfigError Config :=
  match (Toml.Document.read? text).bind ofEntries? with
  | some config => .ok config
  | none => .error .invalid

def line (key value : String) : String := key ++ " = " ++ value ++ "\n"

def boolLine (key : String) (b : Bool) : String := line key (if b then "true" else "false")

def optionLine {α : Type} (write : α → String) (key : String) : Option α → String
  | some x => line key (write x)
  | none => ""

def writeNatural (n : Nat) : String := Digits.integer n

def writeTexts (ss : List String) : String :=
  "[" ++ ", ".intercalate (ss.map Toml.Text.write) ++ "]"

def writeEngine (s : Settings) : String :=
  "[engine]\n" ++ boolLine "stack_enabled" s.stackEnabled
    ++ boolLine "unified_weights" s.unifiedWeights ++ boolLine "ultrawide_layout" s.ultrawideLayout
    ++ boolLine "check_invariants" s.checkInvariants
    ++ boolLine "require_owning_thread" s.requireOwningThread

def writeKeys (k : KeySettings) : String :=
  "[keys]\n" ++ line "double_press_ms" (writeNatural k.doublePressMs)
    ++ boolLine "disable_double_key_overlay" k.disableOverlay
    ++ optionLine writeTexts "activation_modifiers" k.activationModifiers

def writeButtons (b : ButtonSettings) : String :=
  "[window_buttons]\n" ++ optionLine Toml.Text.write "override" b.layout
    ++ line "probe_timeout_ms" (writeNatural b.probeTimeoutMs)

def writeLayout (path : Option String) : String :=
  "[layout]\n" ++ optionLine Toml.Text.write "path" path

def write (c : Config) : String :=
  "\n".intercalate
    [writeEngine c.engine, writeKeys c.keys, writeButtons c.buttons, writeLayout c.layoutPath]

end Config

end ToolDock
