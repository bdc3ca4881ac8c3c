import ToolDock.Modifiers
import ToolDock.Settings

namespace ToolDock

structure KeySettings where
  /-- How long the second press of the activation modifier may take, in milliseconds. -/
  doublePressMs : Nat
  disableOverlay : Bool
  /-- The names of the modifiers of the activation shortcut. -/
  activationModifiers : Option (List String)
deriving DecidableEq, Repr

namespace KeySettings

def default : KeySettings := ⟨300, false, none⟩

/-- The modifiers of the activation shortcut; unknown names are passed over. -/
def shortcut (k : KeySettings) : Option Modifiers :=
  k.activationModifiers.map fun names ↦
    (names.filterMap Modifiers.ofName?).foldl Modifiers.union .none

end KeySettings

structure ButtonSettings where
  /-- A button layout to use instead of the one of the desktop. -/
  layout : Option String
  probeTimeoutMs : Nat
deriving DecidableEq, Repr

def ButtonSettings.default : ButtonSettings := ⟨none, 5000⟩

structure Config where
  engine : Settings
  keys : KeySettings
  buttons : ButtonSettings
  /-- The path of the stored layout. -/
  layoutPath : Option String
deriving DecidableEq, Repr

def Config.default : Config := ⟨.default, .default, .default, none⟩

end ToolDock
