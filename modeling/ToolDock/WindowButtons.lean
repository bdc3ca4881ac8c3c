import ToolDock.Probe
import ToolDock.Text.Blank
import ToolDock.Text.Json

/-!
The buttons in the title bar: layouts such as `appmenu:minimize,maximize,close`, and the best
layout known so far.
-/

namespace ToolDock

inductive WindowButton where
  | minimize
  | maximize
  | close
deriving DecidableEq, Repr, Inhabited

namespace WindowButton

def all : List WindowButton := [.minimize, .maximize, .close]

def name : WindowButton → String
  | .minimize => "minimize"
  | .maximize => "maximize"
  | .close => "close"

def ofName? (s : String) : Option WindowButton := all.find? (·.name == s)

end WindowButton

structure ButtonLayout where
  rightPosition : Bool
  buttons : List WindowButton
deriving DecidableEq, Repr

namespace ButtonLayout

def splitAt (separator : Char) : List Char → List (List Char)
  | [] => [[]]
  | c :: rest =>
    if c = separator then [] :: splitAt separator rest
    else
      match splitAt separator rest with
      | part :: parts => (c :: part) :: parts
      | [] => [[c]]

def sideButtons (side : List Char) : List WindowButton :=
  (splitAt ',' side).filterMap fun name ↦ WindowButton.ofName? (String.ofList (Blank.trim name))

def parse? (s : String) : Option ButtonLayout :=
  match splitAt ':' s.toList with
  | [leftSide, rightSide] =>
    let left := sideButtons leftSide
    let right := sideButtons rightSide
    if (left ++ right).Nodup then some ⟨left.isEmpty || !right.isEmpty, left ++ right⟩ else none
  | _ => none

def toJson (l : ButtonLayout) : Json :=
  .object [("right_position", .bool l.rightPosition),
    ("buttons", .array (l.buttons.map fun b ↦ .string b.name))]

end ButtonLayout

def settingsProgram : String := "gsettings"

def buttonLayoutQuery : List String := ["get", "org.gnome.desktop.wm.preferences", "button-layout"]

/-- The text in the output of the settings program: without blanks around it, then without
apostrophes and then without quotes. Nothing if no text is left. -/
def settingText? (output : String) : Option String :=
  let cs := Blank.strip (· == '"') (Blank.strip (· == '\'') (Blank.trim output.toList))
  if cs.isEmpty then none else some (String.ofList cs)

def queryButtonLayout (probe : Probe) (installed : Programs) : Option String × Probe :=
  let (outcome, probe) := probe.run installed settingsProgram buttonLayoutQuery
  (outcome.output?.bind settingText?, probe)

/-- The button layout in use. A configured layout goes before that of the desktop; a cached one is
only used until another has been computed. -/
structure WindowButtons where
  state : Option ButtonLayout
deriving DecidableEq, Repr, Inhabited

namespace WindowButtons

def new : WindowButtons := ⟨none⟩

def loadCached (w : WindowButtons) (cached : ButtonLayout) : Bool × WindowButtons :=
  match w.state with
  | some _ => (false, w)
  | none => (true, ⟨some cached⟩)

def configured? (override : Option String) : Option ButtonLayout :=
  (override.filter (!·.isEmpty)).bind ButtonLayout.parse?

def refresh (w : WindowButtons) (override : Option String) (probe : Probe) (installed : Programs) :
    (Bool × WindowButtons) × Probe :=
  match configured? override with
  | some layout => ((true, ⟨some layout⟩), probe)
  | none =>
    let (text, probe) := queryButtonLayout probe installed
    match text.bind ButtonLayout.parse? with
    | some layout => ((true, ⟨some layout⟩), probe)
    | none => ((false, w), probe)

end WindowButtons

end ToolDock
