import ToolDock.Command.Diff
import ToolDock.Command.Line
import ToolDock.Config.Stored
import ToolDock.Layout.Stored
import ToolDock.Layout.Tree
import ToolDock.Layout.Violation
import ToolDock.WindowButtons

namespace ToolDock

structure Surroundings where
  /-- The text of the file at a path, if it can be read. -/
  textAt : String → Option String
  /-- Whether there is anything at a path. -/
  isPresent : String → Bool
  /-- The home directory of the user. -/
  home : Option String
  programs : Programs

inductive CommandError where
  | unreadableConfig (path : String)
  | invalidConfig (path : String)
  | unusableLayout (path : String)
  | refused (reason : EngineError)
deriving DecidableEq, Repr

def CommandError.message : CommandError → String
  | .unreadableConfig path => "reading config file " ++ path
  | .invalidConfig path => "in " ++ path
  | .unusableLayout path => "cannot load layout " ++ path
  | .refused reason => reason.message

inductive Outcome where
  /-- The command printed its answer and succeeded. -/
  | success (output : String)
  /-- The command printed that what was asked for is not so. -/
  | negative (output : String)
  | failure (error : CommandError)
  /-- The arguments make no command line. -/
  | misuse
  | fault (reason : Fault)
deriving DecidableEq, Repr

namespace Outcome

def exitCode : Outcome → Nat
  | success _ => 0
  | negative _ | failure _ => 1
  | misuse => 2
  | fault _ => 101

def output : Outcome → String
  | success output | negative output => output
  | _ => ""

def error? : Outcome → Option String
  | failure error => some ("Error: " ++ error.message)
  | _ => none

end Outcome

namespace Command

def defaultConfigPath (home : String) : String := home ++ "/.config/dockyard/dockyard.toml"

def readConfig (s : Surroundings) (path : String) : Except CommandError Config :=
  match s.textAt path with
  | none => .error (.unreadableConfig path)
  | some text =>
    match Config.read text with
    | .ok config => .ok config
    | .error _ => .error (.invalidConfig path)

/-- The named configuration, or the default one, which need not be there. -/
def loadConfig (s : Surroundings) (path : Option String) : Except CommandError Config :=
  match path, s.home.map defaultConfigPath with
  | some path, _ => readConfig s path
  | none, some path => if s.isPresent path then readConfig s path else .ok .default
  | none, none => .ok .default

def loadLayout (s : Surroundings) (path : String) : Except CommandError Layout :=
  match (s.textAt path).bind Layout.read? with
  | some layout => .ok layout
  | none => .error (.unusableLayout path)

def line (text : String) : String := text ++ "\n"

def checkOutcome (path : String) (l : Layout) : Outcome :=
  match l.violations with
  | [] => .success (line (path ++ ": ok (" ++ Digits.integer l.size ++ " windows)"))
  | violations =>
    .negative (String.join (violations.map fun v ↦ line (path ++ ": " ++ v.message)))

def opsText (ops : List HostOp) : String :=
  match ops with
  | [] => line "layouts are equivalent"
  | _ => String.join (ops.map fun op ↦ line op.text)

def opsJson (ops : List HostOp) : String :=
  line ((Json.array (ops.map HostOp.toJson)).pretty "")

def diffOutcome (settings : Settings) (source target : Layout) (asJson : Bool) : Outcome :=
  match source.diff settings target with
  | .error fault => .fault fault
  | .ok (.error reason) => .failure (.refused reason)
  | .ok (.ok ops) => .success (if asJson then opsJson ops else opsText ops)

def buttonsOutcome (b : ButtonSettings) (programs : Programs) : Outcome :=
  match (WindowButtons.new.refresh b.layout .new programs).1.2.state with
  | some layout => .success (line (layout.toJson.pretty ""))
  | none => .negative (line "window buttons layout unavailable")

def withLoaded {α : Type} (loaded : Except CommandError α) (next : α → Outcome) : Outcome :=
  match loaded with
  | .ok x => next x
  | .error error => .failure error

def execute (s : Surroundings) (config : Config) : Command → Outcome
  | check path => withLoaded (loadLayout s path) (checkOutcome path)
  | outline path => withLoaded (loadLayout s path) fun l ↦ .success (l.tree path).text
  | diff source target asJson =>
    withLoaded (loadLayout s source) fun l ↦
      withLoaded (loadLayout s target) fun m ↦ diffOutcome config.engine l m asJson
  | windowButtons => buttonsOutcome config.buttons s.programs

def run (s : Surroundings) (args : List String) : Outcome :=
  match CommandLine.parse? args with
  | none => .misuse
  | some line =>
    withLoaded (loadConfig s line.config) fun config ↦ execute s config line.command

end Command

end ToolDock
