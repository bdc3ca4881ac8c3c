/-!
Command lines: options, the name of a command, and its own options and operands in any order.
Everything after a lone `--` is an operand. An option is given at most once on either side of the
name; on both sides, the one behind the name counts.
-/

namespace ToolDock

inductive Command where
  /-- Reports what is wrong with a layout. -/
  | check (layout : String)
  /-- Prints a layout as a tree. -/
  | outline (layout : String)
  /-- Prints what the host is asked to do when one layout is applied over another. -/
  | diff (source target : String) (asJson : Bool)
  /-- Prints the layout of the title bar buttons. -/
  | windowButtons
deriving DecidableEq, Repr

structure CommandLine where
  /-- The configuration file, if not the default one. -/
  config : Option String
  logFilter : String
  command : Command
deriving DecidableEq, Repr

namespace CommandLine

def defaultLogFilter : String := "warn"

inductive Word where
  | plain (s : String)
  | option (name : String) (value : Option String)
  /-- The mark that ends the options. -/
  | endOptions
  /-- A group of short options; there are none. -/
  | short
deriving DecidableEq, Repr

def Word.ofArgument (s : String) : Word :=
  match s.toList with
  | ['-'] => .plain s
  | ['-', '-'] => .endOptions
  | '-' :: '-' :: cs =>
    let name := String.ofList (cs.takeWhile (· != '='))
    match cs.dropWhile (· != '=') with
    | [] => .option name none
    | _ :: value => .option name (some (String.ofList value))
  | '-' :: _ => .short
  | _ => .plain s

structure Part where
  config : Option String
  logFilter : Option String
  asJson : Bool
  operands : List String
deriving DecidableEq, Repr

namespace Part

def empty : Part := ⟨none, none, false, []⟩

def setValue (p : Part) (name value : String) : Option Part :=
  if name == "config" then
    if p.config.isNone && !value.isEmpty then some { p with config := some value } else none
  else if name == "log" then
    if p.logFilter.isNone then some { p with logFilter := some value } else none
  else none

def setFlag (p : Part) : Option Part := if p.asJson then none else some { p with asJson := true }

def addOperand (p : Part) (s : String) : Option Part :=
  if s.isEmpty then none else some { p with operands := p.operands ++ [s] }

end Part

def readHead? (p : Part) : List String → Option (Part × String × List String)
  | [] => none
  | arg :: rest =>
    match Word.ofArgument arg, rest with
    | .plain name, rest => some (p, name, rest)
    | .option name (some value), rest => do readHead? (← p.setValue name value) rest
    | .option name none, value :: rest =>
      match Word.ofArgument value with
      | .plain value => do readHead? (← p.setValue name value) rest
      | _ => none
    | _, _ => none

def readTail? (p : Part) : List String → Option Part
  | [] => some p
  | arg :: rest =>
    match Word.ofArgument arg, rest with
    | .plain s, rest => do readTail? (← p.addOperand s) rest
    | .endOptions, rest => rest.foldlM Part.addOperand p
    | .option "json" none, rest => do readTail? (← p.setFlag) rest
    | .option name (some value), rest => do readTail? (← p.setValue name value) rest
    | .option name none, value :: rest =>
      match Word.ofArgument value with
      | .plain value => do readTail? (← p.setValue name value) rest
      | _ => none
    | _, _ => none

def command? (name : String) (p : Part) : Option Command :=
  match name, p.operands, p.asJson with
  | "check", [layout], false => some (.check layout)
  | "show", [layout], false => some (.outline layout)
  | "diff", [source, target], asJson => some (.diff source target asJson)
  | "window-buttons", [], false => some .windowButtons
  | _, _, _ => none

def parse? (args : List String) : Option CommandLine := do
  let (head, name, rest) ← readHead? .empty args
  let tail ← readTail? .empty rest
  return {
    config := tail.config.or head.config
    logFilter := (tail.logFilter.or head.logFilter).getD defaultLogFilter
    command := ← command? name tail }

end CommandLine

end ToolDock
