import ToolDock.Command.Run

/-!
The command line program. It cannot start other programs: the desktop's button layout is only known
from the configuration.
-/

open ToolDock

def readText? (path : String) : IO (Option String) := do
  try
    return some (← IO.FS.readFile path)
  catch _ =>
    return none

def main (args : List String) : IO UInt32 := do
  let home ← IO.getEnv "HOME"
  let paths := args ++ (home.map Command.defaultConfigPath).toList
    ++ args.filterMap fun arg ↦ match CommandLine.Word.ofArgument arg with
      | .option _ value => value
      | _ => none
  let texts ← paths.mapM fun path ↦ return (path, ← readText? path)
  let outcome := Command.run
    { textAt := fun path ↦ (texts.lookup path).join
      isPresent := fun path ↦ (texts.lookup path).join.isSome
      home := home
      programs := [] }
    args
  IO.print outcome.output
  if let some message := outcome.error? then IO.eprintln message
  return outcome.exitCode.toUInt32
