import ToolDock.Text.Lossy

/-!
Short-lived helper programs that are asked about the desktop. A program that was not found once is
never looked for again.
-/

namespace ToolDock

inductive ProbeFailure where
  | timeout
  | notFound
  | other (reason : String)
deriving DecidableEq, Repr

inductive ProbeOutcome where
  | success (output : String)
  | exitValue (code : Int32)
  | failure (reason : ProbeFailure)
deriving DecidableEq, Repr

def ProbeOutcome.output? : ProbeOutcome → Option String
  | .success output => some output
  | _ => none

inductive Ending where
  | exits (code : Int32)
  | isKilled
  | hangs
deriving DecidableEq, Repr

structure Program where
  /-- Whether it prints its arguments first, each on a line. -/
  echoesArguments : Bool
  output : List UInt8
  ending : Ending
  executable : Bool
deriving DecidableEq, Repr

namespace Program

/-- The arguments on lines of their own; one empty line if there are none. -/
def argumentLines (args : List String) : List UInt8 :=
  match args with
  | [] => [10]
  | _ => args.flatMap fun a ↦ a.toUTF8.toList ++ [10]

def run (p : Program) (args : List String) : ProbeOutcome :=
  if !p.executable then .failure (.other "Permission denied (os error 13)")
  else
    match p.ending with
    | .hangs => .failure .timeout
    | .isKilled => .failure (.other "terminated by signal")
    | .exits code =>
      if code = 0 then
        .success (Lossy.decode ((if p.echoesArguments then argumentLines args else []) ++ p.output))
      else .exitValue code

end Program

abbrev Programs := List (String × Program)

namespace Programs

def uninstall (ps : Programs) (name : String) : Programs := ps.filter (·.1 != name)

def install (ps : Programs) (name : String) (p : Program) : Programs :=
  (name, p) :: ps.uninstall name

end Programs

structure Probe where
  missing : List String
deriving DecidableEq, Repr, Inhabited

namespace Probe

def new : Probe := ⟨[]⟩

def isKnownMissing (p : Probe) (name : String) : Bool := p.missing.contains name

def run (p : Probe) (installed : Programs) (name : String) (args : List String) :
    ProbeOutcome × Probe :=
  if p.isKnownMissing name then (.failure .notFound, p)
  else if (name :: args).any (·.contains '\x00') then
    (.failure (.other "nul byte found in provided data"), p)
  else
    match installed.lookup name with
    | some program => (program.run args, p)
    | none => (.failure .notFound, ⟨name :: p.missing⟩)

end Probe

end ToolDock
