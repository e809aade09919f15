import Converge.Console.Run
import Converge.Process.Replay

/-!
# The program

The command line.  The manifest is read from disk and the report is written out; everything between
is `Console.run`.  Starting processes is up to the machine, and the one here has no program
installed: plans that ask docker for nothing work, and everything else reports that docker was not
found.
-/

namespace Converge.Program

/-- The system's refusal behind an error of reading a file. -/
def refusalOf : IO.Error → SystemFault
  | .inappropriateType _ 21 _ => .isDirectory
  | .inappropriateType .. => .notDirectory
  | .invalidArgument .. => .nameTooLong
  | .permissionDenied .. => .permissionDenied
  | _ => .notFound

def readText (path : String) : IO (Except SystemFault String) := do
  if let some fault := Path.refusal? path then
    return .error fault
  try
    return .ok (← IO.FS.readFile path)
  catch e =>
    return .error (refusalOf e)

/-- The manifest that the arguments name. -/
def manifestOf (args : List String) : Option String :=
  match Console.Request.parse defaultBinary args with
  | .ok (.plan _ path) | .ok (.apply _ path _) => some path
  | _ => none

end Converge.Program

open Converge in
/-- Runs the program with the words of the command line and gives its exit code. -/
def main (args : List String) : IO UInt32 := do
  let text ← match Program.manifestOf args with
    | some path => Program.readText path
    | none => pure (.error .notFound)
  match Console.run (fun _ => text) Replay.machine { installed := [] } args with
  | .error fault =>
    IO.eprintln fault.message
    return 2
  | .ok (report, _) =>
    report.output.forM fun line => IO.println line
    report.log.forM fun line => IO.eprintln line
    report.errors.forM fun line => IO.eprintln line
    return report.exitCode.toUInt32
