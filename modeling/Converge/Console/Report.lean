import Converge.Failure
import Converge.Pass.Script
import Converge.Text.Lines

/-!
# Reports

What a run of the program shows: its output, its log, and on failure the chain of causes.

A report holds the texts as they are printed, each with a line feed after it.  Texts may hold line
feeds of their own, so the lines that a reader of the output sees are `outputLines`, `logLines` and
`errorLines`.
-/

namespace Converge

namespace LogEntry

/-- Which part of the program writes the entry. -/
def target : LogEntry → String
  | finished .. => "mvirt_docker"
  | _ => "mvirt_docker::agent"

/-- What the entry says, followed by its fields. -/
def text : LogEntry → String
  | reconciling kind identity => "Reconciling kind=" ++ kind.name ++ " name=" ++ identity
  | unchanged kind identity reason =>
    "No change kind=" ++ kind.name ++ " name=" ++ identity ++ " reason=" ++ Text.quoted reason
  | withheld c => "Dry run, not executing command=" ++ c.line
  | executing c => "Executing command=" ++ c.line
  | finished resources changed =>
    "Apply finished resources=" ++ Text.decimal resources ++ " changed=" ++
      Text.decimal changed

/-- The entry as it stands in the log, after its time. -/
def line (e : LogEntry) : String := "INFO " ++ e.target ++ ": " ++ e.text

end LogEntry

/-- The messages of a failure from the outermost cause to the innermost one. -/
def Failure.causes (f : Failure) : List String :=
  match f with
  | system fault => [f.message, fault.message]
  | _ => [f.message]

namespace Console

/-- What a run shows.  The log is kept apart from the rest of the error output. -/
structure Report where
  exitCode : Nat
  output : List String
  log : List String
  errors : List String
deriving DecidableEq, Repr

/-- A cause in lines, the first one after its number if there are several causes. -/
def causeLines (number : Option Nat) (cause : String) : List String :=
  let (first, more) := match number with
    | some n => ("    " ++ Text.decimal n ++ ": ", "       ")
    | none => ("    ", "    ")
  match Text.pieces cause with
  | [] => []
  | l :: ls => (first ++ l) :: ls.map (more ++ ·)

/-- Number and element, counted from a start. -/
def numbered (n : Nat) : List String → List (Nat × String)
  | [] => []
  | s :: ss => (n, s) :: numbered (n + 1) ss

/-- A message and the causes behind it. -/
def chain (message : String) (causes : List String) : List String :=
  ("Error: " ++ message) ::
    match causes with
    | [] => []
    | [cause] => "" :: "Caused by:" :: causeLines none cause
    | _ => "" :: "Caused by:" :: (numbered 0 causes).flatMap fun (n, c) => causeLines (some n) c

/-- The error output for a failure, within a context if there is one. -/
def explain (context : Option String) (f : Failure) : List String :=
  match context, f.causes with
  | some c, causes => chain c causes
  | none, message :: causes => chain message causes
  | none, [] => chain f.message []

namespace Report

/-- The texts that the events put out. -/
def outputOf (events : List Event) : List String :=
  events.filterMap fun
    | .noted (.output text) => some text
    | _ => none

/-- The entries that the events left in the log. -/
def entriesOf (events : List Event) : List LogEntry :=
  events.filterMap fun
    | .noted (.log entry) => some entry
    | _ => none

/-- The report of a run that left events and ended in a failure or not. -/
def ofRun (events : List Event) (errors : Option (List String)) : Report where
  exitCode := if errors.isSome then 1 else 0
  output := outputOf events
  log := (entriesOf events).map LogEntry.line
  errors := errors.getD []

/-! ## Reading a report line by line -/

def outputLines (r : Report) : List String :=
  r.output.flatMap Text.printedLines

/-- The lines that open an entry of the log. -/
def logLines (r : Report) : List String :=
  r.log.filterMap fun text => (Text.printedLines text).head?

/-- The other lines of the error output: those that follow the first line of a log entry, and the
explanation of a failure. -/
def errorLines (r : Report) : List String :=
  (r.log.flatMap fun text => (Text.printedLines text).tail) ++ r.errors.flatMap Text.printedLines

end Report

end Console

end Converge
