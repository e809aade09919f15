import Converge.Pass.Script
import Converge.Text.Search

/-!
# A host in memory

A host whose objects are a table: what inspecting each of them answers.  Calls succeed, unless their
shell line holds a chosen text.
-/

namespace Converge

/-- What inspecting an object answers: lines, or a failure with a message. -/
inductive Inspection where
  | lines (ls : List String)
  | broken (stderr : String)
deriving DecidableEq, Repr

/-- The objects of a host, and the text that makes calls fail if there is one. -/
structure Memory where
  objects : List ((Kind × String) × Inspection) := []
  failOn : Option String := none

namespace Memory

/-- The host without an object. -/
def forget (m : Memory) (kind : Kind) (identity : String) : Memory :=
  { m with objects := m.objects.filter (·.1 != (kind, identity)) }

/-- The host with an answer for an object in place of the one it had. -/
def set (m : Memory) (kind : Kind) (identity : String) (answer : Inspection) : Memory :=
  { m with objects := ((kind, identity), answer) :: (m.forget kind identity).objects }

/-- The answer to a query.  Objects that are not in the table give no lines. -/
def fetch (m : Memory) (q : Query) : Except Failure (List String) :=
  match q with
  | .inspect kind identity =>
    match m.objects.lookup (kind, identity) with
    | some (.lines ls) => .ok ls
    | some (.broken stderr) =>
      .error (.command (String.intercalate " " q.args) (.exited 1) stderr)
    | none => .ok []
  | _ => .ok []

def run (m : Memory) (i : Invocation) : Except Failure Unit :=
  match m.failOn with
  | some needle =>
    if Text.occurs needle.toList i.line.toList then .error (.command i.line (.exited 1) "boom")
    else .ok ()
  | none => .ok ()

def host : Host Memory where
  fetch m q := (m.fetch q, m)
  run m i := (m.run i, m)

end Memory

end Converge
