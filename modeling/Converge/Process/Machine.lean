import Converge.Command.Rendering
import Converge.Pass.Script
import Converge.Text.Blank
import Converge.Text.Lines
import Converge.Text.LowerCase
import Converge.Text.Search
import Converge.Text.Utf8

/-!
# Docker as a host

Queries and calls become processes of a docker-compatible program.  A machine starts processes; what
their output means is decided here.
-/

namespace Converge

/-- What a process left behind. -/
structure ProcessOutput where
  stdout : List UInt8 := []
  stderr : List UInt8 := []
  status : ExitStatus := .exited 0
deriving DecidableEq, Repr

/-- Where processes are started. -/
structure Machine (σ : Type) where
  start : σ → Invocation → Except SystemFault ProcessOutput × σ

namespace Docker

/-- The failure that a process ended with. -/
def failure (i : Invocation) (out : ProcessOutput) : Failure :=
  .command i.line out.status (Text.trim (Text.decodeUtf8 out.stderr))

/-- Whether docker says that there is no such object.  The words are the same for all kinds, their
capitals are not. -/
def saysMissing (stderr : List UInt8) : Bool :=
  Text.occurs "no such".toList (Text.lowercaseAscii (Text.decodeUtf8 stderr)).toList

/-- The lines that a process answers a query with.  An inspection of a missing object answers with
no lines. -/
def answer (q : Query) (i : Invocation) (out : ProcessOutput) : Except Failure (List String) :=
  if out.status.isSuccess then .ok (Text.lines (Text.decodeUtf8 out.stdout))
  else if q.isInspect && saysMissing out.stderr then .ok []
  else .error (failure i out)

def outcome (i : Invocation) (out : ProcessOutput) : Except Failure Unit :=
  if out.status.isSuccess then .ok () else .error (failure i out)

/-- Starts a process.  Words with the character U+0000 cannot be passed on, so nothing is started
for them. -/
def start {σ : Type} (m : Machine σ) (s : σ) (i : Invocation) : Except Failure ProcessOutput × σ :=
  if i.hasNul then (.error (.system .nulByte), s)
  else
    let (result, s) := m.start s i
    (result.mapError .system, s)

/-- The call that puts a query to the program. -/
def queryCall (binary : String) (q : Query) : Invocation := ⟨binary, q.args⟩

/-- The program on a machine as a host. -/
def host {σ : Type} (binary : String) (m : Machine σ) : Host σ where
  fetch s q :=
    let i := queryCall binary q
    let (result, s) := start m s i
    (result.bind (answer q i), s)
  run s i :=
    let (result, s) := start m s i
    (result.bind (outcome i), s)

section Run

variable {σ : Type} (binary : String) (m : Machine σ) (s : σ) {i : Invocation}

/-- A call that cannot be passed on fails, and the machine is not told of it. -/
theorem run_of_hasNul (barred : i.hasNul = true) :
    (host binary m).run s i = (.error (.system .nulByte), s) := by
  simp [host, start, barred, Except.bind]

/-- Every other call becomes a process, and goes as the process ends. -/
theorem run_of_not_hasNul (startable : i.hasNul = false) :
    (host binary m).run s i =
      (((m.start s i).1.mapError .system).bind (outcome i), (m.start s i).2) := by
  simp [host, start, startable]

end Run

end Docker

end Converge
