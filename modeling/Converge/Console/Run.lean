import Converge.Console.Arguments
import Converge.Console.Files
import Converge.Console.Report
import Converge.Pass.Apply
import Converge.Process.Machine

/-!
# Running the program

A command line is turned into a script, the script is played with a docker-compatible program on a
machine, and what happened becomes a report.
-/

namespace Converge.Console

open Script

/-! ## Scripts of the commands -/

/-- Prints the steps and commands for each resource before the next one is looked at. -/
def planAll (binary : String) (specs : List Spec) : Script Unit :=
  each specs fun spec => do
    let outcome ← Pass.plan binary spec
    each outcome.plan.actions fun a => say ("# " ++ a.describe)
    each outcome.commands fun c => say c.line

/-- Applies the specs and sums up. -/
def applyAll (settings : Settings) (specs : List Spec) : Script Unit := do
  let outcomes ← Pass.applyAll settings specs
  log (.finished outcomes.length (outcomes.countP Outcome.changed))

/-- Prints the records that answer a query. -/
def showFacts (q : Query) : Script Unit := do
  let lines ← fetch q
  let records ← ofExcept (Fact.parse lines)
  each records fun r => say r.toJson.render

/-- The query for a kind and an identity as they stand on the command line. -/
def queryOf (kind : String) (identity : Option String) : Except Failure Query :=
  if kind = "system" then .ok .systemInfo
  else match Kind.ofName? kind, identity with
    | some k, some identity => .ok (.inspect k identity)
    | some k, none => .ok (.list k)
    | none, _ => .error (.configuration (.unknownKind kind))

/-- The specs of a manifest file.  A misconfiguration names the file. -/
def load (files : String → Except SystemFault String) (path : String) :
    Except Failure (List Spec) :=
  match files path with
  | .error fault => .error (.system fault)
  | .ok text =>
    match Manifest.parse text with
    | .error (.configuration cause) => .error (.configuration (.within path cause))
    | result => result

/-! ## The program -/

/-- What `--version` prints. -/
def versionLine : String := "mvirt-docker 0.1.0"

/-- A script to play and the context of its failure, or a failure before any script. -/
inductive Job where
  | play (binary : String) (script : Script Unit) (context : Option String)
  | refuse (context : Option String) (f : Failure)

/-- The job of a command that reads a manifest. -/
def manifestJob (files : String → Except SystemFault String) (binary path : String)
    (script : List Spec → Script Unit) : Job :=
  match load files path with
  | .error f => .refuse (some ("Failed to load manifest " ++ path)) f
  | .ok specs => .play binary (script specs) none

/-- The job of a request, unless it only prints something. -/
def jobOf? (files : String → Except SystemFault String) : Request → Option Job
  | .help | .version => none
  | .plan docker path => some (manifestJob files docker path (planAll docker))
  | .apply docker path dryRun => some (manifestJob files docker path (applyAll ⟨docker, dryRun⟩))
  | .facts docker kind identity =>
    some (match queryOf kind identity with
      | .error f => .refuse none f
      | .ok q => .play docker (showFacts q) (some "Failed to fetch facts"))

def Job.run {σ : Type} (m : Machine σ) (s : σ) : Job → Report × σ
  | refuse context f => (.ofRun [] (some (explain context f)), s)
  | play binary script context =>
    let played := script.play (Docker.host binary m) s
    match played.result with
    | .ok () => (.ofRun played.events none, played.host)
    | .error f => (.ofRun played.events (some (explain context f)), played.host)

/-- What a run of the program shows, and the machine after it.  A usage fault is reported by exit
code 2. -/
def run {σ : Type} (files : String → Except SystemFault String) (m : Machine σ) (s : σ)
    (args : List String) : Except UsageFault (Report × σ) := do
  let request ← Request.parse defaultBinary args
  match jobOf? files request with
  | some job => return job.run m s
  | none =>
    return (⟨0, if request = .version then [versionLine] else [], [], []⟩, s)

end Converge.Console
