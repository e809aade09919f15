import Converge.Fact.Response
import Converge.Manifest.Read
import Converge.Pass.Script
import Converge.Plan.Decision

/-!
# Passes

A pass observes a resource, plans the steps to its desired state, makes their commands and runs
them.  It keeps nothing from one resource to the next: each pass starts from fresh facts.
-/

namespace Converge

/-- What a pass came to. -/
structure Outcome where
  plan : Plan
  commands : List Command
  executed : Bool
deriving DecidableEq, Repr

/-- Whether the pass ran a command. -/
def Outcome.changed (o : Outcome) : Bool := o.executed && !o.commands.isEmpty

/-- How passes are made: the program whose commands are run, and whether they are run at all. -/
structure Settings where
  binary : String := defaultBinary
  dryRun : Bool := false
deriving DecidableEq, Repr

namespace Pass

open Script

/-- The record of the resource, if docker knows it and the decision depends on it. -/
def observe (spec : Spec) : Script (Option Record) :=
  if spec.needsFacts then do
    let lines ← fetch (.inspect spec.kind spec.identity)
    let records ← ofExcept (Fact.parse lines)
    return records.head?
  else return none

/-- The plan for the resource and its commands, none of which is run. -/
def plan (binary : String) (spec : Spec) : Script Outcome := do
  ofExcept spec.validate
  let observed ← observe spec
  let plan ← ofExcept (spec.plan observed)
  let commands ← ofExcept (plan.commands binary)
  return ⟨plan, commands, false⟩

/-- Runs the calls of a command up to the first one that fails. -/
def execute (c : Command) : Script Unit := each c.links call

def apply (settings : Settings) (spec : Spec) : Script Outcome := do
  log (.reconciling spec.kind spec.identity)
  let outcome ← plan settings.binary spec
  each outcome.plan.reasons fun reason => log (.unchanged spec.kind spec.identity reason)
  if settings.dryRun then
    each outcome.commands fun c => log (.withheld c)
    return outcome
  else
    each outcome.commands fun c => do
      log (.executing c)
      execute c
    return { outcome with executed := true }

/-- Brings the resources to their desired states one after another, up to the first failure. -/
def applyAll (settings : Settings) (specs : List Spec) : Script (List Outcome) :=
  collect specs (apply settings)

/-- Brings the resources of a manifest to their desired states. -/
def applyManifest (settings : Settings) (text : String) : Script (List Outcome) := do
  applyAll settings (← ofExcept (Manifest.parse text))

end Pass

end Converge
