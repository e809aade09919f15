import Converge.Desired.Validity
import Converge.Fact.Record
import Converge.Plan.Basic

/-!
# Decisions

The steps that bring a resource from what was observed, or from its absence, to its desired state.
-/

namespace Converge

/-- The steps that are listed under a condition. -/
def stepsIf (condition : Bool) (actions : List Action) : List Action :=
  if condition then actions else []

/-- The steps for a container.  One that must be recreated is removed first.  Any other existing
container is judged by the run-state in which it was observed. -/
def Container.actions (c : Container) (observed : Option Record) : List Action :=
  let spec := Spec.container c
  let absent := observed.isNone
  let replaced := c.force && !absent
  let kept := if replaced then none else observed
  let steps :=
    stepsIf replaced [.remove spec] ++
    stepsIf (c.present && (absent || c.force)) [.create spec] ++
    match kept with
    | none => []
    | some record =>
      if !c.present then [.remove spec]
      else if c.start && !record.isRunning then [.start spec]
      else if !c.start && record.isRunning then [.stop spec]
      else []
  if steps.isEmpty then
    [.noop spec (if absent then "does not exist" else "already in desired state")]
  else steps

/-- The plan for a container.  Nothing is removed for the sake of a container that lacks its
image. -/
def Container.plan (c : Container) (observed : Option Record) : Except Failure Plan :=
  let needed := c.present && (observed.isNone || c.force)
  if needed && c.image.isEmpty then .error (.configuration (.imageNeeded c.name))
  else .ok (.ofActions (.container c) (c.actions observed))

/-- The plan for an image.  Pulling it again does no harm. -/
def Image.plan (i : Image) : Plan :=
  .ofActions (.image i) [if i.present then .pull (.image i) else .remove (.image i)]

def Volume.plan (v : Volume) (observed : Option Record) : Plan :=
  .ofActions (.volume v) [
    match v.present, observed.isSome with
    | true, true => .noop (.volume v) "already exists"
    | true, false => .create (.volume v)
    | false, false => .noop (.volume v) "does not exist"
    | false, true => .remove (.volume v)]

def Network.plan (n : Network) : Plan :=
  .ofActions (.network n) [if n.present then .create (.network n) else .remove (.network n)]

namespace Spec

/-- The plan for a resource whose identity is taken as it is. -/
def planUnchecked (s : Spec) (observed : Option Record) : Except Failure Plan :=
  match s with
  | container c => c.plan observed
  | image i => .ok i.plan
  | volume v => .ok (v.plan observed)
  | network n => .ok n.plan

def plan (s : Spec) (observed : Option Record) : Except Failure Plan := do
  s.validate
  s.planUnchecked observed

end Spec

end Converge
