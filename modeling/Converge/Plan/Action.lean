import Converge.Desired.Spec
import Converge.Failure

/-!
# Actions

A step that brings a resource to its desired state, or the statement that none is needed.
-/

namespace Converge

/-- A step for a resource. -/
inductive Action where
  | create (spec : Spec)
  | remove (spec : Spec)
  | start (spec : Spec)
  | stop (spec : Spec)
  | pull (spec : Spec)
  | noop (spec : Spec) (reason : String)
deriving DecidableEq, Repr

namespace Action

def verb : Action → Verb
  | create _ => .create
  | remove _ => .remove
  | start _ => .start
  | stop _ => .stop
  | pull _ => .pull
  | noop .. => .noop

def spec : Action → Spec
  | create s | remove s | start s | stop s | pull s | noop s _ => s

/-- Why nothing is done. -/
def reason? : Action → Option String
  | noop _ reason => some reason
  | _ => none

def isNoop (a : Action) : Bool := a.reason?.isSome

def describe (a : Action) : String :=
  let step := a.verb.name ++ " " ++ a.spec.kind.name ++ " " ++ a.spec.identity
  match a.reason? with
  | some reason => step ++ " (" ++ reason ++ ")"
  | none => step

end Action

end Converge
