import Converge.Command.Rendering

/-!
# Plans

The steps for one resource in the order in which they are taken.
-/

namespace Converge

/-- The steps for a resource. -/
structure Plan where
  kind : Kind
  identity : String
  actions : List Action
deriving DecidableEq, Repr

namespace Plan

/-- The plan for a resource with the given steps. -/
def ofActions (s : Spec) (actions : List Action) : Plan := ⟨s.kind, s.identity, actions⟩

def verbs (p : Plan) : List Verb := p.actions.map Action.verb

def changes (p : Plan) : Bool := p.actions.any (!·.isNoop)

def reasons (p : Plan) : List String := p.actions.filterMap Action.reason?

/-- The commands for the steps that do something.  They are all made before any of them runs, so a
step that cannot be carried out leaves nothing half done. -/
def commands (binary : String) (p : Plan) : Except Failure (List Command) :=
  (p.actions.filter (!·.isNoop)).mapM (Action.command binary)

end Plan

end Converge
