import Converge.Desired.Kind

/-!
# Queries

The questions that docker answers with one JSON object on each line.
-/

namespace Converge

inductive Query where
  | inspect (kind : Kind) (identity : String)
  | list (kind : Kind)
  | systemInfo
deriving DecidableEq, Repr

namespace Query

/-- The output format of one JSON object on each line. -/
def jsonLines : String := "\x7b\x7bjson .\x7d\x7d"

/-- The arguments that put the question to docker. -/
def args : Query → List String
  | inspect kind identity => [kind.name, "inspect", "--format", jsonLines, identity]
  | list kind =>
    [kind.name, "ls"] ++ (if kind = .container then ["--all"] else []) ++ ["--format", jsonLines]
  | systemInfo => ["system", "info", "--format", jsonLines]

/-- Whether the question is about one object, which may be missing. -/
def isInspect : Query → Bool
  | inspect .. => true
  | _ => false

end Query

end Converge
