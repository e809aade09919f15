/-!
# Verbs
-/

namespace Converge

/-- What can be done to a resource.  `noop` is doing nothing. -/
inductive Verb where
  | create
  | remove
  | start
  | stop
  | pull
  | noop
deriving DecidableEq, Repr

def Verb.name : Verb → String
  | create => "create"
  | remove => "remove"
  | start => "start"
  | stop => "stop"
  | pull => "pull"
  | noop => "noop"

end Converge
