/-!
# Kinds of resources
-/

namespace Converge

/-- The kinds of docker objects that are managed. -/
inductive Kind where
  | container
  | image
  | volume
  | network
deriving DecidableEq, Repr

namespace Kind

def all : List Kind := [container, image, volume, network]

/-- The kind's name, which is also docker's word for it on a command line. -/
def name : Kind → String
  | container => "container"
  | image => "image"
  | volume => "volume"
  | network => "network"

def ofName? (s : String) : Option Kind :=
  all.find? (·.name == s)

theorem ofName?_name (k : Kind) : ofName? k.name = some k := by
  cases k <;> decide

/-- Only a kind's own name denotes it. -/
theorem name_of_ofName? {s : String} {k : Kind} (h : ofName? s = some k) : k.name = s := by
  simpa using List.find?_some h

end Kind

end Converge
