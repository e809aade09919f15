import Converge.Fact.Name
import Converge.Json.Map

/-!
# Records

What docker reports about one object, with its fields renamed at every level.  Renaming stops at the
maps whose keys are the user's own: label names and driver options are kept as they are, and the
networks of a container are renamed only below their names.
-/

namespace Converge.Fact

/-- How the value of a field is taken over. -/
inductive Treatment where
  | renamed
  | verbatim
  | named
deriving DecidableEq, Repr

/-- The treatment of the value under a raw key.  Label names and driver options belong to the user;
networks are records under names that belong to the user. -/
def treatment (key : String) : Treatment :=
  if ["Labels", "Options", "DriverOpts"].contains key then .verbatim
  else if key = "Networks" then .named
  else .renamed

mutual

/-- The value with the fields of every record in it renamed. -/
def rename : Json → Json
  | .array items => .array (renameItems items)
  | .object members => .object (Json.toMap (renameMembers members))
  | .null => .null
  | .bool b => .bool b
  | .number n => .number n
  | .text s => .text s
termination_by structural v => v

def renameItems : List Json → List Json
  | [] => []
  | v :: vs => rename v :: renameItems vs
termination_by structural vs => vs

/-- The members of a record under their new names.  Where two get the same name, both are listed. -/
def renameMembers : List (String × Json) → List (String × Json)
  | [] => []
  | m :: ms => renameMember m :: renameMembers ms
termination_by structural ms => ms

def renameMember : String × Json → String × Json
  | (k, v) =>
    (name k,
      match treatment k with
      | .renamed => rename v
      | .verbatim => v
      | .named => renameNamed v)
termination_by structural m => m

/-- A map from names to records: the names stay, the records are renamed. -/
def renameNamed : Json → Json
  | .object entries => .object (renameEntries entries)
  | .array items => .array items
  | .null => .null
  | .bool b => .bool b
  | .number n => .number n
  | .text s => .text s
termination_by structural v => v

def renameEntries : List (String × Json) → List (String × Json)
  | [] => []
  | e :: es => renameEntry e :: renameEntries es
termination_by structural es => es

def renameEntry : String × Json → String × Json
  | (k, v) => (k, rename v)
termination_by structural e => e

end

end Converge.Fact

namespace Converge

/-- What docker reports about one object: a map from names of facts to values. -/
structure Record where
  facts : List (String × Json)
deriving DecidableEq

namespace Record

/-- The record of a raw object.  The raw keys are taken in ascending order, and of two that get the
same name the later one wins. -/
def ofRaw (members : List (String × Json)) : Record :=
  ⟨Json.toMap (Fact.renameMembers (Json.toMap (Json.canonicalMembers members)))⟩

def get? (r : Record) (key : String) : Option Json := Json.lookup key r.facts

/-- The value at the end of a path of names; the empty path leads nowhere. -/
def getPath? (r : Record) : List String → Option Json
  | [] => none
  | key :: keys => do keys.foldlM Json.get? (← r.get? key)

def getText? (r : Record) (key : String) : Option String :=
  (r.get? key).bind Json.text?

def id? (r : Record) : Option String := r.getText? "id"

/-- The object's name.  Docker writes a slash before the names of containers. -/
def name? (r : Record) : Option String :=
  ((r.getText? "name").or (r.getText? "names")).map fun n =>
    String.ofList (n.toList.dropWhile (· == '/'))

/-- The run-state of a container: a text in a list's record, and the status within the state in the
record of an inspection. -/
def runState? (r : Record) : Option String :=
  match r.get? "state" with
  | none => none
  | some (.text s) => some s
  | some state => (state.get? "status").bind Json.text?

def isRunning (r : Record) : Bool := r.runState? == some "running"

def toJson (r : Record) : Json := .object r.facts

end Record

end Converge
