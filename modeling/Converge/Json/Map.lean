import Converge.Json.Basic

/-!
# Objects as maps

Members in ascending order of their keys, each key once.  Keys are compared by code points, which is
also the order of their UTF-8 bytes.
-/

namespace Converge.Json

/-- Puts a value under a key, in place of the one that the key had. -/
def insert (key : String) (value : Json) : List (String × Json) → List (String × Json)
  | [] => [(key, value)]
  | (k, v) :: rest =>
    if key < k then (key, value) :: (k, v) :: rest
    else if key = k then (key, value) :: rest
    else (k, v) :: insert key value rest

/-- The map of the members; a key written again replaces its earlier value. -/
def toMap (members : List (String × Json)) : List (String × Json) :=
  members.foldl (fun map m => insert m.1 m.2 map) []

mutual

/-- The tree with every object as a map. -/
def canonical : Json → Json
  | .array items => .array (canonicalItems items)
  | .object members => .object (toMap (canonicalMembers members))
  | .null => .null
  | .bool b => .bool b
  | .number n => .number n
  | .text s => .text s
termination_by structural v => v

def canonicalItems : List Json → List Json
  | [] => []
  | v :: vs => canonical v :: canonicalItems vs
termination_by structural vs => vs

def canonicalMembers : List (String × Json) → List (String × Json)
  | [] => []
  | m :: ms => canonicalMember m :: canonicalMembers ms
termination_by structural ms => ms

def canonicalMember : String × Json → String × Json
  | (k, v) => (k, canonical v)
termination_by structural m => m

end

end Converge.Json
