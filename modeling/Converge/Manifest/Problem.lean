import Converge.Desired.Kind
import Converge.Json.Fault
import Converge.Json.Printer
import Converge.Text.Quoted

/-!
# What can be wrong with a manifest

A manifest is either no JSON at all or JSON of the wrong shape.
-/

namespace Converge.Manifest

/-- What a place of a manifest asks for. -/
inductive Wanted where
  | text
  | flag
  | list
  | kindName
  | resource
deriving DecidableEq, Repr

/-- The words for what is asked for. -/
def Wanted.words : Wanted → String
  | text => "a string"
  | flag => "a boolean"
  | list => "a sequence"
  | kindName => "variant identifier"
  | resource => "internally tagged enum ResourceSpec"

/-- Why a manifest cannot be read. -/
inductive Problem where
  | malformed (fault : Json.Fault)
  | mismatch (found : Json) (wanted : Wanted)
  | missingKind
  | unknownKind (name : String)
  | duplicateField (name : String)
  | unknownField (name : String) (known : List String)
  | tooManyItems (found : Nat) (fields : Nat)
deriving DecidableEq

/-- The words for a value of the wrong type. -/
def describe : Json → String
  | .null => "null"
  | .bool b => "boolean `" ++ (if b then "true" else "false") ++ "`"
  | .number (.integer n) => "integer `" ++ String.ofList (Number.integer n).chars ++ "`"
  | .number (.float x) => "floating point `" ++ String.ofList (Number.float x).chars ++ "`"
  | .text s => "string " ++ Text.quoted s
  | .array _ => "sequence"
  | .object _ => "map"

/-- Names between backquotes, with commas between them. -/
def listed (names : List String) : String :=
  String.intercalate ", " (names.map fun n => "`" ++ n ++ "`")

/-- The words for a problem. -/
def Problem.message : Problem → String
  | malformed f => f.message
  | mismatch found wanted => "invalid type: " ++ describe found ++ ", expected " ++ wanted.words
  | missingKind => "missing field `type`"
  | unknownKind name =>
    "unknown variant `" ++ name ++ "`, expected one of " ++
      listed (Kind.all.map Kind.name)
  | duplicateField name => "duplicate field `" ++ name ++ "`"
  | unknownField name known => "unknown field `" ++ name ++ "`, expected one of " ++ listed known
  | tooManyItems found fields =>
    "invalid length " ++ Text.decimal found ++ ", expected " ++ Text.decimal fields ++
      " elements in sequence"

end Converge.Manifest
