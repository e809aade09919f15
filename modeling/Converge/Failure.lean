import Converge.Desired.Kind
import Converge.Manifest.Problem
import Converge.Plan.Verb
import Converge.Process.Status

/-!
# Failures

Everything that can end a pass, by its cause, and the words in which it is reported.
-/

namespace Converge

/-- What is wrong with what the user asked for. -/
inductive Misconfiguration where
  | unknownKind (name : String)
  | missingIdentity (kind : Kind)
  | leadingHyphen (kind : Kind) (identity : String)
  | blankInIdentity (kind : Kind) (identity : String)
  | imageMissing (container : String)
  | imageNeeded (container : String)
  | manifest (problem : Manifest.Problem)
  | within (path : String) (cause : Misconfiguration)
deriving DecidableEq

def Misconfiguration.message : Misconfiguration → String
  | unknownKind name => "unknown resource kind '" ++ name ++ "'"
  | missingIdentity kind =>
    kind.name ++ " spec is missing required field '" ++
      (match kind with
        | .image => "reference"
        | _ => "name") ++ "'"
  | leadingHyphen kind identity =>
    kind.name ++ " identity '" ++ identity ++ "' must not start with '-'"
  | blankInIdentity kind identity =>
    kind.name ++ " identity '" ++ identity ++ "' must not contain whitespace"
  | imageMissing name => "container '" ++ name ++ "' is missing required field 'image'"
  | imageNeeded name =>
    "container '" ++ name ++ "' needs to be created but is missing required field 'image'"
  | manifest problem => "invalid manifest: " ++ problem.message
  | within path cause => path ++ ": " ++ cause.message

/-- Why a line of facts is no record. -/
inductive LineFault where
  | malformed (fault : Json.Fault)
  | notAnObject (found : Json)
deriving DecidableEq

/-- The words for a value that is no object, with its article. -/
def LineFault.typeName : Json → String
  | .null => "null"
  | .bool _ => "a boolean"
  | .number _ => "a number"
  | .text _ => "a string"
  | .array _ => "an array"
  | .object _ => "an object"

def LineFault.message : LineFault → String
  | malformed fault => fault.message
  | notAnObject found => "expected a JSON object, got " ++ typeName found

/-- Everything that can end a pass. -/
inductive Failure where
  | configuration (cause : Misconfiguration)
  | facts (line : Nat) (fault : LineFault)
  | unsupported (verb : Verb) (kind : Kind)
  | command (line : String) (status : ExitStatus) (stderr : String)
  | system (fault : SystemFault)
deriving DecidableEq

def Failure.message : Failure → String
  | configuration cause => "configuration error: " ++ cause.message
  | facts line fault =>
    "failed to parse fact record on line " ++ Text.decimal line ++ ": " ++ fault.message
  | unsupported verb kind =>
    "unsupported operation: cannot render " ++ verb.name ++ " for " ++ kind.name
  | command line status stderr =>
    "command `" ++ line ++ "` failed (" ++ status.words ++ "): " ++ stderr
  | system fault => "IO error: " ++ fault.message

end Converge
