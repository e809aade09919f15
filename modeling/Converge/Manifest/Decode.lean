import Converge.Desired.Field
import Converge.Manifest.Problem

/-!
# From trees to specs

A spec is written as an object, with a member `type` that names its kind, or as an array of the
kind's name and the values of the first fields in their order.  In an object the kind is looked at
first, wherever it stands, and then the other members in document order.
-/

namespace Converge

namespace Field

open Manifest (Problem)

variable {σ : Type}

/-- The text of a value. -/
def readText : Json → Except Problem String
  | .text s => .ok s
  | v => .error (.mismatch v .text)

/-- The texts of a list. -/
def readTexts : Json → Except Problem (List String)
  | .array items => items.mapM readText
  | v => .error (.mismatch v .list)

/-- The truth value of a value. -/
def readFlag : Json → Except Problem Bool
  | .bool b => .ok b
  | v => .error (.mismatch v .flag)

/-- Sets the field to a value of a document. -/
def assign (f : Field σ) (v : Json) (x : σ) : Except Problem σ :=
  match f.slot with
  | .text _ set => return set (← readText v) x
  | .flag _ set => return set (← readFlag v) x
  | .texts _ set => return set (← readTexts v) x

/-- Sets the fields that the members name, in document order.  `given` are the fields that were set
before. -/
def assignMembers (fields : List (Field σ)) (given : List String) (x : σ) :
    List (String × Json) → Except Problem σ
  | [] => .ok x
  | (key, v) :: rest =>
    match fields.find? (·.answersTo key) with
    | none => .error (.unknownField key (fields.flatMap names))
    | some f =>
      if given.contains f.name then .error (.duplicateField f.name)
      else do assignMembers fields (f.name :: given) (← f.assign v x) rest

/-- Sets the first fields to the items, in their order. -/
def assignItems (x : σ) : List (Field σ) → List Json → Except Problem σ
  | f :: fs, v :: vs => do assignItems (← f.assign v x) fs vs
  | _, _ => .ok x

/-- Sets the first fields to the items, of which there may not be more than fields. -/
def assignAll (fields : List (Field σ)) (x : σ) (items : List Json) : Except Problem σ := do
  let x ← assignItems x fields items
  if fields.length < items.length then .error (.tooManyItems items.length fields.length)
  else .ok x

end Field

namespace Manifest

/-- The fields of a spec as they were written. -/
inductive Content where
  | members (ms : List (String × Json))
  | items (vs : List Json)

/-- Sets the fields of `x` to what was written. -/
def Content.assign {σ : Type} (fields : List (Field σ)) (x : σ) : Content → Except Problem σ
  | members ms => Field.assignMembers fields [] x ms
  | items vs => Field.assignAll fields x vs

/-- The spec of a kind with the given content. -/
def specOf (c : Content) : Kind → Except Problem Spec
  | .container => return .container (← c.assign Container.fields {})
  | .image => return .image (← c.assign Image.fields {})
  | .volume => return .volume (← c.assign Volume.fields {})
  | .network => return .network (← c.assign Network.fields {})

/-- The kind that a value names. -/
def readKind : Json → Except Problem Kind
  | .text s =>
    match Kind.ofName? s with
    | some k => .ok k
    | none => .error (.unknownKind s)
  | v => .error (.mismatch v .kindName)

/-- The kind that the members name, if one of them does.  `found` is the kind named before. -/
def kindAmong (found : Option Kind) : List (String × Json) → Except Problem (Option Kind)
  | [] => .ok found
  | (key, v) :: rest =>
    if key = Spec.tag then
      match found with
      | some _ => .error (.duplicateField Spec.tag)
      | none => do kindAmong (some (← readKind v)) rest
    else kindAmong found rest

/-- The spec that an element of a manifest writes. -/
def readSpec : Json → Except Problem Spec
  | .object members => do
    match ← kindAmong none members with
    | none => .error .missingKind
    | some kind => specOf (.members (members.filter (·.1 != Spec.tag))) kind
  | .array [] => .error .missingKind
  | .array (v :: vs) => do specOf (.items vs) (← readKind v)
  | v => .error (.mismatch v .resource)

/-- The specs of a manifest. -/
def readSpecs : Json → Except Problem (List Spec)
  | .array elements => elements.mapM readSpec
  | v => .error (.mismatch v .list)

end Manifest

end Converge
