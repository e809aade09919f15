import Converge.Desired.Validity
import Converge.Json.Reader
import Converge.Manifest.Decode

/-!
# Reading a manifest

A manifest is the JSON text of a list of specs.  Its problems are reported in the order in which
they appear in the text: where the text stops being JSON, what was read up to there is judged first.
-/

namespace Converge.Manifest

open Json (Frame)

/-! ## Manifests that are cut short -/

/-- The container that a frame is, with what it holds so far. -/
def frameValue : Frame → Json
  | .array items => .array items.reverse
  | .object members _ => .object members.reverse

/-- What is wrong with an element that is still open.  `inner` is the next container within it, if
one is open there. -/
def judgeElement (inner : Option Frame) : Frame → Except Problem Unit
  | .object members key => do
    let kind ← kindAmong none members.reverse
    if key = some Spec.tag then
      match kind, inner with
      | some _, _ => .error (.duplicateField Spec.tag)
      | none, some f => .error (.mismatch (frameValue f) .kindName)
      | none, none => .ok ()
    else .ok ()
  | .array items =>
    match items.reverse, inner with
    | v :: _, _ => (readKind v).map fun _ => ()
    | [], some f => .error (.mismatch (frameValue f) .kindName)
    | [], none => .ok ()

/-- What is wrong with a manifest whose containers are still open, outermost first. -/
def judgeOpen : List Frame → Except Problem Unit
  | [] => .ok ()
  | .array items :: inner => do
    let _ ← items.reverse.mapM readSpec
    match inner with
    | [] => .ok ()
    | element :: deeper => judgeElement deeper.head? element
  | outer :: _ => .error (.mismatch (frameValue outer) .list)

/-- What is wrong with the part of a manifest that was read before its text failed. -/
def judgeSeen (r : Json.Reader) : Except Problem Unit :=
  match r.place with
  | .finished v => (readSpecs v).map fun _ => ()
  | _ => judgeOpen r.opened.reverse

/-! ## Whole manifests -/

/-- The specs of a manifest, whether or not their identities are valid. -/
def parseSpecs (text : String) : Except Problem (List Spec) :=
  match Json.read text with
  | .ok v => readSpecs v
  | .error stop => do
    judgeSeen stop.seen
    .error (.malformed stop.fault)

/-- The specs of a manifest. -/
def parse (text : String) : Except Failure (List Spec) :=
  match parseSpecs text with
  | .error problem => .error (.configuration (.manifest problem))
  | .ok specs => do
    specs.forM Spec.validate
    return specs

end Converge.Manifest
