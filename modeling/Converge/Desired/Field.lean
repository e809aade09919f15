import Converge.Desired.Spec
import Converge.Json.Basic

/-!
# Fields of a spec

The fields of each kind in the order of their declaration, with the names that a manifest may use
for them.  One table serves reading and writing.
-/

namespace Converge

/-- What a field of `σ` holds, and how to get it and set it. -/
inductive Slot (σ : Type) where
  | text (get : σ → String) (set : String → σ → σ)
  | flag (get : σ → Bool) (set : Bool → σ → σ)
  | texts (get : σ → List String) (set : List String → σ → σ)

/-- A field of `σ`.  `synonym` is another name for it. -/
structure Field (σ : Type) where
  name : String
  synonym : Option String
  slot : Slot σ

namespace Field

variable {σ : Type}

def text (name : String) (get : σ → String) (set : String → σ → σ) : Field σ :=
  ⟨name, none, .text get set⟩

def flag (name : String) (get : σ → Bool) (set : Bool → σ → σ) : Field σ :=
  ⟨name, none, .flag get set⟩

def texts (name : String) (get : σ → List String) (set : List String → σ → σ) : Field σ :=
  ⟨name, none, .texts get set⟩

/-- The field under one more name. -/
def orAlso (f : Field σ) (other : String) : Field σ := { f with synonym := some other }

/-- The names of the field in alphabetical order. -/
def names (f : Field σ) : List String :=
  match f.synonym with
  | none => [f.name]
  | some a => if a < f.name then [a, f.name] else [f.name, a]

/-- Whether the key of a manifest means this field. -/
def answersTo (f : Field σ) (key : String) : Bool := f.names.contains key

/-- The field's value in a document. -/
def toJson (f : Field σ) (x : σ) : Json :=
  match f.slot with
  | .text get _ => .text (get x)
  | .flag get _ => .bool (get x)
  | .texts get _ => .array ((get x).map .text)

end Field

def Container.fields : List (Field Container) := [
  (Field.text "name" Container.name fun s c => { c with name := s }).orAlso "container",
  .text "image" Container.image fun s c => { c with image := s },
  .texts "ports" Container.ports fun l c => { c with ports := l },
  .texts "networks" Container.networks fun l c => { c with networks := l },
  .texts "volumes" Container.volumes fun l c => { c with volumes := l },
  .texts "env_vars" Container.envVars fun l c => { c with envVars := l },
  .flag "pull_always" Container.pullAlways fun b c => { c with pullAlways := b },
  .flag "present" Container.present fun b c => { c with present := b },
  .flag "force" Container.force fun b c => { c with force := b },
  .flag "start" Container.start fun b c => { c with start := b }]

def Image.fields : List (Field Image) := [
  (Field.text "reference" Image.reference fun s i => { i with reference := s }).orAlso "image",
  .flag "present" Image.present fun b i => { i with present := b }]

def Volume.fields : List (Field Volume) := [
  (Field.text "name" Volume.name fun s v => { v with name := s }).orAlso "volume",
  .text "driver" Volume.driver fun s v => { v with driver := s },
  .texts "labels" Volume.labels fun l v => { v with labels := l },
  .flag "present" Volume.present fun b v => { v with present := b }]

def Network.fields : List (Field Network) := [
  (Field.text "name" Network.name fun s n => { n with name := s }).orAlso "network",
  .text "driver" Network.driver fun s n => { n with driver := s },
  .text "gateway" Network.gateway fun s n => { n with gateway := s },
  .text "ip_range" Network.ipRange fun s n => { n with ipRange := s },
  .text "ipam_driver" Network.ipamDriver fun s n => { n with ipamDriver := s },
  .text "subnet" Network.subnet fun s n => { n with subnet := s },
  .text "scope" Network.scope fun s n => { n with scope := s },
  .flag "ingress" Network.ingress fun b n => { n with ingress := b },
  .flag "attachable" Network.attachable fun b n => { n with attachable := b },
  .texts "opts" Network.opts fun l n => { n with opts := l },
  .texts "ipam_opts" Network.ipamOpts fun l n => { n with ipamOpts := l },
  .texts "labels" Network.labels fun l n => { n with labels := l },
  .flag "present" Network.present fun b n => { n with present := b }]

namespace Spec

/-- The member that names a spec's kind. -/
def tag : String := "type"

/-- The members of a document for the fields. -/
def membersOf {σ : Type} (fields : List (Field σ)) (x : σ) : List (String × Json) :=
  fields.map fun f => (f.name, f.toJson x)

/-- The members of the spec's document, the kind first and then every field by its own name. -/
def toMembers (s : Spec) : List (String × Json) :=
  (tag, .text s.kind.name) ::
    match s with
    | container c => membersOf Container.fields c
    | image i => membersOf Image.fields i
    | volume v => membersOf Volume.fields v
    | network n => membersOf Network.fields n

def toJson (s : Spec) : Json := .object s.toMembers

end Spec

end Converge
