import Converge.Proofs.Manifest.Acceptance

/-!
# Specs read back

A spec is written as an object with its kind and all its fields under their own names.  Reading is
decided by the table of fields of the kind, and so is writing, so an object that was written denotes
the spec that it was written for.  A list of valid specs is therefore read back from the compact text
of its document, whatever texts stand in the fields.
-/

namespace Converge

namespace Field

variable {σ : Type}

/-- A field takes its own value. -/
theorem takes_toJson (f : Field σ) (x : σ) : f.Takes (f.toJson x) := by
  unfold Takes toJson
  cases f.slot with
  | text get set => exact ⟨get x, rfl⟩
  | flag get set => exact ⟨get x, rfl⟩
  | texts get set => exact ⟨get x, rfl⟩

theorem isPlain_toJson (f : Field σ) (x : σ) : Json.IsPlain 1 (f.toJson x) := by
  unfold toJson
  cases f.slot with
  | text get set => exact .text _
  | flag get set => exact .bool _
  | texts get set =>
      refine .array fun v hv => ?_
      rcases List.mem_map.1 hv with ⟨s, -, rfl⟩
      exact .text s

end Field

/-! ## Written fields -/

namespace Spec

variable {σ : Type}

theorem isPlain_of_mem_membersOf {fields : List (Field σ)} {x : σ} {m : String × Json}
    (hm : m ∈ membersOf fields x) : Json.IsPlain 1 m.2 := by
  rcases List.mem_map.1 hm with ⟨f, -, rfl⟩
  exact f.isPlain_toJson x

/-- No field has the name of the tag. -/
theorem filter_ne_tag_membersOf {fields : List (Field σ)} (untagged : ∀ f ∈ fields, f.name ≠ tag)
    (x : σ) : (membersOf fields x).filter (·.1 != tag) = membersOf fields x := by
  refine List.filter_eq_self.2 fun m hm => ?_
  rcases List.mem_map.1 hm with ⟨f, hf, rfl⟩
  simpa using untagged f hf

theorem filter_eq_tag_membersOf {fields : List (Field σ)} (untagged : ∀ f ∈ fields, f.name ≠ tag)
    (x : σ) : (membersOf fields x).filter (·.1 == tag) = [] := by
  refine List.filter_eq_nil_iff.2 fun m hm => ?_
  rcases List.mem_map.1 hm with ⟨f, hf, rfl⟩
  simpa using untagged f hf

end Spec

namespace Manifest

open Converge.Field (IsTable)
open Converge.Spec (membersOf)

variable {σ : Type} {fields : List (Field σ)} {initial : σ}

/-- The members written for a record set every field to the record's own value. -/
theorem Content.describes_membersOf (table : IsTable fields initial) (x : σ) :
    (Content.members (membersOf fields x)).Describes fields x := by
  have hset : List.Forall₂ (Field.IsSetBy fields) (membersOf fields x)
      (fields.map fun f => (f, f.toJson x)) := by
    refine List.forall₂_map_left_iff.2 (List.forall₂_map_right_iff.2 (List.forall₂_same.2 ?_))
    intro f hf
    exact ⟨hf, .inl rfl, rfl⟩
  have honce : (fields.map fun f => (f, f.toJson x)).Pairwise fun p q => p.1.name ≠ q.1.name :=
    List.pairwise_map.2 table.name_pairwise
  refine ⟨_, .members hset honce, ?_, ?_⟩
  · intro p hp
    rcases List.mem_map.1 hp with ⟨f, -, rfl⟩
    exact f.takes_toJson x
  · intro f hf
    have hmem : (f, f.toJson x) ∈ fields.map fun g => (g, g.toJson x) :=
      List.mem_map.2 ⟨f, hf, rfl⟩
    constructor
    · intro p hp hname
      rcases List.mem_map.1 hp with ⟨g, hg, rfl⟩
      -- A key names at most one field, so the setting is the field's own.
      have hsame : g = f := table.eq_of_mem_names hg hf (Field.name_mem_names g)
        (hname ▸ Field.name_mem_names f)
      rw [hsame]
    · intro hnone
      exact absurd rfl (hnone _ hmem)

/-- An object with the tag and the members written for a record denotes the record's spec. -/
theorem denotes_tagged (table : IsTable fields initial)
    (untagged : ∀ f ∈ fields, f.name ≠ Spec.tag) {s : Spec} {x : σ}
    (described : ∀ c : Content, c.Describes fields x → c.DescribesSpec s) :
    Denotes (.object ((Spec.tag, .text s.kind.name) :: membersOf fields x)) s := by
  -- The tag stands once among the members, and all others are kept.
  have htag : ((Spec.tag, Json.text s.kind.name) :: membersOf fields x).filter (·.1 == Spec.tag) =
      [(Spec.tag, .text s.kind.name)] := by
    rw [List.filter_cons_of_pos (by simp), Spec.filter_eq_tag_membersOf untagged x]
  have htagged := Tagged.object htag
  rw [List.filter_cons_of_neg (by simp), Spec.filter_ne_tag_membersOf untagged x] at htagged
  exact ⟨_, htagged, described _ (Content.describes_membersOf table x)⟩

/-- The object that is written for a spec denotes it. -/
theorem denotes_toJson (s : Spec) : Denotes s.toJson s := by
  cases s with
  | container c => exact denotes_tagged Field.isTable_container (by decide) fun _ h => h
  | image i => exact denotes_tagged Field.isTable_image (by decide) fun _ h => h
  | volume v => exact denotes_tagged Field.isTable_volume (by decide) fun _ h => h
  | network n => exact denotes_tagged Field.isTable_network (by decide) fun _ h => h

/-! ## Documents -/

/-- The document of a list of specs: an array with one object for each of them. -/
def document (specs : List Spec) : Json := .array (specs.map Spec.toJson)

theorem isPlain_toJson (s : Spec) : Json.IsPlain 2 s.toJson := by
  refine .object fun m hm => ?_
  rcases List.mem_cons.1 hm with rfl | hm
  · exact .text _
  · cases s <;> exact Spec.isPlain_of_mem_membersOf hm

theorem isPlain_document (specs : List Spec) : Json.IsPlain 3 (document specs) := by
  refine .array fun v hv => ?_
  rcases List.mem_map.1 hv with ⟨s, -, rfl⟩
  exact isPlain_toJson s

/-- The document of specs is read as these specs. -/
theorem readSpecs_document (specs : List Spec) : readSpecs (document specs) = .ok specs := by
  refine readSpecs_eq_ok_iff.2 ⟨_, rfl, ?_⟩
  refine List.forall₂_map_left_iff.2 (List.forall₂_same.2 ?_)
  intro s _
  exact denotes_toJson s

/-- Every text of the document of valid specs is accepted with these specs. -/
theorem parse_of_textOf_document {specs : List Spec} (valid : ∀ s ∈ specs, s.validate = .ok ())
    {text : String} (written : Json.TextOf (document specs) text.toList) :
    parse text = .ok specs := by
  have hroom : (document specs).depth ≤ Json.Reader.maxDepth :=
    Nat.le_trans (isPlain_document specs).depth_le (by decide)
  refine parse_eq_ok_iff.2 ⟨?_, valid⟩
  rw [parseSpecs_of_textOf written hroom, readSpecs_document]

/-- Valid specs are read back from the compact text of their document: all of them, in their order,
and each with every field as it was. -/
theorem parse_render_document {specs : List Spec} (valid : ∀ s ∈ specs, s.validate = .ok ()) :
    parse (document specs).render = .ok specs := by
  have hwritten : Json.TextOf (document specs) (document specs).render.toList := by
    rw [Json.render, String.toList_ofList]
    exact Json.textOf_chars (isPlain_document specs)
  exact parse_of_textOf_document valid hwritten

/-- Texts that need every kind of escape, an entry that looks like the tag, and two specs that are
equal. -/
theorem parse_render_document_of_escapes :
    let data : Spec := .volume { name := "data", labels := ["type\":\"image"], present := false }
    let web : Spec := .container
      { name := "wéb\\"
        image := "a \"b\"\\\n\u0001\u2028😀"
        envVars := ["", "type", "\"\x7d,\x7b\"", "Ω=\t"]
        start := false }
    (∀ s ∈ [web, data, data], s.validate = .ok ()) ∧
      parse (document [web, data, data]).render = .ok [web, data, data] :=
  ⟨by decide, parse_render_document (by decide)⟩

end Manifest

end Converge
