import Converge.Manifest.Read
import Converge.Proofs.Json.RoundTrip
import Converge.Proofs.Manifest.Rewording

/-!
# The manifests that are accepted

Whether a manifest is accepted depends on the tree that its text writes, and on nothing else of the
text: the tree has to be an array of elements, and each of these has to denote a valid spec.  The specs
are then the ones denoted, in order.
-/

namespace Converge.Manifest

/-- A text is accepted if it is read and each of its specs is valid. -/
theorem parse_eq_ok_iff {text : String} {specs : List Spec} :
    parse text = .ok specs ↔
      parseSpecs text = .ok specs ∧ ∀ s ∈ specs, s.validate = .ok () := by
  unfold parse
  cases parseSpecs text with
  | error problem => simp
  | ok read =>
      rw [Except.ok.injEq]
      constructor
      · intro h
        rcases bind_eq_ok_iff.1 h with ⟨_, hvalid, hread⟩
        cases hread
        exact ⟨rfl, forM_eq_ok_iff.1 hvalid⟩
      · rintro ⟨rfl, hvalid⟩
        exact bind_eq_ok_iff.2 ⟨_, forM_eq_ok_iff.2 hvalid, rfl⟩

/-- A tree is read as specs exactly if it is an array of elements that denote them. -/
theorem readSpecs_eq_ok_iff {v : Json} {specs : List Spec} :
    readSpecs v = .ok specs ↔
      ∃ elements, v = .array elements ∧ List.Forall₂ Denotes elements specs := by
  cases v with
  | array elements =>
      have hmap : readSpecs (.array elements) = elements.mapM readSpec := rfl
      rw [hmap, mapM_eq_ok_iff]
      simp [readSpec_eq_ok_iff]
  | _ => simp [readSpecs]

/-- The specs of a text are those of its tree. -/
theorem parseSpecs_of_textOf {v : Json} {text : String} (written : Json.TextOf v text.toList)
    (room : v.depth ≤ Json.Reader.maxDepth) : parseSpecs text = readSpecs v := by
  have hread : Json.read text = .ok v := Json.readChars_of_textOf written room
  rw [parseSpecs, hread]

/-- A text is accepted with the specs that its elements denote, if these are valid. -/
theorem parse_eq_ok_iff_denotes {v : Json} {text : String} (written : Json.TextOf v text.toList)
    (room : v.depth ≤ Json.Reader.maxDepth) {specs : List Spec} :
    parse text = .ok specs ↔
      ∃ elements, v = .array elements ∧ List.Forall₂ Denotes elements specs ∧
        ∀ s ∈ specs, s.validate = .ok () := by
  rw [parse_eq_ok_iff, parseSpecs_of_textOf written room, readSpecs_eq_ok_iff]
  constructor
  · rintro ⟨⟨elements, hv, hdenotes⟩, hvalid⟩
    exact ⟨elements, hv, hdenotes, hvalid⟩
  · rintro ⟨elements, hv, hdenotes, hvalid⟩
    exact ⟨⟨elements, hv, hdenotes⟩, hvalid⟩

/-- The compact text of a tree without numbers is accepted with the specs that the tree reads as. -/
theorem parse_of_chars {n : Nat} {v : Json} {text : String} (plain : Json.IsPlain n v)
    (room : n ≤ Json.Reader.maxDepth) (printed : v.chars = text.toList) {specs : List Spec}
    (read : readSpecs v = .ok specs) (valid : ∀ s ∈ specs, s.validate = .ok ()) :
    parse text = .ok specs := by
  have hwritten : Json.TextOf v text.toList := printed ▸ Json.textOf_chars plain
  have hspecs := parseSpecs_of_textOf hwritten (Nat.le_trans plain.depth_le room)
  exact parse_eq_ok_iff.2 ⟨hspecs.trans read, valid⟩

/-- Every element of a list denotes a valid spec exactly if each of them is well-formed and denotes
nothing that is not valid. -/
theorem exists_denoted_iff {elements : List Json} :
    (∃ specs, List.Forall₂ Denotes elements specs ∧ ∀ s ∈ specs, s.validate = .ok ()) ↔
      ∀ e ∈ elements, IsElement e ∧ ∀ s, Denotes e s → s.validate = .ok () := by
  induction elements with
  | nil =>
      constructor
      · simp
      · intro _
        exact ⟨[], .nil, by simp⟩
  | cons e elements ih =>
      rw [List.forall_mem_cons, ← ih]
      constructor
      · rintro ⟨specs, hdenotes, hvalid⟩
        cases hdenotes with
        | @cons _ s _ specs hs hrest =>
            rcases List.forall_mem_cons.1 hvalid with ⟨hfirst, hmore⟩
            -- Whatever the element denotes is the spec that it was read as.
            refine ⟨⟨exists_denotes_iff.1 ⟨s, hs⟩, ?_⟩, specs, hrest, hmore⟩
            intro t ht
            exact ht.unique hs ▸ hfirst
      · rintro ⟨⟨helement, hfirst⟩, specs, hrest, hmore⟩
        rcases exists_denotes_iff.2 helement with ⟨s, hs⟩
        exact ⟨s :: specs, .cons hs hrest, List.forall_mem_cons.2 ⟨hfirst s hs, hmore⟩⟩

/-! ## Other words -/

theorem Rewords.depth_le {e f : Json} (h : Rewords e f) : f.depth ≤ e.depth := by
  cases h with
  | same => exact Nat.le_refl _
  | object k _ members =>
      refine Nat.succ_le_succ (Json.membersDepth_le_iff.2 ?_)
      intro n hn
      rcases members.symm.exists_mem hn with ⟨m, hm, hvalue, -⟩
      rw [hvalue]
      exact Json.membersDepth_le_iff.1 (Nat.le_refl _) m hm

theorem itemsDepth_le_of_rewords {elements others : List Json}
    (h : List.Forall₂ Rewords elements others) :
    Json.itemsDepth others ≤ Json.itemsDepth elements := by
  induction h with
  | nil => exact Nat.le_refl _
  | cons hfirst _ ih =>
      have hdepth := hfirst.depth_le
      simp only [Json.itemsDepth]
      omega

/-- Documents that say the same denote the same specs. -/
theorem denotes_of_rewords {elements others : List Json} (h : List.Forall₂ Rewords elements others)
    {specs : List Spec} :
    List.Forall₂ Denotes elements specs ↔ List.Forall₂ Denotes others specs := by
  induction h generalizing specs with
  | nil => exact Iff.rfl
  | cons hfirst _ ih =>
      cases specs with
      | nil => simp
      | cons s specs => rw [List.forall₂_cons, List.forall₂_cons, hfirst.denotes_iff, ih]

/-- Let a text write a tree that is not too deep.  It is accepted exactly if the tree is an array of
well-formed elements whose specs are valid; what is accepted are then the specs of the elements in
order; and every text of the same elements in other words is accepted with the same specs. -/
theorem parse_exact {v : Json} {text : String} (written : Json.TextOf v text.toList)
    (room : v.depth ≤ Json.Reader.maxDepth) :
    ((∃ specs, parse text = .ok specs) ↔
      ∃ elements, v = .array elements ∧
        ∀ e ∈ elements, IsElement e ∧ ∀ s, Denotes e s → s.validate = .ok ()) ∧
    (∀ specs, parse text = .ok specs ↔
      ∃ elements, v = .array elements ∧ List.Forall₂ Denotes elements specs ∧
        ∀ s ∈ specs, s.validate = .ok ()) ∧
    (∀ e, IsElement e → ∃! s, Denotes e s) ∧
    ∀ elements others other, v = .array elements → List.Forall₂ Rewords elements others →
      Json.TextOf (.array others) other.toList →
        ∀ specs, parse other = .ok specs ↔ parse text = .ok specs := by
  refine ⟨?_, fun specs => parse_eq_ok_iff_denotes written room, ?_, ?_⟩
  · simp only [parse_eq_ok_iff_denotes written room, ← exists_denoted_iff]
    constructor
    · rintro ⟨specs, elements, hv, hspecs⟩
      exact ⟨elements, hv, specs, hspecs⟩
    · rintro ⟨elements, hv, specs, hspecs⟩
      exact ⟨specs, elements, hv, hspecs⟩
  · intro e helement
    rcases exists_denotes_iff.2 helement with ⟨s, hs⟩
    exact ⟨s, hs, fun t ht => ht.unique hs⟩
  · rintro elements others other rfl hwords hother specs
    have hroom : (Json.array others).depth ≤ Json.Reader.maxDepth :=
      Nat.le_trans (Nat.succ_le_succ (itemsDepth_le_of_rewords hwords)) room
    rw [parse_eq_ok_iff_denotes written room, parse_eq_ok_iff_denotes hother hroom]
    simp only [Json.array.injEq, exists_eq_left', denotes_of_rewords hwords]

/-- A volume under the other name of its field, before its tag, and an image as an array. -/
theorem parse_exact_of_synonym :
    let text := "[\x7b\"volume\":\"data\",\"type\":\"volume\"\x7d,[\"image\",\"redis\"]]"
    let data : Json := .object [("volume", .text "data"), ("type", .text "volume")]
    let renamed : Json := .object [("type", .text "volume"), ("name", .text "data")]
    let redis : Json := .array [.text "image", .text "redis"]
    let specs : List Spec := [.volume { name := "data" }, .image { reference := "redis" }]
    Json.TextOf (.array [data, redis]) text.toList ∧ parse text = .ok specs ∧
      ∀ other, Json.TextOf (.array [renamed, redis]) other.toList → parse other = .ok specs := by
  intro text data renamed redis specs
  have hplain : Json.IsPlain 2 (.array [data, redis]) := by
    refine .array (List.forall_mem_cons.2 ⟨.object ?_, List.forall_mem_cons.2 ⟨.array ?_, by simp⟩⟩)
    · simp [Json.IsPlain.text]
    · simp [Json.IsPlain.text]
  have htext : (Json.array [data, redis]).chars = text.toList := by decide
  have hwritten : Json.TextOf (.array [data, redis]) text.toList :=
    htext ▸ Json.textOf_chars hplain
  have hexact := parse_exact hwritten (by decide)
  have hparse : parse text = .ok specs := by
    refine (hexact.2.1 specs).2 ⟨_, rfl, ?_, ?_⟩
    · exact .cons (readSpec_eq_ok_iff.1 rfl) (.cons (readSpec_eq_ok_iff.1 rfl) .nil)
    · intro s hs
      rcases List.mem_pair.1 hs with rfl | rfl
      · rfl
      · rfl
  refine ⟨hwritten, hparse, ?_⟩
  intro other hother
  have hdata : Rewords data renamed := by
    refine .object .volume (List.mem_cons_of_mem _ (List.mem_cons_self ..)) ⟨_, .swap .., ?_⟩
    refine .cons ⟨rfl, .inl rfl⟩ (.cons ⟨rfl, .inr ⟨["name", "volume"], ?_, ?_, ?_⟩⟩ .nil)
    · exact List.mem_cons_self ..
    · exact List.mem_cons_of_mem _ (List.mem_cons_self ..)
    · exact List.mem_cons_self ..
  have hwords : List.Forall₂ Rewords [data, redis] [renamed, redis] :=
    .cons hdata (.cons (.same redis) .nil)
  exact (hexact.2.2.2 _ _ other rfl hwords hother specs).2 hparse

end Converge.Manifest
