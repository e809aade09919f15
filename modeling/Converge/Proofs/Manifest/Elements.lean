import Converge.Proofs.Manifest.Fields

/-!
# Elements of a manifest

What an element may look like, and the spec that it denotes.  An element is an object with one tag
among its members or an array that starts with the tag; what stands beside the tag sets fields of the
kind, by name in the one form and in the order of the fields in the other.  A spec is read from
exactly the elements of this shape, and it is the one that they denote.
-/

namespace Converge

/-- A member of an object sets the field of which its key is the name or the synonym. -/
def Field.IsSetBy {σ : Type} (fields : List (Field σ)) (m : String × Json) (p : Field σ × Json) :
    Prop :=
  p.1 ∈ fields ∧ (p.1.name = m.1 ∨ p.1.synonym = some m.1) ∧ p.2 = m.2

namespace Manifest

/-! ## Content -/

namespace Content

variable {σ : Type}

/-- The settings that content makes: every member sets a field, and no field is set twice; items set
the first fields in their order. -/
inductive Sets (fields : List (Field σ)) : Content → List (Field σ × Json) → Prop where
  | members {ms : List (String × Json)} {settings : List (Field σ × Json)}
      (named : List.Forall₂ (Field.IsSetBy fields) ms settings)
      (once : settings.Pairwise fun p q => p.1.name ≠ q.1.name) : Sets fields (.members ms) settings
  | items {vs : List Json} (few : vs.length ≤ fields.length) :
      Sets fields (.items vs) (fields.zip vs)

def Fits (fields : List (Field σ)) (c : Content) : Prop :=
  ∃ settings, c.Sets fields settings ∧ ∀ p ∈ settings, p.1.Takes p.2

/-- The record of which every field has the value that is given for it, or its default. -/
def Describes (fields : List (Field σ)) (c : Content) (x : σ) : Prop :=
  ∃ settings, c.Sets fields settings ∧ (∀ p ∈ settings, p.1.Takes p.2) ∧
    ∀ f ∈ fields, (∀ p ∈ settings, p.1.name = f.name → f.toJson x = p.2) ∧
      ((∀ p ∈ settings, p.1.name ≠ f.name) → f.toJson x = f.default)

def FitsKind (c : Content) : Kind → Prop
  | .container => c.Fits Container.fields
  | .image => c.Fits Image.fields
  | .volume => c.Fits Volume.fields
  | .network => c.Fits Network.fields

def DescribesSpec (c : Content) : Spec → Prop
  | .container x => c.Describes Container.fields x
  | .image x => c.Describes Image.fields x
  | .volume x => c.Describes Volume.fields x
  | .network x => c.Describes Network.fields x

end Content

/-! ## Elements -/

/-- The elements that name a kind, with what stands beside the tag: an object names it by its only
member under the tag, and an array by its first item. -/
inductive Tagged : Json → Kind → Content → Prop where
  | object {ms : List (String × Json)} {k : Kind}
      (once : ms.filter (·.1 == Spec.tag) = [(Spec.tag, .text k.name)]) :
      Tagged (.object ms) k (.members (ms.filter (·.1 != Spec.tag)))
  | array {vs : List Json} {k : Kind} : Tagged (.array (.text k.name :: vs)) k (.items vs)

def IsElement (e : Json) : Prop := ∃ k c, Tagged e k c ∧ c.FitsKind k

def Denotes (e : Json) (s : Spec) : Prop := ∃ c, Tagged e s.kind c ∧ c.DescribesSpec s

end Manifest

/-! ## Setting fields -/

namespace Field

variable {σ : Type} {fields : List (Field σ)} {initial : σ} (table : IsTable fields initial)

/-- Setting the first fields to items sets each of them in turn. -/
theorem assignItems_eq (x : σ) (fields : List (Field σ)) (vs : List Json) :
    assignItems x fields vs = assignEach x (fields.zip vs) := by
  induction fields generalizing x vs with
  | nil => cases vs <;> rfl
  | cons f fs ih =>
      cases vs with
      | nil => rfl
      | cons v vs =>
          have hcons : assignItems x (f :: fs) (v :: vs) =
              (f.assign v x >>= fun y => assignItems y fs vs) := rfl
          simp only [hcons, ih]
          rfl

theorem assignAll_eq_ok_iff {fields : List (Field σ)} {x y : σ} {vs : List Json} :
    assignAll fields x vs = .ok y ↔
      vs.length ≤ fields.length ∧ assignEach x (fields.zip vs) = .ok y := by
  unfold assignAll
  rw [bind_eq_ok_iff, assignItems_eq]
  constructor
  · rintro ⟨z, hz, h⟩
    by_cases hmany : fields.length < vs.length
    · simp [hmany] at h
    · rw [if_neg hmany] at h
      cases h
      exact ⟨Nat.le_of_not_lt hmany, hz⟩
  · rintro ⟨hfew, hy⟩
    exact ⟨y, hy, if_neg (Nat.not_lt.2 hfew)⟩

include table

theorem IsTable.name_pairwise : fields.Pairwise fun f g => f.name ≠ g.name := by
  refine table.apart.imp ?_
  intro f g hapart heq
  exact hapart f.name (name_mem_names f) (heq ▸ name_mem_names g)

/-- Members set the fields that they name, unless one is unknown or was set before. -/
theorem IsTable.assignMembers_eq_ok_iff {ms : List (String × Json)} {given : List String} {x y : σ} :
    assignMembers fields given x ms = .ok y ↔
      ∃ settings, List.Forall₂ (IsSetBy fields) ms settings ∧
        settings.Pairwise (fun p q => p.1.name ≠ q.1.name) ∧ (∀ p ∈ settings, p.1.name ∉ given) ∧
        assignEach x settings = .ok y := by
  -- By induction on the members, for every record and whatever was given before: each member adds
  -- its field to what is given.
  induction ms generalizing given x with
  | nil =>
      constructor
      · intro h
        exact ⟨[], .nil, .nil, by simp, h⟩
      · rintro ⟨settings, hnamed, -, -, h⟩
        cases hnamed
        exact h
  | cons m ms ih =>
      rcases m with ⟨key, v⟩
      constructor
      · intro h
        rw [assignMembers] at h
        cases hfind : fields.find? (·.answersTo key) with
        | none => simp [hfind] at h
        | some f =>
            have hf := List.mem_of_find?_eq_some hfind
            have hanswers := List.find?_some hfind
            have hcalled := mem_names_iff.1 (answersTo_iff.1 hanswers)
            by_cases hgiven : given.contains f.name = true
            · simp only [hfind, if_pos hgiven] at h
              cases h
            · simp only [hfind, if_neg hgiven] at h
              rcases bind_eq_ok_iff.1 h with ⟨z, hz, hrest⟩
              rcases ih.1 hrest with ⟨settings, hnamed, honce, hfresh, hy⟩
              refine ⟨(f, v) :: settings, .cons ⟨hf, hcalled, rfl⟩ hnamed, ?_, ?_,
                bind_eq_ok_iff.2 ⟨z, hz, hy⟩⟩
              · refine List.pairwise_cons.2 ⟨?_, honce⟩
                intro q hq heq
                exact hfresh q hq (heq ▸ List.mem_cons_self ..)
              · refine List.forall_mem_cons.2 ⟨by simpa using hgiven, ?_⟩
                intro q hq hmem
                exact hfresh q hq (List.mem_cons_of_mem _ hmem)
      · rintro ⟨settings, hnamed, honce, hfresh, h⟩
        cases hnamed with
        | @cons _ p _ settings hfirst hnamed =>
            rcases p with ⟨f, w⟩
            rcases hfirst with ⟨hf, hcalled, rfl⟩
            rcases bind_eq_ok_iff.1 h with ⟨z, hz, hrest⟩
            rcases List.pairwise_cons.1 honce with ⟨hdistinct, honce⟩
            -- The field that answers to the key is the one that the member sets.
            have hfind := table.find?_answersTo hf (answersTo_iff.2 (mem_names_iff.2 hcalled))
            have hgiven : given.contains f.name = false := by
              simpa using hfresh (f, w) (List.mem_cons_self ..)
            have hmore : assignMembers fields (f.name :: given) z ms = .ok y := by
              refine ih.2 ⟨settings, hnamed, honce, ?_, hrest⟩
              intro q hq hmem
              rcases List.mem_cons.1 hmem with heq | hmem
              · exact hdistinct q hq heq.symm
              · exact hfresh q (List.mem_cons_of_mem _ hq) hmem
            rw [assignMembers]
            simp only [hfind, hgiven]
            exact bind_eq_ok_iff.2 ⟨z, hz, hmore⟩

end Field

namespace Manifest

open Converge.Field (IsTable)

namespace Content

variable {σ : Type} {fields : List (Field σ)} {initial : σ} (table : IsTable fields initial)

theorem Sets.mem_fields {c : Content} {settings : List (Field σ × Json)} (h : c.Sets fields settings) :
    ∀ p ∈ settings, p.1 ∈ fields := by
  cases h with
  | members named _ =>
      clear * - named
      induction named with
      | nil => simp
      | cons hfirst _ ih => exact List.forall_mem_cons.2 ⟨hfirst.1, ih⟩
  | items _ => exact fun p hp => (List.of_mem_zip hp).1

include table

/-- No field is set twice. -/
theorem Sets.name_pairwise {c : Content} {settings : List (Field σ × Json)}
    (h : c.Sets fields settings) : settings.Pairwise fun p q => p.1.name ≠ q.1.name := by
  cases h with
  | members _ once => exact once
  | @items vs few =>
      have hnames := table.name_pairwise
      clear table few
      induction hnames generalizing vs with
      | nil => simp
      | @cons f fs hf _ ih =>
          cases vs with
          | nil => simp
          | cons v vs =>
              refine List.pairwise_cons.2 ⟨?_, ih⟩
              intro q hq
              exact hf q.1 (List.of_mem_zip hq).1

/-- Assigning content succeeds exactly on the settings that the content makes. -/
theorem assign_eq_ok_iff_sets {c : Content} {x : σ} :
    c.assign fields initial = .ok x ↔
      ∃ settings, c.Sets fields settings ∧ Field.assignEach initial settings = .ok x := by
  cases c with
  | members ms =>
      rw [assign, table.assignMembers_eq_ok_iff]
      constructor
      · rintro ⟨settings, hnamed, honce, -, hx⟩
        exact ⟨settings, .members hnamed honce, hx⟩
      · rintro ⟨settings, hsets, hx⟩
        cases hsets with
        | members named once => exact ⟨settings, named, once, by simp, hx⟩
  | items vs =>
      rw [assign, Field.assignAll_eq_ok_iff]
      constructor
      · rintro ⟨hfew, hx⟩
        exact ⟨_, .items hfew, hx⟩
      · rintro ⟨settings, hsets, hx⟩
        cases hsets with
        | items few => exact ⟨few, hx⟩

/-- Content is read as a record exactly if it describes the record. -/
theorem assign_eq_ok_iff {c : Content} {x : σ} :
    c.assign fields initial = .ok x ↔ c.Describes fields x := by
  rw [assign_eq_ok_iff_sets table]
  refine exists_congr fun settings => and_congr_right fun hsets => ?_
  rw [table.assignEach_eq_ok_iff hsets.mem_fields (hsets.name_pairwise table)]
  refine and_congr_right fun _ => forall₂_congr fun f hf => ?_
  rw [table.defaults f hf]

/-- Content is read as some record exactly if it fits the fields. -/
theorem exists_assign_iff {c : Content} :
    (∃ x, c.assign fields initial = .ok x) ↔ c.Fits fields := by
  simp only [assign_eq_ok_iff_sets table]
  constructor
  · rintro ⟨x, settings, hsets, hx⟩
    have hname := hsets.name_pairwise table
    exact ⟨settings, hsets, ((table.assignEach_eq_ok_iff hsets.mem_fields hname).1 hx).1⟩
  · rintro ⟨settings, hsets, htakes⟩
    rcases Field.exists_assignEach htakes initial with ⟨x, hx⟩
    exact ⟨x, settings, hsets, hx⟩

end Content

/-! ## Reading an element -/

/-- Content is read as the spec of the kind that it describes. -/
theorem specOf_eq_ok_iff {c : Content} {k : Kind} {s : Spec} :
    specOf c k = .ok s ↔ s.kind = k ∧ c.DescribesSpec s := by
  have hrecord {σ : Type} {fields : List (Field σ)} {initial : σ} (table : IsTable fields initial)
      (f : σ → Spec) :
      (do return f (← c.assign fields initial) : Except Problem Spec) = .ok s ↔
        ∃ x, c.Describes fields x ∧ f x = s := by
    rw [bind_eq_ok_iff]
    simp [pure, Except.pure, Content.assign_eq_ok_iff table]
  cases k with
  | container =>
      refine (hrecord Field.isTable_container .container).trans ?_
      cases s <;> simp [Spec.kind, Content.DescribesSpec]
  | image =>
      refine (hrecord Field.isTable_image .image).trans ?_
      cases s <;> simp [Spec.kind, Content.DescribesSpec]
  | volume =>
      refine (hrecord Field.isTable_volume .volume).trans ?_
      cases s <;> simp [Spec.kind, Content.DescribesSpec]
  | network =>
      refine (hrecord Field.isTable_network .network).trans ?_
      cases s <;> simp [Spec.kind, Content.DescribesSpec]

/-- Some spec of the kind is read exactly if the content fits the kind's fields. -/
theorem exists_specOf_iff {c : Content} {k : Kind} :
    (∃ s, specOf c k = .ok s) ↔ c.FitsKind k := by
  have hrecord {σ : Type} {fields : List (Field σ)} {initial : σ} (table : IsTable fields initial)
      (f : σ → Spec) :
      (∃ s, (do return f (← c.assign fields initial) : Except Problem Spec) = .ok s) ↔
        c.Fits fields := by
    rw [← Content.exists_assign_iff table]
    constructor
    · rintro ⟨s, hs⟩
      rcases bind_eq_ok_iff.1 hs with ⟨x, hx, -⟩
      exact ⟨x, hx⟩
    · rintro ⟨x, hx⟩
      exact ⟨f x, bind_eq_ok_iff.2 ⟨x, hx, rfl⟩⟩
  cases k with
  | container => exact hrecord Field.isTable_container .container
  | image => exact hrecord Field.isTable_image .image
  | volume => exact hrecord Field.isTable_volume .volume
  | network => exact hrecord Field.isTable_network .network

theorem readKind_eq_ok_iff {v : Json} {k : Kind} : readKind v = .ok k ↔ v = .text k.name := by
  cases v with
  | text s =>
      rw [readKind, Json.text.injEq]
      constructor
      · intro h
        cases hname : Kind.ofName? s with
        | none => simp [hname] at h
        | some k' =>
            rw [hname] at h
            cases h
            exact (Kind.name_of_ofName? hname).symm
      · rintro rfl
        rw [Kind.ofName?_name]
  | _ => simp [readKind]

/-- After the tag was seen it may not come again. -/
theorem kindAmong_some_eq_ok_iff {found k : Kind} {ms : List (String × Json)} :
    kindAmong (some found) ms = .ok (some k) ↔ found = k ∧ ms.filter (·.1 == Spec.tag) = [] := by
  induction ms with
  | nil => simp [kindAmong]
  | cons m ms ih =>
      rcases m with ⟨key, v⟩
      by_cases htag : key = Spec.tag
      · simp [kindAmong, htag]
      · simp [kindAmong, htag, ih]

theorem kindAmong_eq_ok_iff {k : Kind} {ms : List (String × Json)} :
    kindAmong none ms = .ok (some k) ↔
      ms.filter (·.1 == Spec.tag) = [(Spec.tag, .text k.name)] := by
  induction ms with
  | nil => simp [kindAmong]
  | cons m ms ih =>
      rcases m with ⟨key, v⟩
      by_cases htag : key = Spec.tag
      · simp only [kindAmong, if_pos htag, bind_eq_ok_iff, kindAmong_some_eq_ok_iff,
          readKind_eq_ok_iff]
        simp [htag]
      · simp [kindAmong, htag, ih]

/-- A spec is read from an element exactly if the element denotes it. -/
theorem readSpec_eq_ok_iff {e : Json} {s : Spec} : readSpec e = .ok s ↔ Denotes e s := by
  constructor
  · intro h
    cases e with
    | object ms =>
        rcases bind_eq_ok_iff.1 h with ⟨found, hfound, hspec⟩
        cases found with
        | none => cases hspec
        | some k =>
            rcases specOf_eq_ok_iff.1 hspec with ⟨rfl, hdescribes⟩
            exact ⟨_, .object (kindAmong_eq_ok_iff.1 hfound), hdescribes⟩
    | array vs =>
        cases vs with
        | nil => cases h
        | cons v vs =>
            rcases bind_eq_ok_iff.1 h with ⟨k, hk, hspec⟩
            rcases specOf_eq_ok_iff.1 hspec with ⟨rfl, hdescribes⟩
            rcases readKind_eq_ok_iff.1 hk with rfl
            exact ⟨_, .array, hdescribes⟩
    | _ => cases h
  · rintro ⟨c, htagged, hdescribes⟩
    have hspec : specOf c s.kind = .ok s := specOf_eq_ok_iff.2 ⟨rfl, hdescribes⟩
    cases htagged with
    | object once => exact bind_eq_ok_iff.2 ⟨_, kindAmong_eq_ok_iff.2 once, hspec⟩
    | array => exact bind_eq_ok_iff.2 ⟨_, readKind_eq_ok_iff.2 rfl, hspec⟩

/-- An element denotes at most one spec. -/
theorem Denotes.unique {e : Json} {s t : Spec} (hs : Denotes e s) (ht : Denotes e t) : s = t := by
  have hread := readSpec_eq_ok_iff.2 hs
  rw [readSpec_eq_ok_iff.2 ht] at hread
  exact (Except.ok.inj hread).symm

/-- Elements are those that denote a spec. -/
theorem exists_denotes_iff {e : Json} : (∃ s, Denotes e s) ↔ IsElement e := by
  constructor
  · rintro ⟨s, c, htagged, hdescribes⟩
    have hread : specOf c s.kind = .ok s := specOf_eq_ok_iff.2 ⟨rfl, hdescribes⟩
    exact ⟨s.kind, c, htagged, exists_specOf_iff.1 ⟨s, hread⟩⟩
  · rintro ⟨k, c, htagged, hfits⟩
    rcases exists_specOf_iff.2 hfits with ⟨s, hread⟩
    rcases specOf_eq_ok_iff.1 hread with ⟨rfl, hdescribes⟩
    exact ⟨s, c, htagged, hdescribes⟩

end Manifest

end Converge
