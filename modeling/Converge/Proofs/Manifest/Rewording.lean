import Mathlib.Data.List.Perm.Basic
import Converge.Proofs.Manifest.Elements

/-!
# The same element in other words

The members of an element may stand in any order, and a field may go by any of its names.
-/

namespace Converge

def Kind.fieldNames : Kind → List (List String)
  | .container => Container.fields.map Field.names
  | .image => Image.fields.map Field.names
  | .volume => Volume.fields.map Field.names
  | .network => Network.fields.map Field.names

theorem Kind.tag_not_mem_fieldNames (k : Kind) : ∀ names ∈ k.fieldNames, Spec.tag ∉ names := by
  cases k <;> decide

namespace Manifest

open Converge.Field (IsTable)

/-- Members with the same value under the same key or under two names of one field. -/
def SameMember (fieldNames : List (List String)) (m n : String × Json) : Prop :=
  m.2 = n.2 ∧ (m.1 = n.1 ∨ ∃ names ∈ fieldNames, m.1 ∈ names ∧ n.1 ∈ names)

def SameMembers (fieldNames : List (List String)) (ms ns : List (String × Json)) : Prop :=
  ∃ ordered, ms.Perm ordered ∧ List.Forall₂ (SameMember fieldNames) ordered ns

/-- Elements that say the same of a resource, in the same or in other words. -/
inductive Rewords : Json → Json → Prop where
  | same (e : Json) : Rewords e e
  | object {ms ns : List (String × Json)} (k : Kind) (tagged : (Spec.tag, .text k.name) ∈ ms)
      (members : SameMembers k.fieldNames ms ns) : Rewords (.object ms) (.object ns)

namespace Content

variable {σ : Type} {fields : List (Field σ)} {initial : σ} (table : IsTable fields initial)

/-- Members in another order make the same settings in another order. -/
theorem Sets.reorder {ms ordered : List (String × Json)} {settings : List (Field σ × Json)}
    (h : (Content.members ms).Sets fields settings) (hperm : ms.Perm ordered) :
    ∃ settings', settings.Perm settings' ∧ (Content.members ordered).Sets fields settings' := by
  cases h with
  | members named once =>
      rcases List.perm_comp_forall₂ hperm.symm named with ⟨settings', hnamed, hsettings⟩
      have honce := (hsettings.pairwise_iff fun {p q} => Ne.symm).2 once
      exact ⟨settings', hsettings.symm, .members hnamed honce⟩

include table

/-- Fields under other of their names are set to the same values. -/
theorem Sets.rename {ms ns : List (String × Json)} {settings : List (Field σ × Json)}
    (h : (Content.members ms).Sets fields settings)
    (hsame : List.Forall₂ (SameMember (fields.map Field.names)) ms ns) :
    (Content.members ns).Sets fields settings := by
  cases h with
  | members named once =>
      refine .members ?_ once
      clear once
      induction hsame generalizing settings with
      | nil =>
          cases named
          exact .nil
      | @cons m n ms ns hmn _ ih =>
          cases named with
          | @cons _ p _ settings hfirst hrest =>
              refine .cons ⟨hfirst.1, ?_, hfirst.2.2.trans hmn.1⟩ (ih hrest)
              rcases hmn.2 with hkey | ⟨names, hnames, hm, hn⟩
              · exact hkey ▸ hfirst.2.1
              · -- The two keys name the field that the first one names.
                rcases List.mem_map.1 hnames with ⟨f, hf, rfl⟩
                have heq : f = p.1 := table.eq_of_mem_names hf hfirst.1 hm
                  (Field.mem_names_iff.2 hfirst.2.1)
                exact Field.mem_names_iff.1 (heq ▸ hn)

/-- The same members describe the same record. -/
theorem Describes.reword {ms ns : List (String × Json)} {x : σ} (h : (Content.members ms).Describes fields x)
    (hsame : SameMembers (fields.map Field.names) ms ns) : (Content.members ns).Describes fields x := by
  rcases h with ⟨settings, hsets, htakes, hholds⟩
  rcases hsame with ⟨ordered, hperm, hrenamed⟩
  rcases hsets.reorder hperm with ⟨settings', hsettings, hsets'⟩
  -- What is required of settings does not depend on their order.
  have hmem (p : Field σ × Json) : p ∈ settings' ↔ p ∈ settings := hsettings.mem_iff.symm
  refine ⟨settings', hsets'.rename table hrenamed, ?_, ?_⟩
  · simpa only [hmem] using htakes
  · simpa only [hmem] using hholds

omit table in
/-- The spec does not depend on the order of members, nor on which of its names a field has. -/
theorem DescribesSpec.reword {ms ns : List (String × Json)} {s : Spec}
    (h : (Content.members ms).DescribesSpec s) (hsame : SameMembers s.kind.fieldNames ms ns) :
    (Content.members ns).DescribesSpec s := by
  cases s with
  | container x => exact Describes.reword Field.isTable_container h hsame
  | image x => exact Describes.reword Field.isTable_image h hsame
  | volume x => exact Describes.reword Field.isTable_volume h hsame
  | network x => exact Describes.reword Field.isTable_network h hsame

end Content

/-- The tag is no name of a field. -/
theorem SameMember.tag_iff {k : Kind} {m n : String × Json} (h : SameMember k.fieldNames m n) :
    m.1 = Spec.tag ↔ n.1 = Spec.tag := by
  rcases h.2 with heq | ⟨names, hnames, hm, hn⟩
  · rw [heq]
  · have htag := k.tag_not_mem_fieldNames names hnames
    constructor
    · intro heq
      exact absurd (heq ▸ hm) htag
    · intro heq
      exact absurd (heq ▸ hn) htag

theorem SameMember.symm {fieldNames : List (List String)} {m n : String × Json}
    (h : SameMember fieldNames m n) : SameMember fieldNames n m := by
  rcases h with ⟨hvalue, hkey | ⟨names, hnames, hm, hn⟩⟩
  · exact ⟨hvalue.symm, .inl hkey.symm⟩
  · exact ⟨hvalue.symm, .inr ⟨names, hnames, hn, hm⟩⟩

namespace SameMembers

variable {fieldNames : List (List String)} {ms ns : List (String × Json)}

theorem symm (h : SameMembers fieldNames ms ns) : SameMembers fieldNames ns ms := by
  rcases h with ⟨ordered, hperm, hsame⟩
  have hflip : List.Forall₂ (SameMember fieldNames) ns ordered :=
    hsame.flip.imp fun _ _ => SameMember.symm
  have hback : Relation.Comp (List.Forall₂ (SameMember fieldNames)) List.Perm ns ms :=
    ⟨ordered, hflip, hperm.symm⟩
  rw [List.forall₂_comp_perm_eq_perm_comp_forall₂] at hback
  exact hback

/-- A choice of members that depends on neither order nor names chooses the same ones of both. -/
theorem filter (h : SameMembers fieldNames ms ns) {keep : String × Json → Bool}
    (hkeep : ∀ m n, SameMember fieldNames m n → (keep m = true ↔ keep n = true)) :
    SameMembers fieldNames (ms.filter keep) (ns.filter keep) := by
  rcases h with ⟨ordered, hperm, hsame⟩
  exact ⟨ordered.filter keep, hperm.filter keep, List.rel_filter (fun m n => hkeep m n) hsame⟩

theorem exists_mem (h : SameMembers fieldNames ms ns) {m : String × Json} (hm : m ∈ ms) :
    ∃ n ∈ ns, SameMember fieldNames m n := by
  rcases h with ⟨ordered, hperm, hsame⟩
  exact exists_mem_of_forall₂ hsame (hperm.mem_iff.1 hm)

end SameMembers

/-- The tag goes by no other name. -/
theorem SameMember.eq_tag {k : Kind} {v : Json} {n : String × Json}
    (h : SameMember k.fieldNames (Spec.tag, v) n) : n = (Spec.tag, v) :=
  Prod.ext (h.tag_iff.1 rfl) h.1.symm

/-- To say the same in other words goes both ways. -/
theorem Rewords.symm {e f : Json} (h : Rewords e f) : Rewords f e := by
  cases h with
  | same => exact .same e
  | object k tagged members =>
      rcases members.exists_mem tagged with ⟨n, hn, hsame⟩
      exact .object k (hsame.eq_tag ▸ hn) members.symm

/-- An element in other words denotes the same spec. -/
theorem Denotes.reword {e f : Json} {s : Spec} (h : Denotes e s) (hsame : Rewords e f) :
    Denotes f s := by
  cases hsame with
  | same => exact h
  | @object ms ns k tagged members =>
      rcases h with ⟨c, htagged, hdescribes⟩
      cases htagged with
      | object once =>
          have hmem : (Spec.tag, .text k.name) ∈ ms.filter (·.1 == Spec.tag) :=
            List.mem_filter.2 ⟨tagged, by simp⟩
          have hkind : k = s.kind := by
            rw [once, List.mem_singleton] at hmem
            have hname : k.name = s.kind.name := by simpa using hmem
            have hof := Kind.ofName?_name k
            rw [hname, Kind.ofName?_name] at hof
            exact (Option.some.inj hof).symm
          subst hkind
          -- The other words keep the tag, and beside it they are other words for the same members.
          have hbeside := members.filter fun m n hmn =>
            show (m.1 != Spec.tag) = true ↔ (n.1 != Spec.tag) = true by simp [hmn.tag_iff]
          have htags := members.filter fun m n hmn =>
            show (m.1 == Spec.tag) = true ↔ (n.1 == Spec.tag) = true by simp [hmn.tag_iff]
          refine ⟨_, .object ?_, hdescribes.reword hbeside⟩
          rcases htags with ⟨ordered, hperm, hforall⟩
          rw [once] at hperm
          rcases List.singleton_perm.1 hperm with rfl
          generalize ns.filter (·.1 == Spec.tag) = tags at hforall
          cases hforall with
          | cons hfirst hrest =>
              cases hrest
              rw [hfirst.eq_tag]

/-- Elements in other words denote the same spec. -/
theorem Rewords.denotes_iff {e f : Json} (h : Rewords e f) {s : Spec} :
    Denotes e s ↔ Denotes f s :=
  ⟨fun hs => hs.reword h, fun hs => hs.reword h.symm⟩

end Manifest

end Converge
