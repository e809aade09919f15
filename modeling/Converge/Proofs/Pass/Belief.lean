import Converge.Proofs.Pass.Course
import Converge.Proofs.Plan.Guards

/-!
# Whose record is believed

The first record of an answer is taken for the state of the resource, whatever object it is about,
and of that record only its being there and the run-state matter.  Docker also finds an object by
the first characters of its id, so the answer for a name that no object has can be about another
object.  `Discerning` is what a pass that looks at names and ids would guarantee; it holds exactly
where the first record is about the resource.
-/

namespace Converge

def Record.IsAbout (r : Record) (identity : String) : Prop :=
  r.name? = some identity ∨ r.id? = some identity

instance (r : Record) (identity : String) : Decidable (r.IsAbout identity) :=
  inferInstanceAs (Decidable (_ ∨ _))

def Action.altersExisting (a : Action) : Bool :=
  a.verb = .start || a.verb = .stop || a.verb = .remove

/-! ## Plans -/

/-- Nothing is started, stopped or removed where nothing was observed. -/
theorem Action.Justified.not_altersExisting {spec : Spec} {a : Action}
    (asks : spec.needsFacts = true) (justified : Justified spec none a) :
    a.altersExisting = false := by
  cases justified with
  | createContainer => rfl
  | createVolume => rfl
  | nothing => rfl
  | pullImage => cases asks
  | removeImage => cases asks
  | createNetwork => cases asks
  | removeNetwork => cases asks

/-- A plan depends on a record by its run-state alone. -/
theorem Spec.plan_of_isRunning_eq (spec : Spec) {r r' : Record}
    (same : r.isRunning = r'.isRunning) : spec.plan (some r) = spec.plan (some r') := by
  unfold plan planUnchecked
  cases spec with
  | container c =>
      have hbefore : Container.Before.of (some r) = .of (some r') :=
        congrArg (Container.Before.mk true) same
      simp only [Container.plan_eq_program, hbefore]
  | image i => rfl
  | volume v => rfl
  | network n => rfl

namespace Pass

/-! ## Answers -/

variable {σ : Type}

/-- Only what an answer says of the resource itself is believed. -/
structure Discerning (h : Host σ) (binary : String) (spec : Spec) (s : σ) (lines : List String) :
    Prop where
  /-- An observed record is about the resource. -/
  about : ∀ r, ((observe spec).play h s).result = .ok (some r) → r.IsAbout spec.identity
  /-- Where all records are about other objects, the resource is absent. -/
  foreign : ∀ records, Fact.parse lines = .ok records →
    (∀ r ∈ records, ¬ r.IsAbout spec.identity) → ((observe spec).play h s).result = .ok none
  /-- Nothing is started, stopped or removed but for a record about the resource. -/
  alters : ∀ records outcome, Fact.parse lines = .ok records →
    ((plan binary spec).play h s).result = .ok outcome →
    (∃ a ∈ outcome.plan.actions, a.altersExisting = true) → ∃ r ∈ records, r.IsAbout spec.identity

section Answered

variable {h : Host σ} {spec : Spec} {s : σ} {lines : List String} (asks : spec.needsFacts = true)
  (answered : (h.fetch s (.inspect spec.kind spec.identity)).1 = .ok lines)
include asks answered

/-- What is observed is the first record of the answer. -/
theorem result_observe :
    ((observe spec).play h s).result = (Fact.parse lines).map List.head? := by
  unfold observe
  rw [if_pos asks, Script.play_bind_eq_andThen, Script.play_fetch, answered, Played.andThen_ok]
  cases hparse : Fact.parse lines with
  | error e => rfl
  | ok records => rfl

theorem result_plan (binary : String) (valid : spec.validate = .ok ()) :
    ((plan binary spec).play h s).result = decision binary spec lines := by
  rw [play_plan, valid, inquire, if_pos asks, Script.play_fetch, answered]
  rfl

/-- A pass is discerning exactly where the first record is about the resource. -/
theorem discerning_iff (binary : String) (valid : spec.validate = .ok ()) :
    Discerning h binary spec s lines ↔
      ∀ records r, Fact.parse lines = .ok records → records.head? = some r →
        r.IsAbout spec.identity := by
  have hobserved := result_observe asks answered
  constructor
  · intro discerning records r hparse hfirst
    refine discerning.about r ?_
    rw [hobserved, hparse, ← hfirst]
    rfl
  · intro first
    constructor
    case about =>
      intro r hr
      rw [hobserved] at hr
      cases hparse : Fact.parse lines with
      | error e => simp [hparse, Except.map] at hr
      | ok records =>
          rw [hparse] at hr
          exact first records r hparse (Except.ok.inj hr)
    case foreign =>
      intro records hparse others
      cases records with
      | nil =>
          rw [hobserved, hparse]
          rfl
      | cons r rest => exact absurd (first _ r hparse rfl) (others r (List.mem_cons_self ..))
    case alters =>
      rintro records outcome hparse hplan ⟨a, ha, halters⟩
      rw [result_plan asks answered binary valid] at hplan
      rcases (decision_eq_ok_iff binary).1 hplan with ⟨-, hplanned, -, -⟩
      rcases Fact.parse_eq_ok_iff.1 hparse with ⟨-, rfl⟩
      have hjustified := Spec.justified_of_plan_eq_ok hplanned a ha
      cases hfirst : (lines.filterMap Fact.record?).head? with
      | none =>
          rw [hfirst] at hjustified
          rw [hjustified.not_altersExisting asks] at halters
          cases halters
      | some r => exact ⟨r, List.mem_of_head? hfirst, first _ r hparse hfirst⟩

/-- The first record is believed, whatever it is about: only its run-state makes a difference, and
so nothing but the answer itself keeps another object's record from being taken for the
resource. -/
theorem believes_first_record (binary : String) (valid : spec.validate = .ok ()) :
    ((observe spec).play h s).result = (Fact.parse lines).map List.head? ∧
      (∀ r r' : Record, r.isRunning = r'.isRunning → spec.plan (some r) = spec.plan (some r')) ∧
      (Discerning h binary spec s lines ↔
        ∀ records r, Fact.parse lines = .ok records → records.head? = some r →
          r.IsAbout spec.identity) :=
  ⟨result_observe asks answered, fun _ _ => spec.plan_of_isRunning_eq,
    discerning_iff asks answered binary valid⟩

end Answered

/-! ## Two records -/

def naming (id name : String) : List (String × Json) :=
  [("Id", .text id), ("Name", .text ("/" ++ name))]

/-- A host that answers every query with the container of this id and name, and on which every call
succeeds. -/
def answering (id name : String) : Host Unit where
  fetch s _ := (.ok [(Json.object (naming id name)).render], s)
  run s _ := (.ok (), s)

/-- The record of what is printed. -/
theorem parse_naming (id name : String) :
    Fact.parse [(Json.object (naming id name)).render] =
      .ok [⟨[("id", .text id), ("name", .text ("/" ++ name))]⟩] := by
  have hplain : Json.IsPlain 1 (.object (naming id name)) := by
    refine .object fun m hm => ?_
    rcases List.mem_cons.1 hm with rfl | hm
    · exact .text id
    · cases List.mem_singleton.1 hm
      exact .text _
  -- The two members keep their order, before and after they are renamed.
  have hraw : ¬ "Name" < "Id" := by decide
  have hid : Fact.name "Id" = "id" := by decide
  have hname : Fact.name "Name" = "name" := by decide
  have hfacts : ¬ "name" < "id" := by decide
  have hrecord : Record.ofRaw (naming id name) =
      ⟨[("id", .text id), ("name", .text ("/" ++ name))]⟩ := by
    simp [Record.ofRaw, naming, Json.canonicalMembers, Json.canonicalMember, Json.canonical,
      Json.toMap, Json.insert, Fact.renameMembers, Fact.renameMember, Fact.rename, Fact.treatment,
      hraw, hid, hname, hfacts]
  have hline := Fact.record?_render_object hplain (by decide)
  rw [Fact.parse_of_faultless (List.forall_mem_singleton.2 hline.1),
    List.filterMap_cons_some hline.2, hrecord]
  rfl

/-- The container's own record is believed. -/
theorem believes_own_record :
    let spec : Spec := .container { name := "web", present := false }
    let lines := [(Json.object (naming "4f1e8d02" "web")).render]
    spec.validate = .ok () ∧ Discerning (answering "4f1e8d02" "web") "docker" spec () lines := by
  intro spec lines
  have hvalid : spec.validate = .ok () := spec.validate_eq_ok_iff_none.2 (by decide)
  have hbelieved := believes_first_record (h := answering "4f1e8d02" "web") (s := ()) rfl rfl
    "docker" hvalid
  refine ⟨hvalid, hbelieved.2.2.2 fun records r hparse hfirst => ?_⟩
  rw [parse_naming] at hparse
  cases hparse
  cases hfirst
  decide

/-- No container has the name `deadbeef`, but the id of another one starts with it: the pass takes
the record of that one and removes it. -/
theorem removes_for_foreign_record :
    let spec : Spec := .container { name := "deadbeef", present := false }
    let h := answering "deadbeefcafe" "web"
    let lines := [(Json.object (naming "deadbeefcafe" "web")).render]
    spec.validate = .ok () ∧
      (∀ records, Fact.parse lines = .ok records → ∀ r ∈ records, ¬ r.IsAbout spec.identity) ∧
      ¬ Discerning h "docker" spec () lines ∧
      ((apply {} spec).play h ()).quiet.events =
        [.asked (.inspect .container "deadbeef"),
          .ran ⟨"docker", ["container", "rm", "-f", "deadbeef"]⟩ true] := by
  intro spec h lines
  have hvalid : spec.validate = .ok () := spec.validate_eq_ok_iff_none.2 (by decide)
  have hparse := parse_naming "deadbeefcafe" "web"
  have hforeign : ∀ records, Fact.parse lines = .ok records →
      ∀ r ∈ records, ¬ r.IsAbout spec.identity := by
    intro records hrecords
    cases hparse.symm.trans hrecords
    exact List.forall_mem_singleton.2 (by decide)
  refine ⟨hvalid, hforeign, ?_, ?_⟩
  · intro discerning
    have habsent := discerning.foreign _ hparse (hforeign _ hparse)
    have hobserved : ((observe spec).play h ()).result = (Fact.parse lines).map List.head? :=
      result_observe rfl rfl
    rw [hobserved, hparse] at habsent
    cases habsent
  · have hplan : ∀ r, spec.plan (some r) = .ok (.ofActions spec [.remove spec]) := by
      intro r
      rw [Spec.plan_of_validate_eq_ok hvalid]
      rfl
    have hdecided : (answer h spec ()).1.bind (decision "docker" spec) =
        .ok ⟨.ofActions spec [.remove spec],
          [.last ⟨"docker", ["container", "rm", "-f", "deadbeef"]⟩], false⟩ := by
      rcases Fact.parse_eq_ok_iff.1 hparse with ⟨faultless, hrecords⟩
      refine (decision_eq_ok_iff "docker").2 ⟨faultless, ?_, rfl, rfl⟩
      rw [← hrecords]
      exact hplan _
    exact congrArg Played.events (quiet_play_apply_of_decision h "docker" hvalid hdecided)

end Pass

end Converge
