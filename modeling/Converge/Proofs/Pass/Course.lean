import Converge.Proofs.Docker.Processes
import Converge.Proofs.Fact.Lines
import Converge.Proofs.Plan.Justified

/-!
# The course of a pass

`Pass.Course` says what a pass does on the host and what it comes to: where it ends before a link is
run, and otherwise which links are run and how they decide the result (`Pass.CarriesOut`).  The
facts come from anywhere, and the links become processes of any machine.  `Pass.course_apply` is the
statement for every pass that is not a dry run.
-/

namespace Converge.Pass

variable {σ : Type}

/-! ## Asking -/

def queries (spec : Spec) : List Event :=
  match spec.kind with
  | .container | .volume => [.asked (.inspect spec.kind spec.identity)]
  | .image | .network => []

def answer (h : Host σ) (spec : Spec) (s : σ) : Except Failure (List String) × σ :=
  match spec.kind with
  | .container | .volume => h.fetch s (.inspect spec.kind spec.identity)
  | .image | .network => (.ok [], s)

def observed (h : Host σ) (spec : Spec) (s : σ) : Option Record :=
  match (answer h spec s).1 with
  | .ok lines => (lines.filterMap Fact.record?).head?
  | .error _ => none

/-- Inquiring is to ask the queries of the spec. -/
theorem inquire_eq (h : Host σ) (spec : Spec) (s : σ) :
    inquire h spec s = ⟨queries spec, (answer h spec s).2, (answer h spec s).1⟩ := by
  unfold inquire queries answer Spec.needsFacts
  cases spec.kind <;> simp

theorem ran_not_mem_queries (spec : Spec) (i : Invocation) (ok : Bool) :
    Event.ran i ok ∉ queries spec := by
  unfold queries
  cases spec.kind <;> simp

/-- Queries and links that succeed are no failures. -/
theorem ran_false_not_mem (spec : Spec) (links : List Invocation) (i : Invocation) :
    Event.ran i false ∉ queries spec ++ links.map Event.done := by
  intro hi
  rcases List.mem_append.1 hi with hquery | hdone
  · exact ran_not_mem_queries spec i false hquery
  · rcases List.mem_map.1 hdone with ⟨j, -, hj⟩
    cases hj

/-! ## Carrying out -/

/-- What a pass for a spec comes to that has decided on an outcome with the links `links`, and has
left the machine in state `t` so far. -/
structure CarriesOut (m : Machine σ) (spec : Spec) (links : List Invocation) (outcome : Outcome)
    (t : σ) (pass : Played σ Outcome) : Prop where
  /-- The pass succeeds exactly if every link ends well. -/
  succeeds_iff : succeeded pass.result = true ↔ m.Completes links t
  /-- That is to say, exactly if no link is seen to fail. -/
  unfailed_iff : succeeded pass.result = true ↔ ∀ i, Event.ran i false ∉ pass.events
  /-- Links that all end well are all run. -/
  completed : m.Completes links t →
    pass = ⟨queries spec ++ links.map (Event.ran · true), m.after links t, .ok outcome⟩
  /-- The first link that fails is the last one that is run, and its failure is the result. -/
  ended : ∀ before i rest e, links = before ++ i :: rest → m.Completes before t →
    m.FailsWith (m.after before t) i e →
    pass = ⟨queries spec ++ before.map (Event.ran · true) ++ [.ran i false],
      m.after (before ++ [i]) t, .error e⟩
  /-- There is such a link unless all of them end well. -/
  exhausted : ¬ m.Completes links t → ∃ before i rest e, links = before ++ i :: rest ∧
    m.Completes before t ∧ m.FailsWith (m.after before t) i e

/-- Running the links after the queries is to carry out the decision. -/
theorem carriesOut_callAll (fetch : σ → Query → Except Failure (List String) × σ) (m : Machine σ)
    (spec : Spec) (links : List Invocation) (outcome : Outcome) (t : σ) :
    CarriesOut m spec links outcome t
      ⟨queries spec ++ (callAll (onMachine fetch m) links t).events,
        (callAll (onMachine fetch m) links t).host,
        (callAll (onMachine fetch m) links t).result.map fun _ => outcome⟩ where
  succeeds_iff := by
    rw [← result_callAll_eq_ok_iff fetch]
    cases (callAll (onMachine fetch m) links t).result <;> simp [Except.map, succeeded]
  unfailed_iff := by
    rcases Machine.completes_or_fails links t with hall | ⟨before, i, rest, e, rfl, hbefore, hfails⟩
    · rw [callAll_of_completes hall]
      exact iff_of_true rfl (ran_false_not_mem spec links)
    · rw [callAll_of_failsWith hbefore hfails]
      exact iff_of_false Bool.false_ne_true fun hnone => hnone i (by simp)
  completed hall := by
    rw [callAll_of_completes hall]
    rfl
  ended before i rest e hlinks hbefore hfails := by
    rw [hlinks, callAll_of_failsWith hbefore hfails, ← List.append_assoc]
    rfl
  exhausted fails := (Machine.completes_or_fails links t).resolve_left fails

/-! ## The course -/

/-- What a pass for a spec does on a host that is in state `s`.  `pass` is its play without notes. -/
structure Course (fetch : σ → Query → Except Failure (List String) × σ) (m : Machine σ)
    (binary : String) (spec : Spec) (s : σ) (pass : Played σ Outcome) : Prop where
  /-- An invalid spec ends the pass before anything is asked or run. -/
  invalid : ∀ e, spec.validate = .error e →
    (∃ cause, e = .configuration cause) ∧ pass = ⟨[], s, .error e⟩
  /-- The queries of a valid spec come first, and only links follow. -/
  asks : spec.validate = .ok () →
    ∃ ran, pass.events = queries spec ++ ran ∧ ∀ e ∈ ran, ∃ i ok, e = .ran i ok
  /-- A query that fails ends the pass. -/
  unanswered : spec.validate = .ok () → ∀ e, (answer (onMachine fetch m) spec s).1 = .error e →
    pass = ⟨queries spec, (answer (onMachine fetch m) spec s).2, .error e⟩
  /-- The first line of an answer that is neither blank nor an object ends the pass, wherever it
  stands. -/
  malformed : spec.validate = .ok () → ∀ good line rest,
    (answer (onMachine fetch m) spec s).1 = .ok (good ++ line :: rest) →
    (∀ l ∈ good, Fact.IsFine l) → ¬ Fact.IsFine line →
    ∃ fault words, Fact.Complaint line fault words ∧ fault.message = words ∧
      pass = ⟨queries spec, (answer (onMachine fetch m) spec s).2,
        .error (.facts (good.length + 1) fault)⟩
  /-- A container that must be created without an image ends the pass. -/
  imageless : spec.validate = .ok () → ∀ lines observed,
    (answer (onMachine fetch m) spec s).1 = .ok lines → (∀ l ∈ lines, Fact.IsFine l) →
    Fact.Shows lines observed → spec.LacksImage observed →
    pass = ⟨queries spec, (answer (onMachine fetch m) spec s).2,
      .error (.configuration (.imageNeeded spec.identity))⟩
  /-- Otherwise the links of the plan's steps are run, up to the first one that fails. -/
  runs : spec.validate = .ok () → ∀ lines,
    (answer (onMachine fetch m) spec s).1 = .ok lines → (∀ l ∈ lines, Fact.IsFine l) →
    ∃ observed, Fact.Shows lines observed ∧ (¬ spec.LacksImage observed →
      ∃ plan commands, spec.plan observed = .ok plan ∧
        List.Forall₂ (fun a c => Action.command binary a = .ok c)
          (plan.actions.filter (!·.isNoop)) commands ∧
        CarriesOut m spec (commands.flatMap Command.links) ⟨plan, commands, true⟩
          (answer (onMachine fetch m) spec s).2 pass)

/-! ## Decisions -/

section Decision

variable (binary : String) {spec : Spec} {lines : List String}

theorem decision_of_fault {good rest : List String} {line : String} {fault : LineFault}
    (faultless : ∀ l ∈ good, Fact.fault? l = none) (found : Fact.fault? line = some fault) :
    decision binary spec (good ++ line :: rest) = .error (.facts (good.length + 1) fault) := by
  unfold decision
  rw [Fact.parse_of_fault faultless found rest]
  rfl

/-- A container that must be created without an image is refused in the decision. -/
theorem decision_of_lacksImage (valid : spec.validate = .ok ())
    (faultless : ∀ l ∈ lines, Fact.fault? l = none)
    (image : spec.LacksImage (lines.filterMap Fact.record?).head?) :
    decision binary spec lines = .error (.configuration (.imageNeeded spec.identity)) := by
  have hplan := Spec.planUnchecked_of_lacksImage image
  rw [← Spec.plan_of_validate_eq_ok valid] at hplan
  unfold decision
  rw [Fact.parse_of_faultless faultless]
  -- What is left is the plan, which fails for want of the image.
  change (spec.plan (lines.filterMap Fact.record?).head? >>= _) = _
  rw [hplan]
  rfl

/-- A decision is made exactly on an answer without faults that leads to a plan, and its commands
are those of the plan. -/
theorem decision_eq_ok_iff {outcome : Outcome} :
    decision binary spec lines = .ok outcome ↔
      (∀ l ∈ lines, Fact.fault? l = none) ∧
      spec.plan (lines.filterMap Fact.record?).head? = .ok outcome.plan ∧
      outcome.plan.commands binary = .ok outcome.commands ∧ outcome.executed = false := by
  unfold decision
  constructor
  · intro h
    rcases bind_eq_ok_iff.1 h with ⟨records, hrecords, hplanned⟩
    rcases bind_eq_ok_iff.1 hplanned with ⟨plan, hplan, hrendered⟩
    rcases bind_eq_ok_iff.1 hrendered with ⟨commands, hcommands, hdone⟩
    rcases Fact.parse_eq_ok_iff.1 hrecords with ⟨faultless, rfl⟩
    cases hdone
    exact ⟨faultless, hplan, hcommands, rfl⟩
  · rintro ⟨faultless, hplan, hcommands, hexecuted⟩
    refine bind_eq_ok_iff.2 ⟨_, Fact.parse_of_faultless faultless, ?_⟩
    refine bind_eq_ok_iff.2 ⟨_, hplan, bind_eq_ok_iff.2 ⟨_, hcommands, ?_⟩⟩
    rw [← hexecuted]
    rfl

/-- The links of a decision belong to commands for justified steps. -/
theorem exists_step_of_mem_linksOf {outcome : Outcome}
    (taken : decision binary spec lines = .ok outcome) {link : Invocation}
    (hlink : link ∈ linksOf outcome.commands) :
    ∃ a c, Action.Justified spec (lines.filterMap Fact.record?).head? a ∧
      Action.command binary a = .ok c ∧ link ∈ c.links := by
  rcases (decision_eq_ok_iff binary).1 taken with ⟨-, hplan, hcommands, -⟩
  rcases List.mem_flatMap.1 hlink with ⟨c, hc, hlink⟩
  rcases exists_mem_of_mapM_eq_ok hcommands hc with ⟨a, ha, hcommand⟩
  exact ⟨a, c, Spec.justified_of_plan_eq_ok hplan a (List.mem_filter.1 ha).1, hcommand, hlink⟩

/-- Nothing else keeps a pass from deciding. -/
theorem exists_decision (valid : spec.validate = .ok ())
    (faultless : ∀ l ∈ lines, Fact.fault? l = none)
    (image : ¬ spec.LacksImage (lines.filterMap Fact.record?).head?) :
    ∃ plan commands, decision binary spec lines = .ok ⟨plan, commands, false⟩ := by
  rcases Spec.exists_planUnchecked image with ⟨plan, hplan, -, -, -⟩
  rw [← Spec.plan_of_validate_eq_ok valid] at hplan
  rcases Plan.exists_commands hplan binary with ⟨commands, hcommands⟩
  exact ⟨plan, commands, (decision_eq_ok_iff binary).2 ⟨faultless, hplan, hcommands, rfl⟩⟩

end Decision

/-! ## The course is taken -/

theorem quiet_play_apply_of_invalid (h : Host σ) (settings : Settings) {spec : Spec} {e : Failure}
    (invalid : spec.validate = .error e) (s : σ) :
    ((apply settings spec).play h s).quiet = ⟨[], s, .error e⟩ := by
  rw [quiet_play_apply, play_plan, invalid]
  rfl

/-- The pass for a valid spec: the queries, the decision, and what the decision leads to. -/
theorem quiet_play_apply_of_valid (h : Host σ) (settings : Settings) {spec : Spec}
    (valid : spec.validate = .ok ()) (s : σ) :
    ((apply settings spec).play h s).quiet =
      (⟨queries spec, (answer h spec s).2,
        (answer h spec s).1.bind (decision settings.binary spec)⟩ : Played σ Outcome).andThen
        (carryOut h settings) := by
  have hplan : ((plan settings.binary spec).play h s).quiet =
      ⟨queries spec, (answer h spec s).2,
        (answer h spec s).1.bind (decision settings.binary spec)⟩ := by
    rw [play_plan, valid, Played.quiet_andThen, quiet_inquire, inquire_eq]
    cases (answer h spec s).1 with
    | error e => rfl
    | ok lines => simp [Except.bind]
  rw [quiet_play_apply, hplan]

/-- A pass that has decided runs the links of its commands. -/
theorem quiet_play_apply_of_decision (h : Host σ) (binary : String) {spec : Spec} {s : σ}
    (valid : spec.validate = .ok ()) {plan : Plan} {commands : List Command}
    (decided : (answer h spec s).1.bind (decision binary spec) = .ok ⟨plan, commands, false⟩) :
    ((apply ⟨binary, false⟩ spec).play h s).quiet =
      ⟨queries spec ++ (callAll h (linksOf commands) (answer h spec s).2).events,
        (callAll h (linksOf commands) (answer h spec s).2).host,
        (callAll h (linksOf commands) (answer h spec s).2).result.map
          fun _ => ⟨plan, commands, true⟩⟩ := by
  rw [quiet_play_apply_of_valid h ⟨binary, false⟩ valid, decided, Played.andThen_ok]
  simp only [carryOut, Bool.false_eq_true, if_false, Played.andThen_done]

/-- The queries of a pass come before everything else, and only links follow. -/
theorem exists_events_eq (h : Host σ) (settings : Settings) {spec : Spec}
    (valid : spec.validate = .ok ()) (s : σ) :
    ∃ ran, ((apply settings spec).play h s).quiet.events = queries spec ++ ran ∧
      ∀ e ∈ ran, ∃ i ok, e = .ran i ok := by
  rw [quiet_play_apply_of_valid h settings valid s]
  cases (answer h spec s).1.bind (decision settings.binary spec) with
  | error e => exact ⟨[], by simp, by simp⟩
  | ok outcome =>
      refine ⟨(carryOut h settings outcome (answer h spec s).2).events, rfl, ?_⟩
      intro e he
      rcases ran_of_mem_carryOut he with ⟨i, -, ok, rfl⟩
      exact ⟨i, ok, rfl⟩

/-- Every pass that is not a dry run takes its course. -/
theorem course_apply (fetch : σ → Query → Except Failure (List String) × σ) (m : Machine σ)
    (binary : String) (spec : Spec) (s : σ) :
    Course fetch m binary spec s
      ((apply ⟨binary, false⟩ spec).play (onMachine fetch m) s).quiet := by
  -- The forms that a pass can take, before its play is hidden behind a name.
  have hinvalid (e : Failure) (invalid : spec.validate = .error e) :=
    quiet_play_apply_of_invalid (onMachine fetch m) ⟨binary, false⟩ invalid s
  have hpass (valid : spec.validate = .ok ()) :=
    quiet_play_apply_of_valid (onMachine fetch m) ⟨binary, false⟩ valid s
  have hran {plan : Plan} {commands : List Command} (valid : spec.validate = .ok ())
      (decided : (answer (onMachine fetch m) spec s).1.bind (decision binary spec) =
        .ok ⟨plan, commands, false⟩) :=
    quiet_play_apply_of_decision (onMachine fetch m) binary valid decided
  generalize ((apply ⟨binary, false⟩ spec).play (onMachine fetch m) s).quiet = pass
    at hinvalid hpass hran
  constructor
  case invalid =>
    intro e invalid
    rcases Spec.misconfiguration_of_validate_eq_error invalid with ⟨cause, -, hcause⟩
    exact ⟨⟨cause, hcause⟩, hinvalid e invalid⟩
  case asks =>
    intro valid
    rw [hpass valid]
    rw [← quiet_play_apply_of_valid (onMachine fetch m) ⟨binary, false⟩ valid s]
    exact exists_events_eq (onMachine fetch m) ⟨binary, false⟩ valid s
  case unanswered =>
    intro valid e herror
    rw [hpass valid, herror]
    rfl
  case malformed =>
    intro valid good line rest hlines fine spoilt
    rcases Option.ne_none_iff_exists'.1 (mt Fact.fault?_eq_none_iff.1 spoilt) with ⟨fault, found⟩
    refine ⟨fault, fault.message, (Fact.complaint_of_fault? found).2, rfl, ?_⟩
    rw [hpass valid, hlines]
    simp only [Except.bind, decision_of_fault binary (Fact.faultless_of_fine fine) found,
      Played.andThen_error]
  case imageless =>
    intro valid lines observed hlines fine shows image
    rw [← (Fact.shows_iff fine).1 shows] at image
    rw [hpass valid, hlines]
    simp only [Except.bind, decision_of_lacksImage binary valid (Fact.faultless_of_fine fine) image,
      Played.andThen_error]
  case runs =>
    intro valid lines hlines fine
    refine ⟨(lines.filterMap Fact.record?).head?, (Fact.shows_iff fine).2 rfl, fun image => ?_⟩
    -- The decision is made, so only a link can still fail.
    rcases exists_decision binary valid (Fact.faultless_of_fine fine) image with
      ⟨plan, commands, hdecision⟩
    rcases (decision_eq_ok_iff binary).1 hdecision with ⟨-, hplan, hcommands, -⟩
    refine ⟨plan, commands, hplan, Plan.forall₂_of_commands_eq_ok hcommands, ?_⟩
    rw [hran valid (by rw [hlines]; exact hdecision)]
    exact carriesOut_callAll fetch m spec (linksOf commands) ⟨plan, commands, true⟩ _

end Converge.Pass
