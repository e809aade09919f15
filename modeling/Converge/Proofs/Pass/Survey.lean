import Converge.Proofs.Pass.Forecast

/-!
# Looking without touching

There are two ways to find out what a run would do: to plan the resources one after another and
print what each plan comes to, and to make a dry run.  Both plan each resource on the host as
planning the ones before it has left it, and both stop at the first that cannot be planned.
`Pass.Survey` is that course.

On docker, whose processes may answer differently each time, both start the same processes, and
these only inspect: one for each container or volume that is valid and that the survey comes to.
`Pass.survey_looks` is the statement for every list of resources.
-/

namespace Converge

open Script

variable {σ : Type}

namespace Pass

/-- Planning specs one after another from `s`.  It comes to the visited specs, each with the host as
planning it finds it, the plans come to the outcomes, and the host is left in `t`. -/
inductive Survey (h : Host σ) (binary : String) :
    List Spec → σ → List (Spec × σ) → List Outcome → σ → Except Failure Unit → Prop where
  | done (s : σ) : Survey h binary [] s [] [] s (.ok ())
  | stopped {spec : Spec} {specs : List Spec} {s : σ} {e : Failure}
      (fails : ((plan binary spec).play h s).result = .error e) :
      Survey h binary (spec :: specs) s [(spec, s)] [] ((plan binary spec).play h s).host (.error e)
  | planned {spec : Spec} {specs : List Spec} {s t : σ} {o : Outcome} {visits : List (Spec × σ)}
      {outcomes : List Outcome} {ended : Except Failure Unit}
      (first : ((plan binary spec).play h s).result = .ok o)
      (rest : Survey h binary specs ((plan binary spec).play h s).host visits outcomes t ended) :
      Survey h binary (spec :: specs) s ((spec, s) :: visits) (o :: outcomes) t ended

/-- However planning goes, there is a survey of it. -/
theorem exists_survey (h : Host σ) (binary : String) (specs : List Spec) (s : σ) :
    ∃ visits outcomes t ended, Survey h binary specs s visits outcomes t ended := by
  induction specs generalizing s with
  | nil => exact ⟨[], [], s, .ok (), .done s⟩
  | cons spec specs ih =>
      cases hplan : ((plan binary spec).play h s).result with
      | error e => exact ⟨_, _, _, _, .stopped hplan⟩
      | ok o =>
          rcases ih ((plan binary spec).play h s).host with ⟨visits, outcomes, t, ended, hrest⟩
          exact ⟨_, _, _, _, .planned hplan hrest⟩

def asked (h : Host σ) (binary : String) (visits : List (Spec × σ)) : List Event :=
  visits.flatMap fun p => ((plan binary p.1).play h p.2).events

variable {h : Host σ} {binary : String}

/-! ## A single spec -/

/-- Planning leaves no notes. -/
theorem quiet_play_plan (spec : Spec) (s : σ) :
    ((plan binary spec).play h s).quiet = (plan binary spec).play h s := by
  rw [play_plan]
  cases spec.validate with
  | error e => rfl
  | ok u => simp [Played.quiet_andThen, quiet_inquire]

/-- A dry run for a single spec does what planning it does. -/
theorem quiet_play_apply_dryRun (spec : Spec) (s : σ) :
    ((apply ⟨binary, true⟩ spec).play h s).quiet = (plan binary spec).play h s := by
  -- In a dry run nothing follows the plan.
  have hcarry : carryOut h ⟨binary, true⟩ = fun outcome s => ⟨[], s, .ok outcome⟩ := rfl
  rw [quiet_play_apply, quiet_play_plan, hcarry]
  refine (Played.andThen_done _ id).trans ?_
  rcases (plan binary spec).play h s with ⟨events, t, result⟩
  cases result <;> rfl

@[simp] theorem host_play_apply_dryRun (spec : Spec) (s : σ) :
    ((apply ⟨binary, true⟩ spec).play h s).host = ((plan binary spec).play h s).host := by
  rw [← quiet_play_apply_dryRun, Played.quiet_host]

@[simp] theorem result_play_apply_dryRun (spec : Spec) (s : σ) :
    ((apply ⟨binary, true⟩ spec).play h s).result = ((plan binary spec).play h s).result := by
  rw [← quiet_play_apply_dryRun, Played.quiet_result]

/-- Planning comes to the plan for what is observed, with its commands, none of which has run. -/
theorem exists_plan_of_planned {spec : Spec} {s : σ} {o : Outcome}
    (planned : ((plan binary spec).play h s).result = .ok o) :
    ∃ observed, spec.plan observed = .ok o.plan ∧ o.plan.commands binary = .ok o.commands ∧
      o.executed = false := by
  rcases bind_eq_ok_iff.1 (result_play_plan_eq_ok_iff.1 planned).2 with ⟨lines, -, hdecision⟩
  rcases (decision_eq_ok_iff binary).1 hdecision with ⟨-, hplan, hcommands, hexecuted⟩
  exact ⟨_, hplan, hcommands, hexecuted⟩

end Pass

/-! ## Planning and printing -/

namespace Console

/-- What is printed changes nothing on the host. -/
theorem quiet_play_planAll_cons (h : Host σ) (binary : String) (spec : Spec) (specs : List Spec)
    (s : σ) :
    ((planAll binary (spec :: specs)).play h s).quiet =
      ((Pass.plan binary spec).play h s).andThen fun _ s =>
        ((planAll binary specs).play h s).quiet := by
  have hnotes (o : Outcome) : ((printed o).map fun line =>
      Event.noted (.output line)).filter Event.touchesHost = [] := by
    simp [Event.touchesHost]
  rw [play_planAll_cons, Played.quiet_andThen, Pass.quiet_play_plan]
  simp only [Played.quiet_mk, List.filter_append, hnotes, List.nil_append]
  rfl

@[simp] theorem Report.outputOf_play_plan (h : Host σ) (binary : String) (spec : Spec) (s : σ) :
    Report.outputOf ((Pass.plan binary spec).play h s).events = [] := by
  cases valid : spec.validate with
  | error e => simp [Pass.play_plan, valid, Report.outputOf]
  | ok u => simp [Pass.play_plan_of_valid valid]

end Console

/-! ## Whole surveys -/

namespace Pass

/-- A dry run goes on with the specs that are left, unless the first plan fails. -/
theorem quiet_play_applyAll_dryRun_cons (spec : Spec) (specs : List Spec) (s : σ) :
    ((applyAll ⟨binary, true⟩ (spec :: specs)).play h s).quiet =
      ((plan binary spec).play h s).andThen fun o s =>
        ⟨((applyAll ⟨binary, true⟩ specs).play h s).quiet.events,
          ((applyAll ⟨binary, true⟩ specs).play h s).quiet.host,
          ((applyAll ⟨binary, true⟩ specs).play h s).quiet.result.map (o :: ·)⟩ := by
  rw [play_applyAll_cons, Played.quiet_andThen, quiet_play_apply_dryRun]
  rfl

namespace Survey

variable {specs : List Spec} {s t : σ} {visits : List (Spec × σ)} {outcomes : List Outcome}
  {ended : Except Failure Unit}

/-- Planning asks what its survey says, and does nothing else to the host. -/
theorem quiet_play_planAll (survey : Survey h binary specs s visits outcomes t ended) :
    ((Console.planAll binary specs).play h s).quiet = ⟨asked h binary visits, t, ended⟩ := by
  induction survey with
  | done s => rfl
  | stopped fails =>
      rw [Console.quiet_play_planAll_cons]
      simp [Played.andThen, fails, asked]
  | planned first _ ih =>
      rw [Console.quiet_play_planAll_cons]
      simp [Played.andThen, first, asked, ih]

theorem outputOf_play_planAll (survey : Survey h binary specs s visits outcomes t ended) :
    Console.Report.outputOf ((Console.planAll binary specs).play h s).events =
      outcomes.flatMap Console.printed := by
  induction survey with
  | done s => rfl
  | stopped fails => simp [Console.play_planAll_cons, Played.andThen, fails]
  | planned first _ ih => simp [Console.play_planAll_cons, Played.andThen, first, ih]

/-- A dry run asks the same, and comes to the outcomes of the survey. -/
theorem quiet_play_dryRun (survey : Survey h binary specs s visits outcomes t ended) :
    ((applyAll ⟨binary, true⟩ specs).play h s).quiet =
      ⟨asked h binary visits, t, ended.map fun _ => outcomes⟩ := by
  induction survey with
  | done s => rfl
  | stopped fails =>
      rw [quiet_play_applyAll_dryRun_cons]
      simp [Played.andThen, fails, asked, Except.map]
  | @planned _ _ _ _ o _ outcomes ended first _ ih =>
      -- A later failure leaves none of the outcomes before it.
      have hresults : (ended.map fun _ => outcomes).map (o :: ·) =
          ended.map fun _ => o :: outcomes := by
        cases ended <;> rfl
      rw [quiet_play_applyAll_dryRun_cons]
      simp [Played.andThen, first, asked, ih, hresults]

theorem passes_dryRun (survey : Survey h binary specs s visits outcomes t ended) :
    passes h ⟨binary, true⟩ specs s = visits := by
  induction survey with
  | done s => rfl
  | stopped fails => simp [passes, fails]
  | planned first _ ih => simp [passes, first, ih]

/-- Every outcome is what one of the visited specs was planned to. -/
theorem exists_visit (survey : Survey h binary specs s visits outcomes t ended) :
    ∀ o ∈ outcomes, ∃ p ∈ visits, ((plan binary p.1).play h p.2).result = .ok o := by
  induction survey with
  | done s => simp
  | stopped fails => simp
  | @planned spec specs s t o visits outcomes ended first _ ih =>
      intro o' ho'
      rcases List.mem_cons.1 ho' with rfl | ho'
      · exact ⟨(spec, s), List.mem_cons_self .., first⟩
      · rcases ih o' ho' with ⟨p, hp, hplan⟩
        exact ⟨p, List.mem_cons_of_mem _ hp, hplan⟩

theorem executed (survey : Survey h binary specs s visits outcomes t ended) :
    ∀ o ∈ outcomes, o.executed = false := by
  intro o ho
  rcases survey.exists_visit o ho with ⟨p, -, hplan⟩
  rcases exists_plan_of_planned hplan with ⟨observed, -, -, hexecuted⟩
  exact hexecuted

end Survey

end Pass

/-! ## The processes of docker -/

namespace Docker

/-- A machine on which docker may answer each process after all that were started before it.  The
state lists them, the oldest first. -/
def remembering (docker : List Invocation → Invocation → Except SystemFault ProcessOutput) :
    Machine (List Invocation) where
  start past i := (docker past i, past ++ [i])

def look (binary : String) (spec : Spec) : Invocation :=
  ⟨binary, [spec.kind.name, "inspect", "--format", "\x7b\x7bjson .\x7d\x7d", spec.identity]⟩

/-- Whether planning starts a process: the spec is that of a container or a volume, it is valid, and
its words can be passed on. -/
def looksAt (binary : String) (spec : Spec) : Bool :=
  succeeded spec.validate && spec.needsFacts && !(look binary spec).hasNul

def looks (binary : String) (specs : List Spec) : List Invocation :=
  (specs.filter (looksAt binary)).map (look binary)

theorem looks_singleton (binary : String) (spec : Spec) :
    looks binary [spec] = if looksAt binary spec then [look binary spec] else [] := by
  cases hlooks : looksAt binary spec <;> simp [looks, hlooks]

theorem looks_append (binary : String) (first rest : List Spec) :
    looks binary (first ++ rest) = looks binary first ++ looks binary rest := by
  simp [looks]

section Looks

variable (docker : List Invocation → Invocation → Except SystemFault ProcessOutput)
  (binary : String)

theorem host_answer_remembering (spec : Spec) (past : List Invocation) :
    (Pass.answer (host binary (remembering docker)) spec past).2 =
      past ++ if spec.needsFacts && !(look binary spec).hasNul then [look binary spec] else [] := by
  have hcall : queryCall binary (.inspect spec.kind spec.identity) = look binary spec := rfl
  -- Images and networks are not asked about, and nothing is started for words with U+0000.
  unfold Pass.answer Spec.needsFacts
  cases hkind : spec.kind <;> cases hnul : (look binary spec).hasNul <;>
    simp_all [host, start, remembering]

theorem host_play_plan_remembering (spec : Spec) (past : List Invocation) :
    ((Pass.plan binary spec).play (host binary (remembering docker)) past).host =
      past ++ looks binary [spec] := by
  cases valid : spec.validate with
  | error e => simp [Pass.play_plan, valid, looks_singleton, looksAt, succeeded]
  | ok u =>
      rw [Pass.play_plan_of_valid valid, host_answer_remembering, looks_singleton]
      simp [looksAt, valid, succeeded]

/-- A survey starts the inspections of the specs that it comes to. -/
theorem looks_of_survey {specs : List Spec} {past t : List Invocation}
    {visits : List (Spec × List Invocation)} {outcomes : List Outcome} {ended : Except Failure Unit}
    (survey : Pass.Survey (host binary (remembering docker)) binary specs past visits outcomes t
      ended) :
    t = past ++ looks binary (visits.map Prod.fst) := by
  induction survey with
  | done past => simp [looks]
  | stopped fails => simp [host_play_plan_remembering]
  | @planned spec specs past t o visits outcomes ended first _ ih =>
      calc
        t = ((Pass.plan binary spec).play (host binary (remembering docker)) past).host ++
              looks binary (visits.map Prod.fst) := ih
        _ = past ++ (looks binary [spec] ++ looks binary (visits.map Prod.fst)) := by
              rw [host_play_plan_remembering, List.append_assoc]
        _ = past ++ looks binary (((spec, past) :: visits).map Prod.fst) := by
              rw [← looks_append]
              rfl

end Looks

end Docker

namespace Pass

/-- What planning specs and printing the plans, and a dry run for them, have in common: the queries,
the specs that they come to, and how they end. -/
structure Looked (h : Host σ) (binary : String) (specs : List Spec) (s : σ)
    (visits : List (Spec × σ)) (outcomes : List Outcome) (t : σ) (ended : Except Failure Unit) :
    Prop where
  survey : Survey h binary specs s visits outcomes t ended
  shown : ((Console.planAll binary specs).play h s).quiet = ⟨asked h binary visits, t, ended⟩
  printed : Console.Report.outputOf ((Console.planAll binary specs).play h s).events =
    outcomes.flatMap Console.printed
  dry : ((applyAll ⟨binary, true⟩ specs).play h s).quiet =
    ⟨asked h binary visits, t, ended.map fun _ => outcomes⟩
  passes : passes h ⟨binary, true⟩ specs s = visits
  inTurn : visits.map Prod.fst <+: specs
  idle : ∀ o ∈ outcomes, o.executed = false ∧ o.changed = false

theorem Survey.looked {h : Host σ} {binary : String} {specs : List Spec} {s t : σ}
    {visits : List (Spec × σ)} {outcomes : List Outcome} {ended : Except Failure Unit}
    (survey : Survey h binary specs s visits outcomes t ended) :
    Looked h binary specs s visits outcomes t ended where
  survey := survey
  shown := survey.quiet_play_planAll
  printed := survey.outputOf_play_planAll
  dry := survey.quiet_play_dryRun
  passes := survey.passes_dryRun
  inTurn := survey.passes_dryRun ▸ passes_isPrefix h ⟨binary, true⟩ specs s
  idle o ho := ⟨survey.executed o ho, by simp [Outcome.changed, survey.executed o ho]⟩

/-- Planning specs and printing the plans, and a dry run for them, are one survey.  On docker,
whatever it answers after whatever was started before, both start the inspections of the valid
containers and volumes that they come to, in the order of the list, and no other process. -/
theorem survey_looks
    (docker : List Invocation → Invocation → Except SystemFault ProcessOutput) (binary : String)
    (specs : List Spec) (past : List Invocation) :
    ∃ visits outcomes t ended,
      Looked (Docker.host binary (Docker.remembering docker)) binary specs past visits outcomes t
        ended ∧
      t = past ++ Docker.looks binary (visits.map Prod.fst) := by
  rcases exists_survey (Docker.host binary (Docker.remembering docker)) binary specs past with
    ⟨visits, outcomes, t, ended, survey⟩
  exact ⟨visits, outcomes, t, ended, survey.looked, Docker.looks_of_survey docker binary survey⟩

end Pass

end Converge
