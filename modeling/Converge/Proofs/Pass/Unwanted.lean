import Converge.Proofs.Pass.Survey
import Converge.Proofs.Plan.Shape

/-!
# Unwanted resources

A resource that is not to be there is removed, unless docker is asked about it and does not know
it.  Which of the two happens, what is asked before and what is run depends on the kind and the
identity of the resource, and on nothing else that its spec says: two specs for the same unwanted
resource cannot be told apart by what a pass does.  For a container, `force` and `start` take ways
of their own through the decision, which meet in the same step.

`Alike` relates what two such passes come to.  Only the spec that every step carries along may
differ.
-/

namespace Converge

/-! ## What is alike -/

/-- Steps with the same effect and the same words. -/
structure Action.Alike (a b : Action) : Prop where
  verb : a.verb = b.verb
  reason : a.reason? = b.reason?
  command : ∀ binary, a.command binary = b.command binary

structure Plan.Alike (p q : Plan) : Prop where
  kind : p.kind = q.kind
  identity : p.identity = q.identity
  verbs : p.verbs = q.verbs
  reasons : p.reasons = q.reasons
  commands : ∀ binary, p.commands binary = q.commands binary

structure Outcome.Alike (o o' : Outcome) : Prop where
  plan : o.plan.Alike o'.plan
  commands : o.commands = o'.commands
  executed : o.executed = o'.executed

inductive ResultAlike : Except Failure Outcome → Except Failure Outcome → Prop where
  | failed (e : Failure) : ResultAlike (.error e) (.error e)
  | ended {o o' : Outcome} (same : o.Alike o') : ResultAlike (.ok o) (.ok o')

structure Played.Alike {σ : Type} (p q : Played σ Outcome) : Prop where
  events : p.events = q.events
  host : p.host = q.host
  result : ResultAlike p.result q.result

/-! ## Plans -/

namespace Spec

/-- Two specs by which the same resource is not to be there. -/
structure BothUnwanted (a b : Spec) : Prop where
  kind : a.kind = b.kind
  identity : a.identity = b.identity
  valid : a.validate = .ok ()
  first : a.present = false
  second : b.present = false

def withdrawal (s : Spec) (observed : Option Record) : Action :=
  if s.needsFacts && observed.isNone then .noop s "does not exist" else .remove s

/-- The plan for a resource that is not to be there.  No image is lacking for it. -/
theorem planUnchecked_of_unwanted {s : Spec} (unwanted : s.present = false)
    (observed : Option Record) :
    s.planUnchecked observed = .ok (.ofActions s [s.withdrawal observed]) := by
  cases s with
  | container c =>
      have hunwanted : c.present = false := unwanted
      -- Whether it is forced or not, an existing container is removed once.
      cases observed <;> cases hforce : c.force <;>
        simp [planUnchecked, Container.plan, Container.actions, stepsIf, withdrawal, needsFacts,
          kind, hunwanted, hforce]
  | image i =>
      have hunwanted : i.present = false := unwanted
      simp [planUnchecked, Image.plan, withdrawal, needsFacts, kind, hunwanted]
  | volume v =>
      have hunwanted : v.present = false := unwanted
      cases observed <;>
        simp [planUnchecked, Volume.plan, withdrawal, needsFacts, kind, hunwanted]
  | network n =>
      have hunwanted : n.present = false := unwanted
      simp [planUnchecked, Network.plan, withdrawal, needsFacts, kind, hunwanted]

namespace BothUnwanted

variable {a b : Spec} (both : BothUnwanted a b)
include both

theorem needsFacts : a.needsFacts = b.needsFacts := by
  unfold Spec.needsFacts
  rw [both.kind]

theorem valid_second : b.validate = .ok () := by
  rw [validate_eq_ok_iff, IsValid, ← both.identity]
  exact (validate_eq_ok_iff a).1 both.valid

/-- The links that remove the resource are the same. -/
theorem removal_eq (binary : String) : removal binary a = removal binary b := by
  unfold removal
  rw [both.kind, both.identity]

theorem withdrawal_alike (observed : Option Record) :
    (a.withdrawal observed).Alike (b.withdrawal observed) := by
  unfold withdrawal
  rw [both.needsFacts]
  split
  · refine ⟨rfl, rfl, fun binary => ?_⟩
    have hkind := both.kind
    cases a <;> cases b <;> cases hkind <;> rfl
  · refine ⟨rfl, rfl, fun binary => ?_⟩
    rw [Action.command_remove, Action.command_remove, both.removal_eq]

/-- For both specs there is a plan, with the same steps. -/
theorem exists_plans (observed : Option Record) :
    ∃ p q, a.plan observed = .ok p ∧ b.plan observed = .ok q ∧ p.Alike q := by
  have hstep := both.withdrawal_alike observed
  refine ⟨.ofActions a [a.withdrawal observed], .ofActions b [b.withdrawal observed], ?_, ?_, ?_⟩
  · rw [plan_of_validate_eq_ok both.valid, planUnchecked_of_unwanted both.first]
  · rw [plan_of_validate_eq_ok both.valid_second, planUnchecked_of_unwanted both.second]
  · have hnoop : (a.withdrawal observed).isNoop = (b.withdrawal observed).isNoop :=
      congrArg Option.isSome hstep.reason
    constructor
    case kind => exact both.kind
    case identity => exact both.identity
    case verbs => simp [Plan.verbs, Plan.ofActions, hstep.verb]
    case reasons => simp [Plan.reasons, Plan.ofActions, List.filterMap_cons, hstep.reason]
    case commands =>
      intro binary
      have hcommand := hstep.command binary
      cases hidle : (b.withdrawal observed).isNoop <;>
        simp [Plan.commands, Plan.ofActions, hnoop, hidle, hcommand]

end BothUnwanted

end Spec

/-! ## Passes -/

namespace Pass

variable {σ : Type} {a b : Spec}

/-- The same answer leads to the same decision. -/
theorem decision_alike (both : Spec.BothUnwanted a b) (binary : String) (lines : List String) :
    ResultAlike (decision binary a lines) (decision binary b lines) := by
  unfold decision
  cases Fact.parse lines with
  | error e => exact .failed e
  | ok records =>
      rcases both.exists_plans records.head? with ⟨p, q, hp, hq, hsame⟩
      change ResultAlike (a.plan records.head? >>= _) (b.plan records.head? >>= _)
      rw [hp, hq]
      change ResultAlike (p.commands binary >>= _) (q.commands binary >>= _)
      rw [hsame.commands]
      cases q.commands binary with
      | error e => exact .failed e
      | ok commands => exact .ended ⟨hsame, rfl, rfl⟩

/-- Planning asks the same and comes to the same. -/
theorem play_plan_alike (both : Spec.BothUnwanted a b) (h : Host σ) (binary : String) (s : σ) :
    ((plan binary a).play h s).Alike ((plan binary b).play h s) := by
  have hinquire : inquire h a s = inquire h b s := by
    unfold inquire
    rw [both.needsFacts, both.kind, both.identity]
  rw [play_plan, play_plan, both.valid, both.valid_second, hinquire]
  rcases inquire h b s with ⟨events, t, answer⟩
  cases answer with
  | error e => exact ⟨rfl, rfl, .failed e⟩
  | ok lines => exact ⟨rfl, rfl, decision_alike both binary lines⟩

/-- The same commands are run for outcomes that are alike. -/
theorem carryOut_alike (h : Host σ) (settings : Settings) {o o' : Outcome} (same : o.Alike o')
    (s : σ) : (carryOut h settings o s).Alike (carryOut h settings o' s) := by
  unfold carryOut
  rw [same.commands]
  split
  · exact ⟨rfl, rfl, .ended same⟩
  · rcases callAll h (linksOf o'.commands) s with ⟨events, t, ended⟩
    cases ended with
    | error e => exact ⟨rfl, rfl, .failed e⟩
    | ok u => exact ⟨rfl, rfl, .ended ⟨same.plan, rfl, rfl⟩⟩

theorem andThen_carryOut_alike {h : Host σ} {settings : Settings} {p q : Played σ Outcome}
    (same : p.Alike q) :
    (p.andThen (carryOut h settings)).Alike (q.andThen (carryOut h settings)) := by
  rcases p with ⟨events, s, result⟩
  rcases q with ⟨events', s', result'⟩
  rcases same with ⟨rfl, rfl, hresult⟩
  cases hresult with
  | failed e => exact ⟨rfl, rfl, .failed e⟩
  | ended hsame =>
      have hcarry := carryOut_alike h settings hsame s
      exact ⟨congrArg (events ++ ·) hcarry.events, hcarry.host, hcarry.result⟩

/-- Two specs that no pass tells apart. -/
structure Indistinguishable (a b : Spec) : Prop where
  /-- Whatever is observed, both have a plan, with the same steps and the same commands. -/
  plans : ∀ observed, ∃ p q, a.plan observed = .ok p ∧ b.plan observed = .ok q ∧ p.Alike q ∧
    ∀ binary, ∃ commands, p.commands binary = .ok commands ∧ q.commands binary = .ok commands
  /-- Whatever is answered, planning asks the same for both. -/
  asks : ∀ (σ : Type) (h : Host σ) (binary : String) (s : σ),
    ((plan binary a).play h s).Alike ((plan binary b).play h s)
  /-- Passes ask and run the same. -/
  passes : ∀ (σ : Type) (h : Host σ) (settings : Settings) (s : σ),
    ((apply settings a).play h s).quiet.Alike ((apply settings b).play h s).quiet

/-- Nothing but its kind and its identity matters of a resource that is not to be there. -/
theorem indistinguishable_of_bothUnwanted (both : Spec.BothUnwanted a b) :
    Indistinguishable a b where
  plans observed := by
    rcases both.exists_plans observed with ⟨p, q, hp, hq, hsame⟩
    refine ⟨p, q, hp, hq, hsame, fun binary => ?_⟩
    rcases Plan.exists_commands hp binary with ⟨commands, hcommands⟩
    exact ⟨commands, hcommands, (hsame.commands binary).symm.trans hcommands⟩
  asks σ h binary s := play_plan_alike both h binary s
  passes σ h settings s := by
    rw [quiet_play_apply, quiet_play_apply, quiet_play_plan, quiet_play_plan]
    exact andThen_carryOut_alike (play_plan_alike both h settings.binary s)

/-- A container without an image that must be recreated, and one that is as it is. -/
theorem indistinguishable_containers :
    let a : Spec := .container { name := "web", present := false, force := true, start := false }
    let b : Spec := .container { name := "web", present := false, image := "nginx" }
    Spec.BothUnwanted a b ∧ Indistinguishable a b := by
  intro a b
  have hboth : Spec.BothUnwanted a b :=
    ⟨rfl, rfl, (Spec.validate_eq_ok_iff_none a).2 (by decide), rfl, rfl⟩
  exact ⟨hboth, indistinguishable_of_bothUnwanted hboth⟩

end Pass

end Converge
