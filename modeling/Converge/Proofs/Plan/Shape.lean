import Converge.Proofs.Docker.Deed
import Converge.Proofs.Pass.Succession
import Converge.Proofs.Plan.Guards

/-!
# The shape of plans

A plan says once why nothing is done, or it consists of steps that all do something; in both cases
every step is about the resource that was planned.  Each step that does something has a command, and
a command is a single call of the program, or two for a container that is created to run.

So a pass that ends well has changed the host exactly if its plan has a step to take, and otherwise
says why it has not.
-/

namespace Converge

namespace Plan

def idleReasons : List String := ["does not exist", "already exists", "already in desired state"]

/-- What every plan for a resource looks like. -/
structure WellFormed (s : Spec) (p : Plan) : Prop where
  kind : p.kind = s.kind
  identity : p.identity = s.identity
  nonempty : p.actions ≠ []
  /-- Every step is about the resource itself. -/
  about : ∀ a ∈ p.actions, a.spec = s
  /-- Doing nothing is a plan of its own. -/
  uniform : (∃ reason ∈ idleReasons, p.actions = [.noop s reason]) ∨
    ∀ a ∈ p.actions, a.isNoop = false

end Plan

namespace Action

/-- Whether the step creates a container that should run, which starts it as well. -/
def startsToo : Action → Bool
  | create (.container c) => c.start
  | _ => false

end Action

namespace Plan

structure Rendered (binary : String) (p : Plan) (commands : List Command) : Prop where
  /-- There is one command for each step that does something, in the same order. -/
  steps : List.Forall₂ (fun a c => Action.command binary a = .ok c ∧
    c.links.length = if a.startsToo then 2 else 1) (p.actions.filter (!·.isNoop)) commands
  count : commands.length = p.actions.countP (!·.isNoop)
  /-- Only the one program is called. -/
  program : ∀ c ∈ commands, ∀ link ∈ c.links, link.program = binary

end Plan

/-! ## Steps -/

namespace Container

variable (c : Container) (b : Before)

/-- The guards add no step that does nothing. -/
theorem isNoop_of_mem_guarded {a : Action} (ha : a ∈ c.guarded b) : a.isNoop = false := by
  rcases List.mem_map.1 ha with ⟨g, -, rfl⟩
  cases g <;> rfl

/-- The steps for a container: a reason to do nothing, or what the guards add. -/
theorem actions_uniform (observed : Option Record) :
    (∃ reason ∈ Plan.idleReasons, c.actions observed = [.noop (.container c) reason]) ∨
      (c.actions observed ≠ [] ∧ ∀ a ∈ c.actions observed, a.isNoop = false) := by
  have hactions := c.actions_eq_guarded observed
  cases hsteps : c.guarded (.of observed) with
  | nil =>
      refine .inl ⟨_, ?_, by simpa [hsteps] using hactions⟩
      cases (Before.of observed).found <;> simp [Plan.idleReasons]
  | cons a steps =>
      have hguarded : c.actions observed = c.guarded (.of observed) := by
        simpa [hsteps] using hactions
      refine .inr ⟨?_, ?_⟩
      · simp [hguarded, hsteps]
      · intro a ha
        exact c.isNoop_of_mem_guarded _ (hguarded ▸ ha)

end Container

namespace Spec

variable {s : Spec} {o : Option Record} {p : Plan}

/-- A plan does nothing for a single reason, or each of its steps does something. -/
theorem uniform_of_planUnchecked (planned : s.planUnchecked o = .ok p) :
    (∃ reason ∈ Plan.idleReasons, p.actions = [.noop s reason]) ∨
      (p.actions ≠ [] ∧ ∀ a ∈ p.actions, a.isNoop = false) := by
  cases s with
  | container c =>
      have hactions : p.actions = c.actions o := Container.actions_of_plan_eq_ok planned
      simpa [hactions] using c.actions_uniform o
  | image i =>
      cases planned
      refine .inr ⟨by simp [Image.plan, Plan.ofActions], ?_⟩
      cases hpresent : i.present <;>
        simp [Image.plan, Plan.ofActions, hpresent, Action.isNoop, Action.reason?]
  | volume v =>
      cases planned
      cases hpresent : v.present <;> cases o <;>
        simp [Volume.plan, Plan.ofActions, Plan.idleReasons, hpresent, Action.isNoop,
          Action.reason?]
  | network n =>
      cases planned
      refine .inr ⟨by simp [Network.plan, Plan.ofActions], ?_⟩
      cases hpresent : n.present <;>
        simp [Network.plan, Plan.ofActions, hpresent, Action.isNoop, Action.reason?]

theorem wellFormed_of_planUnchecked (planned : s.planUnchecked o = .ok p) : p.WellFormed s := by
  rcases justified_of_planUnchecked planned with ⟨hkind, hidentity, hjust⟩
  have habout : ∀ a ∈ p.actions, a.spec = s := fun a ha => (hjust a ha).spec_eq
  rcases uniform_of_planUnchecked planned with ⟨reason, hreason, hidle⟩ | ⟨hsome, hacts⟩
  · exact ⟨hkind, hidentity, by simp [hidle], habout, .inl ⟨reason, hreason, hidle⟩⟩
  · exact ⟨hkind, hidentity, hsome, habout, .inr hacts⟩

end Spec

/-! ## Commands -/

def Kind.removal : Kind → List String
  | .container => ["container", "rm", "-f"]
  | .image => ["image", "rm"]
  | .volume => ["volume", "rm"]
  | .network => ["network", "rm"]

/-- The link that removes a resource.  It names the kind and the identity, and nothing else of the
spec. -/
def removal (binary : String) (s : Spec) : Invocation :=
  ⟨binary, s.kind.removal ++ [s.identity]⟩

theorem Action.command_remove (binary : String) (s : Spec) :
    (Action.remove s).command binary = .ok (.last (removal binary s)) := by
  cases s <;> rfl

namespace Action

variable {a : Action} {binary : String} {command : Command}

/-- A command is a single call of the program, unless it creates a container. -/
theorem command_cases (h : a.command binary = .ok command) :
    (∃ c, a = .create (.container c) ∧ c.createCommand binary = .ok command) ∨
      (a.startsToo = false ∧ ∃ args, command = .last ⟨binary, args⟩) := by
  cases a with
  | create s =>
      cases s with
      | container c => exact .inl ⟨c, rfl, h⟩
      | image i => cases h
      | volume v => exact .inr ⟨rfl, _, (Except.ok.inj h).symm⟩
      | network n => exact .inr ⟨rfl, _, (Except.ok.inj h).symm⟩
  | remove s => cases s <;> exact .inr ⟨rfl, _, (Except.ok.inj h).symm⟩
  | start s =>
      cases s with
      | container c => exact .inr ⟨rfl, _, (Except.ok.inj h).symm⟩
      | _ => cases h
  | stop s =>
      cases s with
      | container c => exact .inr ⟨rfl, _, (Except.ok.inj h).symm⟩
      | _ => cases h
  | pull s =>
      cases s with
      | image i => exact .inr ⟨rfl, _, (Except.ok.inj h).symm⟩
      | _ => cases h
  | noop s reason => cases s <;> cases h

/-- Only a container that is started as well takes two links. -/
theorem length_links_of_command (h : a.command binary = .ok command) :
    command.links.length = if a.startsToo then 2 else 1 := by
  rcases command_cases h with ⟨c, rfl, hcreate⟩ | ⟨halone, args, rfl⟩
  · have hlinks := Container.links_of_createCommand hcreate
    cases hstart : c.start <;> simp [hlinks, startsToo, hstart]
  · simp [Command.links, halone]

/-- Every link is a call of the same program. -/
theorem program_of_mem_links (h : a.command binary = .ok command) {link : Invocation}
    (hlink : link ∈ command.links) : link.program = binary := by
  rcases command_cases h with ⟨c, rfl, hcreate⟩ | ⟨-, args, rfl⟩
  · have hlinks : link ∈ ⟨binary, c.createArgs⟩ ::
        (if c.start then [⟨binary, c.startArgs⟩] else []) :=
      Container.links_of_createCommand hcreate ▸ hlink
    cases hstart : c.start with
    | true =>
        have : link = ⟨binary, c.createArgs⟩ ∨ link = ⟨binary, c.startArgs⟩ := by
          simpa [hstart] using hlinks
        rcases this with rfl | rfl <;> rfl
    | false =>
        have : link = ⟨binary, c.createArgs⟩ := by simpa [hstart] using hlinks
        exact congrArg Invocation.program this
  · exact congrArg Invocation.program (List.mem_singleton.1 hlink)

end Action

namespace Plan

variable {s : Spec} {p : Plan} {binary : String} {commands : List Command}

theorem rendered_of_commands (h : p.commands binary = .ok commands) :
    Rendered binary p commands where
  steps := (forall₂_of_commands_eq_ok h).imp fun _ _ hc => ⟨hc, Action.length_links_of_command hc⟩
  count := by
    calc
      commands.length = (p.actions.filter (!·.isNoop)).length :=
        (forall₂_of_commands_eq_ok h).length_eq.symm
      _ = p.actions.countP (!·.isNoop) := List.countP_eq_length_filter.symm
  program c hc link hlink := by
    rcases exists_mem_of_mapM_eq_ok h hc with ⟨a, -, hcommand⟩
    exact Action.program_of_mem_links hcommand hlink

/-- A well-formed plan has a command exactly if it has no reason to do nothing. -/
theorem WellFormed.reasons_eq_nil_iff (wellFormed : p.WellFormed s) :
    p.reasons = [] ↔ p.changes = true := by
  rcases wellFormed.uniform with ⟨reason, -, hidle⟩ | hacts
  · simp [reasons, changes, hidle, Action.reason?, Action.isNoop]
  · have hreasons : p.reasons = [] := by
      refine List.filterMap_eq_nil_iff.2 fun a ha => ?_
      simpa [Action.isNoop] using hacts a ha
    have hchanges : p.changes = true := by
      rcases List.exists_mem_of_ne_nil _ wellFormed.nonempty with ⟨a, ha⟩
      exact List.any_eq_true.2 ⟨a, ha, by simp [hacts a ha]⟩
    exact iff_of_true hreasons hchanges

/-- Commands are there exactly if the plan has a step that does something. -/
theorem Rendered.changes_iff (rendered : Rendered binary p commands) :
    p.changes = true ↔ commands ≠ [] := by
  have hcount : 0 < commands.length ↔ 0 < p.actions.countP (!·.isNoop) := by rw [rendered.count]
  simpa [changes, List.length_pos_iff, List.countP_pos_iff] using hcount.symm

end Plan

/-! ## Plans and passes -/

/-- Every plan for a resource is well-formed and can be rendered, for whatever program.  So a pass
that ends well has changed the host exactly if its plan has something to do, and otherwise it gives
a reason. -/
theorem Spec.plan_renders (s : Spec) (binary : String) :
    (∀ o p, s.plan o = .ok p ∨ s.planUnchecked o = .ok p →
      p.WellFormed s ∧ ∃ commands, p.commands binary = .ok commands ∧ p.Rendered binary commands) ∧
    ∀ (σ : Type) (h : Host σ) (t : σ) (outcome : Outcome),
      ((Pass.apply ⟨binary, false⟩ s).play h t).result = .ok outcome →
      (outcome.changed = true ↔ outcome.plan.changes = true) ∧
        (outcome.plan.reasons ≠ [] ↔ outcome.changed = false) := by
  refine ⟨?_, ?_⟩
  · intro o p planned
    have hplanned : s.planUnchecked o = .ok p := planned.elim planUnchecked_of_plan id
    have hwell := wellFormed_of_planUnchecked hplanned
    have hjust := (justified_of_planUnchecked hplanned).2.2
    rcases Plan.exists_commands_of_justified hjust binary with ⟨commands, hcommands⟩
    exact ⟨hwell, commands, hcommands, Plan.rendered_of_commands hcommands⟩
  · intro σ h t outcome ok
    -- What was carried out is what was planned from the answered lines.
    have hcompleted := Pass.completed_of_result_eq_ok (p := (s, t)) ok
    rcases hcompleted.taken with ⟨planned, htaken, rfl⟩
    rcases bind_eq_ok_iff.1 htaken with ⟨lines, -, hdecision⟩
    rcases (Pass.decision_eq_ok_iff binary).1 hdecision with ⟨-, hplan, hcommands, -⟩
    have hwell := wellFormed_of_planUnchecked (planUnchecked_of_plan hplan)
    have hchanged : Outcome.changed { planned with executed := true } = true ↔
        planned.plan.changes = true := by
      rw [(Plan.rendered_of_commands hcommands).changes_iff]
      simp [Outcome.changed]
    refine ⟨hchanged, ?_⟩
    calc
      planned.plan.reasons ≠ [] ↔ ¬ planned.plan.changes = true :=
        not_congr hwell.reasons_eq_nil_iff
      _ ↔ Outcome.changed { planned with executed := true } = false := by
        rw [← hchanged, Bool.not_eq_true]

end Converge
