import Converge.Plan.Decision

/-!
# The guards of a container

The steps for a container are specified by five guards.  They are tried in a fixed order, each of them
is judged against the container as it was before the pass, and more than one may fire.  A guard that
is about a container that is kept is skipped if the first guard removes it.

The decision for a container is this program of guards (`Container.plan_eq_program`), although it is
made by other means.  What plans can look like follows from the guards.
-/

namespace Converge.Container

/-! ## The program -/

structure Before where
  found : Bool
  running : Bool
deriving DecidableEq, Repr

def Before.of (observed : Option Record) : Before where
  found := observed.isSome
  running := observed.bind Record.runState? == some "running"

/-- The guards, each named for what it is there for.  Replacing and withdrawing both remove the
container. -/
inductive Guard where
  | replace
  | create
  | start
  | stop
  | withdraw
deriving DecidableEq, Repr

namespace Guard

def all : List Guard := [replace, create, start, stop, withdraw]

def fires (c : Container) (b : Before) : Guard → Bool
  | replace => c.force && b.found
  | create => c.present && (!b.found || c.force)
  | start => b.found && c.present && c.start && !b.running
  | stop => b.found && c.present && !c.start && b.running
  | withdraw => b.found && !c.present

/-- Whether a guard is about a container that is kept. -/
def aboutKept : Guard → Bool
  | replace | create => false
  | start | stop | withdraw => true

/-- Whether a guard adds its step: it fires, and the container that it is about was not replaced. -/
def emits (c : Container) (b : Before) (g : Guard) : Bool :=
  g.fires c b && !(g.aboutKept && replace.fires c b)

def step (c : Container) : Guard → Action
  | replace | withdraw => .remove (.container c)
  | create => .create (.container c)
  | start => .start (.container c)
  | stop => .stop (.container c)

end Guard

def guarded (c : Container) (b : Before) : List Action :=
  (Guard.all.filter (Guard.emits c b)).map (Guard.step c)

/-- The program of the guards.  Creating a container needs an image, and is refused without one before
any step is taken.  Where no guard adds a step, nothing is done. -/
def program (c : Container) (b : Before) : Except Failure Plan :=
  if Guard.create.fires c b && c.image.isEmpty then .error (.configuration (.imageNeeded c.name))
  else .ok (.ofActions (.container c) (match c.guarded b with
    | [] => [.noop (.container c) (if b.found then "already in desired state" else "does not exist")]
    | steps => steps))

/-! ## What the guards add -/

variable {c : Container} {b : Before}

/-- A container that is not there can only be created. -/
theorem guarded_of_absent (absent : b.found = false) :
    c.guarded b = stepsIf c.present [.create (.container c)] := by
  cases hpresent : c.present <;>
    simp [guarded, Guard.all, Guard.emits, Guard.fires, Guard.aboutKept, Guard.step, stepsIf, absent,
      hpresent]

/-- A container that is replaced is removed, and nothing of its state matters any more. -/
theorem guarded_of_replaced (found : b.found = true) (force : c.force = true) :
    c.guarded b =
      .remove (.container c) :: stepsIf c.present [.create (.container c)] := by
  cases hpresent : c.present <;>
    simp [guarded, Guard.all, Guard.emits, Guard.fires, Guard.aboutKept, Guard.step, stepsIf, found,
      force, hpresent]

/-- A container that is kept gets at most one step. -/
theorem guarded_of_kept (found : b.found = true) (kept : c.force = false) :
    c.guarded b =
      if !c.present then [.remove (.container c)]
      else if c.start && !b.running then [.start (.container c)]
      else if !c.start && b.running then [.stop (.container c)]
      else [] := by
  cases hpresent : c.present <;> cases hstart : c.start <;> cases hrunning : b.running <;>
    simp [guarded, Guard.all, Guard.emits, Guard.fires, Guard.aboutKept, Guard.step, found, kept,
      hpresent, hstart, hrunning]

/-! ## The decision is the program -/

theorem running_of_some (r : Record) : (Before.of (some r)).running = r.isRunning := rfl

/-- The steps of the decision are those that the guards add. -/
theorem actions_eq_guarded (c : Container) (observed : Option Record) :
    c.actions observed = match c.guarded (.of observed) with
      | [] => [.noop (.container c)
          (if (Before.of observed).found then "already in desired state" else "does not exist")]
      | steps => steps := by
  cases observed with
  | none =>
      rw [guarded_of_absent rfl]
      cases hpresent : c.present <;> simp [actions, stepsIf, hpresent, Before.of]
  | some r =>
      cases hforce : c.force with
      | true =>
          rw [guarded_of_replaced rfl hforce]
          cases hpresent : c.present <;> simp [actions, stepsIf, hforce, hpresent]
      | false =>
          -- Kept: the last three guards are the branches of the decision.
          rw [guarded_of_kept rfl hforce, running_of_some]
          cases hpresent : c.present <;> cases hstart : c.start <;> cases hrunning : r.isRunning <;>
            simp [actions, stepsIf, hforce, hpresent, hstart, hrunning, Before.of]

/-- The plan for a container is the program of its guards. -/
theorem plan_eq_program (c : Container) (observed : Option Record) :
    c.plan observed = c.program (.of observed) := by
  have hfires : Guard.create.fires c (.of observed) =
      (c.present && (observed.isNone || c.force)) := by
    cases observed <;> rfl
  unfold plan program
  rw [hfires, actions_eq_guarded]

example : (Container.program { name := "nginx", image := "nginx:alpine", force := true }
    ⟨true, true⟩).map Plan.verbs = .ok [.remove, .create] := rfl

/-! ## What plans look like -/

/-- Whether an image is lacking depends on the spec and on whether there is a container. -/
theorem create_fires_without_image_iff {observed : Option Record} :
    (Guard.create.fires c (.of observed) && c.image.isEmpty) = true ↔
      c.present = true ∧ (observed = none ∨ c.force = true) ∧ c.image = "" := by
  cases observed <;> simp [Guard.fires, Before.of, and_assoc]

/-- The steps that the guards can add together. -/
theorem guarded_cases (c : Container) (b : Before) :
    c.guarded b = [] ∨
      (∃ a, c.guarded b = [a] ∧ a.verb ≠ .remove) ∨
      (c.guarded b = [.remove (.container c)] ∧ c.present = false) ∨
      (c.guarded b = [.remove (.container c), .create (.container c)] ∧
        Guard.create.fires c b = true) := by
  cases hfound : b.found with
  | false =>
      rw [guarded_of_absent hfound]
      cases hpresent : c.present with
      | true => exact .inr (.inl ⟨_, rfl, by simp [Action.verb]⟩)
      | false => exact .inl rfl
  | true =>
      cases hforce : c.force with
      | true =>
          rw [guarded_of_replaced hfound hforce]
          cases hpresent : c.present with
          | true => exact .inr (.inr (.inr ⟨rfl, by simp [Guard.fires, hpresent, hforce]⟩))
          | false => exact .inr (.inr (.inl ⟨rfl, rfl⟩))
      | false =>
          rw [guarded_of_kept hfound hforce]
          cases hpresent : c.present with
          | false => exact .inr (.inr (.inl ⟨rfl, rfl⟩))
          | true =>
              cases c.start <;> cases b.running
              · exact .inl rfl
              · exact .inr (.inl ⟨_, rfl, by simp [Action.verb]⟩)
              · exact .inr (.inl ⟨_, rfl, by simp [Action.verb]⟩)
              · exact .inl rfl

structure WellGuarded (c : Container) (p : Plan) : Prop where
  /-- The container is removed at most once. -/
  removedOnce : p.verbs.count .remove ≤ 1
  /-- A container that is created is neither started nor stopped besides. -/
  createdAlone : ¬ (.create ∈ p.verbs ∧ (.start ∈ p.verbs ∨ .stop ∈ p.verbs))
  /-- Removing and creating make up the whole plan, in this order. -/
  replaced : .remove ∈ p.verbs → .create ∈ p.verbs →
    p.actions = [.remove (.container c), .create (.container c)]
  /-- Without an image a container is removed only if it is not wanted. -/
  removedWithoutImage : .remove ∈ p.verbs → c.image = "" → c.present = false

theorem wellGuarded_of_plan_eq_ok {observed : Option Record} {p : Plan}
    (planned : c.plan observed = .ok p) : c.WellGuarded p := by
  rw [plan_eq_program, program] at planned
  cases hlacks : Guard.create.fires c (.of observed) && c.image.isEmpty with
  | true => simp [hlacks] at planned
  | false =>
      rw [hlacks] at planned
      cases planned
      rcases guarded_cases c (.of observed) with hnone | ⟨a, hone, hverb⟩ | ⟨hremove, habsent⟩ |
        ⟨hreplace, hfires⟩
      · rw [hnone]
        constructor <;> simp [Plan.verbs, Plan.ofActions, Action.verb]
      · rw [hone]
        -- A single step that removes nothing.
        have hkept : Verb.remove ∉ [a.verb] := by simpa using hverb.symm
        constructor
        · simp [Plan.verbs, Plan.ofActions, List.count_eq_zero_of_not_mem hkept]
        · cases a <;> simp [Plan.verbs, Plan.ofActions, Action.verb]
        · exact fun hremoved => absurd hremoved hkept
        · exact fun hremoved => absurd hremoved hkept
      · rw [hremove]
        constructor <;> simp [Plan.verbs, Plan.ofActions, Action.verb, habsent]
      · rw [hreplace]
        -- The container is created anew, so it has an image.
        have himage : c.image ≠ "" := by
          intro hempty
          simp [hfires, hempty] at hlacks
        constructor <;> simp [Plan.verbs, Plan.ofActions, Action.verb, himage]

/-- The decision for a container is the program of the guards.  It is refused exactly if a container
without an image must be created, and then for that reason; whatever is planned is well guarded; and
of a record it only depends on whether the container is running. -/
theorem plan_follows_guards (c : Container) :
    (∀ observed, c.plan observed = c.program (.of observed)) ∧
    (∀ observed, (∃ e, c.plan observed = .error e) ↔
      c.present = true ∧ (observed = none ∨ c.force = true) ∧ c.image = "") ∧
    (∀ observed e, c.plan observed = .error e → e = .configuration (.imageNeeded c.name)) ∧
    (∀ observed p, c.plan observed = .ok p → c.WellGuarded p) ∧
    ∀ r r' : Record, r.isRunning = r'.isRunning → c.plan (some r) = c.plan (some r') := by
  refine ⟨plan_eq_program c, ?_, ?_, fun _ _ => wellGuarded_of_plan_eq_ok, ?_⟩
  · intro observed
    rw [plan_eq_program, program, ← create_fires_without_image_iff]
    cases Guard.create.fires c (.of observed) && c.image.isEmpty <;> simp
  · intro observed e refused
    rw [plan_eq_program, program] at refused
    cases hlacks : Guard.create.fires c (.of observed) && c.image.isEmpty with
    | true => simpa [hlacks] using refused.symm
    | false => simp [hlacks] at refused
  · intro r r' same
    have hbefore : Before.of (some r) = Before.of (some r') := congrArg (Before.mk true) same
    rw [plan_eq_program, plan_eq_program, hbefore]

end Converge.Container
