import Converge.Proofs.Docker.Daemon

/-!
# What a pass makes of the daemon

`Daemon.settle` says in one step what a pass brings about: the object of its spec gets the state that
the spec asks for, and everything else stays as it is.  A pass that can be planned does exactly this,
through the links of its plan, and none of these links fails.
-/

namespace Converge

/-! ## Settled states -/

namespace Container

def freshState (c : Container) : String := if c.start then "running" else "created"

def settled (c : Container) (slot : Option String) : Option String :=
  if !c.present then none
  else match slot with
    | none => some c.freshState
    | some state =>
      if c.force then some c.freshState
      else if c.start then some "running"
      else some (if state = "running" then "exited" else state)

theorem settled_of_absent {c : Container} (absent : c.present = false) (slot : Option String) :
    c.settled slot = none := by
  simp [settled, absent]

/-- A container that is wanted is there afterwards, and it is running exactly if it should. -/
theorem exists_settled {c : Container} (present : c.present = true) (slot : Option String) :
    ∃ state, c.settled slot = some state ∧ (state = "running" ↔ c.start = true) := by
  cases slot with
  | none => cases hstart : c.start <;> simp [settled, freshState, present, hstart]
  | some state =>
      cases hforce : c.force
      · cases hstart : c.start
        · by_cases hrunning : state = "running" <;>
            simp [settled, present, hforce, hstart, hrunning]
        · simp [settled, present, hforce, hstart]
      · cases hstart : c.start <;> simp [settled, freshState, present, hforce, hstart]

/-- A container that is as its spec wants it stays so. -/
theorem settled_settled (c : Container) (slot : Option String) :
    c.settled (c.settled slot) = c.settled slot := by
  cases hpresent : c.present with
  | false => rw [settled_of_absent hpresent, settled_of_absent hpresent]
  | true =>
      rcases exists_settled hpresent slot with ⟨state, hslot, hrunning⟩
      rw [hslot]
      cases hforce : c.force with
      | true =>
          -- A forced container is fresh after every pass.
          cases slot <;> simpa [settled, hpresent, hforce] using hslot
      | false =>
          cases hstart : c.start with
          | true => simp [settled, hpresent, hforce, hstart, hrunning.2 hstart]
          | false =>
              have hidle : state ≠ "running" := by simp [hrunning, hstart]
              simp [settled, hpresent, hforce, hstart, hidle]

end Container

/-! ## Deeds of plans -/

/-- The steps for a container settle it, if the observed record tells its run-state. -/
theorem Container.foldlM_onContainer (c : Container) (slot : Option String)
    {record : String → Record} (faithful : ∀ state, (record state).isRunning = (state == "running")) :
    ((c.actions (slot.map record)).flatMap Action.linkVerbs).foldlM
      (fun slot verb => verb.onContainer slot) slot = some (c.settled slot) := by
  cases slot with
  | none =>
      cases hpresent : c.present with
      | false => simp [actions, stepsIf, settled, hpresent, Action.linkVerbs]
      | true =>
          cases hstart : c.start <;>
            simp [actions, stepsIf, settled, freshState, hpresent, hstart, Action.linkVerbs,
              Verb.onContainer]
  | some state =>
      cases hforce : c.force with
      | true =>
          -- Forced: the container is removed, and created anew if it is wanted.
          cases hpresent : c.present with
          | false =>
              simp [actions, stepsIf, settled, hforce, hpresent, Action.linkVerbs, Action.verb,
                Verb.onContainer]
          | true =>
              cases hstart : c.start <;>
                simp [actions, stepsIf, settled, freshState, hforce, hpresent, hstart,
                  Action.linkVerbs, Action.verb, Verb.onContainer]
      | false =>
          cases hpresent : c.present with
          | false =>
              simp [actions, stepsIf, settled, hforce, hpresent, Action.linkVerbs, Action.verb,
                Verb.onContainer]
          | true =>
              -- Kept: it is started or stopped where its run-state is not the wanted one.
              cases hstart : c.start <;> by_cases hrunning : state = "running" <;>
                simp [actions, stepsIf, settled, hforce, hpresent, hstart, hrunning, faithful,
                  Action.linkVerbs, Action.verb, Verb.onContainer]

theorem Volume.foldlM_onVolume (v : Volume) (observed : Option Record) :
    ((v.plan observed).actions.flatMap Action.linkVerbs).foldlM
      (fun there verb => verb.onVolume there) observed.isSome = some v.present := by
  cases hpresent : v.present <;> cases observed <;>
    simp [plan, Plan.ofActions, hpresent, Action.linkVerbs, Action.verb, Verb.onVolume]

namespace Daemon

/-! ## Deeds one after another -/

/-- Deeds that act on a single part of the daemon only change that part. -/
theorem foldlM_perform?_part {α : Type} (look : Daemon → α) (put : Daemon → α → Daemon)
    (on : Verb → α → Option α) (deed : Verb → Deed)
    (acts : ∀ d v, d.perform? (deed v) = (on v (look d)).map (put d))
    (put_look : ∀ d, put d (look d) = d) (look_put : ∀ d a, look (put d a) = a)
    (put_put : ∀ d a b, put (put d a) b = put d b) (d : Daemon) (verbs : List Verb) :
    (verbs.map deed).foldlM perform? d =
      (verbs.foldlM (fun a v => on v a) (look d)).map (put d) := by
  induction verbs generalizing d with
  | nil => exact congrArg some (put_look d).symm
  | cons v verbs ih =>
      -- After the first deed the part holds `a`, and whatever is put there next replaces it.
      rw [List.map_cons, List.foldlM_cons, List.foldlM_cons, acts]
      cases hv : on v (look d) with
      | none => rfl
      | some a =>
          have hput : put (put d a) = put d := funext (put_put d a)
          have hrest := ih (put d a)
          rw [look_put, hput] at hrest
          exact hrest

/-- Deeds to one container are made on its slot alone, one after another. -/
theorem foldlM_perform?_container (d : Daemon) (name : String) (verbs : List Verb) :
    (verbs.map fun v => (⟨.container, v, name⟩ : Deed)).foldlM perform? d =
      (verbs.foldlM (fun slot v => Verb.onContainer v slot) (d.containers name)).map
        (d.setContainer name) := by
  refine foldlM_perform?_part (fun d => d.containers name) (fun d => d.setContainer name)
    Verb.onContainer (fun v => ⟨.container, v, name⟩) ?_ ?_ ?_ ?_ d verbs
  · intro d v
    rfl
  · intro d
    simp [setContainer]
  · intro d slot
    simp [setContainer]
  · intro d slot slot'
    simp [setContainer]

theorem foldlM_perform?_volume (d : Daemon) (name : String) (verbs : List Verb) :
    (verbs.map fun v => (⟨.volume, v, name⟩ : Deed)).foldlM perform? d =
      (verbs.foldlM (fun there v => Verb.onVolume v there) (d.volumes name)).map
        (d.setVolume name) := by
  refine foldlM_perform?_part (fun d => d.volumes name) (fun d => d.setVolume name)
    Verb.onVolume (fun v => ⟨.volume, v, name⟩) ?_ ?_ ?_ ?_ d verbs
  · intro d v
    rfl
  · intro d
    simp [setVolume]
  · intro d there
    simp [setVolume]
  · intro d there there'
    simp [setVolume]

/-- Deeds to images and networks leave the daemon as it is. -/
theorem foldlM_perform?_elsewhere (d : Daemon) {kind : Kind}
    (elsewhere : kind = .image ∨ kind = .network) (name : String) (verbs : List Verb) :
    (verbs.map fun v => (⟨kind, v, name⟩ : Deed)).foldlM perform? d = some d := by
  induction verbs with
  | nil => rfl
  | cons v verbs ih =>
      rw [List.map_cons, List.foldlM_cons]
      rcases elsewhere with rfl | rfl <;> exact ih

/-- What a pass makes of the daemon. -/
def settle (d : Daemon) : Spec → Daemon
  | .container c => d.setContainer c.name (c.settled (d.containers c.name))
  | .volume v => d.setVolume v.name v.present
  | .image _ | .network _ => d

/-- The deeds of a plan settle the object of its spec. -/
theorem foldlM_perform?_plan {spec : Spec} {d : Daemon} {plan : Plan}
    (planned : spec.planUnchecked (Pass.observed host spec d) = .ok plan) :
    ((plan.actions.flatMap Action.linkVerbs).map
        fun v => (⟨spec.kind, v, spec.identity⟩ : Deed)).foldlM perform? d =
      some (d.settle spec) := by
  cases spec with
  | container c =>
      -- The steps are decided from the record, which tells the daemon's own run-state.
      have hactions := Container.actions_of_plan_eq_ok planned
      have hsettled := c.foldlM_onContainer (d.containers c.name)
        (isRunning_ofRaw_containerFacts c.name)
      rw [← observed_container, ← hactions] at hsettled
      have hdeeds := foldlM_perform?_container d c.name (plan.actions.flatMap Action.linkVerbs)
      rw [hsettled] at hdeeds
      exact hdeeds
  | volume v =>
      cases planned
      have hsettled := v.foldlM_onVolume (Pass.observed host (.volume v) d)
      rw [observed_volume] at hsettled
      have hdeeds := foldlM_perform?_volume d v.name
        ((v.plan (Pass.observed host (.volume v) d)).actions.flatMap Action.linkVerbs)
      rw [hsettled] at hdeeds
      exact hdeeds
  | image i => exact foldlM_perform?_elsewhere d (.inl rfl) i.reference _
  | network n => exact foldlM_perform?_elsewhere d (.inr rfl) n.name _

/-! ## Links one after another -/

/-- Links whose deeds can be done all succeed. -/
theorem callAll_of_perform {links : List Invocation} {deeds : List Deed} {d d' : Daemon}
    (hdeeds : links.map (fun i => Deed.ofArgs? i.args) = deeds.map some)
    (done : deeds.foldlM perform? d = some d') :
    Pass.callAll host links d = ⟨links.map Event.done, d', .ok ()⟩ := by
  induction links generalizing deeds d with
  | nil =>
      have : deeds = [] := by simpa using hdeeds.symm
      subst this
      cases done
      rfl
  | cons i links ih =>
      cases deeds with
      | nil => cases hdeeds
      | cons deed deeds =>
          have hboth : Deed.ofArgs? i.args = some deed ∧
              links.map (fun i => Deed.ofArgs? i.args) = deeds.map some := by
            simpa using hdeeds
          rw [List.foldlM_cons] at done
          -- The first deed can be done, because all of them can.
          cases hfirst : d.perform? deed with
          | none => simp [hfirst] at done
          | some middle =>
              have hrun : host.run d i = (.ok (), middle) := by
                simp [host, hboth.1, hfirst]
              have hrest := ih hboth.2 (by simpa [hfirst] using done)
              rw [Pass.callAll_cons, hrun]
              simp [hrest, Event.done, succeeded]

end Daemon

/-- The deeds of a plan's links are those of its steps. -/
theorem Plan.deeds_of_commands {spec : Spec} {observed : Option Record} {binary : String}
    {actions : List Action} {commands : List Command}
    (justified : ∀ a ∈ actions, Action.Justified spec observed a)
    (rendered : List.Forall₂ (fun a c => Action.command binary a = .ok c)
      (actions.filter (!·.isNoop)) commands) :
    (Pass.linksOf commands).map (fun i => Deed.ofArgs? i.args) =
      ((actions.flatMap Action.linkVerbs).map
        fun v => (⟨spec.kind, v, spec.identity⟩ : Deed)).map some := by
  induction actions generalizing commands with
  | nil =>
      cases rendered
      rfl
  | cons a actions ih =>
      have hrest {commands : List Command} := @ih commands fun b hb =>
        justified b (List.mem_cons_of_mem _ hb)
      have hspec := (justified a (List.mem_cons_self ..)).spec_eq
      cases hnoop : a.isNoop with
      | true =>
          -- A step that does nothing has neither a command nor a link.
          have hverbs : a.linkVerbs = [] := by
            cases a <;> first | rfl | simp [Action.isNoop, Action.reason?] at hnoop
          rw [List.filter_cons_of_neg (by simp [hnoop])] at rendered
          rw [List.flatMap_cons, hverbs]
          exact hrest rendered
      | false =>
          rw [List.filter_cons_of_pos (by simp [hnoop])] at rendered
          cases rendered with
          | cons hfirst hmore =>
              have hdeeds := Action.deeds_of_command hfirst
              rw [hspec] at hdeeds
              have hothers := hrest hmore
              simp only [Pass.linksOf] at hothers
              simp [Pass.linksOf, hdeeds, hothers]

end Converge
