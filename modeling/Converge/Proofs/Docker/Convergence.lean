import Converge.Proofs.Docker.Settling
import Converge.Proofs.Pass.Run
import Converge.Proofs.Pass.Warrant

/-!
# Convergence

A run for resources of different names, started in any state of the daemon, leaves every resource as
its spec wants it if the run succeeds, and leaves everything else alone.  The same run made again
succeeds without changing the daemon, and it runs only links whose deeds are repeated on every pass.

The proof looks at settled specs.  A pass settles its own spec (`settle_settle`), does not unsettle
another one (`settle_comm`), and a pass for a settled spec leaves the daemon as it is.
-/

namespace Converge

def Spec.key (s : Spec) : Kind × String := (s.kind, s.identity)

/-- Whether the commands for the resource are run again on every pass. -/
def Spec.repeats : Spec → Bool
  | .container c => c.present && c.force
  | .volume _ => false
  | .image _ | .network _ => true

namespace Daemon

def Meets (d : Daemon) : Spec → Prop
  | .container c =>
    (c.present = true →
      ∃ state, d.containers c.name = some state ∧ (state = "running" ↔ c.start = true)) ∧
    (c.present = false → d.containers c.name = none)
  | .volume v => d.volumes v.name = v.present
  | .image _ | .network _ => True

/-! ## Settled specs -/

/-- A second pass makes no difference to the daemon. -/
theorem settle_settle (d : Daemon) (s : Spec) : (d.settle s).settle s = d.settle s := by
  cases s with
  | container c => simp [settle, setContainer, Container.settled_settled]
  | volume v => simp [settle, setVolume]
  | image i => rfl
  | network n => rfl

/-- Specs of different resources are settled independently. -/
theorem settle_comm (d : Daemon) {s t : Spec} (different : s.key ≠ t.key) :
    (d.settle s).settle t = (d.settle t).settle s := by
  cases s with
  | image i => rfl
  | network n => rfl
  | container c =>
      cases t with
      | container e =>
          have hname : c.name ≠ e.name := by
            intro h
            exact different (congrArg (Prod.mk Kind.container) h)
          simp [settle, setContainer, Function.update_of_ne hname, Function.update_of_ne hname.symm,
            Function.update_comm hname]
      | _ => rfl
  | volume v =>
      cases t with
      | volume w =>
          have hname : v.name ≠ w.name := by
            intro h
            exact different (congrArg (Prod.mk Kind.volume) h)
          simp [settle, setVolume, Function.update_comm hname]
      | _ => rfl

/-- A container of a settled spec has its settled run-state. -/
theorem settled_eq_of_settle_eq {d : Daemon} {c : Container} (settled : d.settle (.container c) = d) :
    c.settled (d.containers c.name) = d.containers c.name := by
  have hslot := congrFun (congrArg Daemon.containers settled) c.name
  simpa [settle, setContainer] using hslot

theorem present_eq_of_settle_eq {d : Daemon} {v : Volume} (settled : d.settle (.volume v) = d) :
    d.volumes v.name = v.present := by
  have hthere := congrFun (congrArg Daemon.volumes settled) v.name
  simpa [settle, setVolume] using hthere.symm

/-- A daemon that a pass leaves as it is has the resource as its spec wants it. -/
theorem meets_of_settle_eq {d : Daemon} {s : Spec} (settled : d.settle s = d) : d.Meets s := by
  cases s with
  | container c =>
      have hslot := settled_eq_of_settle_eq settled
      constructor
      · intro present
        rw [← hslot]
        exact Container.exists_settled present _
      · intro absent
        rw [← hslot]
        exact Container.settled_of_absent absent _
  | volume v => exact present_eq_of_settle_eq settled
  | image i => trivial
  | network n => trivial

/-- Nothing is done for a settled spec, unless its commands are repeated on every pass. -/
theorem actions_eq_of_settle_eq {d : Daemon} {s : Spec} (settled : d.settle s = d)
    (rests : s.repeats = false) {plan : Plan}
    (planned : s.planUnchecked (Pass.observed host s d) = .ok plan) :
    ∃ reason, plan.actions = [.noop s reason] := by
  cases s with
  | image i => cases rests
  | network n => cases rests
  | volume v =>
      cases planned
      have hthere : (Pass.observed host (.volume v) d).isSome = v.present :=
        (observed_volume v d).trans (present_eq_of_settle_eq settled)
      cases hpresent : v.present with
      | true => exact ⟨"already exists", by simp [Volume.plan, Plan.ofActions, hthere, hpresent]⟩
      | false => exact ⟨"does not exist", by simp [Volume.plan, Plan.ofActions, hthere, hpresent]⟩
  | container c =>
      have hslot := settled_eq_of_settle_eq settled
      rw [Container.actions_of_plan_eq_ok planned, observed_container]
      cases hpresent : c.present with
      | false =>
          -- Settled without being wanted, the container is not there.
          have hmissing : d.containers c.name = none := by
            rw [← hslot, Container.settled_of_absent hpresent]
          exact ⟨"does not exist", by simp [hmissing, Container.actions, stepsIf, hpresent]⟩
      | true =>
          -- Settled and wanted, it is there with a run-state that needs no change.
          have hforce : c.force = false := by simpa [Spec.repeats, hpresent] using rests
          rcases Container.exists_settled hpresent (d.containers c.name) with
            ⟨state, hstate, hrunning⟩
          rw [hslot] at hstate
          refine ⟨"already in desired state", ?_⟩
          cases hstart : c.start with
          | true =>
              simp [hstate, Container.actions, stepsIf, hpresent, hforce, hstart,
                isRunning_ofRaw_containerFacts, hrunning.2 hstart]
          | false =>
              have hidle : state ≠ "running" := by simp [hrunning, hstart]
              simp [hstate, Container.actions, stepsIf, hpresent, hforce, hstart,
                isRunning_ofRaw_containerFacts, hidle]

/-! ## Many specs -/

def settleAll (d : Daemon) (specs : List Spec) : Daemon := specs.foldl settle d

/-- Settling a resource and settling others may be done in any order. -/
theorem settle_settleAll_comm (d : Daemon) {s : Spec} {specs : List Spec}
    (different : ∀ t ∈ specs, s.key ≠ t.key) :
    (d.settleAll specs).settle s = (d.settle s).settleAll specs := by
  induction specs generalizing d with
  | nil => rfl
  | cons t specs ih =>
      have hrest := ih (d.settle t) fun u hu => different u (List.mem_cons_of_mem _ hu)
      rw [← settle_comm d (different t (List.mem_cons_self ..))] at hrest
      exact hrest

/-- After a run every spec is settled. -/
theorem settle_settleAll_of_mem {specs : List Spec} (distinct : (specs.map Spec.key).Nodup)
    (d : Daemon) {s : Spec} (hs : s ∈ specs) : (d.settleAll specs).settle s = d.settleAll specs := by
  induction specs generalizing d with
  | nil => cases hs
  | cons t specs ih =>
      rw [List.map_cons, List.nodup_cons] at distinct
      rcases List.mem_cons.1 hs with rfl | hs
      · have hdifferent : ∀ u ∈ specs, s.key ≠ u.key := by
          intro u hu hkey
          exact distinct.1 (hkey ▸ List.mem_map_of_mem hu)
        -- Settling `s` once more can be moved before all later passes, where it changes nothing.
        have hcomm := settle_settleAll_comm (d.settle s) hdifferent
        rw [settle_settle] at hcomm
        exact hcomm
      · exact ih distinct.2 (d.settle t) hs

/-- A container that no spec is about is left alone. -/
theorem containers_settleAll (d : Daemon) {specs : List Spec} {name : String}
    (other : ∀ s ∈ specs, s.key ≠ (.container, name)) :
    (d.settleAll specs).containers name = d.containers name := by
  induction specs generalizing d with
  | nil => rfl
  | cons s specs ih =>
      have hrest := ih (d.settle s) fun t ht => other t (List.mem_cons_of_mem _ ht)
      refine hrest.trans ?_
      cases s with
      | container c =>
          have hname : name ≠ c.name := by
            intro h
            exact other _ (List.mem_cons_self ..) (congrArg (Prod.mk Kind.container) h.symm)
          simp [settle, setContainer, hname]
      | _ => rfl

theorem volumes_settleAll (d : Daemon) {specs : List Spec} {name : String}
    (other : ∀ s ∈ specs, s.key ≠ (.volume, name)) :
    (d.settleAll specs).volumes name = d.volumes name := by
  induction specs generalizing d with
  | nil => rfl
  | cons s specs ih =>
      have hrest := ih (d.settle s) fun t ht => other t (List.mem_cons_of_mem _ ht)
      refine hrest.trans ?_
      cases s with
      | volume v =>
          have hname : name ≠ v.name := by
            intro h
            exact other _ (List.mem_cons_self ..) (congrArg (Prod.mk Kind.volume) h.symm)
          simp [settle, setVolume, hname]
      | _ => rfl

/-! ## Passes on the daemon -/

/-- A pass for a valid spec that lacks no image settles it. -/
theorem quiet_play_apply_of_ready (binary : String) {s : Spec} {d : Daemon}
    (valid : s.validate = .ok ()) (image : ¬ s.LacksImage (Pass.observed host s d)) :
    ∃ plan commands, s.planUnchecked (Pass.observed host s d) = .ok plan ∧
      plan.commands binary = .ok commands ∧
      ((Pass.apply ⟨binary, false⟩ s).play host d).quiet =
        ⟨Pass.queries s ++ (Pass.linksOf commands).map Event.done, d.settle s,
          .ok ⟨plan, commands, true⟩⟩ := by
  rcases Spec.exists_planUnchecked image with ⟨plan, hunchecked, -, -, hjust⟩
  have hplan := hunchecked
  rw [← Spec.plan_of_validate_eq_ok valid] at hplan
  rcases Plan.exists_commands hplan binary with ⟨commands, hcommands⟩
  refine ⟨plan, commands, hunchecked, hcommands, ?_⟩
  -- The answer leads to the decision, and the decided links do the deeds of the plan.
  have hobserved : ((Pass.answer host s d).1.bind (Pass.decision binary s)) =
      .ok ⟨plan, commands, false⟩ := by
    rw [Pass.observed, answer_host] at hplan
    rw [answer_host]
    exact (Pass.decision_eq_ok_iff binary).2
      ⟨fault?_of_mem_inspect d s.identity s.kind, hplan, hcommands, rfl⟩
  have hdeeds := Plan.deeds_of_commands hjust (Plan.forall₂_of_commands_eq_ok hcommands)
  have hlinks := callAll_of_perform hdeeds (foldlM_perform?_plan hunchecked)
  have hstate : (Pass.answer host s d).2 = d := by rw [answer_host]
  rw [Pass.quiet_play_apply_of_decision host binary valid hobserved, hstate, hlinks]
  rfl

/-- A pass succeeds only for a valid spec that lacks no image. -/
theorem ready_of_result_apply {binary : String} {s : Spec} {d : Daemon} {outcome : Outcome}
    (ok : ((Pass.apply ⟨binary, false⟩ s).play host d).result = .ok outcome) :
    s.validate = .ok () ∧ ¬ s.LacksImage (Pass.observed host s d) := by
  rw [← Played.quiet_result] at ok
  cases valid : s.validate with
  | error e =>
      rw [Pass.quiet_play_apply_of_invalid host ⟨binary, false⟩ valid] at ok
      cases ok
  | ok u =>
      refine ⟨rfl, fun image => ?_⟩
      have hdecision : ((Pass.answer host s d).1.bind (Pass.decision binary s)) =
          .error (.configuration (.imageNeeded s.identity)) := by
        rw [Pass.observed, answer_host] at image
        rw [answer_host]
        exact Pass.decision_of_lacksImage binary valid
          (fault?_of_mem_inspect d s.identity s.kind) image
      rw [Pass.quiet_play_apply_of_valid host ⟨binary, false⟩ valid, hdecision] at ok
      cases ok

/-- A settled spec that could be applied in some state can be applied again. -/
theorem not_lacksImage_of_settle_eq {s : Spec} {d : Daemon} (settled : d.settle s = d)
    {o : Option Record} (image : ¬ s.LacksImage o) :
    ¬ s.LacksImage (Pass.observed host s d) := by
  rintro ⟨c, rfl, present, missing, empty⟩
  -- A settled container that is wanted is there, so only a forced one needs its image again.
  rcases missing with hnone | hforce
  · rcases (meets_of_settle_eq settled).1 present with ⟨state, hstate, -⟩
    rw [observed_container, hstate] at hnone
    cases hnone
  · exact image ⟨c, rfl, present, .inr hforce, empty⟩

/-! ## Runs on the daemon -/

/-- A run that succeeds settles its specs one after another. -/
theorem host_play_applyAll {binary : String} {specs : List Spec} {d : Daemon}
    {outcomes : List Outcome}
    (ok : ((Pass.applyAll ⟨binary, false⟩ specs).play host d).result = .ok outcomes) :
    ((Pass.applyAll ⟨binary, false⟩ specs).play host d).host = d.settleAll specs ∧
      ∀ s ∈ specs, s.validate = .ok () ∧ ∃ o, ¬ s.LacksImage o := by
  induction specs generalizing d outcomes with
  | nil => exact ⟨rfl, by simp⟩
  | cons s specs ih =>
      cases hfirst : ((Pass.apply ⟨binary, false⟩ s).play host d).result with
      | error e =>
          rw [Pass.play_applyAll_of_error hfirst] at ok
          cases ok
      | ok outcome =>
          rcases ready_of_result_apply hfirst with ⟨valid, image⟩
          rcases quiet_play_apply_of_ready binary valid image with ⟨plan, commands, -, -, hplay⟩
          have hstate : ((Pass.apply ⟨binary, false⟩ s).play host d).host = d.settle s :=
            congrArg Played.host hplay
          -- The rest of the run starts where the first pass has settled its spec.
          rw [Pass.play_applyAll_of_ok hfirst, hstate] at ok ⊢
          cases hrest : ((Pass.applyAll ⟨binary, false⟩ specs).play host (d.settle s)).result with
          | error e => simp [hrest, Except.map] at ok
          | ok rest =>
              rcases ih hrest with ⟨hhost, hready⟩
              exact ⟨hhost, List.forall_mem_cons.2 ⟨⟨valid, _, image⟩, hready⟩⟩

/-- A run for valid specs none of which can lack an image succeeds, whatever state an earlier run
left behind. -/
theorem exists_outcomes (binary : String) {specs : List Spec}
    (ready : ∀ s ∈ specs, s.validate = .ok () ∧ ∀ o, ¬ s.LacksImage o) (d : Daemon) :
    ∃ outcomes, ((Pass.applyAll ⟨binary, false⟩ specs).play host d).result = .ok outcomes := by
  induction specs generalizing d with
  | nil => exact ⟨[], rfl⟩
  | cons s specs ih =>
      rcases ready s (List.mem_cons_self ..) with ⟨valid, image⟩
      rcases quiet_play_apply_of_ready binary valid (image (Pass.observed host s d)) with
        ⟨plan, commands, -, -, hplay⟩
      have hresult : ((Pass.apply ⟨binary, false⟩ s).play host d).result =
          .ok ⟨plan, commands, true⟩ := congrArg Played.result hplay
      rcases ih (fun t ht => ready t (List.mem_cons_of_mem _ ht))
          ((Pass.apply ⟨binary, false⟩ s).play host d).host with ⟨outcomes, hmore⟩
      refine ⟨⟨plan, commands, true⟩ :: outcomes, ?_⟩
      rw [Pass.play_applyAll_of_ok hresult specs]
      simp [hmore, Except.map]

def Rests (s : Spec) (o : Outcome) : Prop :=
  (∃ reason, o.plan.actions = [.noop s reason]) ∧ o.commands = [] ∧ o.changed = false

/-- A pass for a settled spec succeeds and leaves the daemon as it is.  Only a spec whose commands
are repeated runs a link. -/
theorem play_apply_of_settle_eq (binary : String) {s : Spec} {d : Daemon} (settled : d.settle s = d)
    (valid : s.validate = .ok ()) (image : ¬ s.LacksImage (Pass.observed host s d)) :
    ∃ outcome, ((Pass.apply ⟨binary, false⟩ s).play host d).result = .ok outcome ∧
      ((Pass.apply ⟨binary, false⟩ s).play host d).host = d ∧
      (s.repeats = false → Rests s outcome) ∧
      ∀ link ok, .ran link ok ∈ ((Pass.apply ⟨binary, false⟩ s).play host d).events →
        s.repeats = true := by
  rcases quiet_play_apply_of_ready binary valid image with
    ⟨plan, commands, hplan, hcommands, hplay⟩
  have hnothing (rests : s.repeats = false) :
      (∃ reason, plan.actions = [.noop s reason]) ∧ commands = [] := by
    rcases actions_eq_of_settle_eq settled rests hplan with ⟨reason, hactions⟩
    refine ⟨⟨reason, hactions⟩, ?_⟩
    have : Plan.commands binary plan = .ok [] := by
      simp [Plan.commands, hactions, Action.isNoop, Action.reason?]
      rfl
    exact Except.ok.inj (hcommands.symm.trans this)
  refine ⟨⟨plan, commands, true⟩, congrArg Played.result hplay,
    (congrArg Played.host hplay).trans settled, ?_, ?_⟩
  · intro rests
    rcases hnothing rests with ⟨hactions, rfl⟩
    exact ⟨hactions, rfl, rfl⟩
  · intro link ok hlink
    have hquiet : .ran link ok ∈ ((Pass.apply ⟨binary, false⟩ s).play host d).quiet.events :=
      List.mem_filter.2 ⟨hlink, rfl⟩
    rw [hplay] at hquiet
    cases hrepeats : s.repeats with
    | true => rfl
    | false =>
        -- Without commands the pass only asks its query.
        rw [(hnothing hrepeats).2] at hquiet
        exact absurd (by simpa [Pass.linksOf] using hquiet) (Pass.ran_not_mem_queries s link ok)

/-- A run for settled specs succeeds and leaves the daemon as it is. -/
theorem play_applyAll_of_settle_eq (binary : String) {specs : List Spec} {d : Daemon}
    (ready : ∀ s ∈ specs, d.settle s = d ∧ s.validate = .ok () ∧
      ¬ s.LacksImage (Pass.observed host s d)) :
    ∃ outcomes, ((Pass.applyAll ⟨binary, false⟩ specs).play host d).result = .ok outcomes ∧
      ((Pass.applyAll ⟨binary, false⟩ specs).play host d).host = d ∧
      List.Forall₂ (fun s o => s.repeats = false → Rests s o) specs outcomes ∧
      ∀ link ok, .ran link ok ∈ ((Pass.applyAll ⟨binary, false⟩ specs).play host d).events →
        ∃ s ∈ specs, s.repeats = true ∧ link.WarrantedBy s (Pass.observed host s d) := by
  induction specs with
  | nil => exact ⟨[], rfl, rfl, .nil, by simp [Pass.applyAll, Script.collect, Script.play]⟩
  | cons s specs ih =>
      rcases ready s (List.mem_cons_self ..) with ⟨settled, valid, image⟩
      rcases play_apply_of_settle_eq binary settled valid image with
        ⟨outcome, hresult, hhost, hrests, hlinks⟩
      rcases ih fun t ht => ready t (List.mem_cons_of_mem _ ht) with
        ⟨outcomes, hmore, hend, hothers, hlater⟩
      have hplay := Pass.play_applyAll_of_ok hresult specs
      rw [hhost] at hplay
      rw [hplay]
      refine ⟨outcome :: outcomes, by simp [hmore, Except.map], hend, .cons hrests hothers, ?_⟩
      intro link ok hlink
      rcases List.mem_append.1 hlink with hlink | hlink
      · exact ⟨s, List.mem_cons_self .., hlinks link ok hlink,
          Pass.warrantedBy_of_mem_apply host ⟨binary, false⟩ s d hlink⟩
      · rcases hlater link ok hlink with ⟨t, ht, hrepeats, hwarrant⟩
        exact ⟨t, List.mem_cons_of_mem _ ht, hrepeats, hwarrant⟩

/-! ## Convergence -/

/-- A run for different resources that succeeds brings every one of them to its desired state and
leaves all other containers and volumes alone.  Made again, it succeeds, leaves the daemon as it is,
and does nothing for a volume or for a container that is not forced. -/
theorem applyAll_converges (binary : String) {specs : List Spec}
    (distinct : (specs.map Spec.key).Nodup) (d : Daemon) {outcomes : List Outcome}
    (ok : ((Pass.applyAll ⟨binary, false⟩ specs).play host d).result = .ok outcomes) :
    ∃ d', ((Pass.applyAll ⟨binary, false⟩ specs).play host d).host = d' ∧
      (∀ s ∈ specs, d'.Meets s) ∧
      (∀ name, (∀ s ∈ specs, s.key ≠ (.container, name)) →
        d'.containers name = d.containers name) ∧
      (∀ name, (∀ s ∈ specs, s.key ≠ (.volume, name)) → d'.volumes name = d.volumes name) ∧
      ∃ again, ((Pass.applyAll ⟨binary, false⟩ specs).play host d').result = .ok again ∧
        ((Pass.applyAll ⟨binary, false⟩ specs).play host d').host = d' ∧
        List.Forall₂ (fun s o => s.repeats = false → Rests s o) specs again ∧
        ∀ link ok, .ran link ok ∈ ((Pass.applyAll ⟨binary, false⟩ specs).play host d').events →
          ∃ s ∈ specs, s.repeats = true ∧ link.WarrantedBy s (Pass.observed host s d') := by
  -- The daemon after the run is the one that all specs were settled in.
  rcases host_play_applyAll ok with ⟨hhost, hready⟩
  have hsettled (s : Spec) (hs : s ∈ specs) : (d.settleAll specs).settle s = d.settleAll specs :=
    settle_settleAll_of_mem distinct d hs
  refine ⟨d.settleAll specs, hhost, ?_, ?_, ?_, ?_⟩
  · intro s hs
    exact meets_of_settle_eq (hsettled s hs)
  · intro name other
    exact containers_settleAll d other
  · intro name other
    exact volumes_settleAll d other
  · apply play_applyAll_of_settle_eq
    intro s hs
    rcases hready s hs with ⟨valid, o, image⟩
    exact ⟨hsettled s hs, valid, not_lacksImage_of_settle_eq (hsettled s hs) image⟩

/-- The pass for a container that was created and never started, and for a volume that is no longer
wanted. -/
theorem applyAll_converges_halfway :
    ∃ d', ((Pass.applyAll ⟨"docker", false⟩
          [.container { name := "web", image := "nginx" },
            .volume { name := "data", present := false }]).play host
        ⟨Function.update (fun _ => none) "web" (some "created"),
          Function.update (fun _ => false) "data" true⟩).host = d' ∧
      d'.containers "web" = some "running" ∧ d'.volumes "data" = false := by
  have ready : ∀ s ∈ [Spec.container { name := "web", image := "nginx" },
      .volume { name := "data", present := false }],
      s.validate = .ok () ∧ ∀ o, ¬ s.LacksImage o := by
    intro s hs
    rcases List.mem_cons.1 hs with rfl | hs
    · refine ⟨rfl, ?_⟩
      rintro o ⟨c, hc, -, -, empty⟩
      cases hc
      cases empty
    · cases List.mem_singleton.1 hs
      refine ⟨rfl, ?_⟩
      rintro o ⟨c, hc, -⟩
      cases hc
  rcases exists_outcomes "docker" ready _ with ⟨outcomes, ok⟩
  rcases applyAll_converges "docker" (by decide) _ ok with ⟨d', hhost, hmeets, -⟩
  have hweb := hmeets _ (List.mem_cons_self ..)
  have hdata := hmeets _ (List.mem_cons_of_mem _ (List.mem_cons_self ..))
  rcases hweb.1 rfl with ⟨state, hstate, hrunning⟩
  rw [hrunning.2 rfl] at hstate
  exact ⟨d', hhost, hstate, hdata⟩

end Daemon

end Converge
