import Converge.Proofs.Pass.Belief
import Converge.Proofs.Pass.Survey
import Converge.Proofs.Plan.Shape

/-!
# Links that cannot be started

No process can be given the character U+0000, and a text of a spec that has it is refused only when
its link is due.  Nearly every plan has that link first, so that nothing has been done by then.  The
exception is a container that is removed in order to be created anew: the removal needs no more than
the container's name, and it is carried out although the creation can never follow.

The processes that links become are listed by the machine itself (`Machine.listing`); a machine is
not told of links that are refused.
-/

namespace Converge

/-- The machine with a list of the processes that it was told to start, the oldest first. -/
def Machine.listing {σ : Type} (m : Machine σ) : Machine (σ × List Invocation) where
  start s i := ((m.start s.1 i).1, (m.start s.1 i).2, s.2 ++ [i])

/-- A text that no program can be given. -/
def IsBarred (text : String) : Prop := Char.ofNat 0 ∈ text.toList

instance (text : String) : Decidable (IsBarred text) :=
  inferInstanceAs (Decidable (_ ∈ _))

theorem Invocation.hasNul_iff {i : Invocation} : i.hasNul = true ↔ ∃ w ∈ i.words, IsBarred w := by
  simp [hasNul, IsBarred]

/-- A link with an argument that no program can be given. -/
theorem Invocation.hasNul_of_mem_args {i : Invocation} {arg : String} (harg : arg ∈ i.args)
    (barred : IsBarred arg) : i.hasNul = true :=
  hasNul_iff.2 ⟨arg, List.mem_cons_of_mem _ harg, barred⟩

/-! ## Plans -/

/-- The steps for a container: a single one, or a removal and a creation. -/
theorem Container.actions_cases (c : Container) (observed : Option Record) :
    (∃ a, c.actions observed = [a]) ∨
      c.actions observed = [.remove (.container c), .create (.container c)] := by
  rw [actions_eq_guarded]
  rcases c.guarded_cases (.of observed) with hnone | ⟨a, hone, -⟩ | ⟨hremove, -⟩ | ⟨hreplace, -⟩
  · rw [hnone]
    exact .inl ⟨_, rfl⟩
  · rw [hone]
    exact .inl ⟨a, rfl⟩
  · rw [hremove]
    exact .inl ⟨_, rfl⟩
  · rw [hreplace]
    exact .inr rfl

namespace Spec

/-- The steps for a resource: a single one, or the removal and the creation of a container. -/
theorem actions_cases {s : Spec} {o : Option Record} {p : Plan} (planned : s.plan o = .ok p) :
    (∃ a, p.actions = [a]) ∨ ∃ c, s = .container c ∧ p.actions = [.remove s, .create s] := by
  have hunchecked := planUnchecked_of_plan planned
  cases s with
  | container c =>
      rw [Container.actions_of_plan_eq_ok hunchecked]
      exact (c.actions_cases o).imp_right fun hreplaced => ⟨c, rfl, hreplaced⟩
  | image i =>
      cases hunchecked
      exact .inl ⟨_, rfl⟩
  | volume v =>
      cases hunchecked
      exact .inl ⟨_, rfl⟩
  | network n =>
      cases hunchecked
      exact .inl ⟨_, rfl⟩

end Spec

def LosesContainer (binary : String) (s : Spec) (p : Plan) : Prop :=
  p.actions = [.remove s, .create s] ∧ (removal binary s).hasNul = false

/-- Whatever cannot be started in a chain of links keeps its first link from starting: a container
is created under the name under which it is started. -/
theorem Action.first_barred {a : Action} {binary : String} {command : Command}
    (h : a.command binary = .ok command)
    (barred : ∃ link ∈ command.links, ∃ arg ∈ link.args, IsBarred arg) :
    ∃ first rest, command.links = first :: rest ∧ first.hasNul = true := by
  rcases barred with ⟨link, hlink, arg, harg, hbarred⟩
  rcases command_cases h with ⟨c, rfl, hcreate⟩ | ⟨-, args, rfl⟩
  · have hlinks := Container.links_of_createCommand hcreate
    have hcreated : arg ∈ c.createArgs := by
      rw [hlinks] at hlink
      rcases List.mem_cons.1 hlink with rfl | hstarted
      · exact harg
      · have hname : c.name ∈ c.createArgs := by simp [Container.createArgs]
        cases hstart : c.start with
        | false => simp [hstart] at hstarted
        | true =>
            have hlink : link = ⟨binary, c.startArgs⟩ := by simpa [hstart] using hstarted
            subst hlink
            have hwords : arg = "container" ∨ arg = "start" ∨ arg = c.name := by
              simpa [Container.startArgs] using harg
            rcases hwords with rfl | rfl | rfl
            · exact absurd hbarred (by decide)
            · exact absurd hbarred (by decide)
            · exact hname
    exact ⟨_, _, hlinks, Invocation.hasNul_of_mem_args hcreated hbarred⟩
  · cases List.mem_singleton.1 hlink
    exact ⟨_, [], rfl, Invocation.hasNul_of_mem_args harg hbarred⟩

namespace Pass

/-- Where some link of a plan cannot be started, its first one cannot, or a container is lost. -/
theorem links_of_barred {binary : String} {s : Spec} {o : Option Record} {p : Plan}
    {commands : List Command} (planned : s.plan o = .ok p)
    (rendered : p.commands binary = .ok commands)
    (barred : ∃ link ∈ linksOf commands, ∃ arg ∈ link.args, IsBarred arg) :
    (¬ LosesContainer binary s p ∧
      ∃ first rest, linksOf commands = first :: rest ∧ first.hasNul = true) ∨
    (LosesContainer binary s p ∧
      ∃ next rest, linksOf commands = removal binary s :: next :: rest ∧ next.hasNul = true) := by
  have hsteps := Plan.forall₂_of_commands_eq_ok rendered
  rcases Spec.actions_cases planned with ⟨a, hactions⟩ | ⟨c, rfl, hactions⟩
  · have hkept : ¬ LosesContainer binary s p := by
      rintro ⟨hlost, -⟩
      simp [hactions] at hlost
    refine .inl ⟨hkept, ?_⟩
    rw [hactions] at hsteps
    cases hnoop : a.isNoop with
    | true =>
        -- Without a step there is no link.
        have hnone : commands = [] := by simpa [hnoop] using hsteps
        simp [hnone, linksOf] at barred
    | false =>
        have hone : ∃ command, a.command binary = .ok command ∧ commands = [command] := by
          simpa [hnoop, List.forall₂_cons_left_iff] using hsteps
        rcases hone with ⟨command, hcommand, rfl⟩
        have hlinks : linksOf [command] = command.links := by simp [linksOf]
        rw [hlinks] at barred ⊢
        exact Action.first_barred hcommand barred
  · rw [hactions] at hsteps
    have htwo : ∃ command, Action.command binary (.create (.container c)) = .ok command ∧
        commands = [.last (removal binary (.container c)), command] := by
      rcases hsteps with _ | ⟨hremove, _ | ⟨hcreate, _ | _⟩⟩
      rw [Action.command_remove] at hremove
      exact ⟨_, hcreate, by rw [← Except.ok.inj hremove]⟩
    rcases htwo with ⟨command, hcommand, rfl⟩
    have hlinks : linksOf [.last (removal binary (.container c)), command] =
        removal binary (.container c) :: command.links := by simp [linksOf, Command.links]
    rw [hlinks] at barred ⊢
    cases hremoval : (removal binary (.container c)).hasNul with
    | true => exact .inl ⟨fun hlost => by simp [hlost.2] at hremoval, _, _, rfl, hremoval⟩
    | false =>
        -- Nothing of the removal is barred, so it is something of the creation.
        have hcreation : ∃ link ∈ command.links, ∃ arg ∈ link.args, IsBarred arg := by
          rcases barred with ⟨link, hlink, arg, harg, hbarred⟩
          rcases List.mem_cons.1 hlink with rfl | hlink
          · rw [Invocation.hasNul_of_mem_args harg hbarred] at hremoval
            cases hremoval
          · exact ⟨link, hlink, arg, harg, hbarred⟩
        rcases Action.first_barred hcommand hcreation with ⟨next, rest, hnext, hnul⟩
        exact .inr ⟨⟨hactions, hremoval⟩, next, rest, by rw [hnext], hnul⟩

/-! ## Passes -/

section Pass

variable {σ : Type} (fetch : σ → Query → Except Failure (List String) × σ) (m : Machine σ)

def listed : Host (σ × List Invocation) :=
  onMachine (fun s q => ((fetch s.1 q).1, (fetch s.1 q).2, s.2)) m.listing

variable {fetch m}

/-- Links that can be passed on are listed. -/
theorem left_listing {i : Invocation} (startable : i.hasNul = false) (s : σ × List Invocation) :
    (m.listing.left s i).2 = s.2 ++ [i] := by
  simp [Machine.left, Machine.listing, startable]

theorem answer_listed (spec : Spec) (s : σ × List Invocation) :
    (answer (listed fetch m) spec s).2.2 = s.2 := by
  unfold answer
  cases spec.kind <;> rfl

theorem callAll_of_first_barred {first : Invocation} (h : first.hasNul = true)
    (rest : List Invocation) (s : σ × List Invocation) :
    callAll (listed fetch m) (first :: rest) s =
      ⟨[.ran first false], s, .error (.system .nulByte)⟩ := by
  have hfails : m.listing.FailsWith s first (.system .nulByte) := .barred h
  have hplay : callAll (listed fetch m) (first :: rest) s =
      ⟨[.ran first false], m.listing.left s first, .error (.system .nulByte)⟩ :=
    callAll_of_first_failsWith hfails rest
  rwa [Machine.left_of_hasNul h] at hplay

variable (fetch m) in
/-- A link that can be started, before one that cannot. -/
theorem callAll_of_next_barred {first next : Invocation} (startable : first.hasNul = false)
    (h : next.hasNul = true) (rest : List Invocation) (s : σ × List Invocation) :
    (callAll (listed fetch m) (first :: next :: rest) s).host.2 = s.2 ++ [first] ∧
      ∃ e, (callAll (listed fetch m) (first :: next :: rest) s).result = .error e := by
  rcases m.listing.endsWell_or_failsWith s first with hends | ⟨e, hfails⟩
  · have hbefore : m.listing.Completes [first] s := ⟨hends, trivial⟩
    have hplay : callAll (listed fetch m) ([first] ++ next :: rest) s =
        ⟨[.done first, .ran next false], m.listing.left (m.listing.left s first) next,
          .error (.system .nulByte)⟩ :=
      callAll_of_failsWith hbefore (.barred h) rest
    rw [Machine.left_of_hasNul h] at hplay
    exact ⟨(congrArg (fun p => p.host.2) hplay).trans (left_listing startable s),
      _, congrArg Played.result hplay⟩
  · have hplay : callAll (listed fetch m) (first :: next :: rest) s =
        ⟨[.ran first false], m.listing.left s first, .error e⟩ :=
      callAll_of_first_failsWith hfails (next :: rest)
    exact ⟨(congrArg (fun p => p.host.2) hplay).trans (left_listing startable s),
      _, congrArg Played.result hplay⟩

end Pass

/-- How a pass ends whose plan has a link that cannot be started.  `past` are the processes that
were started before. -/
structure EndsBarred {σ : Type} (fetch : σ → Query → Except Failure (List String) × σ)
    (m : Machine σ) (binary : String) (spec : Spec) (s : σ) (past : List Invocation)
    (outcome : Outcome) : Prop where
  /-- It fails. -/
  fails : ∃ e, ((apply ⟨binary, false⟩ spec).play (listed fetch m) (s, past)).result = .error e
  /-- Nothing has been started by then, -/
  untouched : ¬ LosesContainer binary spec outcome.plan →
    ((apply ⟨binary, false⟩ spec).play (listed fetch m) (s, past)).result =
        .error (.system .nulByte) ∧
      ((apply ⟨binary, false⟩ spec).play (listed fetch m) (s, past)).host.2 = past
  /-- unless a container was to be created anew: then its removal has been, and nothing else. -/
  lost : LosesContainer binary spec outcome.plan →
    ((apply ⟨binary, false⟩ spec).play (listed fetch m) (s, past)).host.2 =
      past ++ [removal binary spec]
  /-- A dry run starts nothing and is none the wiser. -/
  dry : ((apply ⟨binary, true⟩ spec).play (listed fetch m) (s, past)).result = .ok outcome ∧
    ((apply ⟨binary, true⟩ spec).play (listed fetch m) (s, past)).host.2 = past

/-- A link that cannot be started makes every pass fail, and nothing is started before it but the
removal of a container that was to be created anew. -/
theorem endsBarred {σ : Type} (fetch : σ → Query → Except Failure (List String) × σ)
    (m : Machine σ) (binary : String) (spec : Spec) (s : σ) (past : List Invocation)
    (outcome : Outcome)
    (planned : ((plan binary spec).play (listed fetch m) (s, past)).result = .ok outcome)
    (barred : ∃ link ∈ linksOf outcome.commands, ∃ arg ∈ link.args, IsBarred arg) :
    EndsBarred fetch m binary spec s past outcome := by
  rcases result_play_plan_eq_ok_iff.1 planned with ⟨hvalid, hdecided⟩
  rcases exists_plan_of_planned planned with ⟨observed, hplan, hcommands, -⟩
  have hpast : (answer (listed fetch m) spec (s, past)).2.2 = past := answer_listed spec (s, past)
  have hplay := quiet_playPass_of_decided (p := (spec, (s, past))) hvalid hdecided
  have hresult := congrArg Played.result hplay
  have hhost := congrArg (fun p => p.host.2) hplay
  dsimp only [Played.quiet_result, Played.quiet_host, playPass] at hresult hhost
  have hdry : ((apply ⟨binary, true⟩ spec).play (listed fetch m) (s, past)).host.2 = past := by
    rw [host_play_apply_dryRun, play_plan_of_valid hvalid, hpast]
  rcases links_of_barred hplan hcommands barred with
    ⟨hkept, first, rest, hlinks, hnul⟩ | ⟨hlost, next, rest, hlinks, hnul⟩
  · rw [hlinks, callAll_of_first_barred hnul] at hresult hhost
    exact {
      fails := ⟨_, hresult⟩
      untouched := fun _ => ⟨hresult, hhost.trans hpast⟩
      lost := fun hlost => absurd hlost hkept
      dry := ⟨(result_play_apply_dryRun spec _).trans planned, hdry⟩ }
  · rw [hlinks] at hresult hhost
    rcases callAll_of_next_barred fetch m hlost.2 hnul rest
        (answer (listed fetch m) spec (s, past)).2 with
      ⟨hstarted, e, hfailed⟩
    rw [hfailed] at hresult
    exact {
      fails := ⟨e, hresult⟩
      untouched := fun hkept => absurd hlost hkept
      lost := fun _ => by rw [hhost, hstarted, hpast]
      dry := ⟨(result_play_apply_dryRun spec _).trans planned, hdry⟩ }

/-! ## A container that is lost -/

def uncreatable : Container where
  name := "web"
  image := "nginx"
  envVars := ["A=\x00"]
  force := true

def finding : Host (Unit × List Invocation) :=
  listed (answering "4f1e8d02" "web").fetch ⟨fun s _ => (.ok {}, s)⟩

/-- The container is to be removed and created, which are three links. -/
theorem decision_uncreatable :
    decision "docker" (.container uncreatable) [(Json.object (naming "4f1e8d02" "web")).render] =
      .ok ⟨.ofActions (.container uncreatable)
          [.remove (.container uncreatable), .create (.container uncreatable)],
        [.last (removal "docker" (.container uncreatable)),
          .followed ⟨"docker", uncreatable.createArgs⟩ (.last ⟨"docker", uncreatable.startArgs⟩)],
        false⟩ := by
  rcases Fact.parse_eq_ok_iff.1 (parse_naming "4f1e8d02" "web") with ⟨faultless, hrecords⟩
  refine (decision_eq_ok_iff "docker").2 ⟨faultless, ?_, by decide, rfl⟩
  rw [← hrecords, Spec.plan_of_validate_eq_ok ((Spec.validate_eq_ok_iff_none _).2 (by decide))]
  rfl

theorem planned_uncreatable :
    ∃ outcome, ((plan "docker" (.container uncreatable)).play finding ((), [])).result =
        .ok outcome ∧
      ∃ link ∈ linksOf outcome.commands, ∃ arg ∈ link.args, IsBarred arg := by
  have hvalid : (Spec.container uncreatable).validate = .ok () :=
    (Spec.validate_eq_ok_iff_none _).2 (by decide)
  refine ⟨_, (result_plan rfl rfl "docker" hvalid).trans decision_uncreatable, ?_⟩
  exact ⟨⟨"docker", uncreatable.createArgs⟩, by simp [linksOf, Command.links], "A=\x00", by decide,
    by decide⟩

/-- The pass for that container ends as every pass with such a link does. -/
theorem endsBarred_uncreatable :
    ∃ outcome, ((plan "docker" (.container uncreatable)).play finding ((), [])).result =
        .ok outcome ∧
      (∃ link ∈ linksOf outcome.commands, ∃ arg ∈ link.args, IsBarred arg) ∧
      EndsBarred (answering "4f1e8d02" "web").fetch ⟨fun s _ => (.ok {}, s)⟩ "docker"
        (.container uncreatable) () [] outcome := by
  rcases planned_uncreatable with ⟨outcome, hplanned, hbarred⟩
  exact ⟨outcome, hplanned, hbarred, endsBarred _ _ _ _ _ _ _ hplanned hbarred⟩

/-- The container is removed, and then its creation is refused. -/
theorem removes_uncreatable :
    (∃ outcome, ((plan "docker" (.container uncreatable)).play finding ((), [])).result =
        .ok outcome ∧
      ∃ link ∈ linksOf outcome.commands, ∃ arg ∈ link.args, IsBarred arg) ∧
    ((apply {} (.container uncreatable)).play finding ((), [])).result =
      .error (.system .nulByte) ∧
    ((apply {} (.container uncreatable)).play finding ((), [])).host.2 =
      [⟨"docker", ["container", "rm", "-f", "web"]⟩] := by
  have hvalid : (Spec.container uncreatable).validate = .ok () :=
    (Spec.validate_eq_ok_iff_none _).2 (by decide)
  have hplay := quiet_play_apply_of_decision (s := ((), [])) finding "docker" hvalid
    decision_uncreatable
  exact ⟨planned_uncreatable, congrArg Played.result hplay, congrArg (fun p => p.host.2) hplay⟩

end Pass

end Converge
