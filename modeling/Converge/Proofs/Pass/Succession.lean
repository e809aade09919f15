import Mathlib.Data.List.Chain
import Converge.Proofs.Pass.Course
import Converge.Proofs.Pass.Run

/-!
# One pass after another

A run does nothing but its passes, and it makes them strictly one after another: each starts on the
host that the one before it left, asks its own query there, decides from the answer, and has run its
links before the next one begins.  The run ends with the first pass that fails.

All of this holds for every host, so the answers and the results of links may depend on everything
that happened before.
-/

namespace Converge

namespace Spec

/-- A plan is about the resource that it was made for. -/
theorem about_of_plan_eq_ok {s : Spec} {o : Option Record} {p : Plan} (h : s.plan o = .ok p) :
    p.kind = s.kind ∧ p.identity = s.identity := by
  rcases justified_of_planUnchecked (planUnchecked_of_plan h) with ⟨hkind, hidentity, -⟩
  exact ⟨hkind, hidentity⟩

end Spec

namespace Pass

open Script

variable {σ : Type}

def playPass (h : Host σ) (binary : String) (p : Spec × σ) : Played σ Outcome :=
  (apply ⟨binary, false⟩ p.1).play h p.2

def decided (h : Host σ) (binary : String) (p : Spec × σ) : Except Failure Outcome :=
  (answer h p.1 p.2).1.bind (decision binary p.1)

/-! ## A single pass -/

theorem ran_mem_quiet_iff {α : Type} {p : Played σ α} {i : Invocation} {ok : Bool} :
    .ran i ok ∈ p.quiet.events ↔ .ran i ok ∈ p.events := by
  simp [Played.quiet, Event.touchesHost]

variable {h : Host σ} {binary : String} {p : Spec × σ}

/-- A valid pass that cannot decide ends after its query. -/
theorem quiet_playPass_of_undecided (valid : p.1.validate = .ok ()) {e : Failure}
    (undecided : decided h binary p = .error e) :
    (playPass h binary p).quiet = ⟨queries p.1, (answer h p.1 p.2).2, .error e⟩ := by
  unfold decided at undecided
  rw [playPass, quiet_play_apply_of_valid h ⟨binary, false⟩ valid p.2, undecided]
  rfl

/-- A pass that has decided runs the links of its decision. -/
theorem quiet_playPass_of_decided (valid : p.1.validate = .ok ()) {o : Outcome}
    (taken : decided h binary p = .ok o) :
    (playPass h binary p).quiet =
      ⟨queries p.1 ++ (callAll h (linksOf o.commands) (answer h p.1 p.2).2).events,
        (callAll h (linksOf o.commands) (answer h p.1 p.2).2).host,
        (callAll h (linksOf o.commands) (answer h p.1 p.2).2).result.map
          fun _ => { o with executed := true }⟩ := by
  -- Whatever is decided was not executed yet.
  have hexecuted : o.executed = false := by
    rcases bind_eq_ok_iff.1 taken with ⟨lines, -, hlines⟩
    exact ((decision_eq_ok_iff binary).1 hlines).2.2.2
  rcases o with ⟨plan, commands, executed⟩
  cases hexecuted
  exact quiet_play_apply_of_decision h binary valid taken

/-- A pass that has decided either runs every link of its decision and succeeds, or a link fails. -/
theorem playPass_cases (valid : p.1.validate = .ok ()) {o : Outcome}
    (taken : decided h binary p = .ok o) :
    ((playPass h binary p).result = .ok { o with executed := true } ∧
        (playPass h binary p).quiet.events =
          queries p.1 ++ (linksOf o.commands).map Event.done) ∨
      ∃ i e, (playPass h binary p).result = .error e ∧
        .ran i false ∈ (playPass h binary p).events := by
  have hplay := quiet_playPass_of_decided valid taken
  rcases callAll_cases h (linksOf o.commands) (answer h p.1 p.2).2 with
    ⟨hevents, hresult⟩ | ⟨before, i, after, t, e, -, -, -, hfailed⟩
  · rw [hevents, hresult] at hplay
    exact .inl ⟨congrArg Played.result hplay, congrArg Played.events hplay⟩
  · rw [hfailed] at hplay
    have hfalse : .ran i false ∈ (playPass h binary p).quiet.events := by
      simp [hplay]
    exact .inr ⟨i, e, congrArg Played.result hplay, ran_mem_quiet_iff.1 hfalse⟩

/-- What a pass that succeeded has done. -/
structure Completed (h : Host σ) (binary : String) (p : Spec × σ) (o : Outcome) : Prop where
  result : (playPass h binary p).result = .ok o
  /-- The outcome is what the pass decided, carried out. -/
  taken : ∃ planned, decided h binary p = .ok planned ∧ o = { planned with executed := true }
  about : o.plan.kind = p.1.kind ∧ o.plan.identity = p.1.identity
  /-- Every link of the outcome's commands was run, and none failed. -/
  events : (playPass h binary p).quiet.events = queries p.1 ++ (linksOf o.commands).map Event.done
  changed : o.changed = true ↔ ∃ i ok, .ran i ok ∈ (playPass h binary p).events

theorem linksOf_eq_nil_iff {commands : List Command} : linksOf commands = [] ↔ commands = [] := by
  cases commands with
  | nil => simp [linksOf]
  | cons c commands => simp [linksOf, c.links_ne_nil]

/-- A pass that succeeds has asked, decided, and run all the links of its decision. -/
theorem completed_of_result_eq_ok {o : Outcome} (ok : (playPass h binary p).result = .ok o) :
    Completed h binary p o := by
  cases valid : p.1.validate with
  | error e =>
      rw [← Played.quiet_result, playPass,
        quiet_play_apply_of_invalid h ⟨binary, false⟩ valid] at ok
      cases ok
  | ok u =>
      cases taken : decided h binary p with
      | error e =>
          rw [← Played.quiet_result, quiet_playPass_of_undecided valid taken] at ok
          cases ok
      | ok planned =>
          rcases playPass_cases valid taken with ⟨hresult, hevents⟩ | ⟨i, e, herror, -⟩
          · cases hresult.symm.trans ok
            refine ⟨ok, ⟨planned, taken, rfl⟩, ?_, hevents, ?_⟩
            · rcases bind_eq_ok_iff.1 taken with ⟨lines, -, hlines⟩
              exact Spec.about_of_plan_eq_ok ((decision_eq_ok_iff binary).1 hlines).2.1
            · -- The links are those of the commands, and no command is without a link.
              constructor
              · intro hchanged
                have hsome : linksOf planned.commands ≠ [] := by
                  simpa [Outcome.changed, linksOf_eq_nil_iff] using hchanged
                rcases List.exists_mem_of_ne_nil _ hsome with ⟨i, hi⟩
                have hdone : Event.ran i true ∈ (playPass h binary p).quiet.events := by
                  rw [hevents]
                  exact List.mem_append_right _ (List.mem_map_of_mem hi)
                exact ⟨i, true, ran_mem_quiet_iff.1 hdone⟩
              · rintro ⟨i, ok, hran⟩
                rw [← ran_mem_quiet_iff, hevents] at hran
                rcases List.mem_append.1 hran with hquery | hdone
                · exact absurd hquery (ran_not_mem_queries p.1 i ok)
                · rcases List.mem_map.1 hdone with ⟨j, hj, -⟩
                  have hsome : planned.commands ≠ [] := by
                    rw [Ne, ← linksOf_eq_nil_iff]
                    exact List.ne_nil_of_mem hj
                  simpa [Outcome.changed] using hsome
          · rw [herror] at ok
            cases ok

/-! ## A whole run -/

/-- A run for `specs` from the state `s` that makes the passes `ps`, each with the state that it
starts in, one after another. -/
structure InTurn (h : Host σ) (binary : String) (specs : List Spec) (s : σ)
    (ps : List (Spec × σ)) (run : Played σ (List Outcome)) : Prop where
  /-- The passes are for the specs in their order. -/
  order : ps.map Prod.fst <+: specs
  /-- The first pass starts where the run does, and every other one where the one before ended. -/
  starts : ∀ p ∈ ps.head?, p.2 = s
  follows : ps.IsChain fun p q => q.2 = (playPass h binary p).host
  /-- What happens in the run is what happens in its passes. -/
  events : run.events = ps.flatMap fun p => (playPass h binary p).events
  /-- In the pass for a valid spec its own query comes first, and only links follow. -/
  asksFirst : ∀ p ∈ ps, p.1.validate = .ok () →
    ∃ ran, (playPass h binary p).quiet.events = queries p.1 ++ ran ∧
      ∀ e ∈ ran, ∃ i ok, e = .ran i ok
  /-- Nothing is asked or run for an invalid spec. -/
  invalid : ∀ p ∈ ps, ∀ e, p.1.validate = .error e →
    (playPass h binary p).quiet = ⟨[], p.2, .error e⟩
  /-- A pass acts on what it decides from the answer to its own query: it ends where it cannot decide,
  and otherwise runs the links of its decision. -/
  refuses : ∀ p ∈ ps, p.1.validate = .ok () → ∀ e, decided h binary p = .error e →
    (playPass h binary p).quiet = ⟨queries p.1, (answer h p.1 p.2).2, .error e⟩
  carriesOut : ∀ p ∈ ps, p.1.validate = .ok () → ∀ o, decided h binary p = .ok o →
    (playPass h binary p).quiet =
      ⟨queries p.1 ++ (callAll h (linksOf o.commands) (answer h p.1 p.2).2).events,
        (callAll h (linksOf o.commands) (answer h p.1 p.2).2).host,
        (callAll h (linksOf o.commands) (answer h p.1 p.2).2).result.map
          fun _ => { o with executed := true }⟩
  /-- Either there is a pass for every spec, and all of them succeed, or the last pass is the first
  one to fail, and its failure is the result. -/
  ends :
    (ps.map Prod.fst = specs ∧
      ∃ outcomes, run.result = .ok outcomes ∧ List.Forall₂ (Completed h binary) ps outcomes) ∨
    ∃ done last outcomes e, ps = done ++ [last] ∧ List.Forall₂ (Completed h binary) done outcomes ∧
      (playPass h binary last).result = .error e ∧ run.result = .error e
  /-- A run for some specs and then others is a run for the ones, followed by one for the others. -/
  parts : ∀ first rest, specs = first ++ rest →
    run = ((applyAll ⟨binary, false⟩ first).play h s).andThen fun outcomes t =>
      ⟨((applyAll ⟨binary, false⟩ rest).play h t).events,
        ((applyAll ⟨binary, false⟩ rest).play h t).host,
        ((applyAll ⟨binary, false⟩ rest).play h t).result.map (outcomes ++ ·)⟩

theorem passes_starts (h : Host σ) (settings : Settings) (specs : List Spec) (s : σ) :
    ∀ p ∈ (passes h settings specs s).head?, p.2 = s := by
  cases specs with
  | nil => simp [passes]
  | cons spec specs => simp [passes]

/-- Each pass starts where the one before it left the host. -/
theorem passes_isChain (h : Host σ) (binary : String) (specs : List Spec) (s : σ) :
    (passes h ⟨binary, false⟩ specs s).IsChain fun p q => q.2 = (playPass h binary p).host := by
  induction specs generalizing s with
  | nil => exact .nil
  | cons spec specs ih =>
      rw [passes, List.isChain_cons]
      cases ((apply ⟨binary, false⟩ spec).play h s).result with
      | ok outcome => exact ⟨passes_starts h ⟨binary, false⟩ specs _, ih _⟩
      | error e => exact ⟨by simp, .nil⟩

/-- A run ends well after a pass for every spec, or with the first pass that fails. -/
theorem applyAll_ends (h : Host σ) (binary : String) (specs : List Spec) (s : σ) :
    ((passes h ⟨binary, false⟩ specs s).map Prod.fst = specs ∧
      ∃ outcomes, ((applyAll ⟨binary, false⟩ specs).play h s).result = .ok outcomes ∧
        List.Forall₂ (Completed h binary) (passes h ⟨binary, false⟩ specs s) outcomes) ∨
    ∃ done last outcomes e, passes h ⟨binary, false⟩ specs s = done ++ [last] ∧
      List.Forall₂ (Completed h binary) done outcomes ∧
      (playPass h binary last).result = .error e ∧
      ((applyAll ⟨binary, false⟩ specs).play h s).result = .error e := by
  induction specs generalizing s with
  | nil => exact .inl ⟨rfl, [], rfl, .nil⟩
  | cons spec specs ih =>
      rw [passes]
      cases hresult : ((apply ⟨binary, false⟩ spec).play h s).result with
      | error e =>
          rw [play_applyAll_of_error hresult]
          exact .inr ⟨[], (spec, s), [], e, rfl, .nil, hresult, rfl⟩
      | ok outcome =>
          have hfirst : Completed h binary (spec, s) outcome := completed_of_result_eq_ok hresult
          rw [play_applyAll_of_ok hresult]
          -- The rest of the run starts where the first pass has left the host.
          rcases ih ((apply ⟨binary, false⟩ spec).play h s).host with
            ⟨hall, outcomes, hok, hrest⟩ | ⟨done, last, outcomes, e, hdone, hrest, hlast, herror⟩
          · refine .inl ⟨by simp [hall], outcome :: outcomes, ?_, .cons hfirst hrest⟩
            simp [hok, Except.map]
          · refine .inr ⟨(spec, s) :: done, last, outcome :: outcomes, e, by simp [hdone],
              .cons hfirst hrest, hlast, ?_⟩
            simp [herror, Except.map]

/-- A run for two lists of specs is a run for the first and then one for the second. -/
theorem play_applyAll_append (h : Host σ) (settings : Settings) (first rest : List Spec) (s : σ) :
    (applyAll settings (first ++ rest)).play h s =
      ((applyAll settings first).play h s).andThen fun outcomes t =>
        ⟨((applyAll settings rest).play h t).events, ((applyAll settings rest).play h t).host,
          ((applyAll settings rest).play h t).result.map (outcomes ++ ·)⟩ := by
  induction first generalizing s with
  | nil =>
      have hnil : (applyAll settings []).play h s = ⟨[], s, .ok []⟩ := rfl
      rw [List.nil_append, hnil, Played.andThen_ok]
      rcases (applyAll settings rest).play h s with ⟨events, t, result⟩
      cases result <;> rfl
  | cons spec first ih =>
      cases hresult : ((apply settings spec).play h s).result with
      | error e =>
          rw [List.cons_append, play_applyAll_of_error hresult, play_applyAll_of_error hresult]
          rfl
      | ok outcome =>
          rw [List.cons_append, play_applyAll_of_ok hresult, play_applyAll_of_ok hresult, ih]
          -- The passes for `first` fail on both sides or on none.
          rcases (applyAll settings first).play h ((apply settings spec).play h s).host with
            ⟨events, t, result⟩
          cases result with
          | error e => rfl
          | ok outcomes =>
              simp only [Except.map, Played.andThen_ok]
              rcases (applyAll settings rest).play h t with ⟨more, u, result⟩
              cases result <;> simp

/-- A run makes its passes one after another, whatever the host answers. -/
theorem applyAll_inTurn (h : Host σ) (binary : String) (specs : List Spec) (s : σ) :
    InTurn h binary specs s (passes h ⟨binary, false⟩ specs s)
      ((applyAll ⟨binary, false⟩ specs).play h s) where
  order := passes_isPrefix h ⟨binary, false⟩ specs s
  starts := passes_starts h ⟨binary, false⟩ specs s
  follows := passes_isChain h binary specs s
  events := events_play_applyAll h ⟨binary, false⟩ specs s
  asksFirst p _ valid := exists_events_eq h ⟨binary, false⟩ valid p.2
  invalid p _ _ invalid := quiet_play_apply_of_invalid h ⟨binary, false⟩ invalid p.2
  refuses _ _ valid _ undecided := quiet_playPass_of_undecided valid undecided
  carriesOut _ _ valid _ taken := quiet_playPass_of_decided valid taken
  ends := applyAll_ends h binary specs s
  parts first rest hspecs := hspecs ▸ play_applyAll_append h ⟨binary, false⟩ first rest s

end Pass

end Converge
