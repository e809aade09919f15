import Converge.Console.Run
import Converge.Proofs.Docker.Convergence
import Converge.Proofs.Pass.Succession

/-!
# What a plan foretells

Planning looks at every resource on the untouched host.  A run looks at a resource only after the
passes before it have changed the host.  On a host that keeps its resources apart both see the same,
so a run for different resources in which no link fails does what was planned, in whatever order the
resources are taken.

The proof carries one fact through the run: what is answered about a resource whose pass is still to
come is what was answered at the start.
-/

namespace Converge

/-! ## Resources that are kept apart -/

def Host.reply {σ : Type} (h : Host σ) (s : σ) (key : Kind × String) :
    Except Failure (List String) :=
  (h.fetch s (.inspect key.1 key.2)).1

def Invocation.Serves (binary : String) (key : Kind × String) (link : Invocation) : Prop :=
  ∃ a c, Action.command binary a = .ok c ∧ a.spec.key = key ∧ link ∈ c.links

/-- Inspections change no answers, and the links for a resource change no answers about others.
What else they do to the host is left open. -/
structure Host.KeepsApart {σ : Type} (h : Host σ) (binary : String) : Prop where
  inspecting : ∀ (s : σ) (key other : Kind × String),
    h.reply (h.fetch s (.inspect key.1 key.2)).2 other = h.reply s other
  running : ∀ (s : σ) (key other : Kind × String) (link : Invocation), link.Serves binary key →
    other ≠ key → h.reply (h.run s link).2 other = h.reply s other

namespace Pass

open Script

variable {σ : Type} {h : Host σ} {binary : String}

/-- The queries of a pass change no answers. -/
theorem reply_answer (apart : h.KeepsApart binary) (spec : Spec) (s : σ) (other : Kind × String) :
    h.reply (answer h spec s).2 other = h.reply s other := by
  unfold answer
  cases spec.kind with
  | container => exact apart.inspecting s (.container, spec.identity) other
  | volume => exact apart.inspecting s (.volume, spec.identity) other
  | image => rfl
  | network => rfl

/-- The links for a resource leave the answers about others alone, also where one of them fails. -/
theorem reply_callAll (apart : h.KeepsApart binary) {key other : Kind × String}
    (different : other ≠ key) {links : List Invocation}
    (serve : ∀ link ∈ links, link.Serves binary key) (s : σ) :
    h.reply (callAll h links s).host other = h.reply s other := by
  induction links generalizing s with
  | nil => rfl
  | cons i links ih =>
      have hfirst : h.reply (h.run s i).2 other = h.reply s other :=
        apart.running s key other i (serve i (List.mem_cons_self ..)) different
      rw [callAll_cons]
      cases (h.run s i).1 with
      | error e => exact hfirst
      | ok u =>
          calc
            h.reply (callAll h links (h.run s i).2).host other
                = h.reply (h.run s i).2 other :=
                  ih (fun link hlink => serve link (List.mem_cons_of_mem _ hlink)) _
            _ = h.reply s other := hfirst

/-! ## Planning -/

/-- A decision depends on the host only by what is answered about the resource itself. -/
theorem decided_congr {spec : Spec} {s t : σ} (same : h.reply t spec.key = h.reply s spec.key) :
    decided h binary (spec, t) = decided h binary (spec, s) := by
  have hanswer : (answer h spec t).1 = (answer h spec s).1 := by
    unfold Host.reply Spec.key at same
    unfold answer
    cases hkind : spec.kind <;> simp_all
  unfold decided
  rw [hanswer]

/-- The decided links serve the resource. -/
theorem serves_of_decided {spec : Spec} {s : σ} {o : Outcome}
    (taken : decided h binary (spec, s) = .ok o) {link : Invocation}
    (hlink : link ∈ linksOf o.commands) : link.Serves binary spec.key := by
  rcases bind_eq_ok_iff.1 taken with ⟨lines, -, hlines⟩
  rcases exists_step_of_mem_linksOf binary hlines hlink with ⟨a, c, hjust, hcommand, hlink⟩
  exact ⟨a, c, hcommand, congrArg Spec.key hjust.spec_eq, hlink⟩

/-- Planning a valid spec asks its query and comes to the decision. -/
theorem play_plan_of_valid {spec : Spec} (valid : spec.validate = .ok ()) (s : σ) :
    (plan binary spec).play h s =
      ⟨queries spec, (answer h spec s).2, decided h binary (spec, s)⟩ := by
  rw [play_plan, valid, inquire_eq, decided]
  cases (answer h spec s).1 with
  | error e => rfl
  | ok lines => simp [Except.bind]

theorem result_play_plan_eq_ok_iff {spec : Spec} {s : σ} {o : Outcome} :
    ((plan binary spec).play h s).result = .ok o ↔
      spec.validate = .ok () ∧ decided h binary (spec, s) = .ok o := by
  cases valid : spec.validate with
  | error e => simp [play_plan, valid]
  | ok u => simp [play_plan_of_valid valid]

/-- What planning comes to depends on the host only by what is answered about the resource. -/
theorem result_play_plan_congr {spec : Spec} {s t : σ} {o : Outcome}
    (same : h.reply t spec.key = h.reply s spec.key)
    (planned : ((plan binary spec).play h s).result = .ok o) :
    ((plan binary spec).play h t).result = .ok o := by
  rw [result_play_plan_eq_ok_iff] at planned ⊢
  rwa [decided_congr same]

/-- Where planning succeeds for all specs, it gives each of them its outcome. -/
theorem exists_forecast {specs : List Spec} {s : σ}
    (planned : ∀ spec ∈ specs, ∃ o, ((plan binary spec).play h s).result = .ok o) :
    ∃ forecast : Spec → Outcome,
      ∀ spec ∈ specs, ((plan binary spec).play h s).result = .ok (forecast spec) := by
  have hevery : ∀ spec, ∃ o, spec ∈ specs → ((plan binary spec).play h s).result = .ok o := by
    intro spec
    by_cases hspec : spec ∈ specs
    · exact (planned spec hspec).imp fun _ ho _ => ho
    · exact ⟨⟨.ofActions spec [], [], false⟩, fun habsurd => absurd habsurd hspec⟩
  exact Classical.skolem.1 hevery

/-! ## Runs -/

/-- A pass leaves the answers about other resources alone. -/
theorem reply_playPass (apart : h.KeepsApart binary) {spec : Spec} {s : σ} {o : Outcome}
    (planned : ((plan binary spec).play h s).result = .ok o) {other : Kind × String}
    (different : other ≠ spec.key) :
    h.reply (playPass h binary (spec, s)).host other = h.reply s other := by
  rcases result_play_plan_eq_ok_iff.1 planned with ⟨valid, taken⟩
  rw [← Played.quiet_host, quiet_playPass_of_decided (p := (spec, s)) valid taken]
  calc
    h.reply (callAll h (linksOf o.commands) (answer h spec s).2).host other
        = h.reply (answer h spec s).2 other :=
          reply_callAll apart different (fun _ => serves_of_decided taken) _
    _ = h.reply s other := reply_answer apart spec s other

/-- A run that does what a forecast says of each of its specs. -/
structure Foretold (h : Host σ) (binary : String) (forecast : Spec → Outcome) (specs : List Spec)
    (s : σ) : Prop where
  result : ((applyAll ⟨binary, false⟩ specs).play h s).result =
    .ok (specs.map fun spec => { forecast spec with executed := true })
  /-- The links of the foretold commands are run, for each spec after its query, and no others. -/
  events : ((applyAll ⟨binary, false⟩ specs).play h s).quiet.events =
    specs.flatMap fun spec => queries spec ++ (linksOf (forecast spec).commands).map Event.done

/-- A run for different resources does what was planned for them, unless a link fails. -/
theorem foretold_of_planned (apart : h.KeepsApart binary) {specs : List Spec}
    (distinct : (specs.map Spec.key).Nodup) {forecast : Spec → Outcome} {s : σ}
    (planned : ∀ spec ∈ specs, ((plan binary spec).play h s).result = .ok (forecast spec))
    (unfailing : ∀ i, .ran i false ∉ ((applyAll ⟨binary, false⟩ specs).play h s).events) :
    Foretold h binary forecast specs s := by
  induction specs generalizing s with
  | nil => exact ⟨rfl, rfl⟩
  | cons spec specs ih =>
      rw [List.map_cons, List.nodup_cons] at distinct
      have hspec := planned spec (List.mem_cons_self ..)
      rcases result_play_plan_eq_ok_iff.1 hspec with ⟨valid, taken⟩
      rcases playPass_cases (p := (spec, s)) valid taken with
        ⟨hresult, hevents⟩ | ⟨i, e, herror, hfailed⟩
      · have hplay := play_applyAll_of_ok hresult specs
        -- The specs that are left are planned alike before and after the pass for `spec`.
        have hrest : Foretold h binary forecast specs (playPass h binary (spec, s)).host := by
          apply ih distinct.2
          · intro t ht
            have hkey : t.key ≠ spec.key := by
              intro hsame
              exact distinct.1 (hsame ▸ List.mem_map_of_mem ht)
            exact result_play_plan_congr (reply_playPass apart hspec hkey)
              (planned t (List.mem_cons_of_mem _ ht))
          · intro i hi
            apply unfailing i
            rw [hplay]
            exact List.mem_append_right _ hi
        constructor
        · have hresults := hrest.result
          rw [playPass] at hresults
          rw [hplay, hresults]
          rfl
        · rw [hplay, Played.quiet_mk, List.filter_append, List.flatMap_cons, ← hevents,
            ← hrest.events]
          rfl
      · refine absurd ?_ (unfailing i)
        rw [play_applyAll_of_error herror]
        exact hfailed

/-- A run that succeeds is one in which no link has failed. -/
theorem ran_false_not_mem_of_result_applyAll {specs : List Spec} {s : σ} {outcomes : List Outcome}
    (ok : ((applyAll ⟨binary, false⟩ specs).play h s).result = .ok outcomes) (i : Invocation) :
    .ran i false ∉ ((applyAll ⟨binary, false⟩ specs).play h s).events := by
  intro hfailed
  rcases applyAll_ends h binary specs s with ⟨-, done, -, hdone⟩ | ⟨_, _, _, e, -, -, -, herror⟩
  · rw [events_play_applyAll] at hfailed
    rcases List.mem_flatMap.1 hfailed with ⟨p, hp, hran⟩
    rcases exists_mem_of_forall₂ hdone hp with ⟨o, -, hcompleted⟩
    have hquiet := ran_mem_quiet_iff.2 hran
    rw [← playPass, hcompleted.events] at hquiet
    exact ran_false_not_mem p.1 _ i hquiet
  · rw [herror] at ok
    cases ok

end Pass

/-! ## What is printed -/

namespace Console

open Script

variable {σ : Type} {h : Host σ}

def printed (o : Outcome) : List String :=
  (o.plan.actions.map fun a => "# " ++ a.describe) ++ o.commands.map Command.line

@[simp] theorem Report.outputOf_append (first rest : List Event) :
    Report.outputOf (first ++ rest) = Report.outputOf first ++ Report.outputOf rest := by
  simp [Report.outputOf]

@[simp] theorem Report.outputOf_queries (spec : Spec) :
    Report.outputOf (Pass.queries spec) = [] := by
  unfold Pass.queries
  cases spec.kind <;> rfl

theorem play_each_say {α : Type} (xs : List α) (text : α → String) (s : σ) :
    (each xs fun x => say (text x)).play h s =
      ⟨xs.map fun x => .noted (.output (text x)), s, .ok ()⟩ := by
  induction xs with
  | nil => rfl
  | cons x xs ih =>
      have hfirst : (say (text x)).play h s = ⟨[.noted (.output (text x))], s, .ok ()⟩ := rfl
      rw [each_cons, play_bind_eq_andThen, hfirst, Played.andThen_ok, ih]
      rfl

@[simp] theorem Report.outputOf_output {α : Type} (xs : List α) (text : α → String) :
    Report.outputOf (xs.map fun x => .noted (.output (text x))) = xs.map text := by
  simp [Report.outputOf, List.filterMap_map]

def display (o : Outcome) : Script Unit := do
  each o.plan.actions fun a => say ("# " ++ a.describe)
  each o.commands fun c => say c.line

theorem play_display (o : Outcome) (s : σ) :
    (display o).play h s = ⟨(printed o).map fun line => .noted (.output line), s, .ok ()⟩ := by
  simp [display, play_bind_eq_andThen, play_each_say, printed, Function.comp_def]

/-- Planning and printing goes on with the specs that are left, unless the first plan fails. -/
theorem play_planAll_cons (binary : String) (spec : Spec) (specs : List Spec) (s : σ) :
    (planAll binary (spec :: specs)).play h s =
      ((Pass.plan binary spec).play h s).andThen fun o s =>
        ⟨((printed o).map fun line => .noted (.output line)) ++
            ((planAll binary specs).play h s).events,
          ((planAll binary specs).play h s).host, ((planAll binary specs).play h s).result⟩ := by
  have hsplit : planAll binary (spec :: specs) =
      Pass.plan binary spec >>= fun o => display o >>= fun _ => planAll binary specs :=
    LawfulMonad.bind_assoc (Pass.plan binary spec) display fun _ => planAll binary specs
  rw [hsplit, play_bind_eq_andThen]
  congr 1
  funext o s
  rw [play_bind_eq_andThen, play_display, Played.andThen_ok]

/-- Planning all specs prints what the plan of each of them comes to. -/
theorem play_planAll {binary : String} (apart : h.KeepsApart binary) {specs : List Spec}
    {forecast : Spec → Outcome} {s : σ}
    (planned : ∀ spec ∈ specs, ((Pass.plan binary spec).play h s).result = .ok (forecast spec)) :
    ((planAll binary specs).play h s).result = .ok () ∧
      Report.outputOf ((planAll binary specs).play h s).events =
        specs.flatMap fun spec => printed (forecast spec) := by
  induction specs generalizing s with
  | nil => exact ⟨rfl, rfl⟩
  | cons spec specs ih =>
      rcases Pass.result_play_plan_eq_ok_iff.1 (planned spec (List.mem_cons_self ..)) with
        ⟨valid, taken⟩
      -- The query for `spec` leaves the plans of the specs that are left as they were.
      rcases ih (s := (Pass.answer h spec s).2) (fun t ht =>
        Pass.result_play_plan_congr (Pass.reply_answer apart spec s t.key)
          (planned t (List.mem_cons_of_mem _ ht))) with ⟨hresult, houtput⟩
      simp [play_planAll_cons, Pass.play_plan_of_valid valid, taken, hresult, houtput]

end Console

/-! ## Plans come true -/

namespace Pass

/-- On a host that keeps resources apart, planning different resources foretells every run for them
in which no link fails, whatever the order: its outcomes are those that were planned, and the links
that it runs are those of the commands that were printed. -/
theorem applyAll_foretold {σ : Type} {h : Host σ} {binary : String} (apart : h.KeepsApart binary)
    {specs : List Spec} (distinct : (specs.map Spec.key).Nodup) {forecast : Spec → Outcome} {s : σ}
    (planned : ∀ spec ∈ specs, ((plan binary spec).play h s).result = .ok (forecast spec)) :
    (((Console.planAll binary specs).play h s).result = .ok () ∧
      Console.Report.outputOf ((Console.planAll binary specs).play h s).events =
        specs.flatMap fun spec => Console.printed (forecast spec)) ∧
    ∀ order : List Spec, order.Perm specs →
      (∀ i, .ran i false ∉ ((applyAll ⟨binary, false⟩ order).play h s).events) →
      Foretold h binary forecast order s := by
  refine ⟨Console.play_planAll apart planned, fun order hperm unfailing => ?_⟩
  apply foretold_of_planned apart _ _ unfailing
  · exact (hperm.map Spec.key).nodup_iff.2 distinct
  · intro spec hspec
    exact planned spec (hperm.mem_iff.1 hspec)

end Pass

namespace Daemon

/-- A deed changes nothing that is printed about another object. -/
theorem inspect_of_perform? {d d' : Daemon} {deed : Deed} (performed : d.perform? deed = some d')
    {other : Kind × String} (different : other ≠ (deed.kind, deed.target)) :
    d'.inspect other.2 other.1 = d.inspect other.2 other.1 := by
  rcases other with ⟨kind, name⟩
  rcases deed with ⟨of, verb, target⟩
  cases of with
  | container =>
      rcases Option.map_eq_some_iff.1 performed with ⟨state, -, rfl⟩
      cases kind with
      | container =>
          have hname : name ≠ target := by simpa using different
          simp [inspect, setContainer, hname]
      | _ => rfl
  | volume =>
      rcases Option.map_eq_some_iff.1 performed with ⟨there, -, rfl⟩
      cases kind with
      | volume =>
          have hname : name ≠ target := by simpa using different
          simp [inspect, setVolume, hname]
      | _ => rfl
  | image =>
      cases performed
      rfl
  | network =>
      cases performed
      rfl

/-- The daemon keeps its objects apart. -/
theorem keepsApart (binary : String) : host.KeepsApart binary where
  inspecting _ _ _ := rfl
  running d key other link := by
    rintro ⟨a, c, hcommand, rfl, hlink⟩ different
    -- The link is a deed to the object of its own resource.
    rcases Action.deed_of_mem_links hcommand hlink with ⟨verb, -, hdeed⟩
    cases performed : d.perform? ⟨a.spec.kind, verb, a.spec.identity⟩ with
    | none =>
        have hrun : (host.run d link).2 = d := by simp [host, hdeed, performed]
        rw [hrun]
    | some d' =>
        have hrun : (host.run d link).2 = d' := by simp [host, hdeed, performed]
        have hsame := inspect_of_perform? performed different
        rw [hrun]
        simp only [Host.reply, host, hsame]

/-- A valid spec that lacks no image can be planned. -/
theorem exists_planned (binary : String) {s : Spec} {d : Daemon} (valid : s.validate = .ok ())
    (image : ¬ s.LacksImage (Pass.observed host s d)) :
    ∃ o, ((Pass.plan binary s).play host d).result = .ok o := by
  rcases quiet_play_apply_of_ready binary valid image with ⟨plan, commands, -, -, hplay⟩
  have hresult : (Pass.playPass host binary (s, d)).result = .ok ⟨plan, commands, true⟩ :=
    congrArg Played.result hplay
  rcases (Pass.completed_of_result_eq_ok hresult).taken with ⟨o, taken, -⟩
  exact ⟨o, Pass.result_play_plan_eq_ok_iff.2 ⟨valid, taken⟩⟩

end Daemon

/-- An unwanted container and a missing volume, taken in both orders. -/
theorem Pass.applyAll_foretold_in_both_orders :
    ∃ removed created : Outcome,
      ((Pass.applyAll ⟨"docker", false⟩ [.container { name := "web", present := false },
          .volume { name := "data" }]).play Daemon.host
        ⟨fun _ => some "running", fun _ => false⟩).result = .ok [removed, created] ∧
      ((Pass.applyAll ⟨"docker", false⟩ [.volume { name := "data" },
          .container { name := "web", present := false }]).play Daemon.host
        ⟨fun _ => some "running", fun _ => false⟩).result = .ok [created, removed] := by
  generalize (⟨fun _ => some "running", fun _ => false⟩ : Daemon) = d
  have ready : ∀ s ∈ [Spec.container { name := "web", present := false },
      .volume { name := "data" }], s.validate = .ok () ∧ ∀ o, ¬ s.LacksImage o := by
    intro s hs
    rcases List.mem_cons.1 hs with rfl | hs
    · refine ⟨rfl, ?_⟩
      rintro o ⟨c, hc, present, -⟩
      cases hc
      cases present
    · cases List.mem_singleton.1 hs
      refine ⟨rfl, ?_⟩
      rintro o ⟨c, hc, -⟩
      cases hc
  rcases Pass.exists_forecast fun s hs =>
    Daemon.exists_planned "docker" (ready s hs).1 ((ready s hs).2 _) with ⟨forecast, planned⟩
  have hruns := (Pass.applyAll_foretold (Daemon.keepsApart "docker") (by decide) planned).2
  -- Every run for these specs succeeds, so no link of it fails.
  have hunfailing (order : List Spec)
      (hperm : order.Perm [.container { name := "web", present := false },
        .volume { name := "data" }]) (i : Invocation) :
      .ran i false ∉ ((Pass.applyAll ⟨"docker", false⟩ order).play Daemon.host d).events := by
    rcases Daemon.exists_outcomes "docker" (fun s hs => ready s (hperm.mem_iff.1 hs)) d with
      ⟨outcomes, ok⟩
    exact Pass.ran_false_not_mem_of_result_applyAll ok i
  exact ⟨_, _, (hruns _ (.refl _) (hunfailing _ (.refl _))).result,
    (hruns _ (.swap ..) (hunfailing _ (.swap ..))).result⟩

end Converge
