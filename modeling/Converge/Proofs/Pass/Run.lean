import Converge.Proofs.Pass.Play

/-!
# Runs

A run makes one pass after another.  `passes` lists the passes that it comes to, each with the host
as the pass finds it, and the events of a run are those of its passes in their order.
-/

namespace Converge.Pass

open Script

variable {σ : Type}

theorem applyAll_cons (settings : Settings) (spec : Spec) (specs : List Spec) :
    applyAll settings (spec :: specs) = do
      let outcome ← apply settings spec
      let outcomes ← applyAll settings specs
      return outcome :: outcomes := rfl

/-- The first pass of a run, and the rest of the run from where that pass left the host. -/
theorem play_applyAll_cons (h : Host σ) (settings : Settings) (spec : Spec) (specs : List Spec)
    (s : σ) :
    (applyAll settings (spec :: specs)).play h s =
      ((apply settings spec).play h s).andThen fun outcome s =>
        ⟨((applyAll settings specs).play h s).events, ((applyAll settings specs).play h s).host,
          ((applyAll settings specs).play h s).result.map (outcome :: ·)⟩ := by
  rw [applyAll_cons, play_bind_eq_andThen]
  congr 1
  funext outcome s
  rw [play_bind_eq_andThen]
  exact Played.andThen_done _ _

/-- After a pass that succeeds, the run goes on with the other specs. -/
theorem play_applyAll_of_ok {h : Host σ} {settings : Settings} {spec : Spec} {s : σ}
    {outcome : Outcome} (ok : ((apply settings spec).play h s).result = .ok outcome)
    (specs : List Spec) :
    (applyAll settings (spec :: specs)).play h s =
      ⟨((apply settings spec).play h s).events ++
          ((applyAll settings specs).play h ((apply settings spec).play h s).host).events,
        ((applyAll settings specs).play h ((apply settings spec).play h s).host).host,
        ((applyAll settings specs).play h ((apply settings spec).play h s).host).result.map
          (outcome :: ·)⟩ := by
  rw [play_applyAll_cons]
  simp [Played.andThen, ok]

/-- A pass that fails ends the run. -/
theorem play_applyAll_of_error {h : Host σ} {settings : Settings} {spec : Spec} {s : σ}
    {e : Failure} (failed : ((apply settings spec).play h s).result = .error e)
    (specs : List Spec) :
    (applyAll settings (spec :: specs)).play h s =
      ⟨((apply settings spec).play h s).events, ((apply settings spec).play h s).host,
        .error e⟩ := by
  rw [play_applyAll_cons]
  simp [Played.andThen, failed]

/-- The passes of a run: the specs that it comes to, each with the host before its pass. -/
def passes (h : Host σ) (settings : Settings) : List Spec → σ → List (Spec × σ)
  | [], _ => []
  | spec :: specs, s =>
    (spec, s) ::
      match ((apply settings spec).play h s).result with
      | .ok _ => passes h settings specs ((apply settings spec).play h s).host
      | .error _ => []

/-- A run comes to its specs in their order. -/
theorem passes_isPrefix (h : Host σ) (settings : Settings) (specs : List Spec) (s : σ) :
    (passes h settings specs s).map Prod.fst <+: specs := by
  induction specs generalizing s with
  | nil => exact List.prefix_rfl
  | cons spec specs ih =>
      rw [passes, List.map_cons, List.prefix_cons_inj]
      cases ((apply settings spec).play h s).result with
      | ok outcome => exact ih _
      | error e => exact List.nil_prefix

/-- The events of a run are those of its passes. -/
theorem events_play_applyAll (h : Host σ) (settings : Settings) (specs : List Spec) (s : σ) :
    ((applyAll settings specs).play h s).events =
      (passes h settings specs s).flatMap fun p => ((apply settings p.1).play h p.2).events := by
  induction specs generalizing s with
  | nil => rfl
  | cons spec specs ih =>
      rw [passes, List.flatMap_cons]
      cases hresult : ((apply settings spec).play h s).result with
      | ok outcome =>
          rw [play_applyAll_of_ok hresult]
          simp [ih]
      | error e =>
          rw [play_applyAll_of_error hresult]
          simp

end Converge.Pass
