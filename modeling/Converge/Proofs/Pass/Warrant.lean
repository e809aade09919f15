import Converge.Proofs.Docker.Deed
import Converge.Proofs.Pass.Course
import Converge.Proofs.Pass.Run

/-!
# What a run may touch

Every link of a run is warranted by the spec in whose pass it runs and by what that pass observed:
it acts on the spec's own object and on no other, and nothing is destroyed that the spec wants, save
a container that it wants anew.  This holds for every host, whatever it answers and whichever links
fail.
-/

namespace Converge

/-! ## Warrants -/

/-- What must hold for a deed for a spec, where the pass observed `o`. -/
def Verb.WarrantedBy (s : Spec) (o : Option Record) : Verb → Prop
  | .create => s.present = true ∧ (s.kind = .container → o = none ∨ s.forced = true)
  | .remove =>
    (s.present = false ∨ (s.forced = true ∧ o ≠ none)) ∧
      (s.kind = .container ∨ s.kind = .volume → o ≠ none)
  | .start => s.present = true
  | .stop =>
    s.present = true ∧ (∃ c, s = .container c ∧ c.start = false) ∧
      ∃ r, o = some r ∧ r.isRunning = true
  | .pull => s.present = true
  | .noop => False

def Invocation.WarrantedBy (s : Spec) (o : Option Record) (link : Invocation) : Prop :=
  link.args.head? = some s.kind.name ∧
    ∃ verb, Deed.ofArgs? link.args = some ⟨s.kind, verb, s.identity⟩ ∧ verb.WarrantedBy s o

/-- Everything that is done for a justified step is warranted. -/
theorem Action.Justified.warrantedBy {s : Spec} {o : Option Record} {a : Action}
    (h : Justified s o a) {verb : Verb} (hverb : verb ∈ a.linkVerbs) : verb.WarrantedBy s o := by
  cases h with
  | @createContainer c o wanted image missing =>
      have : verb = .create ∨ verb = .start := by
        cases hstart : c.start with
        | true => simpa [linkVerbs, hstart] using hverb
        | false => exact .inl (by simpa [linkVerbs, hstart] using hverb)
      rcases this with rfl | rfl
      -- The chained start is warranted by the same wish as the creation.
      · exact ⟨wanted, fun _ => missing⟩
      · exact wanted
  | removeContainer unwanted =>
      cases List.mem_singleton.1 hverb
      exact ⟨unwanted.imp id fun hforce => ⟨hforce, by simp⟩, by simp⟩
  | startContainer wanted kept start idle =>
      cases List.mem_singleton.1 hverb
      exact wanted
  | @stopContainer c r wanted kept stop running =>
      cases List.mem_singleton.1 hverb
      exact ⟨wanted, ⟨c, rfl, stop⟩, r, rfl, running⟩
  | pullImage wanted =>
      cases List.mem_singleton.1 hverb
      exact wanted
  | removeImage unwanted =>
      cases List.mem_singleton.1 hverb
      exact ⟨.inl unwanted, by simp [Spec.kind]⟩
  | createVolume wanted =>
      cases List.mem_singleton.1 hverb
      exact ⟨wanted, by simp [Spec.kind]⟩
  | removeVolume unwanted =>
      cases List.mem_singleton.1 hverb
      exact ⟨.inl unwanted, by simp⟩
  | createNetwork wanted =>
      cases List.mem_singleton.1 hverb
      exact ⟨wanted, by simp [Spec.kind]⟩
  | removeNetwork unwanted =>
      cases List.mem_singleton.1 hverb
      exact ⟨.inl unwanted, by simp [Spec.kind]⟩
  | nothing => cases hverb

/-- The links for a justified step are warranted. -/
theorem Action.Justified.link_warrantedBy {s : Spec} {o : Option Record} {a : Action}
    (h : Justified s o a) {binary : String} {c : Command} (hc : a.command binary = .ok c)
    {link : Invocation} (hlink : link ∈ c.links) : link.WarrantedBy s o := by
  rcases Action.deed_of_mem_links hc hlink with ⟨verb, hverb, hargs⟩
  rw [h.spec_eq] at hargs
  exact ⟨(Deed.args_of_ofArgs? hargs).1, verb, hargs, h.warrantedBy hverb⟩

/-! ## Passes -/

namespace Pass

variable {σ : Type}

/-- Every link of a pass is warranted by its spec and by what the pass observed. -/
theorem warrantedBy_of_mem_apply (h : Host σ) (settings : Settings) (spec : Spec) (s : σ)
    {link : Invocation} {ok : Bool}
    (hlink : .ran link ok ∈ ((apply settings spec).play h s).events) :
    link.WarrantedBy spec (observed h spec s) := by
  have hquiet : .ran link ok ∈ ((apply settings spec).play h s).quiet.events :=
    List.mem_filter.2 ⟨hlink, rfl⟩
  have hqueries := ran_not_mem_queries spec link ok
  cases hvalid : spec.validate with
  | error e =>
      rw [quiet_play_apply_of_invalid h settings hvalid s] at hquiet
      cases hquiet
  | ok u =>
      rw [quiet_play_apply_of_valid h settings hvalid s] at hquiet
      cases hanswer : (answer h spec s).1 with
      | error e =>
          rw [hanswer] at hquiet
          exact absurd hquiet hqueries
      | ok lines =>
          cases hdecision : decision settings.binary spec lines with
          | error e =>
              simp only [hanswer, Except.bind, hdecision, Played.andThen_error] at hquiet
              exact absurd hquiet hqueries
          | ok outcome =>
              simp only [hanswer, Except.bind, hdecision, Played.andThen_ok] at hquiet
              -- The event is no query, so it is a link of a decided command.
              have hlinks : link ∈ linksOf outcome.commands := by
                rcases List.mem_append.1 hquiet with hq | hran
                · exact absurd hq hqueries
                · rcases ran_of_mem_carryOut hran with ⟨i, hi, _, heq⟩
                  cases heq
                  exact hi
              -- That command was made for a step of the plan, and the step is justified.
              rcases exists_step_of_mem_linksOf _ hdecision hlinks with
                ⟨a, c, hjust, hcommand, hlink⟩
              have hobserved : observed h spec s = (lines.filterMap Fact.record?).head? := by
                simp [observed, hanswer]
              rw [hobserved]
              exact hjust.link_warrantedBy hcommand hlink

/-- A link runs only for a valid spec. -/
theorem validate_eq_ok_of_ran {h : Host σ} {settings : Settings} {spec : Spec} {s : σ}
    {link : Invocation} {ok : Bool}
    (hlink : .ran link ok ∈ ((apply settings spec).play h s).events) : spec.validate = .ok () := by
  cases hvalid : spec.validate with
  | ok u => rfl
  | error e =>
      have hquiet : .ran link ok ∈ ((apply settings spec).play h s).quiet.events :=
        List.mem_filter.2 ⟨hlink, rfl⟩
      rw [quiet_play_apply_of_invalid h settings hvalid s] at hquiet
      cases hquiet

/-- A link that removes something is not warranted by a spec that is present and not forced. -/
theorem not_rm_of_warrantedBy {spec : Spec} {o : Option Record} {link : Invocation}
    (present : spec.present = true) (kept : spec.forced = false)
    (warrant : link.WarrantedBy spec o) : link.args[1]? ≠ some "rm" := by
  rcases warrant with ⟨-, verb, deed, hverb⟩
  rw [(Deed.args_of_ofArgs? deed).2]
  cases verb with
  | remove =>
      rcases hverb.1 with hunwanted | ⟨hforced, -⟩
      · rw [present] at hunwanted
        cases hunwanted
      · rw [kept] at hforced
        cases hforced
  | _ => simp [Verb.subcommand?]

/-- A run is made of passes for its specs, in their order.  Every link of a pass comes after the
query of that pass, and is warranted by the pass's spec and by what that query answered.  A run for
specs that are all present and not forced removes nothing. -/
theorem applyAll_warranted (h : Host σ) (settings : Settings) (specs : List Spec) (s : σ) :
    ((applyAll settings specs).play h s).events =
        (passes h settings specs s).flatMap (fun p => ((apply settings p.1).play h p.2).events) ∧
      (passes h settings specs s).map Prod.fst <+: specs ∧
      (∀ p ∈ passes h settings specs s, ∀ link ok,
        .ran link ok ∈ ((apply settings p.1).play h p.2).events →
          (∃ ran, ((apply settings p.1).play h p.2).quiet.events = queries p.1 ++ ran ∧
            .ran link ok ∈ ran) ∧
          link.WarrantedBy p.1 (observed h p.1 p.2)) ∧
      ((∀ spec ∈ specs, spec.present = true ∧ spec.forced = false) → ∀ link ok,
        .ran link ok ∈ ((applyAll settings specs).play h s).events →
          link.args[1]? ≠ some "rm") := by
  refine ⟨events_play_applyAll h settings specs s, passes_isPrefix h settings specs s, ?_, ?_⟩
  · intro p _ link ok hlink
    refine ⟨?_, warrantedBy_of_mem_apply h settings p.1 p.2 hlink⟩
    rcases exists_events_eq h settings (validate_eq_ok_of_ran hlink) p.2 with ⟨ran, hevents, -⟩
    have hquiet : .ran link ok ∈ ((apply settings p.1).play h p.2).quiet.events :=
      List.mem_filter.2 ⟨hlink, rfl⟩
    rw [hevents] at hquiet
    exact ⟨ran, hevents, (List.mem_append.1 hquiet).resolve_left (ran_not_mem_queries p.1 link ok)⟩
  · intro kept link ok hlink
    rw [events_play_applyAll] at hlink
    rcases List.mem_flatMap.1 hlink with ⟨p, hp, hran⟩
    have hspec : p.1 ∈ specs :=
      (passes_isPrefix h settings specs s).subset (List.mem_map_of_mem hp)
    exact not_rm_of_warrantedBy (kept p.1 hspec).1 (kept p.1 hspec).2
      (warrantedBy_of_mem_apply h settings p.1 p.2 hran)

end Pass

end Converge
