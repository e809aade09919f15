import Converge.Proofs.Pass.Course

/-!
# Failed queries

What a failed query is taken for.  An inspection whose error output says "no such" anywhere, in
capitals or not, is taken for the absence of the object; every other failed query is the failure of
the pass.  Docker says of a missing object that there is no such container, image, volume, network or
object, and all of these are recognized.  But a host that cannot be found is "no such host", and is
taken for an absent object too.
-/

namespace Converge.Docker

/-! ## Error outputs -/

/-- The words occur in an error output, whatever its capitals. -/
def Says (words : String) (stderr : List UInt8) : Prop :=
  words.toList <:+: (Text.lowercaseAscii (Text.decodeUtf8 stderr)).toList

def SaysNoSuch (k : Kind) (stderr : List UInt8) : Prop :=
  Says ("no such " ++ k.name) stderr ∨ Says "no such object" stderr

theorem saysMissing_iff {stderr : List UInt8} : saysMissing stderr = true ↔ Says "no such" stderr :=
  Text.occurs_iff_isInfix _ _

/-- What is said with more words is said with the first of them. -/
theorem Says.of_append {words more : String} {stderr : List UInt8} (h : Says (words ++ more) stderr) :
    Says words stderr := by
  have hwords : words.toList <:+: (words ++ more).toList := by
    rw [String.toList_append]
    exact List.infix_append_of_infix_left List.infix_rfl
  exact hwords.trans h

/-- Docker's words for a missing object have the marker in them, whatever the kind. -/
theorem SaysNoSuch.says {k : Kind} {stderr : List UInt8} (h : SaysNoSuch k stderr) :
    Says "no such" stderr := by
  have hkind : "no such " ++ k.name = "no such" ++ (" " ++ k.name) := by cases k <;> decide
  have hobject : "no such object" = "no such" ++ " object" := by decide
  rcases h with h | h
  · exact Says.of_append (hkind ▸ h)
  · exact Says.of_append (hobject ▸ h)

/-! ## Queries -/

def IsInspection (q : Query) : Prop := ∃ kind identity, q = .inspect kind identity

theorem isInspect_iff {q : Query} : q.isInspect = true ↔ IsInspection q := by
  cases q <;> simp [Query.isInspect, IsInspection]

variable {σ : Type}

/-- The process of the query starts and fails, leaving the output. -/
structure FailedQuery (binary : String) (m : Machine σ) (s : σ) (q : Query) (out : ProcessOutput) :
    Prop where
  startable : (queryCall binary q).hasNul = false
  started : (m.start s (queryCall binary q)).1 = .ok out
  failed : out.status ≠ .exited 0

/-- The pass comes to the plan to do nothing because the resource does not exist. -/
def ReportsAbsence (r : Except Failure Outcome) : Prop :=
  ∃ outcome, r = .ok outcome ∧ "does not exist" ∈ outcome.plan.reasons

structure Judged (binary : String) (m : Machine σ) (s : σ) (q : Query) (out : ProcessOutput) :
    Prop where
  /-- Only an inspection can be answered, and only by the absence of its object. -/
  absent_iff : ∀ lines, ((host binary m).fetch s q).1 = .ok lines ↔
    lines = [] ∧ IsInspection q ∧ Says "no such" out.stderr
  /-- Every other query fails as its process did. -/
  failed_iff : ((host binary m).fetch s q).1 = .error (.command (queryCall binary q).line out.status
      (Text.trim (Text.decodeUtf8 out.stderr))) ↔
    ¬ (IsInspection q ∧ Says "no such" out.stderr)
  /-- A missing object is always recognized.  Nothing else is taken for one exactly if an output that
  says "no such" says it of the kind or of an object. -/
  exact_iff : ∀ k identity, q = .inspect k identity →
    ((((host binary m).fetch s q).1 = .ok [] ↔ SaysNoSuch k out.stderr) ↔
      (Says "no such" out.stderr → SaysNoSuch k out.stderr))
  /-- A pass for an unwanted resource reports its absence on the same condition, and otherwise ends
  with the failure of the query. -/
  unwanted : ∀ (spec : Spec) (settings : Settings), spec.validate = .ok () →
    spec.needsFacts = true → spec.present = false → q = .inspect spec.kind spec.identity →
      (ReportsAbsence ((Pass.apply settings spec).play (host binary m) s).result ↔
        Says "no such" out.stderr) ∧
      (¬ Says "no such" out.stderr →
        ((Pass.apply settings spec).play (host binary m) s).result =
          .error (.command (queryCall binary q).line out.status
            (Text.trim (Text.decodeUtf8 out.stderr))))

namespace FailedQuery

variable {binary : String} {m : Machine σ} {s : σ} {q : Query} {out : ProcessOutput}
  (query : FailedQuery binary m s q out)
include query

theorem fetch_eq_answer :
    ((host binary m).fetch s q).1 = answer q (queryCall binary q) out := by
  simp [host, start, query.startable, query.started, Except.mapError, Except.bind]

/-- An inspection that says "no such" is answered by no lines. -/
theorem fetch_of_says (missing : IsInspection q ∧ Says "no such" out.stderr) :
    ((host binary m).fetch s q).1 = .ok [] := by
  have hfailed := ExitStatus.isSuccess_eq_false_iff.2 query.failed
  rw [← isInspect_iff, ← saysMissing_iff] at missing
  rw [query.fetch_eq_answer]
  simp [answer, hfailed, missing]

/-- Any other failure is reported, also that of a query for a list. -/
theorem fetch_of_not_says (other : ¬ (IsInspection q ∧ Says "no such" out.stderr)) :
    ((host binary m).fetch s q).1 = .error (.command (queryCall binary q).line out.status
      (Text.trim (Text.decodeUtf8 out.stderr))) := by
  have hfailed := ExitStatus.isSuccess_eq_false_iff.2 query.failed
  rw [← isInspect_iff, ← saysMissing_iff] at other
  rw [query.fetch_eq_answer]
  simp [answer, failure, hfailed, other]

end FailedQuery

/-! ## Passes -/

/-- Nothing is done for an unwanted resource that was not observed. -/
theorem decision_of_unwanted (binary : String) {spec : Spec} (valid : spec.validate = .ok ())
    (asks : spec.needsFacts = true) (unwanted : spec.present = false) :
    Pass.decision binary spec [] =
      .ok ⟨.ofActions spec [.noop spec "does not exist"], [], false⟩ := by
  have hplan : spec.plan none = .ok (.ofActions spec [.noop spec "does not exist"]) := by
    rw [Spec.plan_of_validate_eq_ok valid]
    cases spec with
    | container c =>
        have habsent : c.present = false := unwanted
        simp [Spec.planUnchecked, Container.plan, Container.actions, stepsIf, habsent]
    | volume v =>
        have habsent : v.present = false := unwanted
        simp [Spec.planUnchecked, Volume.plan, habsent]
    | image i => cases asks
    | network n => cases asks
  exact (Pass.decision_eq_ok_iff binary).2 ⟨by simp, hplan, rfl, rfl⟩

/-- The pass for an unwanted resource follows the answer to its query. -/
theorem result_apply_of_unwanted (h : Host σ) (settings : Settings) {spec : Spec}
    (valid : spec.validate = .ok ()) (asks : spec.needsFacts = true)
    (unwanted : spec.present = false) (s : σ) :
    ((h.fetch s (.inspect spec.kind spec.identity)).1 = .ok [] →
      ReportsAbsence ((Pass.apply settings spec).play h s).result) ∧
    ∀ e, (h.fetch s (.inspect spec.kind spec.identity)).1 = .error e →
      ((Pass.apply settings spec).play h s).result = .error e := by
  have hanswer : Pass.answer h spec s = h.fetch s (.inspect spec.kind spec.identity) := by
    cases spec with
    | container c => rfl
    | volume v => rfl
    | image i => cases asks
    | network n => cases asks
  have hpass := Pass.quiet_play_apply_of_valid h settings valid s
  rw [hanswer] at hpass
  have hresult := congrArg Played.result hpass
  rw [Played.quiet_result] at hresult
  constructor
  · intro hfetch
    rw [hresult, hfetch]
    simp only [Except.bind, decision_of_unwanted settings.binary valid asks unwanted]
    refine ⟨⟨.ofActions spec [.noop spec "does not exist"], [], !settings.dryRun⟩, ?_,
      List.mem_singleton_self _⟩
    -- There is no command, so the pass ends well whether or not commands would be run.
    cases hdry : settings.dryRun <;> simp [Pass.carryOut, Pass.linksOf, hdry]
  · intro e hfetch
    rw [hresult, hfetch]
    rfl

/-- Every failed query is taken for an absent object if it is an inspection and says "no such", and is
a failure otherwise. -/
theorem judged_of_failed {binary : String} {m : Machine σ} {s : σ} {q : Query} {out : ProcessOutput}
    (query : FailedQuery binary m s q out) : Judged binary m s q out := by
  by_cases hmissing : IsInspection q ∧ Says "no such" out.stderr
  · have hfetch := query.fetch_of_says hmissing
    rcases hmissing with ⟨hinspect, hsays⟩
    constructor
    case absent_iff =>
      intro lines
      rw [hfetch, Except.ok.injEq]
      constructor
      · rintro rfl
        exact ⟨rfl, hinspect, hsays⟩
      · rintro ⟨rfl, -⟩
        rfl
    case failed_iff => simp [hfetch, hinspect, hsays]
    case exact_iff =>
      intro k identity _
      simp [hfetch, hsays]
    case unwanted =>
      rintro spec settings valid asks unwanted rfl
      have hpass := result_apply_of_unwanted (host binary m) settings valid asks unwanted s
      exact ⟨iff_of_true (hpass.1 hfetch) hsays, fun hsilent => absurd hsays hsilent⟩
  · have hfetch := query.fetch_of_not_says hmissing
    constructor
    case absent_iff =>
      intro lines
      rw [hfetch]
      constructor
      · intro h
        cases h
      · rintro ⟨-, hsome⟩
        exact absurd hsome hmissing
    case failed_iff => simp only [hfetch, hmissing, not_false_eq_true]
    case exact_iff =>
      rintro k identity rfl
      have hsilent : ¬ Says "no such" out.stderr := fun hsays => hmissing ⟨⟨_, _, rfl⟩, hsays⟩
      have hother : ¬ SaysNoSuch k out.stderr := fun hsays => hsilent hsays.says
      simp [hfetch, hsilent, hother]
    case unwanted =>
      rintro spec settings valid asks unwanted rfl
      have hsilent : ¬ Says "no such" out.stderr := fun hsays => hmissing ⟨⟨_, _, rfl⟩, hsays⟩
      have hpass := result_apply_of_unwanted (host binary m) settings valid asks unwanted s
      have hresult := hpass.2 _ hfetch
      have hnever : ¬ ReportsAbsence ((Pass.apply settings spec).play (host binary m) s).result := by
        rintro ⟨outcome, hok, -⟩
        rw [hresult] at hok
        cases hok
      exact ⟨iff_of_false hnever hsilent, fun _ => hresult⟩

/-- Docker says that a volume is missing. -/
theorem judged_of_failed_of_missing :
    let out : ProcessOutput := {
      stderr := "get data: No such volume".toList.map fun c => UInt8.ofNat c.toNat
      status := .exited 1 }
    let m : Machine Unit := ⟨fun s _ => (.ok out, s)⟩
    FailedQuery "docker" m () (.inspect .volume "data") out ∧
      Judged "docker" m () (.inspect .volume "data") out := by
  intro out m
  have hquery : FailedQuery "docker" m () (.inspect .volume "data") out :=
    ⟨by decide, rfl, by decide⟩
  exact ⟨hquery, judged_of_failed hquery⟩

/-- A daemon whose host cannot be found is taken for the absence of the volume. -/
theorem absence_of_unknown_host :
    let out : ProcessOutput := {
      stderr := "error during connect: dial tcp: lookup build-host: no such host".toList.map
        fun c => UInt8.ofNat c.toNat
      status := .exited 1 }
    let m : Machine Unit := ⟨fun s _ => (.ok out, s)⟩
    let spec : Spec := .volume { name := "data", present := false }
    ¬ SaysNoSuch spec.kind out.stderr ∧
      ((host "docker" m).fetch () (.inspect spec.kind spec.identity)).1 = .ok [] ∧
      ReportsAbsence ((Pass.apply {} spec).play (host "docker" m) ()).result := by
  intro out m spec
  have htext : (Text.lowercaseAscii (Text.decodeUtf8 out.stderr)).toList =
      "error during connect: dial tcp: lookup build-host: no such host".toList := by decide
  have hother : ¬ SaysNoSuch spec.kind out.stderr := by
    unfold SaysNoSuch Says
    rw [htext, ← Text.occurs_iff_isInfix, ← Text.occurs_iff_isInfix]
    decide
  have hsays : Says "no such" out.stderr := by
    unfold Says
    rw [htext, ← Text.occurs_iff_isInfix]
    decide
  have hquery : FailedQuery "docker" m () (.inspect spec.kind spec.identity) out :=
    ⟨by decide, rfl, by decide⟩
  have hfetch := hquery.fetch_of_says ⟨⟨_, _, rfl⟩, hsays⟩
  have hvalid : spec.validate = .ok () := spec.validate_eq_ok_iff_none.2 (by decide)
  have hpass := result_apply_of_unwanted (host "docker" m) {} hvalid rfl rfl ()
  exact ⟨hother, hfetch, hpass.1 hfetch⟩

end Converge.Docker
