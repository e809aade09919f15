import Converge.Process.Machine
import Converge.Proofs.Pass.Play

/-!
# Links as processes

A link becomes a process of a machine.  `Machine.EndsWell` and `Machine.FailsWith` say how that can
go, in terms of the machine alone: the process exits with 0, or there is a failure, which has one of
three causes.  Links that are run one after another all end well, or there is a first one that
fails, and the events, the machine that is left and the result follow from that.
-/

namespace Converge

theorem ExitStatus.isSuccess_iff {status : ExitStatus} :
    status.isSuccess = true ↔ status = .exited 0 := by
  cases status <;> simp [isSuccess]

theorem ExitStatus.isSuccess_eq_false_iff {status : ExitStatus} :
    status.isSuccess = false ↔ status ≠ .exited 0 := by
  rw [Ne, ← isSuccess_iff, Bool.not_eq_true]

variable {σ : Type}

/-! ## On the machine -/

namespace Machine

variable (m : Machine σ)

def EndsWell (s : σ) (i : Invocation) : Prop :=
  i.hasNul = false ∧ ∃ out, (m.start s i).1 = .ok out ∧ out.status = .exited 0

/-- The link fails: it cannot be passed on, the system does not start it, or its process ends in any
other way than with 0.  The last is reported under the link's own shell line. -/
inductive FailsWith (s : σ) (i : Invocation) : Failure → Prop where
  | barred : i.hasNul = true → FailsWith s i (.system .nulByte)
  | refused {fault : SystemFault} :
      i.hasNul = false → (m.start s i).1 = .error fault → FailsWith s i (.system fault)
  | endedBadly {out : ProcessOutput} :
      i.hasNul = false → (m.start s i).1 = .ok out → out.status ≠ .exited 0 →
      FailsWith s i (.command i.line out.status (Text.trim (Text.decodeUtf8 out.stderr)))

/-- There is no other way for a link to go. -/
theorem endsWell_or_failsWith (s : σ) (i : Invocation) :
    m.EndsWell s i ∨ ∃ e, m.FailsWith s i e := by
  cases hnul : i.hasNul with
  | true => exact .inr ⟨_, .barred hnul⟩
  | false =>
      cases hstart : (m.start s i).1 with
      | error fault => exact .inr ⟨_, .refused hnul hstart⟩
      | ok out =>
          rcases Decidable.em (out.status = .exited 0) with hgood | hbad
          · exact .inl ⟨hnul, out, hstart, hgood⟩
          · exact .inr ⟨_, .endedBadly hnul hstart hbad⟩

/-- The machine as a link leaves it.  It is not told of links that cannot be passed on. -/
def left (s : σ) (i : Invocation) : σ :=
  if i.hasNul then s else (m.start s i).2

theorem left_of_hasNul {m : Machine σ} {s : σ} {i : Invocation} (barred : i.hasNul = true) :
    m.left s i = s := if_pos barred

def after (links : List Invocation) (s : σ) : σ := links.foldl m.left s

theorem after_cons (i : Invocation) (links : List Invocation) (s : σ) :
    m.after (i :: links) s = m.after links (m.left s i) := rfl

theorem after_append (first rest : List Invocation) (s : σ) :
    m.after (first ++ rest) s = m.after rest (m.after first s) := List.foldl_append

/-- Each of the links becomes a process that ends well, on the machine as the links before it left
it. -/
def Completes : List Invocation → σ → Prop
  | [], _ => True
  | i :: links, s => m.EndsWell s i ∧ Completes links (m.start s i).2

variable {m}

theorem EndsWell.left_eq {s : σ} {i : Invocation} (ends : m.EndsWell s i) :
    m.left s i = (m.start s i).2 := by
  simp [left, ends.1]

/-- Links all end well, or there is a first one that fails. -/
theorem completes_or_fails (links : List Invocation) (s : σ) :
    m.Completes links s ∨ ∃ before i rest e, links = before ++ i :: rest ∧
      m.Completes before s ∧ m.FailsWith (m.after before s) i e := by
  induction links generalizing s with
  | nil => exact .inl trivial
  | cons i links ih =>
      rcases m.endsWell_or_failsWith s i with hends | ⟨e, hfails⟩
      · rcases ih (m.start s i).2 with hall | ⟨before, j, rest, e, rfl, hbefore, hfails⟩
        · exact .inl ⟨hends, hall⟩
        · refine .inr ⟨i :: before, j, rest, e, rfl, ⟨hends, hbefore⟩, ?_⟩
          rwa [after_cons, hends.left_eq]
      · exact .inr ⟨[], i, links, e, rfl, trivial, hfails⟩

end Machine

/-! ## One link -/

namespace Docker

variable (binary : String) {m : Machine σ} {s : σ} {i : Invocation}

/-- A link whose process exits with 0 succeeds. -/
theorem run_of_endsWell (ends : m.EndsWell s i) :
    (host binary m).run s i = (.ok (), m.left s i) := by
  rcases ends with ⟨hnul, out, hstart, hgood⟩
  have houtcome : (Except.mapError Failure.system (.ok out)).bind (outcome i) = outcome i out := rfl
  rw [run_of_not_hasNul binary m s hnul, hstart, houtcome]
  simp [outcome, ExitStatus.isSuccess_iff.2 hgood, Machine.left, hnul]

/-- A link that fails on the machine fails with that failure. -/
theorem run_of_failsWith {e : Failure} (fails : m.FailsWith s i e) :
    (host binary m).run s i = (.error e, m.left s i) := by
  cases fails with
  | barred hnul => rw [run_of_hasNul binary m s hnul, Machine.left_of_hasNul hnul]
  | refused hnul hstart =>
      rw [run_of_not_hasNul binary m s hnul, hstart]
      simp only [Machine.left, hnul]
      rfl
  | @endedBadly out hnul hstart hbad =>
      have hstatus := ExitStatus.isSuccess_eq_false_iff.2 hbad
      have houtcome :
          (Except.mapError Failure.system (.ok out)).bind (outcome i) = outcome i out := rfl
      rw [run_of_not_hasNul binary m s hnul, hstart, houtcome]
      simp [outcome, failure, hstatus, Machine.left, hnul]

end Docker

/-! ## Links one after another -/

namespace Pass

/-- A host whose facts come from anywhere, and whose links are processes on a machine. -/
def onMachine (fetch : σ → Query → Except Failure (List String) × σ) (m : Machine σ) : Host σ where
  fetch := fetch
  run := (Docker.host defaultBinary m).run

variable {fetch : σ → Query → Except Failure (List String) × σ} {m : Machine σ} {s : σ}

/-- Links that all end well are all run. -/
theorem callAll_of_completes {links : List Invocation} (completes : m.Completes links s) :
    callAll (onMachine fetch m) links s = ⟨links.map Event.done, m.after links s, .ok ()⟩ := by
  induction links generalizing s with
  | nil => rfl
  | cons i links ih =>
      rcases completes with ⟨hends, hrest⟩
      have hrun : (onMachine fetch m).run s i = (.ok (), m.left s i) :=
        Docker.run_of_endsWell defaultBinary hends
      rw [← hends.left_eq] at hrest
      rw [callAll_cons, hrun, Played.andThen_ok, ih hrest, Machine.after_cons]
      rfl

/-- What comes after a link that fails is not run. -/
theorem callAll_of_first_failsWith {i : Invocation} {e : Failure} (fails : m.FailsWith s i e)
    (rest : List Invocation) :
    callAll (onMachine fetch m) (i :: rest) s = ⟨[.ran i false], m.left s i, .error e⟩ := by
  have hrun : (onMachine fetch m).run s i = (.error e, m.left s i) :=
    Docker.run_of_failsWith defaultBinary fails
  rw [callAll_cons, hrun]
  rfl

/-- The run ends with the first link that fails. -/
theorem callAll_of_failsWith {before : List Invocation} {i : Invocation} {e : Failure}
    (completes : m.Completes before s) (fails : m.FailsWith (m.after before s) i e)
    (rest : List Invocation) :
    callAll (onMachine fetch m) (before ++ i :: rest) s =
      ⟨before.map Event.done ++ [.ran i false], m.after (before ++ [i]) s, .error e⟩ := by
  rw [callAll_append, callAll_of_completes completes, Played.andThen_ok,
    callAll_of_first_failsWith fails, Machine.after_append]
  rfl

variable (fetch) in
/-- Running links succeeds exactly if each of them ends well. -/
theorem result_callAll_eq_ok_iff {links : List Invocation} :
    (callAll (onMachine fetch m) links s).result = .ok () ↔ m.Completes links s := by
  constructor
  · intro hok
    rcases Machine.completes_or_fails links s with hall | ⟨before, i, rest, e, rfl, hbefore, hfails⟩
    · exact hall
    · rw [callAll_of_failsWith hbefore hfails] at hok
      cases hok
  · intro hall
    rw [callAll_of_completes hall]

end Pass

end Converge
