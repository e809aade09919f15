import Converge.Pass.Apply

/-!
# Playing a pass

What the parts of a script do when they are played, and from them the play of a whole pass: a query
if the decision depends on facts, a decision that is a function of the answer, and the links of the
decided commands up to the first one that fails.

Notes for the user change nothing on the host and are left out by `Played.quiet`.
-/

namespace Converge

/-! ## Events and plays -/

namespace Event

def touchesHost : Event → Bool
  | noted _ => false
  | _ => true

def done (i : Invocation) : Event := ran i true

end Event

namespace Played

variable {σ α β : Type}

/-- The play without its notes. -/
def quiet (p : Played σ α) : Played σ α :=
  { p with events := p.events.filter Event.touchesHost }

/-- Goes on from where a play left the host, unless that play failed. -/
def andThen (p : Played σ α) (k : α → σ → Played σ β) : Played σ β :=
  match p.result with
  | .ok a => ⟨p.events ++ (k a p.host).events, (k a p.host).host, (k a p.host).result⟩
  | .error e => ⟨p.events, p.host, .error e⟩

@[simp] theorem andThen_ok (events : List Event) (s : σ) (a : α) (k : α → σ → Played σ β) :
    (⟨events, s, .ok a⟩ : Played σ α).andThen k =
      ⟨events ++ (k a s).events, (k a s).host, (k a s).result⟩ := rfl

@[simp] theorem andThen_error (events : List Event) (s : σ) (e : Failure)
    (k : α → σ → Played σ β) :
    (⟨events, s, .error e⟩ : Played σ α).andThen k = ⟨events, s, .error e⟩ := rfl

@[simp] theorem quiet_mk (events : List Event) (s : σ) (r : Except Failure α) :
    (⟨events, s, r⟩ : Played σ α).quiet = ⟨events.filter Event.touchesHost, s, r⟩ := rfl

@[simp] theorem quiet_host (p : Played σ α) : p.quiet.host = p.host := rfl

@[simp] theorem quiet_result (p : Played σ α) : p.quiet.result = p.result := rfl

/-- Leaving out the notes of a continued play leaves them out of both parts. -/
theorem quiet_andThen (p : Played σ α) (k : α → σ → Played σ β) :
    (p.andThen k).quiet = p.quiet.andThen fun a s => (k a s).quiet := by
  rcases p with ⟨events, s, r⟩
  cases r with
  | ok a => simp [quiet]
  | error e => simp

/-- Going on without doing anything only changes the result. -/
theorem andThen_done (p : Played σ α) (f : α → β) :
    (p.andThen fun a s => ⟨[], s, .ok (f a)⟩) = ⟨p.events, p.host, p.result.map f⟩ := by
  rcases p with ⟨events, s, r⟩
  cases r <;> simp [Except.map]

end Played

/-! ## Parts of scripts -/

namespace Script

variable {σ α β : Type} (h : Host σ) (s : σ)

theorem play_bind_eq_andThen (p : Script α) (k : α → Script β) :
    (p >>= k).play h s = (p.play h s).andThen fun a s => (k a).play h s := by
  exact play_bind h p k s

@[simp] theorem play_pure (a : α) : (pure a : Script α).play h s = ⟨[], s, .ok a⟩ := rfl

@[simp] theorem play_ofExcept (r : Except Failure α) :
    (ofExcept r).play h s = ⟨[], s, r⟩ := by
  cases r <;> rfl

@[simp] theorem play_log (entry : LogEntry) :
    (log entry).play h s = ⟨[.noted (.log entry)], s, .ok ()⟩ := rfl

@[simp] theorem play_fetch (q : Query) :
    (fetch q).play h s = ⟨[.asked q], (h.fetch s q).2, (h.fetch s q).1⟩ := by
  simp [fetch, play, Played.after]

@[simp] theorem play_call (i : Invocation) :
    (call i).play h s = ⟨[.ran i (succeeded (h.run s i).1)], (h.run s i).2, (h.run s i).1⟩ := by
  simp [call, play, Played.after]

@[simp] theorem ofExcept_ok_bind (a : α) (k : α → Script β) : (ofExcept (.ok a) >>= k) = k a := rfl

/-- Failing steps may be put together before or after they become parts of a script. -/
theorem ofExcept_bind (r : Except Failure α) (k : α → Except Failure β) :
    ofExcept (r >>= k) = (ofExcept r >>= fun a => ofExcept (k a)) := by
  cases r <;> rfl

theorem each_cons (x : α) (xs : List α) (f : α → Script Unit) :
    each (x :: xs) f = (f x >>= fun _ => each xs f) := rfl

def IsQuiet (p : Script Unit) : Prop :=
  ∀ (σ : Type) (h : Host σ) (s : σ), (p.play h s).quiet = ⟨[], s, .ok ()⟩

theorem isQuiet_log (entry : LogEntry) : IsQuiet (log entry) := by
  intro σ h s
  rfl

theorem isQuiet_each (xs : List α) {f : α → Script Unit} (hf : ∀ x, IsQuiet (f x)) :
    IsQuiet (each xs f) := by
  intro σ h s
  induction xs with
  | nil => rfl
  | cons x xs ih =>
      rw [each_cons, play_bind_eq_andThen, Played.quiet_andThen, hf x σ h s]
      exact ih

/-- Notes before a script leave its quiet play as it is. -/
theorem quiet_play_bind_of_isQuiet {p : Script Unit} (hp : IsQuiet p) (k : Unit → Script α) :
    ((p >>= k).play h s).quiet = ((k ()).play h s).quiet := by
  rw [play_bind_eq_andThen, Played.quiet_andThen, hp σ h s]
  rfl

end Script

/-! ## Links one after another -/

namespace Pass

open Script

variable {σ : Type}

def callAll (h : Host σ) (links : List Invocation) (s : σ) : Played σ Unit :=
  (each links call).play h s

@[simp] theorem callAll_nil (h : Host σ) (s : σ) : callAll h [] s = ⟨[], s, .ok ()⟩ := rfl

theorem callAll_cons (h : Host σ) (i : Invocation) (links : List Invocation) (s : σ) :
    callAll h (i :: links) s =
      Played.andThen ⟨[.ran i (succeeded (h.run s i).1)], (h.run s i).2, (h.run s i).1⟩
        fun _ s => callAll h links s := by
  unfold callAll
  rw [each_cons, play_bind_eq_andThen, play_call]

/-- Links in two parts are run part after part, the second one only if nothing in the first one
fails. -/
theorem callAll_append (h : Host σ) (first rest : List Invocation) (s : σ) :
    callAll h (first ++ rest) s =
      (callAll h first s).andThen fun _ s => callAll h rest s := by
  induction first generalizing s with
  | nil => simp
  | cons i first ih =>
      rw [List.cons_append, callAll_cons, callAll_cons]
      cases hrun : (h.run s i).1 with
      | ok u =>
          simp only [Played.andThen_ok, ih]
          -- Whether the rest of the first list fails decides about the second one on both sides.
          cases hfirst : (callAll h first (h.run s i).2).result with
          | ok v => simp [Played.andThen, hfirst]
          | error e => simp [Played.andThen, hfirst]
      | error e => simp

/-- Running links leaves no notes. -/
theorem quiet_callAll (h : Host σ) (links : List Invocation) (s : σ) :
    (callAll h links s).quiet = callAll h links s := by
  induction links generalizing s with
  | nil => rfl
  | cons i links ih =>
      rw [callAll_cons, Played.quiet_andThen]
      simp only [ih]
      rfl

/-- Either every link succeeds, or the events end at the first link that fails, the host is left
where that link left it, and its failure is the result. -/
theorem callAll_cases (h : Host σ) (links : List Invocation) (s : σ) :
    ((callAll h links s).events = links.map Event.done ∧ (callAll h links s).result = .ok ()) ∨
      ∃ before i after t e,
        links = before ++ i :: after ∧
        callAll h before s = ⟨before.map Event.done, t, .ok ()⟩ ∧
        (h.run t i).1 = .error e ∧
        callAll h links s =
          ⟨before.map Event.done ++ [.ran i false], (h.run t i).2, .error e⟩ := by
  induction links generalizing s with
  | nil => exact .inl ⟨rfl, rfl⟩
  | cons i links ih =>
      cases hrun : (h.run s i).1 with
      | error e =>
          refine .inr ⟨[], i, links, s, e, rfl, rfl, hrun, ?_⟩
          simp [callAll_cons, hrun, succeeded]
      | ok u =>
          -- A link that succeeds only puts its own event in front.
          have hstep (ls : List Invocation) :
              callAll h (i :: ls) s =
                ⟨Event.done i :: (callAll h ls (h.run s i).2).events,
                  (callAll h ls (h.run s i).2).host, (callAll h ls (h.run s i).2).result⟩ := by
            simp [callAll_cons, hrun, succeeded, Event.done]
          rcases ih (h.run s i).2 with ⟨hevents, hresult⟩ | ⟨before, j, after, t, e, h₁, h₂, h₃, h₄⟩
          · refine .inl ⟨?_, ?_⟩
            · simp [hstep, hevents]
            · simp [hstep, hresult]
          · refine .inr ⟨i :: before, j, after, t, e, ?_, ?_, h₃, ?_⟩
            · simp [h₁]
            · simp [hstep, h₂]
            · simp [hstep, h₄]

/-- Every event of running links is one of these links. -/
theorem ran_of_mem_callAll (h : Host σ) (links : List Invocation) (s : σ) {e : Event}
    (he : e ∈ (callAll h links s).events) : ∃ i ∈ links, ∃ ok, e = .ran i ok := by
  rcases callAll_cases h links s with ⟨hevents, -⟩ | ⟨before, i, after, t, f, hlinks, -, -, hplay⟩
  · rw [hevents] at he
    rcases List.mem_map.1 he with ⟨i, hi, rfl⟩
    exact ⟨i, hi, true, rfl⟩
  · have : e ∈ before.map Event.done ∨ e = .ran i false := by
      simpa [hplay] using he
    rcases this with hbefore | rfl
    · rcases List.mem_map.1 hbefore with ⟨j, hj, rfl⟩
      exact ⟨j, by simp [hlinks, hj], true, rfl⟩
    · exact ⟨i, by simp [hlinks], false, rfl⟩

def linksOf (commands : List Command) : List Invocation := commands.flatMap Command.links

/-- Executing commands, with a note before each, runs the links of all of them. -/
theorem quiet_play_executeAll (h : Host σ) (commands : List Command) (s : σ) :
    ((each commands fun c => do log (.executing c); execute c).play h s).quiet =
      callAll h (linksOf commands) s := by
  induction commands generalizing s with
  | nil => rfl
  | cons c commands ih =>
      -- A single command writes its note and runs its own links.
      have hone (s : σ) :
          ((do log (.executing c); execute c : Script Unit).play h s).quiet =
            callAll h c.links s := by
        rw [quiet_play_bind_of_isQuiet _ _ (isQuiet_log _)]
        exact quiet_callAll h c.links s
      rw [each_cons, play_bind_eq_andThen, Played.quiet_andThen, hone]
      simp only [ih]
      exact (callAll_append h c.links (linksOf commands) s).symm

/-! ## A whole pass -/

/-- The query of a pass and its answer.  Where the decision depends on no facts, nothing is asked
and there are no lines. -/
def inquire (h : Host σ) (spec : Spec) (s : σ) : Played σ (List String) :=
  if spec.needsFacts then (fetch (.inspect spec.kind spec.identity)).play h s
  else ⟨[], s, .ok []⟩

def decision (binary : String) (spec : Spec) (lines : List String) : Except Failure Outcome := do
  let records ← Fact.parse lines
  let plan ← spec.plan records.head?
  let commands ← plan.commands binary
  return ⟨plan, commands, false⟩

theorem quiet_inquire (h : Host σ) (spec : Spec) (s : σ) :
    (inquire h spec s).quiet = inquire h spec s := by
  unfold inquire
  split
  · simp [Event.touchesHost]
  · rfl

/-- The steps of a decision as parts of a script. -/
theorem ofExcept_decision (binary : String) (spec : Spec) (lines : List String) :
    ofExcept (decision binary spec lines) = do
      let records ← ofExcept (Fact.parse lines)
      let plan ← ofExcept (spec.plan records.head?)
      let commands ← ofExcept (plan.commands binary)
      return ⟨plan, commands, false⟩ := by
  simp only [decision, ofExcept_bind]
  rfl

/-- Planning asks the query of a valid spec, and everything else is a function of the answer. -/
theorem play_plan (h : Host σ) (binary : String) (spec : Spec) (s : σ) :
    (plan binary spec).play h s =
      match spec.validate with
      | .error e => ⟨[], s, .error e⟩
      | .ok () =>
        (inquire h spec s).andThen fun lines s => ⟨[], s, decision binary spec lines⟩ := by
  cases hv : spec.validate with
  | error e => simp [plan, play_bind_eq_andThen, hv]
  | ok u =>
      -- The decision, put back into a script, is the rest of the plan.
      have hend (lines : List String) (s : σ) :
          (⟨[], s, decision binary spec lines⟩ : Played σ Outcome) =
            (ofExcept (decision binary spec lines)).play h s := by
        rw [play_ofExcept]
      simp only [plan, hv, ofExcept_ok_bind, hend, ofExcept_decision]
      cases hn : spec.needsFacts with
      | true =>
          simp only [observe, inquire, hn, if_true, ← play_bind_eq_andThen,
            LawfulMonad.bind_assoc, LawfulMonad.pure_bind]
      | false =>
          simp only [observe, inquire, hn, Bool.false_eq_true, if_false]
          rfl

/-- What a pass does once it has decided: nothing in a dry run, and otherwise it runs the links. -/
def carryOut (h : Host σ) (settings : Settings) (outcome : Outcome) (s : σ) : Played σ Outcome :=
  if settings.dryRun then ⟨[], s, .ok outcome⟩
  else (callAll h (linksOf outcome.commands) s).andThen fun _ s =>
    ⟨[], s, .ok { outcome with executed := true }⟩

theorem ran_of_mem_carryOut {h : Host σ} {settings : Settings} {outcome : Outcome} {s : σ}
    {e : Event} (he : e ∈ (carryOut h settings outcome s).events) :
    ∃ i ∈ linksOf outcome.commands, ∃ ok, e = .ran i ok := by
  unfold carryOut at he
  cases hdry : settings.dryRun with
  | true => simp [hdry] at he
  | false =>
      rw [hdry, if_neg Bool.false_ne_true, Played.andThen_done] at he
      exact ran_of_mem_callAll _ _ _ he

/-- A pass plans, and then carries out what it decided. -/
theorem quiet_play_apply (h : Host σ) (settings : Settings) (spec : Spec) (s : σ) :
    ((apply settings spec).play h s).quiet =
      ((plan settings.binary spec).play h s).quiet.andThen (carryOut h settings) := by
  unfold apply
  rw [quiet_play_bind_of_isQuiet _ _ (isQuiet_log _), play_bind_eq_andThen, Played.quiet_andThen]
  congr 1
  funext outcome s
  rw [quiet_play_bind_of_isQuiet _ _ (isQuiet_each _ fun _ => isQuiet_log _)]
  cases hdry : settings.dryRun with
  | true =>
      simp only [carryOut, hdry, if_true]
      rw [quiet_play_bind_of_isQuiet _ _ (isQuiet_each _ fun _ => isQuiet_log _)]
      rfl
  | false =>
      simp only [carryOut, hdry, Bool.false_eq_true, if_false]
      rw [play_bind_eq_andThen, Played.quiet_andThen, quiet_play_executeAll]
      rfl

end Pass

end Converge
