import Converge.Proofs.Pass.Survey
import Converge.Proofs.Plan.Shape
import Converge.Proofs.Shell.RoundTrip

/-!
# Listings are scripts

What planning prints can be given to a shell.  The steps are comments, and the commands read back
as the calls of the plans, whatever the resources hold: a line feed inside a word stands between
quotes, and the text of a comment has none.

Every line takes a reader from the start of a line, outside quotes and with no word begun, to the
start of the next one, so nothing that a line holds changes how a later one is read.
`Console.planAll_prints_script` is the statement for every list of resources and every host.
-/

namespace Converge

namespace Shell

open Reader

def Reader.fresh (commands : List (List String)) (met : List Char) : Reader :=
  ⟨commands, [], none, .bare, met⟩

/-- The text in which each line is followed by a line feed.  A line may hold others. -/
def page (lines : List String) : String :=
  String.join (lines.map (· ++ "\n"))

/-- The lines of a listing, and the commands that a shell is to find in it. -/
inductive Listing : List String → List (List String) → Prop where
  | done : Listing [] []
  | comment {text : String} {lines : List String} {commands : List (List String)}
      (single : '\n' ∉ text.toList) (rest : Listing lines commands) :
      Listing (("# " ++ text) :: lines) commands
  | chain (c : Command) {lines : List String} {commands : List (List String)}
      (rest : Listing lines commands) :
      Listing (c.line :: lines) (c.links.map Invocation.words ++ commands)

/-- A line that starts a comment and ends where the comment ends. -/
structure IsComment (line : String) : Prop where
  single : '\n' ∉ line.toList
  unread : ∀ commands met, (fresh commands met).feed line.toList =
    ⟨commands, [], none, .comment, met ++ ['#']⟩

/-- A character that may stand outside quotes, escapes and comments. -/
def Expected (c : Char) : Prop :=
  Harmless c ∨ c = '#' ∨ c = '\n'

/-- A text that a shell reads as the calls, line by line. -/
structure IsScript (lines : List String) (calls : List Invocation) : Prop where
  reads : read (page lines) = some (calls.map fun i => i.program :: i.args)
  starts : ∀ first rest, lines = first ++ rest →
    ∃ commands met, start.feed (page first).toList = fresh commands met
  unquoted : ∀ c ∈ unquoted (page lines), Expected c

/-! ## Lines -/

variable (commands : List (List String)) (met : List Char)

theorem feed_of_comment {cs : List Char} (single : '\n' ∉ cs) {r : Reader}
    (hmode : r.mode = .comment) : r.feed cs = r := by
  induction cs with
  | nil => rfl
  | cons c cs ih =>
      have hboth : '\n' ≠ c ∧ '\n' ∉ cs := by simpa using single
      have hstep : r.step c = r := by simp [step, hmode, hboth.1.symm]
      rw [feed_cons, hstep]
      exact ih hboth.2

/-- A comment ends with its line, so a step whose words stand on one line hides nothing that
follows. -/
theorem isComment_of_single {text : String} (single : '\n' ∉ text.toList) :
    IsComment ("# " ++ text) where
  single := by simpa using single
  unread commands met := by
    -- The hash sign stands where a word would start, and the rest is not read.
    have hopen : (fresh commands met).feed "# ".toList =
        ⟨commands, [], none, .comment, met ++ ['#']⟩ := rfl
    rw [String.toList_append, feed_append, hopen]
    exact feed_of_comment single rfl

/-- A comment adds nothing, and its line feed leaves the reader at the start of a line. -/
theorem feed_comment {line : String} (h : IsComment line) :
    (fresh commands met).feed (line.toList ++ ['\n']) = fresh commands (met ++ ['#', '\n']) := by
  rw [feed_append, h.unread]
  simp [step, meet, endCommand, endWord, fresh]

theorem endCommand_meet (r : Reader) (c : Char) : (r.meet c).endCommand = r.endCommand.meet c := by
  have hwords : (r.endWord.meet c).words = r.endWord.words := rfl
  unfold endCommand
  rw [endWord_meet, hwords]
  split <;> rfl

/-- The line of a chain adds its calls, and its line feed ends the last one. -/
theorem feed_command (c : Command) :
    ∃ more, (∀ d ∈ more, Harmless d) ∧
      (fresh commands met).feed (c.line.toList ++ ['\n']) =
        fresh (commands ++ c.links.map Invocation.words) (met ++ more ++ ['\n']) := by
  rcases feed_chain commands met c with ⟨more, hmore, hfeed⟩
  refine ⟨more, hmore, ?_⟩
  have hend : ((fresh commands met).feed c.line.toList).endCommand =
      fresh (commands ++ c.links.map Invocation.words) (met ++ more) := hfeed
  -- The last word ends outside quotes, so the line feed is not part of it.
  have hmode : ((fresh commands met).feed c.line.toList).mode = .bare := by
    rw [← endCommand_mode, hend]
    rfl
  calc
    (fresh commands met).feed (c.line.toList ++ ['\n'])
        = ((fresh commands met).feed c.line.toList).endCommand.meet '\n' := by
          simp [step, hmode, bareStep, endCommand_meet]
    _ = fresh (commands ++ c.links.map Invocation.words) (met ++ more ++ ['\n']) := by
          rw [hend]
          rfl

/-! ## Listings -/

theorem page_cons (line : String) (lines : List String) :
    (page (line :: lines)).toList = (line.toList ++ ['\n']) ++ (page lines).toList := by
  simp [page]

variable {lines first rest : List String} {added : List (List String)}

/-- A listing is read from the start of a line to the start of a line. -/
theorem feed_listing (listing : Listing lines added) :
    ∃ more, (∀ c ∈ more, Expected c) ∧
      (fresh commands met).feed (page lines).toList = fresh (commands ++ added) (met ++ more) := by
  -- What the lines before have left is general, since each line adds to it.
  induction listing generalizing commands met with
  | done => exact ⟨[], by simp, by simp [page]⟩
  | comment single _ ih =>
      rcases ih commands (met ++ ['#', '\n']) with ⟨more, hmore, hrest⟩
      refine ⟨['#', '\n'] ++ more, ?_, ?_⟩
      · intro c hc
        rcases List.mem_append.1 hc with hc | hc
        · exact .inr (by simpa using hc)
        · exact hmore c hc
      · rw [page_cons, feed_append, feed_comment _ _ (isComment_of_single single), hrest]
        simp
  | chain c _ ih =>
      rcases feed_command commands met c with ⟨line, hline, hcommand⟩
      rcases ih (commands ++ c.links.map Invocation.words) (met ++ line ++ ['\n']) with
        ⟨more, hmore, hrest⟩
      refine ⟨line ++ ['\n'] ++ more, ?_, ?_⟩
      · intro d hd
        rcases List.mem_append.1 hd with hd | hd
        · rcases List.mem_append.1 hd with hd | hd
          · exact .inl (hline d hd)
          · exact .inr (.inr (List.mem_singleton.1 hd))
        · exact hmore d hd
      · rw [page_cons, feed_append, hcommand, hrest]
        simp

/-- Listings that are printed one after another are one listing. -/
theorem Listing.append {more : List (List String)} (h : Listing first added)
    (h' : Listing rest more) : Listing (first ++ rest) (added ++ more) := by
  induction h with
  | done => exact h'
  | comment single _ ih => exact .comment single ih
  | chain c _ ih => simpa using Listing.chain c ih

theorem Listing.of_comments {texts : List String} (single : ∀ text ∈ texts, '\n' ∉ text.toList) :
    Listing (texts.map ("# " ++ ·)) [] := by
  induction texts with
  | nil => exact .done
  | cons text texts ih =>
      exact .comment (single text (List.mem_cons_self ..))
        (ih fun t ht => single t (List.mem_cons_of_mem _ ht))

/-- A chain stands on one line or, through the texts in it, on several; its links are the commands
that are found. -/
theorem Listing.of_chains (cs : List Command) :
    Listing (cs.map Command.line) ((Pass.linksOf cs).map Invocation.words) := by
  induction cs with
  | nil => exact .done
  | cons c cs ih => simpa [Pass.linksOf] using Listing.chain c ih

/-- The first lines of a listing are a listing. -/
theorem Listing.exists_first (h : Listing (first ++ rest) added) :
    ∃ some, Listing first some := by
  induction first generalizing added with
  | nil => exact ⟨[], .done⟩
  | cons line first ih =>
      cases h with
      | comment single more => exact (ih more).imp fun _ => .comment single
      | chain c more =>
          rcases ih more with ⟨some, hsome⟩
          exact ⟨_, .chain c hsome⟩

/-- The commands that a shell finds on the page of a listing are those of the listing. -/
theorem isScript_of_listing {calls : List Invocation}
    (listing : Listing lines (calls.map Invocation.words)) : IsScript lines calls := by
  rcases feed_listing [] [] listing with ⟨more, hmore, hfeed⟩
  have hstart : start.feed (page lines).toList = fresh (calls.map Invocation.words) more := hfeed
  constructor
  · rw [read, hstart]
    rfl
  · rintro first rest rfl
    rcases listing.exists_first with ⟨some, hfirst⟩
    rcases feed_listing [] [] hfirst with ⟨more, -, hfeed⟩
    exact ⟨_, _, hfeed⟩
  · rw [unquoted, hstart]
    exact hmore

/-- A label that looks like the next line stays a word of its command. -/
example : read (page ["# create volume data",
    (Command.last ⟨"docker", ["volume", "create", "data", "--label", "a\n# b"]⟩).line]) =
    some [["docker", "volume", "create", "data", "--label", "a\n# b"]] := by decide

end Shell

/-! ## What is printed -/

theorem Kind.single_name (k : Kind) : '\n' ∉ k.name.toList := by
  cases k <;> decide

theorem Verb.single_name (v : Verb) : '\n' ∉ v.name.toList := by
  cases v <;> decide

namespace Plan

variable {s : Spec} {p : Plan}

theorem WellFormed.mem_idleReasons (wellFormed : p.WellFormed s) {a : Action} (ha : a ∈ p.actions)
    {reason : String} (hreason : a.reason? = some reason) : reason ∈ idleReasons := by
  rcases wellFormed.uniform with ⟨idle, hidle, hactions⟩ | hacts
  · have : a = .noop s idle := by simpa [hactions] using ha
    subst this
    cases hreason
    exact hidle
  · have hidle := hacts a ha
    simp [Action.isNoop, hreason] at hidle

/-- A step of a plan for a valid resource is described in one line. -/
theorem WellFormed.single_describe (wellFormed : p.WellFormed s) (valid : s.IsValid) {a : Action}
    (ha : a ∈ p.actions) : '\n' ∉ a.describe.toList := by
  -- A line feed is a blank character, and a valid identity has none of these.
  have hidentity : '\n' ∉ a.spec.identity.toList := by
    rw [wellFormed.about a ha]
    intro hmem
    exact absurd (valid.2.2 _ hmem) (by decide)
  have hreasons : ∀ reason ∈ idleReasons, '\n' ∉ reason.toList := by decide
  unfold Action.describe
  cases hreason : a.reason? with
  | none => simp [Verb.single_name, Kind.single_name, hidentity]
  | some reason =>
      have hsingle := hreasons reason (wellFormed.mem_idleReasons ha hreason)
      simp [Verb.single_name, Kind.single_name, hidentity, hsingle]

end Plan

namespace Console

open Shell

variable {σ : Type} {h : Host σ} {binary : String}

theorem single_describe_of_planned {spec : Spec} {s : σ} {o : Outcome}
    (planned : ((Pass.plan binary spec).play h s).result = .ok o) :
    ∀ a ∈ o.plan.actions, '\n' ∉ a.describe.toList := by
  have valid := (Pass.result_play_plan_eq_ok_iff.1 planned).1
  rcases Pass.exists_plan_of_planned planned with ⟨observed, hplan, -⟩
  have hwell := Spec.wellFormed_of_planUnchecked (Spec.planUnchecked_of_plan hplan)
  exact fun a ha => hwell.single_describe (spec.validate_eq_ok_iff.1 valid) ha

/-- An outcome is printed as comments, one for each step, and the lines of its commands. -/
theorem listing_printed {o : Outcome} (single : ∀ a ∈ o.plan.actions, '\n' ∉ a.describe.toList) :
    Listing (printed o) ((Pass.linksOf o.commands).map Invocation.words) := by
  have hsteps : Listing ((o.plan.actions.map Action.describe).map ("# " ++ ·)) [] :=
    .of_comments (by simpa using single)
  have hboth := hsteps.append (.of_chains o.commands)
  simpa [printed, Function.comp_def] using hboth

theorem listing_outcomes {outcomes : List Outcome}
    (single : ∀ o ∈ outcomes, ∀ a ∈ o.plan.actions, '\n' ∉ a.describe.toList) :
    Listing (outcomes.flatMap printed)
      ((outcomes.flatMap fun o => Pass.linksOf o.commands).map Invocation.words) := by
  induction outcomes with
  | nil => exact .done
  | cons o outcomes ih =>
      have hfirst := listing_printed (single o (List.mem_cons_self ..))
      have hrest := ih fun o' ho' => single o' (List.mem_cons_of_mem _ ho')
      simpa using hfirst.append hrest

/-- What planning prints, up to the first spec that cannot be planned, is a script of the links of
the planned commands, whatever the specs hold and whatever the host answers.  The lines that show
the steps are comments. -/
theorem planAll_prints_script (h : Host σ) (binary : String) (specs : List Spec) (s : σ) :
    ∃ visits outcomes t ended,
      Pass.Survey h binary specs s visits outcomes t ended ∧
      Report.outputOf ((planAll binary specs).play h s).events = outcomes.flatMap printed ∧
      IsScript (outcomes.flatMap printed) (outcomes.flatMap fun o => Pass.linksOf o.commands) ∧
      ∀ o ∈ outcomes, ∀ a ∈ o.plan.actions, IsComment ("# " ++ a.describe) := by
  rcases Pass.exists_survey h binary specs s with ⟨visits, outcomes, t, ended, survey⟩
  have hsingle : ∀ o ∈ outcomes, ∀ a ∈ o.plan.actions, '\n' ∉ a.describe.toList := by
    intro o ho
    rcases survey.exists_visit o ho with ⟨p, -, hplan⟩
    exact single_describe_of_planned hplan
  refine ⟨visits, outcomes, t, ended, survey, survey.outputOf_play_planAll, ?_, ?_⟩
  · exact isScript_of_listing (listing_outcomes hsingle)
  · exact fun o ho a ha => isComment_of_single (hsingle o ho a ha)

end Console

end Converge
