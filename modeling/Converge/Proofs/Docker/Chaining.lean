import Converge.Proofs.Docker.Processes
import Converge.Proofs.Shell.RoundTrip

/-!
# Chaining

To chain two commands is to put their links one after another.  This is seen in the links and in the
shell line, and it is seen on every machine: the first command is executed as it would be alone, and
the second one follows, from where the first one left the machine, exactly if every link of the first
one became a process that ended well.

Both commands may be chains of any length.
-/

namespace Converge

namespace Command

theorem chain_assoc (a b c : Command) : (a.chain b).chain c = a.chain (b.chain c) := by
  -- A chain is known by its links, and lists are appended in any grouping.
  apply Shell.links_injective
  simp only [links_chain, List.append_assoc]

end Command

/-! ## Execution -/

namespace Pass

open Script

variable {σ : Type} (m : Machine σ) (binary : String)

theorem play_execute (h : Host σ) (c : Command) (s : σ) :
    (execute c).play h s = callAll h c.links s := rfl

/-- Executing a chain executes its parts in turn, on every host. -/
theorem play_execute_chain (h : Host σ) (a b : Command) (s : σ) :
    (execute (a.chain b)).play h s =
      ((execute a).play h s).andThen fun _ t => (execute b).play h t := by
  simp only [play_execute, Command.links_chain, callAll_append]

/-- Docker's links are processes, whatever its facts are. -/
theorem play_execute_host (c : Command) (s : σ) :
    (execute c).play (Docker.host binary m) s =
      callAll (onMachine (Docker.host binary m).fetch m) c.links s := rfl

theorem exists_play_execute_of_not_completes {c : Command} {s : σ}
    (fails : ¬ m.Completes c.links s) :
    ∃ before i after t e, c.links = before ++ i :: after ∧
      (execute c).play (Docker.host binary m) s =
        ⟨before.map (Event.ran · true) ++ [.ran i false], t, .error e⟩ := by
  rcases Machine.completes_or_fails c.links s with
    hall | ⟨before, i, after, e, hlinks, hbefore, hfails⟩
  · exact absurd hall fails
  · refine ⟨before, i, after, m.after (before ++ [i]) s, e, hlinks, ?_⟩
    rw [play_execute_host, hlinks]
    exact callAll_of_failsWith hbefore hfails after

/-- What the execution of two chained commands does on a machine. -/
structure ExecutesInTurn (a b : Command) (s : σ) : Prop where
  /-- If every link of the first command ends well, all of them are run, and the second command is
  executed where they left the machine; its result is the result. -/
  followed : m.Completes a.links s → ∃ t,
    (execute a).play (Docker.host binary m) s = ⟨a.links.map (Event.ran · true), t, .ok ()⟩ ∧
    (execute (a.chain b)).play (Docker.host binary m) s =
      ⟨a.links.map (Event.ran · true) ++ ((execute b).play (Docker.host binary m) t).events,
        ((execute b).play (Docker.host binary m) t).host,
        ((execute b).play (Docker.host binary m) t).result⟩
  /-- Otherwise the first command ends at its first link that fails, and nothing follows. -/
  ended : ¬ m.Completes a.links s →
    (execute (a.chain b)).play (Docker.host binary m) s =
      (execute a).play (Docker.host binary m) s ∧
    ∃ before i after t e, a.links = before ++ i :: after ∧
      (execute a).play (Docker.host binary m) s =
        ⟨before.map (Event.ran · true) ++ [.ran i false], t, .error e⟩

theorem executesInTurn (a b : Command) (s : σ) : ExecutesInTurn m binary a b s where
  followed completes := by
    have hfirst : (execute a).play (Docker.host binary m) s =
        ⟨a.links.map (Event.ran · true), m.after a.links s, .ok ()⟩ := by
      rw [play_execute_host]
      exact callAll_of_completes completes
    refine ⟨m.after a.links s, hfirst, ?_⟩
    rw [play_execute_chain, hfirst, Played.andThen_ok]
  ended fails := by
    rcases exists_play_execute_of_not_completes m binary fails with
      ⟨before, i, after, t, e, hlinks, hfirst⟩
    refine ⟨?_, before, i, after, t, e, hlinks, hfirst⟩
    rw [play_execute_chain, hfirst, Played.andThen_error]

end Pass

namespace Command

structure Concatenates (a b : Command) : Prop where
  links : (a.chain b).links = a.links ++ b.links
  /-- Chains may be put together in any grouping. -/
  assoc : ∀ c : Command, (a.chain b).chain c = a.chain (b.chain c)
  line : (a.chain b).line = a.line ++ " ; " ++ b.line
  /-- The machine may go by everything that it was told before, and may keep a list of it. -/
  executes : ∀ (σ : Type) (m : Machine σ) (binary : String) (s : σ),
    Pass.ExecutesInTurn m binary a b s

/-- Chaining is concatenation, for chains of any length. -/
theorem chain_concatenates (a b : Command) : Concatenates a b where
  links := links_chain a b
  assoc := chain_assoc a b
  line := line_chain a b
  executes _ m binary s := Pass.executesInTurn m binary a b s

/-- A chain is appended behind the last link, not behind the first. -/
example : (((last ⟨"a", ["1"]⟩).chain (last ⟨"b", ["2"]⟩)).chain (last ⟨"c", ["3"]⟩)).line =
    "a 1 ; b 2 ; c 3" := by
  decide

end Command

end Converge
