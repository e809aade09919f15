import Converge.Command.Shell

/-!
# Commands

One call of a program, and chains of calls that belong to one step.
-/

namespace Converge

structure Invocation where
  program : String
  args : List String
deriving DecidableEq, Inhabited, Repr

namespace Invocation

def words (i : Invocation) : List String := i.program :: i.args

/-- The call as a shell line. -/
def line (i : Invocation) : String :=
  String.intercalate " " (i.words.map Shell.quote)

/-- Whether the character U+0000 occurs, which no program can be given. -/
def hasNul (i : Invocation) : Bool :=
  i.words.any fun w => w.toList.contains (Char.ofNat 0)

end Invocation

/-- A call, followed by the rest of its chain if there is one. -/
inductive Command where
  | last (link : Invocation)
  | followed (link : Invocation) (next : Command)
deriving DecidableEq, Inhabited, Repr

namespace Command

/-- The calls of the chain in the order in which they run. -/
def links : Command → List Invocation
  | last i => [i]
  | followed i next => i :: next.links

/-- Appends a chain at the end. -/
def chain : Command → Command → Command
  | last i, c => followed i c
  | followed i next, c => followed i (next.chain c)

theorem links_chain (a b : Command) : (a.chain b).links = a.links ++ b.links := by
  induction a with
  | last i => rfl
  | followed i next ih => simp [chain, links, ih]

theorem links_ne_nil (c : Command) : c.links ≠ [] := by
  cases c <;> simp [links]

/-- The chain as a shell line. -/
def line (c : Command) : String :=
  String.intercalate " ; " (c.links.map Invocation.line)

theorem line_last (i : Invocation) : (last i).line = i.line := by
  simp [line, links]

theorem line_chain (a b : Command) : (a.chain b).line = a.line ++ " ; " ++ b.line := by
  have hsome (c : Command) : c.links.map Invocation.line ≠ [] := by simpa using c.links_ne_nil
  rw [line, links_chain, List.map_append]
  exact String.intercalate_append_of_ne_nil (hsome a) (hsome b)

end Command

end Converge
