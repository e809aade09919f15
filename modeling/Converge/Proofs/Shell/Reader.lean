import Converge.Command.Basic

/-!
# Reading a shell line

The words and commands that a POSIX shell makes of a text.  A space outside quotes ends a word, and
a semicolon or a line feed outside quotes ends a command.  A hash sign where a word would start
begins a comment up to the next line feed.  Text between single quotes is literal, and so is the
character after a backslash outside quotes.  Pieces that stand side by side are one word.

The reader also keeps the characters that it met outside quotes and escapes, because these are the
ones that a shell could take for more than themselves.
-/

namespace Converge.Shell

inductive Mode where
  | bare
  | quoted
  | escaped
  | comment
deriving DecidableEq, Repr

/-- What was read so far.  `word` is the word that has been begun, if there is one, and `unquoted`
are the characters outside quotes and escapes, the quotes and backslashes themselves left out. -/
structure Reader where
  commands : List (List String)
  words : List String
  word : Option (List Char)
  mode : Mode
  unquoted : List Char
deriving DecidableEq, Repr

namespace Reader

def start : Reader := ⟨[], [], none, .bare, []⟩

def add (r : Reader) (c : Char) : Reader := { r with word := some (r.word.getD [] ++ [c]) }

/-- Begins a word unless there is one, and reads the next character in another mode. -/
def enter (r : Reader) (m : Mode) : Reader := { r with word := some (r.word.getD []), mode := m }

def endWord (r : Reader) : Reader :=
  match r.word with
  | none => r
  | some w => { r with words := r.words ++ [String.ofList w], word := none }

def endCommand (r : Reader) : Reader :=
  if r.endWord.words.isEmpty then r.endWord
  else { r.endWord with commands := r.endWord.commands ++ [r.endWord.words], words := [] }

def meet (r : Reader) (c : Char) : Reader := { r with unquoted := r.unquoted ++ [c] }

def bareStep (r : Reader) (c : Char) : Reader :=
  if c = '\'' then r.enter .quoted
  else if c = '\\' then r.enter .escaped
  else if c = ' ' then (r.meet c).endWord
  else if c = ';' ∨ c = '\n' then (r.meet c).endCommand
  else if c = '#' ∧ r.word = none then { r.meet c with mode := .comment }
  else (r.meet c).add c

def step (r : Reader) (c : Char) : Reader :=
  match r.mode with
  | .bare => r.bareStep c
  | .quoted => if c = '\'' then { r with mode := .bare } else r.add c
  | .escaped => { r.add c with mode := .bare }
  | .comment => if c = '\n' then { (r.meet c).endCommand with mode := .bare } else r

def feed (r : Reader) (cs : List Char) : Reader := cs.foldl step r

/-- The commands of the whole text, unless it ends within quotes or after a backslash. -/
def finish (r : Reader) : Option (List (List String)) :=
  match r.mode with
  | .bare | .comment => some r.endCommand.commands
  | .quoted | .escaped => none

@[simp] theorem feed_nil (r : Reader) : r.feed [] = r := rfl

@[simp] theorem feed_cons (r : Reader) (c : Char) (cs : List Char) :
    r.feed (c :: cs) = (r.step c).feed cs := rfl

@[simp] theorem feed_append (r : Reader) (cs ds : List Char) :
    r.feed (cs ++ ds) = (r.feed cs).feed ds := List.foldl_append

theorem endWord_meet (r : Reader) (c : Char) : (r.meet c).endWord = r.endWord.meet c := by
  rcases r with ⟨commands, words, word, mode, met⟩
  cases word <;> rfl

@[simp] theorem endWord_mode (r : Reader) : r.endWord.mode = r.mode := by
  rcases r with ⟨commands, words, word, mode, met⟩
  cases word <;> rfl

theorem step_space {r : Reader} (hmode : r.mode = .bare) : r.step ' ' = r.endWord.meet ' ' := by
  simp [step, hmode, bareStep, endWord_meet]

@[simp] theorem endCommand_mode (r : Reader) : r.endCommand.mode = r.mode := by
  unfold endCommand
  split <;> simp

@[simp] theorem endWord_unquoted (r : Reader) : r.endWord.unquoted = r.unquoted := by
  rcases r with ⟨commands, words, word, mode, met⟩
  cases word <;> rfl

@[simp] theorem endCommand_unquoted (r : Reader) : r.endCommand.unquoted = r.unquoted := by
  unfold endCommand
  split <;> simp

/-- Where the last word has been ended and there is one, ending the command adds its words. -/
theorem endCommand_of_endWord {r : Reader} {commands : List (List String)} {w : String}
    {ws : List String} {m : Mode} {met : List Char}
    (h : r.endWord = ⟨commands, w :: ws, none, m, met⟩) :
    r.endCommand = ⟨commands ++ [w :: ws], [], none, m, met⟩ := by
  simp [endCommand, h]

end Reader

def read (text : String) : Option (List (List String)) :=
  (Reader.start.feed text.toList).finish

def unquoted (text : String) : List Char :=
  (Reader.start.feed text.toList).unquoted

end Converge.Shell
