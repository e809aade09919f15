import Converge.Proofs.Shell.Reader

/-!
# Shell lines read back

What is printed for a chain of calls reads back as that chain: every call is one command, and the
program and the arguments are its words.  The reader is `ready` at the start of each call and at the
end of each word, whatever the words hold, so no word can end early or run into the next one.
-/

namespace Converge.Shell

open Reader

variable (commands : List (List String)) (words : List String) (met : List Char)

/-! ## Words -/

theorem step_of_isPlain (r : Reader) (hmode : r.mode = .bare) {c : Char} (hc : isPlain c = true) :
    r.step c = (r.meet c).add c := by
  have hspecial : c ≠ '\'' ∧ c ≠ '\\' ∧ c ≠ ' ' ∧ c ≠ ';' ∧ c ≠ '\n' ∧ c ≠ '#' := by
    refine ⟨?_, ?_, ?_, ?_, ?_, ?_⟩ <;> rintro rfl <;> exact absurd hc (by decide)
  rcases hspecial with ⟨h₁, h₂, h₃, h₄, h₅, h₆⟩
  simp [step, bareStep, hmode, h₁, h₂, h₃, h₄, h₅, h₆]

/-- Plain characters continue a word that has been begun. -/
theorem feed_of_isPlain {cs : List Char} (hcs : ∀ c ∈ cs, isPlain c = true) (w : List Char) :
    feed ⟨commands, words, some w, .bare, met⟩ cs =
      ⟨commands, words, some (w ++ cs), .bare, met ++ cs⟩ := by
  induction cs generalizing w met with
  | nil => simp
  | cons c cs ih =>
      have hc := hcs c (List.mem_cons_self ..)
      rw [feed_cons, step_of_isPlain _ rfl hc]
      simpa [meet, add] using
        ih (met ++ [c]) (fun d hd => hcs d (List.mem_cons_of_mem _ hd)) (w ++ [c])

/-- A character between quotes adds itself to the word and leaves the quotes open. -/
theorem feed_quoteChar (c : Char) (w : List Char) :
    feed ⟨commands, words, some w, .quoted, met⟩ (quoteChar c) =
      ⟨commands, words, some (w ++ [c]), .quoted, met⟩ := by
  unfold quoteChar
  by_cases hc : c = '\''
  · subst hc
    -- The apostrophe closes the quotes, is escaped, and opens them again.
    simp [step, bareStep, enter, add]
  · simp [hc, step, add]

/-- Between single quotes the reader takes up what was quoted, quotes included. -/
theorem feed_quoted (cs w : List Char) :
    feed ⟨commands, words, some w, .quoted, met⟩ (cs.flatMap quoteChar) =
      ⟨commands, words, some (w ++ cs), .quoted, met⟩ := by
  induction cs generalizing w with
  | nil => simp
  | cons c cs ih =>
      rw [List.flatMap_cons, feed_append, feed_quoteChar, ih]
      simp

/-- The characters of a word that stand outside quotes. -/
def bareChars (cs : List Char) : List Char :=
  if !cs.isEmpty && cs.all isPlain then cs else []

/-- A written word is read as itself, and nothing of it is left over. -/
theorem feed_quoteChars (cs : List Char) :
    feed ⟨commands, words, none, .bare, met⟩ (quoteChars cs) =
      ⟨commands, words, some cs, .bare, met ++ bareChars cs⟩ := by
  unfold quoteChars bareChars
  cases hplain : !cs.isEmpty && cs.all isPlain with
  | true =>
      cases cs with
      | nil => cases hplain
      | cons c cs =>
          have hall : ∀ d ∈ c :: cs, isPlain d = true := by simpa using hplain
          have hc := hall c (List.mem_cons_self ..)
          simp only [if_true]
          rw [feed_cons, step_of_isPlain _ rfl hc]
          simpa [meet, add] using
            feed_of_isPlain commands words (met ++ [c])
              (fun d hd => hall d (List.mem_cons_of_mem _ hd)) [c]
  | false =>
      -- The first quote opens an empty word, so even an empty text is a word of its own.
      have hopen : step ⟨commands, words, none, .bare, met⟩ '\'' =
          ⟨commands, words, some [], .quoted, met⟩ := rfl
      simp only [Bool.false_eq_true, if_false, List.append_nil, List.cons_append]
      rw [feed_cons, hopen, feed_append, feed_quoted]
      rfl

/-! ## Lines -/

/-- A character that means nothing to a shell, or one of the two separators. -/
def Harmless (c : Char) : Prop :=
  c.isAlphanum = true ∨ c ∈ ['-', '_', '.', '/', ':', '=', '@', ',', '+', '%'] ∨ c = ' ' ∨ c = ';'

theorem harmless_of_mem_bareChars {cs : List Char} {c : Char} (hc : c ∈ bareChars cs) :
    Harmless c := by
  unfold bareChars at hc
  cases hplain : !cs.isEmpty && cs.all isPlain with
  | false => simp [hplain] at hc
  | true =>
      have hall : ∀ d ∈ cs, isPlain d = true := by
        intro d hd
        exact List.all_eq_true.1 (Bool.and_eq_true_iff.1 hplain).2 d hd
      have hmem : c ∈ cs := by simpa [hplain] using hc
      have : c.isAlphanum = true ∨ c ∈ ['-', '_', '.', '/', ':', '=', '@', ',', '+', '%'] := by
        simpa only [isPlain, Bool.or_eq_true, List.contains_iff_mem] using hall c hmem
      exact this.imp id .inl

/-- The words of a line, up to the end of the last one. -/
theorem feed_line (w : String) (ws : List String) :
    ∃ more, (∀ c ∈ more, Harmless c) ∧
      (feed ⟨commands, words, none, .bare, met⟩
        (String.intercalate " " ((w :: ws).map quote)).toList).endWord =
        ⟨commands, words ++ w :: ws, none, .bare, met ++ more⟩ := by
  induction ws generalizing w words met with
  | nil =>
      refine ⟨bareChars w.toList, fun c hc => harmless_of_mem_bareChars hc, ?_⟩
      simp [quote, feed_quoteChars, endWord]
  | cons v ws ih =>
      -- The space after a word ends it, and the next one starts without any character.
      rcases ih (words ++ [w]) (met ++ bareChars w.toList ++ [' ']) v with ⟨more, hmore, hfeed⟩
      refine ⟨bareChars w.toList ++ ' ' :: more, ?_, ?_⟩
      · intro c hc
        rcases List.mem_append.1 hc with hw | hc
        · exact harmless_of_mem_bareChars hw
        · rcases List.mem_cons.1 hc with rfl | hc
          · exact .inr (.inr (.inl rfl))
          · exact hmore c hc
      · have hline : (String.intercalate " " ((w :: v :: ws).map quote)).toList =
            quoteChars w.toList ++ ' ' :: (String.intercalate " " ((v :: ws).map quote)).toList := by
          simp [quote]
        rw [hline, feed_append, feed_quoteChars, feed_cons, step_space rfl]
        simpa [endWord, meet] using hfeed

/-- The separator between two calls ends the command of the first one. -/
theorem feed_separator {r : Reader} {w : String} {ws : List String}
    (h : r.endWord = ⟨commands, w :: ws, none, .bare, met⟩) :
    r.feed [' ', ';', ' '] =
      ⟨commands ++ [w :: ws], [], none, .bare, met ++ [' ', ';', ' ']⟩ := by
  have hmode : r.mode = .bare := by
    rw [← endWord_mode r, h]
  rw [feed_cons, step_space hmode, h]
  simp [step, bareStep, meet, endCommand, endWord]

/-- The commands of a chain, up to the end of the last one. -/
theorem feed_chain (c : Command) :
    ∃ more, (∀ d ∈ more, Harmless d) ∧
      (feed ⟨commands, [], none, .bare, met⟩ c.line.toList).endCommand =
        ⟨commands ++ c.links.map Invocation.words, [], none, .bare, met ++ more⟩ := by
  induction c generalizing commands met with
  | last i =>
      rcases feed_line commands [] met i.program i.args with ⟨more, hmore, hfeed⟩
      -- The last call has no separator, and the end of the text ends its command.
      refine ⟨more, hmore, ?_⟩
      rw [Command.line_last]
      exact endCommand_of_endWord hfeed
  | followed i next ih =>
      rcases feed_line commands [] met i.program i.args with ⟨more, hmore, hfeed⟩
      rcases ih (commands ++ [i.words]) (met ++ more ++ [' ', ';', ' ']) with ⟨rest, hrest, hnext⟩
      -- The separator leaves the reader as it was before the first call.
      have hline : (Command.followed i next).line.toList =
          i.line.toList ++ ([' ', ';', ' '] ++ next.line.toList) := by
        have hchain := Command.line_chain (.last i) next
        rw [Command.chain, Command.line_last] at hchain
        simp [hchain]
      refine ⟨more ++ [' ', ';', ' '] ++ rest, ?_, ?_⟩
      · intro d hd
        rcases List.mem_append.1 hd with hd | hd
        · rcases List.mem_append.1 hd with hd | hd
          · exact hmore d hd
          · have : d = ' ' ∨ d = ';' := by simpa [or_comm, or_assoc] using hd
            exact .inr (.inr this)
        · exact hrest d hd
      · have hsep := feed_separator commands _ hfeed
        have hi : i.line = String.intercalate " " ((i.program :: i.args).map quote) := rfl
        rw [hline, feed_append, feed_append, hi, hsep]
        simpa [Invocation.words, Command.links] using hnext

/-! ## Chains -/

/-- A call is known by its words. -/
theorem words_injective {i j : Invocation} (h : i.words = j.words) : i = j := by
  rcases i with ⟨p, as⟩
  rcases j with ⟨q, bs⟩
  have : p = q ∧ as = bs := by simpa [Invocation.words] using h
  rw [this.1, this.2]

/-- A chain is known by its links. -/
theorem links_injective : ∀ {c d : Command}, c.links = d.links → c = d
  | .last i, .last j, h => by
      have : i = j := by simpa [Command.links] using h
      rw [this]
  | .last i, .followed j d, h => by
      have : d.links = [] := by simpa [Command.links] using (List.cons.inj h).2.symm
      exact absurd this d.links_ne_nil
  | .followed i c, .last j, h => by
      have : c.links = [] := by simpa [Command.links] using (List.cons.inj h).2
      exact absurd this c.links_ne_nil
  | .followed i c, .followed j d, h => by
      have hboth : i = j ∧ c.links = d.links := by simpa [Command.links] using h
      rw [hboth.1, links_injective hboth.2]

/-- The shell line of a command is read as its links, word by word. -/
theorem read_line_eq (c : Command) : read c.line = some (c.links.map Invocation.words) := by
  rcases feed_chain [] [] c with ⟨more, -, hfeed⟩
  have hmode : (start.feed c.line.toList).mode = .bare := by
    rw [← endCommand_mode]
    exact congrArg Reader.mode hfeed
  have hcommands : (start.feed c.line.toList).endCommand.commands =
      c.links.map Invocation.words := congrArg Reader.commands hfeed
  simp [read, finish, hmode, hcommands]

/-- The line of a chain reads back as the words of its links.  Outside quotes and escapes it holds
only harmless characters, and no other chain has the same line. -/
theorem read_line_of_chain (c : Command) :
    read c.line = some (c.links.map fun i => i.program :: i.args) ∧
      (∀ d ∈ unquoted c.line, d.isAlphanum = true ∨
        d ∈ ['-', '_', '.', '/', ':', '=', '@', ',', '+', '%'] ∨ d = ' ' ∨ d = ';') ∧
      ∀ d : Command, d.line = c.line → d = c := by
  refine ⟨read_line_eq c, ?_, ?_⟩
  · rcases feed_chain [] [] c with ⟨more, hmore, hfeed⟩
    have hunquoted : unquoted c.line = more := by
      unfold unquoted
      rw [← endCommand_unquoted]
      exact congrArg Reader.unquoted hfeed
    intro d hd
    rw [hunquoted] at hd
    exact hmore d hd
  · intro d hline
    -- Equal lines read back as equal words, and the words of a chain determine the chain.
    have hread : some (d.links.map Invocation.words) = some (c.links.map Invocation.words) := by
      rw [← read_line_eq, ← read_line_eq, hline]
    have hlinks : d.links = c.links :=
      (List.map_inj_right fun _ _ => words_injective).1 (Option.some.inj hread)
    exact links_injective hlinks

end Converge.Shell
