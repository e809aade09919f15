import Converge.Json.Reader
import Converge.Proofs.Json.Grammar

/-!
# Every text of a tree is read

The reader reads each text of a tree as that tree, as long as the tree is no deeper than the reader
goes.  The characters of a value bring the reader from any place where a value may start to a state
that goes on like the one after that value, with the same containers open.  It need not be that state
itself: a numeral ends only with the character after it.
-/

namespace Converge.Json

namespace Reader

/-- The characters bring the reader from one state to another. -/
def Reads (r : Reader) (cs : List Char) (r' : Reader) : Prop :=
  cs.foldlM step r = .ok r'

namespace Reads

variable {r r' r'' : Reader}

theorem nil : Reads r [] r := rfl

theorem cons {c : Char} {cs : List Char} (first : r.step c = .ok r') (rest : Reads r' cs r'') :
    Reads r (c :: cs) r'' := by
  unfold Reads at rest ⊢
  rw [List.foldlM_cons, first]
  exact rest

/-- Readings are put together. -/
theorem append {cs ds : List Char} (first : Reads r cs r') (rest : Reads r' ds r'') :
    Reads r (cs ++ ds) r'' := by
  unfold Reads at first rest ⊢
  rw [List.foldlM_append, first]
  exact rest

/-- Characters none of which changes the state are read over. -/
theorem stay {cs : List Char} (still : ∀ c ∈ cs, r.step c = .ok r) : Reads r cs r := by
  induction cs with
  | nil => exact .nil
  | cons c cs ih =>
      have hc := still c (List.mem_cons_self ..)
      exact .cons hc (ih fun d hd => still d (List.mem_cons_of_mem _ hd))

end Reads

theorem isSpace_of_isBlank {c : Char} (h : IsBlank c) : isSpace c = true := by
  rcases h with rfl | rfl | rfl | rfl <;> decide

/-! ## Strings -/

section Strings

variable (fs : List Frame) (isKey : Bool) (cs : List Char)

theorem hexDigit?_of_isHexDigit {n : Nat} {c : Char} (h : IsHexDigit n c) :
    hexDigit? c = some n ∧ c.utf8Size = 1 := by
  have hall : ∀ n < 16, (hexDigit? (Nat.digitChar n) = some n ∧ (Nat.digitChar n).utf8Size = 1) ∧
      hexDigit? (Nat.digitChar n).toUpper = some n ∧ (Nat.digitChar n).toUpper.utf8Size = 1 := by
    decide
  rcases h with ⟨hn, rfl | rfl⟩
  · exact (hall n hn).1
  · exact (hall n hn).2

/-- A digit that leaves the code unit unfinished. -/
theorem step_hexDigit (lead : Option Nat) (bytes code : Nat) {n : Nat} {c : Char}
    (h : IsHexDigit n c) (more : bytes + 1 < 4) :
    step ⟨fs, .string isKey cs (.digits lead bytes (some code))⟩ c =
      .ok ⟨fs, .string isKey cs (.digits lead (bytes + 1) (some (code * 16 + n)))⟩ := by
  simp [step, stringStep, hexStep, goto, hexDigit?_of_isHexDigit h, more]

/-- The four digits of a code unit, from the letter before them on. -/
theorem reads_codeUnit {lead : Option Nat} {code : Nat} {ds cs' : List Char} {e : Escape}
    (written : CodeUnit code ds) (fits : unit cs lead code = .ok (cs', e)) :
    Reads ⟨fs, .string isKey cs (.digits lead 0 (some 0))⟩ ds ⟨fs, .string isKey cs' e⟩ := by
  cases written with
  | @digits a b c d w x y z ha hb hc hd =>
      have hfirst := step_hexDigit fs isKey cs lead 0 0 ha (by decide)
      have hsecond := step_hexDigit fs isKey cs lead 1 (0 * 16 + a) hb (by decide)
      have hthird := step_hexDigit fs isKey cs lead 2 ((0 * 16 + a) * 16 + b) hc (by decide)
      -- The fourth digit completes the unit.
      have hlast : step ⟨fs, .string isKey cs
          (.digits lead 3 (some (((0 * 16 + a) * 16 + b) * 16 + c)))⟩ z =
            .ok ⟨fs, .string isKey cs' e⟩ := by
        simp [step, stringStep, hexStep, goto, hexDigit?_of_isHexDigit hd, fits]
      exact .cons hfirst (.cons hsecond (.cons hthird (.cons hlast .nil)))

theorem escapedChar?_of_mem {l c : Char} (h : (l, c) ∈ escapes) :
    escapedChar? l = some c ∧ l ≠ 'u' := by
  have hall : ∀ p ∈ escapes, escapedChar? p.1 = some p.2 ∧ p.1 ≠ 'u' := by decide
  exact hall (l, c) h

/-- A character is no half of a surrogate pair. -/
theorem not_surrogate (c : Char) : ¬ (0xD800 ≤ c.toNat ∧ c.toNat ≤ 0xDFFF) := by
  rintro ⟨hlow, hhigh⟩
  have hvalid : c.toNat < 0xD800 ∨ 0xDFFF < c.toNat ∧ c.toNat < 0x110000 := c.valid
  omega

/-- Within a string, every text of a character is read as that character. -/
theorem reads_charText {c : Char} {text : List Char} (written : CharText c text) :
    Reads ⟨fs, .string isKey cs .none⟩ text ⟨fs, .string isKey (c :: cs) .none⟩ := by
  have hbackslash : step ⟨fs, .string isKey cs .none⟩ '\\' = .ok ⟨fs, .string isKey cs .letter⟩ :=
    rfl
  have hu : step ⟨fs, .string isKey cs .letter⟩ 'u' =
      .ok ⟨fs, .string isKey cs (.digits none 0 (some 0))⟩ := rfl
  cases written with
  | plain quote backslash control =>
      refine .cons ?_ .nil
      have : ¬ c.toNat < 0x20 := by omega
      simp [step, stringStep, goto, quote, backslash, this]
  | @letter l _ listed =>
      rcases escapedChar?_of_mem listed with ⟨hchar, hletter⟩
      refine .cons hbackslash (.cons ?_ .nil)
      simp [step, stringStep, goto, hchar, hletter]
  | unit code =>
      have hno := not_surrogate c
      have hunit : unit cs none c.toNat = .ok (c :: cs, .none) := by
        have h₁ : ¬ (0xDC00 ≤ c.toNat ∧ c.toNat ≤ 0xDFFF) := by omega
        have h₂ : ¬ (0xD800 ≤ c.toNat ∧ c.toNat ≤ 0xDBFF) := by omega
        simp only [unit, h₁, h₂, if_false, Char.ofNat_toNat]
      exact .cons hbackslash (.cons hu (reads_codeUnit fs isKey cs code hunit))
  | @pair _ high low ds es first second leads trails code =>
      -- The first half waits for the second one.
      have hfirst : unit cs none high = .ok (cs, .backslash high) := by
        have h₁ : ¬ (0xDC00 ≤ high ∧ high ≤ 0xDFFF) := by omega
        simp only [unit, h₁, leads, if_false, and_self, if_true]
      have hsecond : unit cs (some high) low = .ok (c :: cs, .none) := by
        simp only [unit, trails, and_self, if_true]
        rw [← code, Char.ofNat_toNat]
      have hmiddle : Reads ⟨fs, .string isKey cs (.backslash high)⟩ ['\\', 'u']
          ⟨fs, .string isKey cs (.digits (some high) 0 (some 0))⟩ := .cons rfl (.cons rfl .nil)
      have hlead : Reads ⟨fs, .string isKey cs .none⟩ ('\\' :: 'u' :: ds)
          ⟨fs, .string isKey cs (.backslash high)⟩ :=
        .cons hbackslash (.cons hu (reads_codeUnit fs isKey cs first hfirst))
      exact .append hlead (.append hmiddle (reads_codeUnit fs isKey cs second hsecond))

/-- The characters of a string are read from whatever is written for them. -/
theorem reads_bodyText {ds text : List Char} (written : BodyText ds text) :
    Reads ⟨fs, .string isKey cs .none⟩ text ⟨fs, .string isKey (ds.reverse ++ cs) .none⟩ := by
  induction written generalizing cs with
  | nil => exact .nil
  | @cons c ds text more first _ ih =>
      rw [List.reverse_cons, List.append_assoc]
      exact .append (reads_charText fs isKey cs first) (ih (c :: cs))

end Strings

/-- A string between its quotes is read as a value or as a key, whichever its first quote starts. -/
theorem reads_string {r : Reader} (isKey : Bool) {s : String} {body : List Char}
    (written : BodyText s.toList body)
    (opens : r.step '"' = .ok (r.goto (.string isKey [] .none))) :
    Reads r ('"' :: (body ++ ['"']))
      ((r.goto (.string isKey s.toList.reverse .none)).giveString isKey s.toList.reverse) := by
  have hinside := reads_bodyText r.opened isKey [] written
  rw [List.append_nil] at hinside
  refine .cons opens (.append hinside (.cons ?_ .nil))
  simp [step, goto]

theorem giveString_value (r : Reader) (s : String) :
    r.giveString false s.toList.reverse = r.give (.text s) := by
  simp [giveString]

theorem giveString_key (members : List (String × Json)) (key : Option String) (fs : List Frame)
    (p : Place) (s : String) :
    giveString ⟨.object members key :: fs, p⟩ true s.toList.reverse =
      ⟨.object members (some s) :: fs, .colon⟩ := by
  simp [giveString]

/-! ## After a value -/

def IsDelimiter (c : Char) : Prop := IsBlank c ∨ c = ',' ∨ c = ']' ∨ c = '\x7d'

/-- The reader goes on like another one, whatever follows the value that it has read. -/
def GoesOnLike (r s : Reader) : Prop :=
  (∀ c, IsDelimiter c → r.step c = s.step c) ∧ r.finish = s.finish

theorem GoesOnLike.refl (r : Reader) : GoesOnLike r r := ⟨fun _ _ => rfl, rfl⟩

/-- Where a value is put depends on the open containers alone. -/
theorem give_goto (r : Reader) (p : Place) (v : Json) : (r.goto p).give v = r.give v := rfl

/-- After a value, the reader waits for a separator or has finished. -/
theorem give_place (r : Reader) (v : Json) :
    (r.give v).place = .separator ∨ (r.give v).place = .finished v := by
  rcases r with ⟨_ | ⟨_ | ⟨_, _ | _⟩, _⟩, _⟩
  · exact .inr rfl
  all_goals exact .inl rfl

theorem step_give (r : Reader) (v : Json) (c : Char) :
    (r.give v).step c = (r.give v).separate c := by
  rcases give_place r v with h | h <;> simp only [step, h]

theorem finish_give (r : Reader) (v : Json) : (r.give v).finish = (r.give v).result := by
  rcases give_place r v with h | h <;> simp only [finish, h]

/-- Blanks after a value change nothing. -/
theorem exists_reads_blanks {r r' : Reader} {v : Json} (after : GoesOnLike r' (r.give v))
    {blanks : List Char} (blank : ∀ c ∈ blanks, IsBlank c) :
    ∃ r'', Reads r' blanks r'' ∧ GoesOnLike r'' (r.give v) := by
  have hstay : ∀ c ∈ blanks, (r.give v).step c = .ok (r.give v) := by
    intro c hc
    rw [step_give, separate, if_pos (isSpace_of_isBlank (blank c hc))]
  cases blanks with
  | nil => exact ⟨r', .nil, after⟩
  | cons c blanks =>
      -- The first blank settles where the value ends.
      have hfirst : r'.step c = .ok (r.give v) := by
        rw [after.1 c (.inl (blank c (List.mem_cons_self ..)))]
        exact hstay c (List.mem_cons_self ..)
      exact ⟨r.give v, .cons hfirst (.stay fun d hd => hstay d (List.mem_cons_of_mem _ hd)),
        .refl _⟩

/-! ## Where a value starts -/

def AtValue (r : Reader) : Prop :=
  r.place = .value ∨ r.place = .firstItem ∨ r.place = .nextItem

section Starts

variable {r : Reader} (start : r.AtValue)
include start

theorem step_atValue {c : Char} (hc : c ≠ ']') : r.step c = r.startValue c := by
  unfold step
  rcases start with h | h | h <;> simp [h, hc]

theorem reads_blanks {blanks : List Char} (blank : ∀ c ∈ blanks, IsBlank c) : Reads r blanks r := by
  refine .stay ?_
  intro c hc
  have hspace := isSpace_of_isBlank (blank c hc)
  have hbracket : c ≠ ']' := by
    rintro rfl
    exact absurd hspace (by decide)
  rw [step_atValue start hbracket, startValue, if_pos hspace]

theorem step_open (room : r.opened.length < maxDepth) :
    r.step '[' = .ok ⟨.array [] :: r.opened, .firstItem⟩ ∧
      r.step '\x7b' = .ok ⟨.object [] none :: r.opened, .firstKey⟩ := by
  constructor
  · rw [step_atValue start (by decide)]
    change r.openFrame (.array []) .firstItem = _
    rw [openFrame, if_pos room]
  · rw [step_atValue start (by decide)]
    change r.openFrame (.object [] none) .firstKey = _
    rw [openFrame, if_pos room]

theorem step_digit {c : Char} (digit : Numeral.isDigit c = true) :
    r.step c = .ok (r.goto (.numeral (.ofDigit c))) := by
  -- A digit starts nothing else.
  have hother : isSpace c = false ∧ c ≠ '"' ∧ c ≠ '-' ∧ c ≠ ']' := by
    refine ⟨?_, ?_, ?_, ?_⟩
    · cases hspace : isSpace c with
      | false => rfl
      | true =>
          have hfour : ((c = ' ' ∨ c = '\t') ∨ c = '\n') ∨ c = '\r' := by simpa [isSpace] using hspace
          rcases hfour with ((rfl | rfl) | rfl) | rfl <;> exact absurd digit (by decide)
    all_goals
      rintro rfl
      exact absurd digit (by decide)
  rcases hother with ⟨h₁, h₂, h₃, h₄⟩
  rw [step_atValue start h₄]
  simp [startValue, h₁, h₂, h₃, digit]

end Starts

/-! ## Numerals -/

section Numerals

variable {r : Reader}

theorem step_numeral {n n' : Numeral} {c : Char} (h : n.step c = .ok (some n')) :
    (r.goto (.numeral n)).step c = .ok (r.goto (.numeral n')) := by
  simp only [goto, step, h]

/-- Digits are read one after another, where each of them extends the numeral. -/
theorem reads_digits {f : List Char → Numeral}
    (grows : ∀ ds c, Numeral.isDigit c = true → (f ds).step c = .ok (some (f (ds ++ [c]))))
    {cs : List Char} (digits : ∀ c ∈ cs, Numeral.isDigit c = true) (ds : List Char) :
    Reads (r.goto (.numeral (f ds))) cs (r.goto (.numeral (f (ds ++ cs)))) := by
  induction cs generalizing ds with
  | nil =>
      rw [List.append_nil]
      exact .nil
  | cons c cs ih =>
      have hc := grows ds c (digits c (List.mem_cons_self ..))
      have hrest := ih (fun d hd => digits d (List.mem_cons_of_mem _ hd)) (ds ++ [c])
      rw [List.append_assoc] at hrest
      exact .cons (step_numeral hc) hrest

/-- The digits before the point, of which a first zero is the only one. -/
theorem reads_wholeDigits {negative : Bool} {ds cs : List Char}
    (digits : ∀ c ∈ cs, Numeral.isDigit c = true)
    (leading : (ds ++ cs).head? = some '0' → ds ++ cs = ['0']) :
    Reads (r.goto (.numeral ⟨negative, ds, none, none⟩)) cs
      (r.goto (.numeral ⟨negative, ds ++ cs, none, none⟩)) := by
  induction cs generalizing ds with
  | nil =>
      rw [List.append_nil]
      exact .nil
  | cons c cs ih =>
      have hc := digits c (List.mem_cons_self ..)
      have hzero : ds ≠ ['0'] := by
        rintro rfl
        have := leading rfl
        simp at this
      have hstep : Numeral.step ⟨negative, ds, none, none⟩ c =
          .ok (some ⟨negative, ds ++ [c], none, none⟩) := by
        simp [Numeral.step, hc, hzero]
      have happend : ds ++ c :: cs = ds ++ [c] ++ cs := by simp
      rw [happend] at leading ⊢
      exact .cons (step_numeral hstep) (ih (fun d hd => digits d (List.mem_cons_of_mem _ hd)) leading)

/-- The part of a numeral before its point, with its sign. -/
theorem reads_whole (start : r.AtValue) (negative : Bool) {whole : List Char}
    (digits : whole ≠ [] ∧ ∀ c ∈ whole, Numeral.isDigit c = true)
    (leading : whole.head? = some '0' → whole = ['0']) :
    Reads r ((if negative then ['-'] else []) ++ whole)
      (r.goto (.numeral ⟨negative, whole, none, none⟩)) := by
  cases negative with
  | true =>
      have hminus : r.step '-' = .ok (r.goto (.numeral .minus)) := by
        rw [step_atValue start (by decide)]
        rfl
      exact .cons hminus (reads_wholeDigits digits.2 leading)
  | false =>
      cases whole with
      | nil => exact absurd rfl digits.1
      | cons c cs =>
          have hc := step_digit start (digits.2 c (List.mem_cons_self ..))
          have hrest : Reads (r.goto (.numeral (.ofDigit c))) cs
              (r.goto (.numeral ⟨false, [c] ++ cs, none, none⟩)) :=
            reads_wholeDigits (fun d hd => digits.2 d (List.mem_cons_of_mem _ hd)) leading
          exact .cons hc hrest

theorem reads_fraction {negative : Bool} {whole ds : List Char} (some : whole ≠ [])
    (digits : ∀ c ∈ ds, Numeral.isDigit c = true) :
    Reads (r.goto (.numeral ⟨negative, whole, none, none⟩)) ('.' :: ds)
      (r.goto (.numeral ⟨negative, whole, .some ds, none⟩)) := by
  have hpoint : Numeral.step ⟨negative, whole, none, none⟩ '.' =
      .ok (.some ⟨negative, whole, .some [], none⟩) := by
    have hdigit : Numeral.isDigit '.' = false := by decide
    simp [Numeral.step, hdigit, some, Numeral.extendWhole]
  have hds : Reads (r.goto (.numeral ⟨negative, whole, .some [], none⟩)) ds
      (r.goto (.numeral ⟨negative, whole, .some ([] ++ ds), none⟩)) :=
    reads_digits (f := fun ds => ⟨negative, whole, .some ds, none⟩)
      (fun ds c hc => by simp [Numeral.step, hc]) digits []
  exact .cons (step_numeral hpoint) hds

/-- An exponent may follow a numeral that could end where it stands. -/
theorem reads_exponent {negative : Bool} {whole : List Char} {fraction : Option (List Char)}
    {e : Exponent} (whole_ne : whole ≠ []) (fraction_ne : fraction ≠ some [])
    (mark : e.mark = 'e' ∨ e.mark = 'E') (sign : ∀ c, e.sign = some c → c = '+' ∨ c = '-')
    (digits : ∀ c ∈ e.digits, Numeral.isDigit c = true) :
    Reads (r.goto (.numeral ⟨negative, whole, fraction, none⟩))
      (e.mark :: (e.sign.toList ++ e.digits))
      (r.goto (.numeral ⟨negative, whole, fraction, some e⟩)) := by
  rcases e with ⟨mark', sign', ds⟩
  have hmark : Numeral.step ⟨negative, whole, fraction, none⟩ mark' =
      .ok (some ⟨negative, whole, fraction, some ⟨mark', none, []⟩⟩) := by
    have hdigit : Numeral.isDigit mark' = false ∧ mark' ≠ '.' := by
      rcases mark with rfl | rfl <;> decide
    cases fraction with
    | none => simp [Numeral.step, Numeral.extendWhole, hdigit, whole_ne, mark]
    | some fs =>
        have hfs : fs ≠ [] := by
          rintro rfl
          exact fraction_ne rfl
        simp [Numeral.step, hdigit, hfs, mark]
  have hsign : Reads
      (r.goto (.numeral ⟨negative, whole, fraction, some ⟨mark', none, []⟩⟩)) sign'.toList
      (r.goto (.numeral ⟨negative, whole, fraction, some ⟨mark', sign', []⟩⟩)) := by
    cases sign' with
    | none => exact .nil
    | some c =>
        refine .cons (step_numeral ?_) .nil
        rcases sign c rfl with rfl | rfl <;> rfl
  have hds : Reads
      (r.goto (.numeral ⟨negative, whole, fraction, some ⟨mark', sign', []⟩⟩)) ds
      (r.goto (.numeral ⟨negative, whole, fraction, some ⟨mark', sign', [] ++ ds⟩⟩)) :=
    reads_digits (f := fun ds => ⟨negative, whole, fraction, some ⟨mark', sign', ds⟩⟩)
      (fun ds c hc => by simp [Numeral.step, hc]) digits []
  exact .cons (step_numeral hmark) (.append hsign hds)

/-- A well-formed numeral is read to its end, from every place where a value may start. -/
theorem reads_numeral (start : r.AtValue) {n : Numeral} (wellFormed : n.IsWellFormed) :
    Reads r n.chars (r.goto (.numeral n)) := by
  rcases n with ⟨negative, whole, fraction, exponent⟩
  have hwhole := reads_whole start negative wellFormed.whole wellFormed.leading
  have hfraction : Reads (r.goto (.numeral ⟨negative, whole, none, none⟩))
      (Numeral.fractionChars fraction) (r.goto (.numeral ⟨negative, whole, fraction, none⟩)) := by
    cases fraction with
    | none => exact .nil
    | some ds => exact reads_fraction wellFormed.whole.1 (wellFormed.fraction ds rfl).2
  have hexponent : Reads (r.goto (.numeral ⟨negative, whole, fraction, none⟩))
      (Numeral.exponentChars exponent) (r.goto (.numeral ⟨negative, whole, fraction, exponent⟩)) := by
    cases exponent with
    | none => exact .nil
    | some e =>
        have hne : fraction ≠ some [] := fun h => (wellFormed.fraction [] h).1 rfl
        exact reads_exponent wellFormed.whole.1 hne (wellFormed.mark e rfl)
          (fun c => wellFormed.sign e c rfl) (wellFormed.exponent e rfl).2
  exact .append (.append hwhole hfraction) hexponent

/-- A numeral ends before what may follow a value, and at the end of the text. -/
theorem ends_of_isWellFormed {n : Numeral} (wellFormed : n.IsWellFormed) :
    (∀ c, IsDelimiter c → n.step c = .ok none) ∧ n.isComplete = true := by
  have hother {c : Char} (hc : IsDelimiter c) : Numeral.isDigit c = false ∧ c ≠ '.' ∧ c ≠ 'e' ∧ c ≠ 'E' := by
    rcases hc with (rfl | rfl | rfl | rfl) | rfl | rfl | rfl <;> decide
  rcases n with ⟨negative, whole, fraction, _ | e⟩
  · cases fraction with
    | none =>
        have hne : whole ≠ [] := wellFormed.whole.1
        refine ⟨?_, by simp [Numeral.isComplete, hne]⟩
        intro c hc
        rcases hother hc with ⟨h₁, h₂, h₃, h₄⟩
        simp [Numeral.step, Numeral.extendWhole, h₁, h₂, h₃, h₄, hne]
    | some ds =>
        have hne : ds ≠ [] := (wellFormed.fraction ds rfl).1
        refine ⟨?_, by simp [Numeral.isComplete, hne]⟩
        intro c hc
        rcases hother hc with ⟨h₁, -, h₃, h₄⟩
        simp [Numeral.step, h₁, h₃, h₄, hne]
  · have hne : e.digits ≠ [] := (wellFormed.exponent e rfl).1
    refine ⟨?_, by simp [Numeral.isComplete, hne]⟩
    intro c hc
    simp [Numeral.step, (hother hc).1, hne]

/-- A numeral ends only at the delimiter after it, so the reader goes on as if the number had been
given already. -/
theorem goesOnLike_numeral {n : Numeral} {x : Number} (wellFormed : n.IsWellFormed)
    (value : n.value = .ok x) : GoesOnLike (r.goto (.numeral n)) (r.give (.number x)) := by
  rcases ends_of_isWellFormed wellFormed with ⟨hends, hcomplete⟩
  constructor
  · intro c hc
    rw [step_give]
    simp only [goto, step, hends c hc, value]
    rfl
  · rw [finish_give]
    simp only [goto, finish, hcomplete, value]
    rfl

end Numerals

/-! ## Values -/

/-- The characters are read as the value, from every place that has room for its containers. -/
def Readable (v : Json) (cs : List Char) : Prop :=
  ∀ r : Reader, r.AtValue → r.opened.length + v.depth ≤ maxDepth →
    ∃ r', Reads r cs r' ∧ GoesOnLike r' (r.give v)

section Containers

variable {fs : List Frame}

/-- The items after the first one.  `done` are the items that were read before, newest first. -/
theorem reads_moreItems {more : List (Json × List Char)}
    (readable : ∀ p ∈ more, Readable p.1 p.2)
    (room : ∀ p ∈ more, fs.length + 1 + p.1.depth ≤ maxDepth) {r : Reader} {done : List Json}
    (after : GoesOnLike r ⟨.array done :: fs, .separator⟩) (p : Place) :
    Reads r (more.flatMap (fun p => ',' :: p.2) ++ [']'])
      (give ⟨fs, p⟩ (.array (done.reverse ++ more.map Prod.fst))) := by
  induction more generalizing r done with
  | nil =>
      have hclose : r.step ']' = .ok (give ⟨fs, p⟩ (.array (done.reverse ++ []))) := by
        rw [after.1 ']' (.inr (.inr (.inl rfl))), List.append_nil]
        rfl
      exact .cons hclose .nil
  | cons q more ih =>
      -- A comma, the item itself, and then the rest with one more item done.
      have hcomma : r.step ',' = .ok ⟨.array done :: fs, .nextItem⟩ := by
        rw [after.1 ',' (.inr (.inl rfl))]
        rfl
      rcases readable q (List.mem_cons_self ..) ⟨.array done :: fs, .nextItem⟩ (.inr (.inr rfl))
          (room q (List.mem_cons_self ..)) with ⟨r', hread, hlike⟩
      have hafter : GoesOnLike r' ⟨.array (q.1 :: done) :: fs, .separator⟩ := hlike
      have hrest := ih (fun p hp => readable p (List.mem_cons_of_mem _ hp))
        (fun p hp => room p (List.mem_cons_of_mem _ hp)) hafter
      rw [List.reverse_cons, List.append_assoc] at hrest
      have hitems := Reads.cons hcomma (hread.append hrest)
      simpa using hitems

section Keys

variable (members : List (String × Json)) {p : Place} (place : p = .firstKey ∨ p = .nextKey)
include place

theorem step_atKey {c : Char} (hc : c ≠ '\x7d') :
    step ⟨.object members none :: fs, p⟩ c = startKey ⟨.object members none :: fs, p⟩ c := by
  rcases place with rfl | rfl <;> simp [step, hc]

theorem reads_blanks_atKey {blanks : List Char} (blank : ∀ c ∈ blanks, IsBlank c) :
    Reads ⟨.object members none :: fs, p⟩ blanks ⟨.object members none :: fs, p⟩ := by
  refine .stay ?_
  intro c hc
  have hspace := isSpace_of_isBlank (blank c hc)
  have hbrace : c ≠ '\x7d' := by
    rintro rfl
    exact absurd hspace (by decide)
  rw [step_atKey members place hbrace, startKey, if_pos hspace]

/-- A key with its colon, where a member may start. -/
theorem reads_key {key : String} {cs : List Char} (written : KeyText key cs) :
    Reads ⟨.object members none :: fs, p⟩ (cs ++ [':'])
      ⟨.object members (some key) :: fs, .value⟩ := by
  rcases written with ⟨before, body, after, hbefore, hafter, hbody, rfl⟩
  have hquote : step ⟨.object members none :: fs, p⟩ '"' =
      .ok ⟨.object members none :: fs, .string true [] .none⟩ :=
    step_atKey members place (by decide)
  have hstring := reads_string true hbody hquote
  rw [goto, giveString_key] at hstring
  have hblanks : Reads ⟨.object members (some key) :: fs, .colon⟩ after
      ⟨.object members (some key) :: fs, .colon⟩ := by
    refine .stay ?_
    intro c hc
    simp only [step, isSpace_of_isBlank (hafter c hc), if_true]
  have hcolon : Reads ⟨.object members (some key) :: fs, .colon⟩ (after ++ [':'])
      ⟨.object members (some key) :: fs, .value⟩ := hblanks.append (.cons rfl .nil)
  have hall := (reads_blanks_atKey members place hbefore).append (hstring.append hcolon)
  simpa using hall

end Keys

/-- A member, from where its key may start. -/
theorem reads_entry (done : List (String × Json)) {p : Place}
    (place : p = .firstKey ∨ p = .nextKey) {e : Entry} (key : KeyText e.key e.keyText)
    (readable : Readable e.value e.valueText) (room : fs.length + 1 + e.value.depth ≤ maxDepth) :
    ∃ r, Reads ⟨.object done none :: fs, p⟩ e.chars r ∧
      GoesOnLike r ⟨.object (e.member :: done) none :: fs, .separator⟩ := by
  -- The value is read while its key is pending.
  rcases readable ⟨.object done (some e.key) :: fs, .value⟩ (.inl rfl) room with ⟨r, hread, hafter⟩
  have hentry := (reads_key done place key).append hread
  rw [List.append_assoc] at hentry
  exact ⟨r, hentry, hafter⟩

/-- The members after the first one.  `done` are the members that were read before, newest first. -/
theorem reads_moreEntries {more : List Entry} (keys : ∀ e ∈ more, KeyText e.key e.keyText)
    (readable : ∀ e ∈ more, Readable e.value e.valueText)
    (room : ∀ e ∈ more, fs.length + 1 + e.value.depth ≤ maxDepth) {r : Reader}
    {done : List (String × Json)} (after : GoesOnLike r ⟨.object done none :: fs, .separator⟩)
    (p : Place) :
    Reads r (more.flatMap (fun e => ',' :: e.chars) ++ ['\x7d'])
      (give ⟨fs, p⟩ (.object (done.reverse ++ more.map Entry.member))) := by
  induction more generalizing r done with
  | nil =>
      have hclose : r.step '\x7d' = .ok (give ⟨fs, p⟩ (.object (done.reverse ++ []))) := by
        rw [after.1 '\x7d' (.inr (.inr (.inr rfl))), List.append_nil]
        rfl
      exact .cons hclose .nil
  | cons e more ih =>
      have hcomma : r.step ',' = .ok ⟨.object done none :: fs, .nextKey⟩ := by
        rw [after.1 ',' (.inr (.inl rfl))]
        rfl
      rcases reads_entry done (.inr rfl) (keys e (List.mem_cons_self ..))
          (readable e (List.mem_cons_self ..)) (room e (List.mem_cons_self ..)) with
        ⟨r', hread, hafter⟩
      have hrest := ih (fun e he => keys e (List.mem_cons_of_mem _ he))
        (fun e he => readable e (List.mem_cons_of_mem _ he))
        (fun e he => room e (List.mem_cons_of_mem _ he)) hafter
      rw [List.reverse_cons, List.append_assoc] at hrest
      have hmembers := Reads.cons hcomma (hread.append hrest)
      simpa using hmembers

end Containers

/-- Every text of a tree is read as that tree, by induction on how the text is built. -/
theorem readable_of_textOf {v : Json} {cs : List Char} (written : TextOf v cs) : Readable v cs := by
  induction written with
  | null =>
      intro r start _
      exact ⟨_, .cons (step_atValue start (by decide)) (.cons rfl (.cons rfl (.cons rfl .nil))),
        .refl _⟩
  | false =>
      intro r start _
      exact ⟨_, .cons (step_atValue start (by decide))
        (.cons rfl (.cons rfl (.cons rfl (.cons rfl .nil)))), .refl _⟩
  | true =>
      intro r start _
      exact ⟨_, .cons (step_atValue start (by decide)) (.cons rfl (.cons rfl (.cons rfl .nil))),
        .refl _⟩
  | number wellFormed value =>
      intro r start _
      exact ⟨_, reads_numeral start wellFormed, goesOnLike_numeral wellFormed value⟩
  | @text s body written =>
      intro r start _
      have hstring := reads_string false written (step_atValue start (by decide))
      rw [giveString_value, give_goto] at hstring
      exact ⟨_, hstring, .refl _⟩
  | emptyArray blank =>
      intro r start room
      have hopen : r.opened.length < maxDepth := by
        rw [depth] at room
        omega
      have hblanks : Reads ⟨.array [] :: r.opened, .firstItem⟩ _ ⟨.array [] :: r.opened, .firstItem⟩ :=
        reads_blanks (.inr (.inl rfl)) blank
      exact ⟨_, .cons (step_open start hopen).1 (hblanks.append (.cons rfl .nil)), .refl _⟩
  | array first more _ ih =>
      intro r start room
      -- One container more is open while the items are read.
      have hdepth : ∀ p ∈ first :: more, r.opened.length + 1 + p.1.depth ≤ maxDepth := by
        intro p hp
        have hitem := itemsDepth_le_iff.1 (Nat.le_refl _) p.1 (List.mem_map_of_mem hp)
        rw [depth] at room
        omega
      have hopen : r.opened.length < maxDepth := by
        rw [depth] at room
        omega
      rcases ih first (List.mem_cons_self ..) ⟨.array [] :: r.opened, .firstItem⟩ (.inr (.inl rfl))
          (hdepth first (List.mem_cons_self ..)) with ⟨r', hread, hlike⟩
      have hafter : GoesOnLike r' ⟨.array [first.1] :: r.opened, .separator⟩ := hlike
      have hmore := reads_moreItems (fun p hp => ih p (List.mem_cons_of_mem _ hp))
        (fun p hp => hdepth p (List.mem_cons_of_mem _ hp)) hafter r.place
      exact ⟨_, .cons (step_open start hopen).1 (hread.append hmore), .refl _⟩
  | emptyObject blank =>
      intro r start room
      have hopen : r.opened.length < maxDepth := by
        rw [depth] at room
        omega
      have hblanks : Reads ⟨.object [] none :: r.opened, .firstKey⟩ _
          ⟨.object [] none :: r.opened, .firstKey⟩ := reads_blanks_atKey [] (.inl rfl) blank
      exact ⟨_, .cons (step_open start hopen).2 (hblanks.append (.cons rfl .nil)), .refl _⟩
  | object first more keys _ ih =>
      intro r start room
      have hdepth : ∀ e ∈ first :: more, r.opened.length + 1 + e.value.depth ≤ maxDepth := by
        intro e he
        have hmember := membersDepth_le_iff.1 (Nat.le_refl _) e.member (List.mem_map_of_mem he)
        rw [depth] at room
        have hvalue : e.member.2.depth = e.value.depth := rfl
        omega
      have hopen : r.opened.length < maxDepth := by
        rw [depth] at room
        omega
      rcases reads_entry [] (.inl rfl) (keys first (List.mem_cons_self ..))
          (ih first (List.mem_cons_self ..)) (hdepth first (List.mem_cons_self ..)) with
        ⟨r', hread, hafter⟩
      have hmore := reads_moreEntries (fun e he => keys e (List.mem_cons_of_mem _ he))
        (fun e he => ih e (List.mem_cons_of_mem _ he))
        (fun e he => hdepth e (List.mem_cons_of_mem _ he)) hafter r.place
      exact ⟨_, .cons (step_open start hopen).2 (hread.append hmore), .refl _⟩
  | padded _ blankBefore blankAfter ih =>
      intro r start room
      rcases ih r start room with ⟨r', hread, hafter⟩
      rcases exists_reads_blanks hafter blankAfter with ⟨r'', hblanks, hlike⟩
      exact ⟨r'', (reads_blanks start blankBefore).append (hread.append hblanks), hlike⟩

end Reader

/-- Every text of a tree reads as the tree, if the tree is not too deep. -/
theorem readChars_of_textOf {v : Json} {cs : List Char} (written : TextOf v cs)
    (room : v.depth ≤ Reader.maxDepth) : readChars cs = .ok v := by
  have hroom : Reader.start.opened.length + v.depth ≤ Reader.maxDepth := by
    simpa [Reader.start] using room
  rcases Reader.readable_of_textOf written Reader.start (.inl rfl) hroom with ⟨r, hread, hafter⟩
  have hfinish : r.finish = .ok v := hafter.2
  unfold Reader.Reads at hread
  unfold readChars
  rw [hread]
  exact hfinish

end Converge.Json
