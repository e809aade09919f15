import Converge.Proofs.Json.Reading
import Converge.Proofs.Text.Characters

/-!
# Unfinished lexemes

What the reader has read of a string or a number that is not complete yet.  A string has the text
of its characters so far and the beginning of an escape (`Reader.BodySeen`); a number has a numeral
that lacks something at its end at most (`Numeral.IsBegun`).  Every character that the reader takes
makes them longer by itself, and what is complete at last belongs to the grammar.
-/

namespace Converge.Json

/-! ## Characters of strings -/

inductive HexDigits : Nat → List Char → Prop where
  | nil : HexDigits 0 []
  | snoc {n d : Nat} {ds : List Char} {c : Char} (digits : HexDigits n ds)
      (digit : IsHexDigit d c) : HexDigits (n * 16 + d) (ds ++ [c])

theorem HexDigits.codeUnit {n : Nat} {ds : List Char} (digits : HexDigits n ds)
    (four : ds.length = 4) : CodeUnit n ds := by
  rcases digits with _ | ⟨_ | ⟨_ | ⟨_ | ⟨_ | ⟨_, _⟩, ha⟩, hb⟩, hc⟩, hd⟩
  case snoc.snoc.snoc.snoc.nil =>
    rw [Nat.zero_mul, Nat.zero_add]
    exact .digits ha hb hc hd
  -- Any other number of digits is not four.
  all_goals simp at four

/-- Four digits write no more than sixteen bits. -/
theorem CodeUnit.lt {n : Nat} {ds : List Char} (code : CodeUnit n ds) : n < 0x10000 := by
  cases code with
  | @digits a b c d _ _ _ _ ha hb hc hd =>
      have ha : a < 16 := ha.1
      have hb : b < 16 := hb.1
      have hc : c < 16 := hc.1
      have hd : d < 16 := hd.1
      omega

/-- One more character, after those that a body writes. -/
theorem BodyText.snoc {cs body text : List Char} {c : Char} (written : BodyText cs body)
    (last : CharText c text) : BodyText (cs ++ [c]) (body ++ text) := by
  induction written with
  | nil => simpa using BodyText.cons last .nil
  | cons first _ ih =>
      rw [List.append_assoc]
      exact .cons first ih

namespace Reader

/-- A character between two others is so many places after the first of them. -/
theorem exists_place {lo hi c : Char} (between : lo ≤ c ∧ c ≤ hi) :
    ∃ k ≤ hi.toNat - lo.toNat, c.toNat - lo.toNat = k ∧ c = Char.ofNat (lo.toNat + k) := by
  have hlo : lo.toNat ≤ c.toNat := between.1
  have hhi : c.toNat ≤ hi.toNat := between.2
  refine ⟨c.toNat - lo.toNat, by omega, rfl, ?_⟩
  rw [Nat.add_sub_cancel' hlo, Char.ofNat_toNat]

theorem isHexDigit_of_hexDigit? {c : Char} {d : Nat} (h : hexDigit? c = some d) :
    IsHexDigit d c ∧ c.utf8Size = 1 := by
  have hdecimal : ∀ k ≤ 9, Char.ofNat (48 + k) = Nat.digitChar k ∧
      (Char.ofNat (48 + k)).utf8Size = 1 := by decide
  have hsmall : ∀ k ≤ 5, Char.ofNat (97 + k) = Nat.digitChar (k + 10) ∧
      (Char.ofNat (97 + k)).utf8Size = 1 := by decide
  have hcapital : ∀ k ≤ 5, Char.ofNat (65 + k) = (Nat.digitChar (k + 10)).toUpper ∧
      (Char.ofNat (65 + k)).utf8Size = 1 := by decide
  unfold hexDigit? at h
  split at h
  · next between =>
      rcases exists_place between with ⟨k, hk, hplace, rfl⟩
      have hd : k = d := hplace.symm.trans (Option.some.inj h)
      have hk : k ≤ 9 := hk
      exact ⟨⟨by omega, .inl (hd ▸ (hdecimal k hk).1)⟩, (hdecimal k hk).2⟩
  · split at h
    · next between =>
        rcases exists_place between with ⟨k, hk, hplace, rfl⟩
        have hd : k + 10 = d := hplace ▸ Option.some.inj h
        have hk : k ≤ 5 := hk
        exact ⟨⟨by omega, .inl (hd ▸ (hsmall k hk).1)⟩, (hsmall k hk).2⟩
    · split at h
      · next between =>
          rcases exists_place between with ⟨k, hk, hplace, rfl⟩
          have hd : k + 10 = d := hplace ▸ Option.some.inj h
          have hk : k ≤ 5 := hk
          exact ⟨⟨by omega, .inr (hd ▸ (hcapital k hk).1)⟩, (hcapital k hk).2⟩
      · cases h

theorem mem_escapes_of_escapedChar? {l c : Char} (h : escapedChar? l = some c) :
    (l, c) ∈ escapes := by
  unfold escapedChar? at h
  repeat' split at h
  · next self =>
      cases h
      rcases self with rfl | rfl | rfl <;> decide
  -- Each of the other letters is an escape of its own.
  all_goals cases h
  all_goals
    subst_vars
    decide

/-! ## Unfinished strings -/

/-- The first half of a surrogate pair that waits for the second one, and its escape. -/
inductive LeadText : Option Nat → List Char → Prop where
  | none : LeadText none []
  | some {high : Nat} {ds : List Char} (code : CodeUnit high ds)
      (leads : 0xD800 ≤ high ∧ high ≤ 0xDBFF) : LeadText (some high) ('\\' :: 'u' :: ds)

/-- The beginning of an escape.  A code unit with a character that is no digit has no number. -/
inductive EscapeText : Escape → List Char → Prop where
  | none : EscapeText .none []
  | letter : EscapeText .letter ['\\']
  | digits {lead code : Option Nat} {bytes : Nat} {before ds : List Char}
      (waiting : LeadText lead before) (more : bytes < 4)
      (read : ∀ n, code = some n → HexDigits n ds ∧ ds.length = bytes) :
      EscapeText (.digits lead bytes code) (before ++ '\\' :: 'u' :: ds)
  | backslash {high : Nat} {before : List Char} (waiting : LeadText (some high) before) :
      EscapeText (.backslash high) before
  | letterU {high : Nat} {before : List Char} (waiting : LeadText (some high) before) :
      EscapeText (.letterU high) (before ++ ['\\'])

/-- The characters of a string that have been read, newest first, and the text that they and an
unfinished escape come from. -/
def BodySeen (cs : List Char) (e : Escape) (text : List Char) : Prop :=
  ∃ body escape, BodyText cs.reverse body ∧ EscapeText e escape ∧ text = body ++ escape

namespace BodySeen

variable {cs body text : List Char}

theorem start : BodySeen [] .none [] := ⟨[], [], .nil, .none, rfl⟩

/-- A string that may end here is complete. -/
theorem bodyText (seen : BodySeen cs .none text) : BodyText cs.reverse text := by
  rcases seen with ⟨body, escape, hbody, hescape, rfl⟩
  cases hescape
  rwa [List.append_nil]

theorem char {c : Char} (before : BodyText cs.reverse body) (last : CharText c text) :
    BodySeen (c :: cs) .none (body ++ text) := by
  refine ⟨body ++ text, [], ?_, .none, by rw [List.append_nil]⟩
  rw [List.reverse_cons]
  exact before.snoc last

/-- The code unit that four digits complete is a character or the half of one. -/
theorem unit {before ds cs' : List Char} {lead : Option Nat} {code : Nat} {e : Escape}
    (read : BodyText cs.reverse body) (waiting : LeadText lead before)
    (written : CodeUnit code ds)
    (fits : Reader.unit cs lead code = .ok (cs', e)) :
    BodySeen cs' e (body ++ (before ++ '\\' :: 'u' :: ds)) := by
  have hsmall := written.lt
  unfold Reader.unit at fits
  cases waiting with
  | none =>
      dsimp only at fits
      split at fits
      · cases fits
      · split at fits
        · next leads =>
            cases fits
            exact ⟨body, _, read, .backslash (.some written leads), rfl⟩
        · cases fits
          have hcode : (Char.ofNat code).toNat = code :=
            Text.toNat_ofNat_of_lt (by omega)
          exact char read (.unit (hcode.symm ▸ written))
  | @some high es first leads =>
      dsimp only at fits
      split at fits
      · next trails =>
          cases fits
          have hcode := Text.toNat_ofNat_of_lt
            (n := 0x10000 + (high - 0xD800) * 0x400 + (code - 0xDC00)) (by omega)
          exact char read (.pair first written leads trails hcode)
      · cases fits

/-- One more character of a code unit. -/
theorem hexStep {before ds cs' : List Char} {lead code : Option Nat} {bytes : Nat} {c : Char}
    {e : Escape} (body_read : BodyText cs.reverse body) (waiting : LeadText lead before)
    (more : bytes < 4) (read : ∀ n, code = some n → HexDigits n ds ∧ ds.length = bytes)
    (step : Reader.hexStep cs lead bytes code c = .ok (cs', e)) :
    BodySeen cs' e (body ++ (before ++ '\\' :: 'u' :: (ds ++ [c]))) := by
  -- If there is a number with the new character, that character is a digit.
  have hnumber : ∀ n, (do return (← code) * 16 + (← hexDigit? c)) = some n →
      (HexDigits n (ds ++ [c]) ∧ (ds ++ [c]).length = bytes + 1) ∧ c.utf8Size = 1 := by
    intro n hn
    cases hcode : code with
    | none => simp [hcode] at hn
    | some m =>
        cases hdigit : hexDigit? c with
        | none => simp [hcode, hdigit] at hn
        | some d =>
            have hnm : n = m * 16 + d := by simpa [hcode, hdigit] using hn.symm
            rcases isHexDigit_of_hexDigit? hdigit with ⟨his, hsize⟩
            rcases read m hcode with ⟨hdigits, hlength⟩
            exact ⟨⟨hnm ▸ hdigits.snoc his, by simp [hlength]⟩, hsize⟩
  unfold Reader.hexStep at step
  dsimp only at step
  split at step
  · next unfinished =>
      cases step
      refine ⟨body, _, body_read, .digits waiting unfinished ?_, rfl⟩
      intro n hn
      rcases hnumber n hn with ⟨⟨hdigits, hlength⟩, hsize⟩
      exact ⟨hdigits, hsize ▸ hlength⟩
  · next finished =>
      split at step
      · next n hn =>
          rcases hnumber n hn with ⟨⟨hdigits, hlength⟩, hsize⟩
          have hfour : (ds ++ [c]).length = 4 := by omega
          exact unit body_read waiting (hdigits.codeUnit hfour) step
      · cases step

/-- One more character of a string that does not end with it. -/
theorem step {e e' : Escape} {c : Char} {cs' : List Char} (seen : BodySeen cs e text)
    (inside : ¬ (e = .none ∧ c = '"')) (step : stringStep cs e c = .ok (cs', e')) :
    BodySeen cs' e' (text ++ [c]) := by
  rcases seen with ⟨body, escape, hbody, hescape, rfl⟩
  rw [List.append_assoc]
  unfold stringStep at step
  cases hescape with
  | none =>
      dsimp only at step
      split at step
      · next backslash =>
          cases step
          exact ⟨body, _, hbody, .letter, by rw [backslash, List.nil_append]⟩
      · next backslash =>
          split at step
          · cases step
          · next control =>
              cases step
              have hquote : c ≠ '"' := fun hc => inside ⟨rfl, hc⟩
              exact char hbody (.plain hquote backslash (Nat.not_lt.1 control))
  | letter =>
      dsimp only at step
      split at step
      · next u =>
          cases step
          refine ⟨body, [] ++ '\\' :: 'u' :: [], hbody, .digits .none (by decide) ?_,
            by rw [u]; rfl⟩
          intro n hn
          cases hn
          exact ⟨.nil, rfl⟩
      · split at step
        · next d escaped =>
            cases step
            exact char hbody (.letter (mem_escapes_of_escapedChar? escaped))
        · cases step
  | digits waiting more read =>
      rw [List.append_assoc]
      exact hexStep hbody waiting more read step
  | backslash waiting =>
      dsimp only at step
      split at step
      · next backslash =>
          cases step
          exact ⟨body, _, hbody, .letterU waiting, by rw [backslash]⟩
      · cases step
  | @letterU _ before waiting =>
      dsimp only at step
      split at step
      · next u =>
          cases step
          refine ⟨body, before ++ '\\' :: 'u' :: [], hbody, .digits waiting (by decide) ?_,
            by rw [u]; simp⟩
          intro n hn
          cases hn
          exact ⟨.nil, rfl⟩
      · cases step

end BodySeen

end Reader

/-! ## Unfinished numerals -/

namespace Numeral

/-- A numeral that can still become well-formed: what it lacks is at its end. -/
structure IsBegun (n : Numeral) : Prop where
  whole : ∀ c ∈ n.whole, isDigit c = true
  leading : n.whole.head? = some '0' → n.whole = ['0']
  fraction : ∀ ds, n.fraction = some ds → n.whole ≠ [] ∧ ∀ c ∈ ds, isDigit c = true
  exponent : ∀ e, n.exponent = some e → n.whole ≠ [] ∧ n.fraction ≠ some [] ∧
    (e.mark = 'e' ∨ e.mark = 'E') ∧ (∀ c, e.sign = some c → c = '+' ∨ c = '-') ∧
    ∀ c ∈ e.digits, isDigit c = true

theorem isBegun_minus : IsBegun minus where
  whole := by simp [minus]
  leading := by simp [minus]
  fraction := by simp [minus]
  exponent := by simp [minus]

theorem isBegun_ofDigit {c : Char} (digit : isDigit c = true) : IsBegun (ofDigit c) where
  whole := by simpa [ofDigit] using digit
  leading := by simp [ofDigit]
  fraction := by simp [ofDigit]
  exponent := by simp [ofDigit]

/-- One more digit is a digit like the ones before it. -/
theorem digits_snoc {ds : List Char} {c : Char} (digits : ∀ d ∈ ds, isDigit d = true)
    (digit : isDigit c = true) : ∀ d ∈ ds ++ [c], isDigit d = true :=
  List.forall_mem_append.2 ⟨digits, List.forall_mem_singleton.2 digit⟩

namespace IsBegun

variable {n n' : Numeral} {c : Char}

/-- One more character of a numeral that has neither fraction nor exponent. -/
theorem step_whole {negative : Bool} {whole : List Char}
    (begun : IsBegun ⟨negative, whole, none, none⟩)
    (step : Numeral.step ⟨negative, whole, none, none⟩ c = .ok (some n')) :
    n'.IsBegun ∧ n'.chars = chars ⟨negative, whole, none, none⟩ ++ [c] := by
  rcases begun with ⟨hwhole, hleading, -, -⟩
  simp only [Numeral.step] at step
  split at step
  · next digit =>
      split at step
      · cases step
      · next more =>
          cases step
          -- A zero at the front would be the whole part.
          have hzero : (whole ++ [c]).head? = some '0' → whole ++ [c] = ['0'] := by
            cases whole with
            | nil => simp
            | cons d ds => exact fun hd => absurd (hleading hd) more
          exact ⟨⟨digits_snoc hwhole digit, hzero, by simp, by simp⟩,
            by simp [chars, fractionChars, exponentChars]⟩
  · split at step
    · cases step
    · next some =>
        have hsome : whole ≠ [] := by simpa using some
        unfold extendWhole at step
        split at step
        · next point =>
            cases step
            exact ⟨⟨hwhole, hleading, by simp [hsome], by simp⟩,
              by simp [chars, fractionChars, exponentChars, point]⟩
        · split at step
          · next mark =>
              cases step
              exact ⟨⟨hwhole, hleading, by simp, by simp [hsome, mark]⟩,
                by simp [chars, fractionChars, exponentChars]⟩
          · cases step

/-- One more character of a numeral that has a fraction and no exponent. -/
theorem step_fraction {negative : Bool} {whole ds : List Char}
    (begun : IsBegun ⟨negative, whole, some ds, none⟩)
    (step : Numeral.step ⟨negative, whole, some ds, none⟩ c = .ok (some n')) :
    n'.IsBegun ∧ n'.chars = chars ⟨negative, whole, some ds, none⟩ ++ [c] := by
  rcases begun with ⟨hwhole, hleading, hfraction, -⟩
  rcases hfraction ds rfl with ⟨hsome, hds⟩
  simp only [Numeral.step] at step
  split at step
  · next digit =>
      cases step
      exact ⟨⟨hwhole, hleading, by simpa [hsome] using digits_snoc hds digit, by simp⟩,
        by simp [chars, fractionChars, exponentChars]⟩
  · split at step
    · cases step
    · next complete =>
        have hcomplete : ds ≠ [] := by simpa using complete
        split at step
        · next mark =>
            cases step
            exact ⟨⟨hwhole, hleading, by simpa [hsome] using hds, by simp [hsome, hcomplete, mark]⟩,
              by simp [chars, fractionChars, exponentChars]⟩
        · cases step

/-- One more character of a numeral that has an exponent. -/
theorem step_exponent {negative : Bool} {whole : List Char} {fraction : Option (List Char)}
    {e : Exponent} (begun : IsBegun ⟨negative, whole, fraction, some e⟩)
    (step : Numeral.step ⟨negative, whole, fraction, some e⟩ c = .ok (some n')) :
    n'.IsBegun ∧ n'.chars = chars ⟨negative, whole, fraction, some e⟩ ++ [c] := by
  rcases begun with ⟨hwhole, hleading, hfraction, hexponent⟩
  rcases hexponent e rfl with ⟨hsome, hcomplete, hmark, hsign, hds⟩
  simp only [Numeral.step] at step
  split at step
  · next digit =>
      cases step
      refine ⟨⟨hwhole, hleading, hfraction, ?_⟩, by simp [chars, exponentChars]⟩
      rintro _ ⟨⟩
      exact ⟨hsome, hcomplete, hmark, hsign, digits_snoc hds digit⟩
  · split at step
    · cases step
    · next none =>
        have hnone : e.digits = [] := by simpa using none
        split at step
        · next sign =>
            cases step
            have hsigned : e.sign = Option.none ∧ (c = '+' ∨ c = '-') := by simpa using sign
            refine ⟨⟨hwhole, hleading, hfraction, ?_⟩,
              by simp [chars, exponentChars, hsigned.1, hnone]⟩
            rintro _ ⟨⟩
            exact ⟨hsome, hcomplete, hmark, by simpa using hsigned.2, hds⟩
        · cases step

/-- One more character makes a numeral longer by itself. -/
theorem step (begun : n.IsBegun) (step : n.step c = .ok (some n')) :
    n'.IsBegun ∧ n'.chars = n.chars ++ [c] := by
  rcases n with ⟨negative, whole, fraction, exponent⟩
  cases exponent with
  | some e => exact begun.step_exponent step
  | none =>
      cases fraction with
      | some ds => exact begun.step_fraction step
      | none => exact begun.step_whole step

/-- A begun numeral that lacks nothing is well-formed. -/
theorem isWellFormed (begun : n.IsBegun) (complete : n.isComplete = true) : n.IsWellFormed := by
  rcases begun with ⟨hwhole, hleading, hfraction, hexponent⟩
  rcases n with ⟨negative, whole, fraction, _ | e⟩
  · cases fraction with
    | none =>
        have hsome : whole ≠ [] := by simpa [isComplete] using complete
        exact ⟨⟨hsome, hwhole⟩, hleading, by simp, by simp, by simp, by simp⟩
    | some ds =>
        have hcomplete : ds ≠ [] := by simpa [isComplete] using complete
        rcases hfraction ds rfl with ⟨hsome, hds⟩
        exact ⟨⟨hsome, hwhole⟩, hleading, by simpa [hcomplete] using hds, by simp, by simp, by simp⟩
  · have hdigits : e.digits ≠ [] := by simpa [isComplete] using complete
    rcases hexponent e rfl with ⟨hsome, hcomplete, hmark, hsign, hds⟩
    refine ⟨⟨hsome, hwhole⟩, hleading, ?_, ?_, ?_, ?_⟩
    · intro ds hds
      refine ⟨?_, (hfraction ds hds).2⟩
      rintro rfl
      exact hcomplete hds
    · rintro _ ⟨⟩
      exact hmark
    · rintro _ c ⟨⟩ hc
      exact hsign c hc
    · rintro _ ⟨⟩
      exact ⟨hdigits, hds⟩

end IsBegun

/-- A numeral that ends before a character is complete. -/
theorem isComplete_of_step {n : Numeral} {c : Char} (h : n.step c = .ok none) :
    n.isComplete = true := by
  rcases n with ⟨negative, whole, fraction, _ | e⟩
  · cases fraction with
    | none =>
        simp only [Numeral.step] at h
        split at h
        · split at h <;> cases h
        · split at h
          · cases h
          · next some => simpa [isComplete] using some
    | some ds =>
        simp only [Numeral.step] at h
        split at h
        · cases h
        · split at h
          · cases h
          · next some => simpa [isComplete] using some
  · simp only [Numeral.step] at h
    split at h
    · cases h
    · split at h
      · next some => exact some
      · split at h <;> cases h

end Numeral

end Converge.Json
