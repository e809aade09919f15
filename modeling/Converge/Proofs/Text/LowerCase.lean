import Converge.Proofs.Text.Characters
import Converge.Text.LowerCase

/-!
# What lowering leads to

A character of ASCII is lowered to one character of ASCII.  Beyond ASCII, lowering leads into ASCII
in two places only: the sign for kelvin becomes `k`, and `İ` becomes an `i` with a dot above it.  So
of every other small letter of ASCII it is known what it was lowered from.

Whatever lowering leads to is its own lower case (`isLow_of_mem_lowered`), because no run of capitals
leads to a capital.
-/

namespace Converge.Text

theorem lowered_ne_nil (c : Char) : lowered c ≠ [] := by
  simp only [lowered]
  split
  · split <;> simp
  · split
    · simp
    · split <;> simp

/-! ## ASCII -/

theorem lowered_of_ascii {c : Char} (ascii : c.toNat < 0x80) : lowered c = [c.toLower] :=
  of_ascii (P := fun c => lowered c = [c.toLower]) (by decide) ascii

/-- The small letter of a capital leads back to it, and every other character stays. -/
theorem eq_toLower_or_toUpper {c : Char} (ascii : c.toNat < 0x80) :
    c = c.toLower ∨ c = c.toLower.toUpper :=
  of_ascii (P := fun c => c = c.toLower ∨ c = c.toLower.toUpper) (by decide) ascii

/-! ## Beyond ASCII -/

/-- How a character beyond ASCII is lowered. -/
inductive LoweredBeyond : Char → List Char → Prop where
  | dotted : LoweredBeyond 'İ' ['i', Char.ofNat 0x307]
  | covered {c : Char} {r : CaseRun} (listed : r ∈ caseRuns) (covers : r.covers c.toNat = true) :
      LoweredBeyond c [Char.ofNat (r.lower c.toNat)]
  | kept {c : Char} : LoweredBeyond c [c]

/-- Every character beyond ASCII is lowered in one of these ways. -/
theorem loweredBeyond {c : Char} (beyond : 0x80 ≤ c.toNat) : LoweredBeyond c (lowered c) := by
  unfold lowered
  rw [if_neg (by omega)]
  split
  · next hdotted =>
      have hc : c = 'İ' := by rw [← Char.ofNat_toNat c, hdotted]
      exact hc ▸ .dotted
  · split
    · next r hfind =>
        have hcovers : r.covers c.toNat = true := by simpa using List.find?_some hfind
        exact .covered (List.mem_of_find?_eq_some hfind) hcovers
    · exact .kept

namespace CaseRun

def StaysBeyond (r : CaseRun) : Prop :=
  0x80 ≤ r.first + r.shift ∧
    (r.last + r.shift < 0xD800 ∨ (0xDFFF < r.first + r.shift ∧ r.last + r.shift < 0x110000))

instance (r : CaseRun) : Decidable r.StaysBeyond := inferInstanceAs (Decidable (_ ∧ (_ ∨ _)))

def IsKelvin (r : CaseRun) : Prop := r.first = 0x212A ∧ r.last = 0x212A ∧ r.shift = -8383

instance (r : CaseRun) : Decidable r.IsKelvin := inferInstanceAs (Decidable (_ ∧ _))

/-- The sign for kelvin is the only character beyond ASCII in the table whose lower case is not. -/
theorem staysBeyond_or_isKelvin : ∀ r ∈ caseRuns, r.StaysBeyond ∨ r.IsKelvin := by
  decide +kernel

variable {r : CaseRun} {n : Nat}

theorem bounds_of_covers (covered : r.covers n = true) : r.first ≤ n ∧ n ≤ r.last := by
  simp only [covers, Bool.and_eq_true, decide_eq_true_eq] at covered
  exact covered.1

theorem lower_eq (listed : r ∈ caseRuns) (above : r.first ≤ n) :
    (r.lower n : Int) = n + r.shift := by
  have hreached : 0 ≤ r.first + r.shift := by
    rcases staysBeyond_or_isKelvin r listed with ⟨hfirst, -⟩ | ⟨hfirst, -, hshift⟩
    · omega
    · omega
  exact Int.toNat_of_nonneg (by omega)

/-- The small letter of a capital is a code point. -/
theorem toNat_lower (listed : r ∈ caseRuns) (covered : r.covers n = true) :
    (Char.ofNat (r.lower n)).toNat = r.lower n := by
  have hbounds := bounds_of_covers covered
  have hlower := lower_eq listed hbounds.1
  rcases staysBeyond_or_isKelvin r listed with ⟨-, hvalid⟩ | ⟨hfirst, hlast, hshift⟩
  · exact toNat_ofNat_of_lt (by omega)
  · exact toNat_ofNat_of_lt (by omega)

theorem toNat_lower_of_staysBeyond (listed : r ∈ caseRuns) (stays : r.StaysBeyond)
    (covered : r.covers n = true) : 0x80 ≤ (Char.ofNat (r.lower n)).toNat := by
  have hbounds := bounds_of_covers covered
  have hlower := lower_eq listed hbounds.1
  have hfirst := stays.1
  rw [toNat_lower listed covered]
  omega

end CaseRun

/-- What is not ASCII becomes ASCII in two places. -/
theorem of_mem_lowered {c d : Char} (beyond : 0x80 ≤ c.toNat) (hd : d ∈ lowered c) :
    0x80 ≤ d.toNat ∨ d = 'i' ∨ d = 'k' := by
  have hcases := loweredBeyond beyond
  generalize lowered c = ds at hcases hd
  cases hcases with
  | dotted =>
      have hpair : d = 'i' ∨ d = Char.ofNat 0x307 := by simpa using hd
      rcases hpair with rfl | rfl
      · exact .inr (.inl rfl)
      · exact .inl (by decide)
  | @covered _ r listed covers =>
      cases List.mem_singleton.1 hd
      rcases CaseRun.staysBeyond_or_isKelvin r listed with hstays | ⟨hfirst, hlast, hshift⟩
      · exact .inl (CaseRun.toNat_lower_of_staysBeyond listed hstays covers)
      · -- The sign for kelvin is the only character that its run covers.
        have hkelvin : c.toNat = 0x212A := by
          have hbounds := CaseRun.bounds_of_covers covers
          omega
        refine .inr (.inr ?_)
        rw [CaseRun.lower, hkelvin, hshift]
        rfl
  | kept =>
      cases List.mem_singleton.1 hd
      exact .inl beyond

/-! ## Lowering again -/

def IsLow (c : Char) : Prop := lowered c = [c]

instance (c : Char) : Decidable (IsLow c) := inferInstanceAs (Decidable (_ = _))

namespace CaseRun

/-- No small letter of the run is a capital of the other one: they lie apart, or they alternate.
Only the ends of the runs are compared. -/
def misses (r r' : CaseRun) : Bool :=
  (r.lower r.last).blt r'.first || r'.last.blt (r.lower r.first) ||
    (r'.step == 2 && (r.step == 2 || r.first == r.last) && (r.lower r.first + r'.first) % 2 == 1)

def dotted : CaseRun := ⟨0x130, 0x130, 1, -199⟩

/-- What a run of the table leads to is lowered by no run. -/
theorem misses_of_mem : ∀ r ∈ caseRuns, ∀ r' ∈ dotted :: caseRuns, r.misses r' = true := by
  have hall : caseRuns.all (fun r => (dotted :: caseRuns).all r.misses) = true := by
    decide +kernel
  exact fun r hr => List.all_eq_true.1 (List.all_eq_true.1 hall r hr)

/-- What a capital of the run is lowered to is no capital of a run that it misses. -/
theorem covers_lower_of_misses {r r' : CaseRun} {n : Nat} (listed : r ∈ caseRuns)
    (misses : r.misses r' = true) (covered : r.covers n = true) :
    r'.covers (r.lower n) = false := by
  have hbounds := bounds_of_covers covered
  have hlower := lower_eq listed hbounds.1
  have hfirst := lower_eq listed (Nat.le_refl r.first)
  have hlast := lower_eq listed (Nat.le_trans hbounds.1 hbounds.2)
  simp only [CaseRun.misses, Bool.or_eq_true, Bool.and_eq_true, beq_iff_eq, Nat.blt_eq] at misses
  simp only [covers, Bool.and_eq_true, decide_eq_true_eq, beq_iff_eq] at covered
  rw [Bool.eq_false_iff]
  intro h
  simp only [covers, Bool.and_eq_true, decide_eq_true_eq, beq_iff_eq] at h
  rcases misses with (hbelow | habove) | ⟨⟨hstep', hstep | hone⟩, hparity⟩
  · omega
  · omega
  · -- Both runs go in steps of two, and start at numbers of different parity.
    rw [hstep] at covered
    rw [hstep'] at h
    omega
  · rw [hstep'] at h
    omega

end CaseRun

/-- A character beyond ASCII that is in no run is its own lower case. -/
theorem isLow_of_uncovered {d : Char} (beyond : 0x80 ≤ d.toNat)
    (uncovered : ∀ r ∈ CaseRun.dotted :: caseRuns, r.covers d.toNat = false) : IsLow d := by
  have hcases := loweredBeyond beyond
  unfold IsLow
  generalize lowered d = ds at hcases ⊢
  cases hcases with
  | dotted =>
      have hdotted : CaseRun.dotted.covers 'İ'.toNat = false := uncovered _ (List.mem_cons_self ..)
      exact absurd hdotted (by decide)
  | @covered _ r listed covers =>
      have hr : r.covers d.toNat = false := uncovered r (List.mem_cons_of_mem _ listed)
      rw [covers] at hr
      cases hr
  | kept => rfl

/-- Whatever lowering leads to is its own lower case. -/
theorem isLow_of_mem_lowered {c d : Char} (hd : d ∈ lowered c) : IsLow d := by
  by_cases hascii : c.toNat < 0x80
  · rw [lowered_of_ascii hascii] at hd
    cases List.mem_singleton.1 hd
    exact of_ascii (P := fun c => IsLow c.toLower) (by decide) hascii
  · have hbeyond : 0x80 ≤ c.toNat := Nat.le_of_not_lt hascii
    have hcases := loweredBeyond hbeyond
    generalize hlowered : lowered c = ds at hcases hd
    cases hcases with
    | dotted =>
        -- The only character with two small ones.
        have hpair : d = 'i' ∨ d = Char.ofNat 0x307 := by simpa using hd
        rcases hpair with rfl | rfl
        · decide
        · decide
    | @covered _ r listed covers =>
        have hsource : 0x80 ≤ d.toNat ∨ d = 'i' ∨ d = 'k' :=
          of_mem_lowered hbeyond (by rw [hlowered]; exact hd)
        cases List.mem_singleton.1 hd
        -- A small letter of ASCII can only be `i` or `k`; any other one is missed by every run.
        rcases hsource with hd | hd | hd
        · refine isLow_of_uncovered hd fun r' hr' => ?_
          rw [CaseRun.toNat_lower listed covers]
          have hmisses := CaseRun.misses_of_mem r listed r' hr'
          exact CaseRun.covers_lower_of_misses listed hmisses covers
        · exact hd ▸ (by decide)
        · exact hd ▸ (by decide)
    | kept =>
        cases List.mem_singleton.1 hd
        exact hlowered

/-! ## Letters with two sources -/

/-- The small letters of ASCII but for the two that characters beyond ASCII are lowered to. -/
def IsSteady (c : Char) : Prop := 'a' ≤ c ∧ c ≤ 'z' ∧ c ≠ 'i' ∧ c ≠ 'k'

instance (c : Char) : Decidable (IsSteady c) := inferInstanceAs (Decidable (_ ∧ _))

theorem IsSteady.ascii {c : Char} (steady : IsSteady c) : c.toNat < 0x80 := by
  have hlast : c.toNat ≤ 'z'.toNat := steady.2.1
  have hz : 'z'.toNat = 122 := rfl
  omega

theorem IsSteady.lowered_eq {c : Char} (steady : IsSteady c) :
    lowered c = [c] ∧ lowered c.toUpper = [c] :=
  of_ascii (P := fun c => IsSteady c → lowered c = [c] ∧ lowered c.toUpper = [c]) (by decide)
    steady.ascii steady

/-- A character whose lower case starts with such a letter is the letter or its capital. -/
theorem of_lowered_eq_cons {c d : Char} {rest : List Char} (steady : IsSteady d)
    (h : lowered c = d :: rest) : rest = [] ∧ (c = d ∨ c = d.toUpper) := by
  by_cases hascii : c.toNat < 0x80
  · rw [lowered_of_ascii hascii] at h
    cases h
    exact ⟨rfl, eq_toLower_or_toUpper hascii⟩
  · have hsource : 0x80 ≤ d.toNat ∨ d = 'i' ∨ d = 'k' :=
      of_mem_lowered (Nat.le_of_not_lt hascii) (by simp [h])
    have hd := steady.ascii
    rcases hsource with hbeyond | rfl | rfl
    · omega
    · exact absurd rfl steady.2.2.1
    · exact absurd rfl steady.2.2.2

end Converge.Text
