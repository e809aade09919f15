import Converge.Proofs.Fact.Names

/-!
# Names of names

A name is in lower case throughout, whatever the key was, and a key that is in lower case throughout
is its own name.  So the name of a name is that name again, and no name is a whole token: each of
these has a capital.
-/

namespace Converge.Fact

open Text (IsLow lowered)

/-! ## Names are in lower case -/

theorem isLow_of_mem_split {cs : List Char} {d : Char} (hd : d ∈ split cs) : IsLow d := by
  induction cs with
  | nil => cases hd
  | cons c cs ih =>
      have hparts : (isCapital c = true ∧ d = '_') ∨ d ∈ lowered c ∨ d ∈ split cs := by
        simpa [split] using hd
      rcases hparts with ⟨-, rfl⟩ | hlowered | hsplit
      · -- The underscore that was put before a capital.
        decide
      · exact Text.isLow_of_mem_lowered hlowered
      · exact ih hsplit

/-- No character of a name is changed by being lowered again. -/
theorem isLow_of_mem_name {key : String} {d : Char} (hd : d ∈ (name key).toList) : IsLow d := by
  unfold name at hd
  split at hd
  · -- A whole token is lowered character by character.
    have hsource : ∃ c ∈ key.toList, d ∈ lowered c := by simpa [Text.lowercase] using hd
    rcases hsource with ⟨c, -, hlowered⟩
    exact Text.isLow_of_mem_lowered hlowered
  · rw [String.toList_ofList] at hd
    cases hchars : key.toList with
    | nil => simp [hchars, nameChars] at hd
    | cons c cs =>
        have hparts : d ∈ lowered c ∨ d ∈ split cs := by simpa [hchars, nameChars] using hd
        exact hparts.elim Text.isLow_of_mem_lowered isLow_of_mem_split

/-! ## Keys in lower case are left alone -/

theorem isCapital_of_isLow {c : Char} (low : IsLow c) : isCapital c = false := by
  cases hcapital : isCapital c with
  | false => rfl
  | true =>
      -- A capital is ASCII, so it is one of finitely many.
      have hraised : isCapital c = true → ¬ IsLow c :=
        Text.of_ascii (P := fun c => isCapital c = true → ¬ IsLow c) (by decide)
          (ascii_of_isCapital hcapital)
      exact absurd low (hraised hcapital)

/-- Characters that are their own lower case are no capitals, and are not split off. -/
theorem split_of_isLow {cs : List Char} (low : ∀ c ∈ cs, IsLow c) : split cs = cs := by
  induction cs with
  | nil => rfl
  | cons c cs ih =>
      rcases List.forall_mem_cons.1 low with ⟨hc, hcs⟩
      have hlowered : lowered c = [c] := hc
      simp [split, isCapital_of_isLow hc, hlowered, ih hcs]

/-- Every whole token has a capital. -/
theorem not_mem_wholeNames_of_isLow {key : String} (low : ∀ c ∈ key.toList, IsLow c) :
    key ∉ wholeNames := by
  have hcapital : ∀ k ∈ wholeNames, 'I' ∈ k.toList := by decide
  intro hwhole
  exact absurd (low 'I' (hcapital key hwhole)) (by decide)

/-- A key is its own name exactly if it is in lower case throughout. -/
theorem name_eq_self_iff {key : String} : name key = key ↔ ∀ c ∈ key.toList, IsLow c := by
  constructor
  · intro h c hc
    exact isLow_of_mem_name (h.symm ▸ hc)
  · intro low
    -- The key is not lowered as a whole, and splitting it puts in no underscore.
    have hwhole : ¬ wholeNames.contains key = true := by
      simpa using not_mem_wholeNames_of_isLow low
    rw [name, if_neg hwhole, ← String.toList_inj, String.toList_ofList]
    cases hchars : key.toList with
    | nil => rfl
    | cons c cs =>
        rw [hchars] at low
        rcases List.forall_mem_cons.1 low with ⟨hc, hcs⟩
        have hlowered : lowered c = [c] := hc
        simp [nameChars, hlowered, split_of_isLow hcs]

/-! ## Names are settled -/

/-- A name has no capital, is no whole token, and is its own name.  Beyond names no key is its own
name: each of its characters must be its own lower case. -/
theorem name_settled (key : String) :
    (∀ c ∈ (name key).toList, ¬ ('A' ≤ c ∧ c ≤ 'Z')) ∧ name key ∉ wholeNames ∧
      name (name key) = name key ∧
      (name key = key ↔ ∀ c ∈ key.toList, lowered c = [c]) := by
  have hlow : ∀ c ∈ (name key).toList, IsLow c := fun _ hc => isLow_of_mem_name hc
  refine ⟨fun c hc => ?_, not_mem_wholeNames_of_isLow hlow, name_eq_self_iff.2 hlow,
    name_eq_self_iff⟩
  simpa [isCapital] using isCapital_of_isLow (hlow c hc)

end Converge.Fact
