import Converge.Fact.Name
import Converge.Proofs.Text.LowerCase

/-!
# Where names come from

What is known of a raw key from the name that it gets.  A word of steady letters is the name of the
word itself and of the word with a capital, and of no other key, whatever characters it has.
-/

namespace Converge.Fact

open Text (IsSteady lowered)

theorem ascii_of_isCapital {c : Char} (capital : isCapital c = true) : c.toNat < 0x80 := by
  have hlast : c.toNat ≤ 'Z'.toNat := by
    simp only [isCapital, Bool.and_eq_true, decide_eq_true_eq] at capital
    exact capital.2
  have hz : 'Z'.toNat = 90 := rfl
  omega

/-! ## Words of steady letters -/

theorem isCapital_toUpper {c : Char} (steady : IsSteady c) :
    isCapital c = false ∧ isCapital c.toUpper = true :=
  Text.of_ascii (P := fun c => IsSteady c → isCapital c = false ∧ isCapital c.toUpper = true)
    (by decide) steady.ascii steady

/-- Behind the first character, a word of steady letters comes from itself alone: a capital would
have left an underscore. -/
theorem split_eq_iff {word : List Char} (steady : ∀ d ∈ word, IsSteady d) {cs : List Char} :
    split cs = word ↔ cs = word := by
  induction cs generalizing word with
  | nil => exact Iff.rfl
  | cons c cs ih =>
      constructor
      · intro h
        cases hcapital : isCapital c with
        | true =>
            have hunderscore : '_' ∈ word := by simp [← h, split, hcapital]
            exact absurd (steady '_' hunderscore) (by decide)
        | false =>
            have hsplit : lowered c ++ split cs = word := by simpa [split, hcapital] using h
            rcases List.exists_cons_of_ne_nil (Text.lowered_ne_nil c) with ⟨d, rest, hlowered⟩
            -- What the character is lowered to starts with a steady letter, so it is that letter.
            have hd : IsSteady d := steady d (by simp [← hsplit, hlowered])
            rcases Text.of_lowered_eq_cons hd hlowered with ⟨rfl, rfl | rfl⟩
            · rw [hlowered] at hsplit
              subst hsplit
              have hrest := (ih fun e he => steady e (List.mem_cons_of_mem _ he)).1 rfl
              exact congrArg (c :: ·) hrest
            · rw [(isCapital_toUpper hd).2] at hcapital
              cases hcapital
      · rintro rfl
        rcases List.forall_mem_cons.1 steady with ⟨hc, hcs⟩
        simp [split, (isCapital_toUpper hc).1, hc.lowered_eq, (ih hcs).2 rfl]

/-- A word of steady letters is the name of itself and of itself with a capital in front, and of
nothing else. -/
theorem nameChars_eq_iff {d : Char} {word : List Char} (steady : ∀ e ∈ d :: word, IsSteady e)
    {cs : List Char} :
    nameChars cs = d :: word ↔ cs = d :: word ∨ cs = d.toUpper :: word := by
  rcases List.forall_mem_cons.1 steady with ⟨hd, hword⟩
  cases cs with
  | nil => simp [nameChars]
  | cons c cs =>
      constructor
      · intro h
        rcases List.exists_cons_of_ne_nil (Text.lowered_ne_nil c) with ⟨e, rest, hlowered⟩
        have hboth : e = d ∧ rest ++ split cs = word := by simpa [nameChars, hlowered] using h
        rcases hboth with ⟨rfl, hrest⟩
        rcases Text.of_lowered_eq_cons hd hlowered with ⟨rfl, hc⟩
        have hcs : cs = word := (split_eq_iff hword).1 hrest
        rcases hc with rfl | rfl
        · exact .inl (by rw [hcs])
        · exact .inr (by rw [hcs])
      · rintro (⟨rfl, rfl⟩ | ⟨rfl, rfl⟩)
        · simp [nameChars, hd.lowered_eq, (split_eq_iff hword).2 rfl]
        · simp [nameChars, hd.lowered_eq, (split_eq_iff hword).2 rfl]

/-- A key gets a word of steady letters for a name exactly if it is the word, with or without a
capital. -/
theorem name_eq_iff {d : Char} {word : List Char} (steady : ∀ e ∈ d :: word, IsSteady e)
    {key : String} :
    name key = String.ofList (d :: word) ↔
      key = String.ofList (d :: word) ∨ key = String.ofList (d.toUpper :: word) := by
  by_cases hwhole : wholeNames.contains key = true
  · have hkey : key = "ID" ∨ key = "IPv6" ∨ key = "IPv4" := by
      simpa [wholeNames] using hwhole
    -- A whole token has a capital behind its first letter, and its name starts with the letter i.
    have hcapital : ∃ c ∈ key.toList.tail, ¬ IsSteady c := by
      rcases hkey with rfl | rfl | rfl
      · exact ⟨'D', by decide⟩
      · exact ⟨'P', by decide⟩
      · exact ⟨'P', by decide⟩
    have hname : (name key).toList.head? = some 'i' := by
      rcases hkey with rfl | rfl | rfl <;> decide
    rcases hcapital with ⟨c, hc, hsteady⟩
    have hother : ∀ e, key ≠ String.ofList (e :: word) := by
      rintro e rfl
      rw [String.toList_ofList] at hc
      exact hsteady (steady c (List.mem_cons_of_mem _ hc))
    refine iff_of_false (fun h => ?_) (fun h => h.elim (hother _) (hother _))
    rw [h, String.toList_ofList] at hname
    have hd : d = 'i' := by simpa using hname
    exact (steady d (List.mem_cons_self ..)).2.2.1 hd
  · rw [name, if_neg hwhole, String.ofList_inj, nameChars_eq_iff steady]
    simp only [← String.toList_inj, String.toList_ofList]

end Converge.Fact
