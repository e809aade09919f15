import Mathlib.Tactic.SplitIfs
import Converge.Proofs.Text.Characters

/-!
# The order of bytes

Texts are compared by their characters, and maps list their keys by bytes.  Both are the same order:
UTF-8 gives the smaller of two characters the smaller bytes, at the first place where these differ.
-/

namespace Converge.Text

def bytes (s : String) : List UInt8 := s.toUTF8.data.toList

theorem bytes_eq_flatMap (s : String) : bytes s = s.toList.flatMap String.utf8EncodeChar := by
  have h : s.toByteArray = (s.toList.flatMap String.utf8EncodeChar).toByteArray :=
    String.utf8Encode_toList.symm
  rw [bytes, String.toUTF8_eq_toByteArray, h, List.data_toByteArray]

/-- The smaller of two characters has the smaller bytes, whatever follows them. -/
theorem encode_lt {c d : Char} (h : c < d) (u v : List UInt8) :
    String.utf8EncodeChar c ++ u < String.utf8EncodeChar d ++ v := by
  have hless : c.val.toNat < d.val.toNat := h
  have hbound : d.val.toNat < 0x110000 := toNat_lt d
  unfold String.utf8EncodeChar
  generalize c.val.toNat = m at *
  generalize d.val.toNat = n at *
  -- The digits to the base 64, which the bytes carry after their marks.
  have hm : m / 64 / 64 = m / 4096 ∧ m / 4096 / 64 = m / 262144 := by omega
  have hn : n / 64 / 64 = n / 4096 ∧ n / 4096 / 64 = n / 262144 := by omega
  dsimp only
  split_ifs <;>
    simp only [List.cons_append, List.nil_append, List.cons_lt_cons_iff, UInt8.lt_iff_toNat_lt,
      ← UInt8.toNat_inj, UInt8.toNat_ofNat'] <;>
    simp (disch := omega) only [Nat.mod_eq_of_lt, Nat.reducePow] <;>
    omega

theorem flatMap_encode_lt {cs ds : List Char} (h : cs < ds) :
    cs.flatMap String.utf8EncodeChar < ds.flatMap String.utf8EncodeChar := by
  induction cs generalizing ds with
  | nil =>
      cases ds with
      | nil => exact absurd h (List.not_lt_nil _)
      | cons d ds =>
          have hsome : (d :: ds).flatMap String.utf8EncodeChar ≠ [] := by
            simp [List.flatMap_cons]
          rcases List.exists_cons_of_ne_nil hsome with ⟨b, bs, hbytes⟩
          rw [hbytes]
          exact List.nil_lt_cons b bs
  | cons c cs ih =>
      cases ds with
      | nil => exact absurd h (List.not_lt_nil _)
      | cons d ds =>
          rw [List.flatMap_cons, List.flatMap_cons]
          rcases List.cons_lt_cons_iff.1 h with hless | ⟨rfl, hrest⟩
          · exact encode_lt hless _ _
          · exact List.append_left_lt (ih hrest)

/-- Texts in ascending order have their bytes in ascending order, since an encoding keeps the order
of characters. -/
theorem bytes_lt {s t : String} (h : s < t) : bytes s < bytes t := by
  rw [bytes_eq_flatMap, bytes_eq_flatMap]
  exact flatMap_encode_lt (String.lt_iff.1 h)

/-- The order of texts is that of their bytes. -/
theorem bytes_lt_iff {s t : String} : bytes s < bytes t ↔ s < t := by
  constructor
  · intro h
    by_cases hless : s < t
    · exact hless
    · -- Otherwise the texts are the same, or the other one is smaller and has the smaller bytes.
      by_cases hgreater : t < s
      · exact absurd (bytes_lt hgreater) (List.lt_asymm h)
      · have hsame : s = t := String.le_antisymm (String.not_lt.1 hgreater) (String.not_lt.1 hless)
        exact absurd (hsame ▸ h) (List.lt_irrefl _)
  · exact bytes_lt

theorem bytes_le_iff {s t : String} : bytes s ≤ bytes t ↔ s ≤ t :=
  not_congr bytes_lt_iff

end Converge.Text
