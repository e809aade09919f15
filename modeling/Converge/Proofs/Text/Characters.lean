/-!
# Code points

A character is a code point that is no surrogate, and the first 128 of them are ASCII.
-/

namespace Converge.Text

theorem toNat_lt (c : Char) : c.toNat < 0x110000 := by
  have hvalid : c.toNat < 0xD800 ∨ 0xDFFF < c.toNat ∧ c.toNat < 0x110000 := c.valid
  omega

/-- The number of a character that was made from it. -/
theorem toNat_ofNat_of_lt {n : Nat} (below : n < 0xD800 ∨ 0xDFFF < n ∧ n < 0x110000) :
    (Char.ofNat n).toNat = n := by
  unfold Char.ofNat
  rw [dif_pos below]
  rfl

/-- What holds of the first 128 code points holds of ASCII. -/
theorem of_ascii {P : Char → Prop} (h : ∀ n < 0x80, P (Char.ofNat n)) {c : Char}
    (ascii : c.toNat < 0x80) : P c := by
  simpa [Char.ofNat_toNat] using h c.toNat ascii

end Converge.Text
