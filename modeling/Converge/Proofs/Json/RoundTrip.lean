import Converge.Json.Printer
import Converge.Proofs.Json.Reading

/-!
# Documents read back

The compact text of a tree without numbers is one of the tree's texts, so it reads back as the tree,
as long as the tree is no deeper than the reader goes.
-/

namespace Converge.Json

/-- A tree without numbers that has at most so many containers within one another. -/
inductive IsPlain : Nat → Json → Prop where
  | null {depth : Nat} : IsPlain depth .null
  | bool {depth : Nat} (b : Bool) : IsPlain depth (.bool b)
  | text {depth : Nat} (s : String) : IsPlain depth (.text s)
  | array {depth : Nat} {items : List Json} (plain : ∀ v ∈ items, IsPlain depth v) :
      IsPlain (depth + 1) (.array items)
  | object {depth : Nat} {members : List (String × Json)}
      (plain : ∀ m ∈ members, IsPlain depth m.2) : IsPlain (depth + 1) (.object members)

theorem IsPlain.depth_le {n : Nat} {v : Json} (h : IsPlain n v) : v.depth ≤ n := by
  induction h with
  | array _ ih => exact Nat.succ_le_succ (itemsDepth_le_iff.2 ih)
  | object _ ih => exact Nat.succ_le_succ (membersDepth_le_iff.2 ih)
  | _ => exact Nat.zero_le _

/-! ## Strings -/

theorem isHexDigit_digitChar {n : Nat} (hn : n < 16) : IsHexDigit n (Nat.digitChar n) :=
  ⟨hn, .inl rfl⟩

/-- The escape of a character is one of its texts. -/
theorem charText_escapeChar (c : Char) : CharText c (escapeChar c) := by
  unfold escapeChar
  by_cases h₁ : c = '"'
  · simpa [h₁] using CharText.letter (l := '"') (c := '"') (by decide)
  by_cases h₂ : c = '\\'
  · simpa [h₂] using CharText.letter (l := '\\') (c := '\\') (by decide)
  by_cases h₃ : c = '\x08'
  · simpa [h₃] using CharText.letter (l := 'b') (c := '\x08') (by decide)
  by_cases h₄ : c = '\t'
  · simpa [h₄] using CharText.letter (l := 't') (c := '\t') (by decide)
  by_cases h₅ : c = '\n'
  · simpa [h₅] using CharText.letter (l := 'n') (c := '\n') (by decide)
  by_cases h₆ : c = '\x0c'
  · simpa [h₆] using CharText.letter (l := 'f') (c := '\x0c') (by decide)
  by_cases h₇ : c = '\r'
  · simpa [h₇] using CharText.letter (l := 'r') (c := '\r') (by decide)
  simp only [h₁, h₂, h₃, h₄, h₅, h₆, h₇, if_false]
  by_cases hcontrol : c.toNat < 0x20
  · rw [if_pos hcontrol]
    -- Two zeros and the two digits of the control character's number.
    have hzero : IsHexDigit 0 '0' := isHexDigit_digitChar (by decide)
    have hhigh : IsHexDigit (c.toNat / 16) (Nat.digitChar (c.toNat / 16)) :=
      isHexDigit_digitChar (by omega)
    have hlow : IsHexDigit (c.toNat % 16) (Nat.digitChar (c.toNat % 16)) :=
      isHexDigit_digitChar (by omega)
    have hcode : ((0 * 16 + 0) * 16 + c.toNat / 16) * 16 + c.toNat % 16 = c.toNat := by omega
    have hunit := CodeUnit.digits hzero hzero hhigh hlow
    rw [hcode] at hunit
    exact .unit hunit
  · rw [if_neg hcontrol]
    exact .plain h₁ h₂ (by omega)

/-- The escapes that are printed are among those that are read. -/
theorem bodyText_escaped (cs : List Char) : BodyText cs (cs.flatMap escapeChar) := by
  induction cs with
  | nil => exact .nil
  | cons c cs ih => exact .cons (charText_escapeChar c) ih

theorem textOf_textChars (s : String) : TextOf (.text s) (textChars s) :=
  .text (bodyText_escaped s.toList)

theorem keyText_textChars (s : String) : KeyText s (textChars s) :=
  ⟨[], s.toList.flatMap escapeChar, [], by simp, by simp, bodyText_escaped s.toList, by
    simp [textChars]⟩

/-! ## Trees -/

def printed (m : String × Json) : Entry := ⟨m.1, textChars m.1, m.2, m.2.chars⟩

theorem memberChars_eq (m : String × Json) : memberChars m = (printed m).chars := by
  cases m
  simp [memberChars, printed, Entry.chars]

theorem moreItemsChars_eq (items : List Json) :
    moreItemsChars items =
      (items.map fun v => (v, v.chars)).flatMap (fun p => ',' :: p.2) ++ [']'] := by
  induction items with
  | nil => rfl
  | cons v items ih => simp [moreItemsChars, ih]

theorem moreMembersChars_eq (members : List (String × Json)) :
    moreMembersChars members =
      (members.map printed).flatMap (fun e => ',' :: e.chars) ++ ['\x7d'] := by
  induction members with
  | nil => rfl
  | cons m members ih => simp [moreMembersChars, ih, memberChars_eq]

/-- The printed characters of a plain tree are one of its texts. -/
theorem textOf_chars {n : Nat} {v : Json} (h : IsPlain n v) : TextOf v v.chars := by
  induction h with
  | null => exact .null
  | bool b =>
      cases b with
      | true => exact .true
      | false => exact .false
  | text s => exact textOf_textChars s
  | @array n items _ ih =>
      cases items with
      | nil =>
          have hempty : TextOf (.array []) ('[' :: ([] ++ [']'])) := .emptyArray (by simp)
          exact hempty
      | cons v items =>
          have harray := TextOf.array (v, v.chars) (items.map fun v => (v, v.chars)) (by
            intro p hp
            rcases List.mem_cons.1 hp with rfl | hp
            · exact ih v (List.mem_cons_self ..)
            · rcases List.mem_map.1 hp with ⟨w, hw, rfl⟩
              exact ih w (List.mem_cons_of_mem _ hw))
          rw [← moreItemsChars_eq] at harray
          simpa [chars, itemsChars, Function.comp_def] using harray
  | @object n members _ ih =>
      cases members with
      | nil =>
          have hempty : TextOf (.object []) ('\x7b' :: ([] ++ ['\x7d'])) := .emptyObject (by simp)
          exact hempty
      | cons m members =>
          have hprinted : ∀ e ∈ printed m :: members.map printed,
              KeyText e.key e.keyText ∧ TextOf e.value e.valueText := by
            intro e he
            have hmem : e ∈ (m :: members).map printed := he
            rcases List.mem_map.1 hmem with ⟨m', hm', rfl⟩
            exact ⟨keyText_textChars m'.1, ih m' hm'⟩
          have hobject := TextOf.object (printed m) (members.map printed)
            (fun e he => (hprinted e he).1) (fun e he => (hprinted e he).2)
          rw [← moreMembersChars_eq] at hobject
          have hmembers : (members.map printed).map Entry.member = members := by
            simp [Function.comp_def, Entry.member, printed]
          rw [List.map_cons, hmembers] at hobject
          rw [chars, membersChars, memberChars_eq]
          exact hobject

/-- A printed object stands between its braces. -/
theorem exists_chars_object (members : List (String × Json)) :
    ∃ cs, (object members).chars = '\x7b' :: (cs ++ ['\x7d']) := by
  -- However many members follow, the brace comes last.
  cases members with
  | nil => exact ⟨[], rfl⟩
  | cons m members =>
      exact ⟨memberChars m ++ (members.map printed).flatMap (fun e => ',' :: e.chars), by
        simp [chars, membersChars, moreMembersChars_eq]⟩

/-- The text of a plain tree reads back as the tree, if the tree is not too deep. -/
theorem read_render {depth : Nat} {v : Json} (h : IsPlain depth v)
    (room : depth ≤ Reader.maxDepth) : read v.render = .ok v := by
  unfold read render
  rw [String.toList_ofList]
  exact readChars_of_textOf (textOf_chars h) (Nat.le_trans h.depth_le room)

end Converge.Json
