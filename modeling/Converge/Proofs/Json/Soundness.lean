import Converge.Proofs.Failing
import Converge.Proofs.Json.Lexemes

/-!
# Only texts of trees are read

Whatever the reader accepts is a text of the tree that it gives, and that tree is no deeper than the
reader goes.  `Reader.Seen r cs` says what characters `cs` can have brought the reader to the state
`r`: complete values and keys within the open containers, and then the beginning of the lexeme that
is being read.  Every step keeps it, and at the end of a text it is the grammar.

With the other direction, `read_eq_ok_iff` says that the reader accepts exactly the texts of trees.
-/

namespace Converge.Json

namespace Reader

/-! ## Open containers -/

/-- The items of an array that have been read, newest first, and their texts with the comma after
each.  So many containers are open around them. -/
inductive ItemsText (opened : Nat) : List Json → List Char → Prop where
  | nil : ItemsText opened [] []
  | cons {items : List Json} {v : Json} {before text : List Char}
      (done : ItemsText opened items before) (written : TextOf v text)
      (room : opened + v.depth ≤ maxDepth) :
      ItemsText opened (v :: items) (before ++ (text ++ [',']))

inductive MembersText (opened : Nat) : List (String × Json) → List Char → Prop where
  | nil : MembersText opened [] []
  | cons {members : List (String × Json)} {key : String} {v : Json}
      {before keyText text : List Char} (done : MembersText opened members before)
      (named : KeyText key keyText) (written : TextOf v text) (room : opened + v.depth ≤ maxDepth) :
      MembersText opened ((key, v) :: members) (before ++ (keyText ++ ':' :: (text ++ [','])))

/-- Items that have been read fit into the containers that are open around them. -/
theorem ItemsText.room {opened : Nat} {items : List Json} {text : List Char}
    (done : ItemsText opened items text) : ∀ v ∈ items, opened + v.depth ≤ maxDepth := by
  induction done with
  | nil => simp
  | cons _ _ room ih => exact List.forall_mem_cons.2 ⟨room, ih⟩

theorem MembersText.room {opened : Nat} {members : List (String × Json)} {text : List Char}
    (done : MembersText opened members text) : ∀ m ∈ members, opened + m.2.depth ≤ maxDepth := by
  induction done with
  | nil => simp
  | cons _ _ _ room ih => exact List.forall_mem_cons.2 ⟨room, ih⟩

/-- A last item completes the texts of the others. -/
theorem ItemsText.complete {opened : Nat} {items : List Json} {before text : List Char} {v : Json}
    (done : ItemsText opened items before) (written : TextOf v text) :
    ∃ (first : Json × List Char) (more : List (Json × List Char)),
      (v :: items).reverse = (first :: more).map Prod.fst ∧
      (∀ p ∈ first :: more, TextOf p.1 p.2) ∧
      before ++ text = first.2 ++ more.flatMap fun p => ',' :: p.2 := by
  induction done generalizing v text with
  | nil => exact ⟨(v, text), [], rfl, List.forall_mem_singleton.2 written, by simp⟩
  | @cons _ _ before last _ hlast _ ih =>
      rcases ih hlast with ⟨first, more, hitems, hwritten, htext⟩
      refine ⟨first, more ++ [(v, text)], ?_, ?_, ?_⟩
      · rw [List.reverse_cons, hitems]
        simp
      · exact List.forall_mem_append.2 ⟨hwritten, List.forall_mem_singleton.2 written⟩
      · calc
          before ++ (last ++ [',']) ++ text = before ++ last ++ ',' :: text := by simp
          _ = first.2 ++ more.flatMap (fun p => ',' :: p.2) ++ ',' :: text := by rw [htext]
          _ = first.2 ++ (more ++ [(v, text)]).flatMap fun p => ',' :: p.2 := by simp

/-- A last member completes the texts of the others. -/
theorem MembersText.complete {opened : Nat} {members : List (String × Json)}
    {before : List Char} (done : MembersText opened members before) {last : Entry}
    (named : KeyText last.key last.keyText) (written : TextOf last.value last.valueText) :
    ∃ (first : Entry) (more : List Entry),
      (last.member :: members).reverse = (first :: more).map Entry.member ∧
      (∀ e ∈ first :: more, KeyText e.key e.keyText) ∧
      (∀ e ∈ first :: more, TextOf e.value e.valueText) ∧
      before ++ last.chars = first.chars ++ more.flatMap fun e => ',' :: e.chars := by
  induction done generalizing last with
  | nil =>
      exact ⟨last, [], rfl, List.forall_mem_singleton.2 named, List.forall_mem_singleton.2 written,
        by simp⟩
  | @cons _ key v before keyText text _ hnamed hwritten _ ih =>
      rcases @ih ⟨key, keyText, v, text⟩ hnamed hwritten with
        ⟨first, more, hmembers, hkeys, hvalues, htext⟩
      refine ⟨first, more ++ [last], ?_, ?_, ?_, ?_⟩
      · have hreverse : ((key, v) :: _).reverse = (first :: more).map Entry.member := hmembers
        rw [List.reverse_cons, hreverse]
        simp
      · exact List.forall_mem_append.2 ⟨hkeys, List.forall_mem_singleton.2 named⟩
      · exact List.forall_mem_append.2 ⟨hvalues, List.forall_mem_singleton.2 written⟩
      · have htext : before ++ (keyText ++ ':' :: text) =
            first.chars ++ more.flatMap fun e => ',' :: e.chars := htext
        calc
          before ++ (keyText ++ ':' :: (text ++ [','])) ++ last.chars =
              before ++ (keyText ++ ':' :: text) ++ ',' :: last.chars := by simp
          _ = first.chars ++ more.flatMap (fun e => ',' :: e.chars) ++ ',' :: last.chars := by
              rw [htext]
          _ = first.chars ++ (more ++ [last]).flatMap fun e => ',' :: e.chars := by simp

/-- The text up to the value that is read next: the containers that are open, with what each holds
so far, and the blanks at the end.  An object has the key of that value. -/
inductive Opened : List Frame → List Char → Prop where
  | root {blanks : List Char} (blank : ∀ c ∈ blanks, IsBlank c) : Opened [] blanks
  | array {fs : List Frame} {items : List Json} {before text blanks : List Char}
      (outer : Opened fs before) (room : fs.length < maxDepth)
      (done : ItemsText (fs.length + 1) items text) (blank : ∀ c ∈ blanks, IsBlank c) :
      Opened (.array items :: fs) (before ++ '[' :: (text ++ blanks))
  | object {fs : List Frame} {members : List (String × Json)} {key : String}
      {before text keyText blanks : List Char} (outer : Opened fs before)
      (room : fs.length < maxDepth) (done : MembersText (fs.length + 1) members text)
      (named : KeyText key keyText) (blank : ∀ c ∈ blanks, IsBlank c) :
      Opened (.object members (some key) :: fs)
        (before ++ '\x7b' :: (text ++ (keyText ++ ':' :: blanks)))

inductive AtKey (fs : List Frame) (members : List (String × Json)) : List Char → Prop where
  | mk {before text blanks : List Char} (outer : Opened fs before) (room : fs.length < maxDepth)
      (done : MembersText (fs.length + 1) members text) (blank : ∀ c ∈ blanks, IsBlank c) :
      AtKey fs members (before ++ '\x7b' :: (text ++ blanks))

section Blanks

variable {c : Char} {fs : List Frame} {items : List Json} {members : List (String × Json)}
  {before text : List Char}

/-- The next item of an array, right after a comma or the bracket. -/
theorem Opened.ofItems (outer : Opened fs before) (room : fs.length < maxDepth)
    (done : ItemsText (fs.length + 1) items text) :
    Opened (.array items :: fs) (before ++ '[' :: text) := by
  simpa using Opened.array outer room done (List.forall_mem_nil IsBlank)

/-- The value of a member, right after its colon. -/
theorem Opened.ofMembers {key : String} {keyText : List Char} (outer : Opened fs before)
    (room : fs.length < maxDepth) (done : MembersText (fs.length + 1) members text)
    (named : KeyText key keyText) :
    Opened (.object members (some key) :: fs) (before ++ '\x7b' :: (text ++ (keyText ++ [':']))) :=
  .object outer room done named (List.forall_mem_nil IsBlank)

/-- The next key of an object, right after a comma or the brace. -/
theorem AtKey.ofMembers (outer : Opened fs before) (room : fs.length < maxDepth)
    (done : MembersText (fs.length + 1) members text) :
    AtKey fs members (before ++ '\x7b' :: text) := by
  simpa using AtKey.mk outer room done (List.forall_mem_nil IsBlank)

theorem isBlank_of_isSpace (h : isSpace c = true) : IsBlank c := by
  simpa [isSpace, IsBlank, or_assoc] using h

theorem blanks_snoc {blanks : List Char} (blank : ∀ c ∈ blanks, IsBlank c) (last : IsBlank c) :
    ∀ d ∈ blanks ++ [c], IsBlank d :=
  List.forall_mem_append.2 ⟨blank, List.forall_mem_singleton.2 last⟩

theorem Opened.blank {fs : List Frame} {cs : List Char} (opened : Opened fs cs) (last : IsBlank c) :
    Opened fs (cs ++ [c]) := by
  cases opened with
  | root blank => exact .root (blanks_snoc blank last)
  | array outer room done blank =>
      simpa using Opened.array outer room done (blanks_snoc blank last)
  | object outer room done named blank =>
      simpa using Opened.object outer room done named (blanks_snoc blank last)

/-- No more containers are open than there may be. -/
theorem Opened.length_le {fs : List Frame} {cs : List Char} (opened : Opened fs cs) :
    fs.length ≤ maxDepth := by
  cases opened with
  | root => exact Nat.zero_le _
  | array _ room => exact room
  | object _ room => exact room

theorem AtKey.blank {fs : List Frame} {members : List (String × Json)} {cs : List Char}
    (atKey : AtKey fs members cs) (last : IsBlank c) : AtKey fs members (cs ++ [c]) := by
  cases atKey with
  | mk outer room done blank => simpa using AtKey.mk outer room done (blanks_snoc blank last)

end Blanks

/-! ## Closed containers -/

theorem depth_array_le {opened : Nat} {items : List Json} (room : opened < maxDepth)
    (each : ∀ v ∈ items, opened + 1 + v.depth ≤ maxDepth) :
    opened + (Json.array items).depth ≤ maxDepth := by
  have hitems : itemsDepth items ≤ maxDepth - (opened + 1) :=
    itemsDepth_le_iff.2 fun v hv => Nat.le_sub_of_add_le' (each v hv)
  rw [depth]
  omega

theorem depth_object_le {opened : Nat} {members : List (String × Json)} (room : opened < maxDepth)
    (each : ∀ m ∈ members, opened + 1 + m.2.depth ≤ maxDepth) :
    opened + (Json.object members).depth ≤ maxDepth := by
  have hmembers : membersDepth members ≤ maxDepth - (opened + 1) :=
    membersDepth_le_iff.2 fun m hm => Nat.le_sub_of_add_le' (each m hm)
  rw [depth]
  omega

/-- Blanks before a value belong to its text. -/
theorem textOf_blanks {v : Json} {blanks text : List Char} (blank : ∀ c ∈ blanks, IsBlank c)
    (written : TextOf v text) : TextOf v (blanks ++ text) := by
  simpa using TextOf.padded written blank (List.forall_mem_nil IsBlank)

/-- Blanks after a value belong to its text. -/
theorem textOf_snoc {v : Json} {text : List Char} {c : Char} (written : TextOf v text)
    (blank : IsBlank c) : TextOf v (text ++ [c]) := by
  simpa using TextOf.padded written (List.forall_mem_nil IsBlank)
    (List.forall_mem_singleton.2 blank)

/-! ## States -/

/-- The characters that can have brought the reader to a state. -/
inductive Seen : Reader → List Char → Prop where
  | value {r : Reader} {cs : List Char} (opened : Opened r.opened cs) (start : r.AtValue)
      (first : r.place = .firstItem → ∃ fs, r.opened = .array [] :: fs) : Seen r cs
  | given {fs : List Frame} {p : Place} {v : Json} {cs text : List Char} (opened : Opened fs cs)
      (written : TextOf v text) (room : fs.length + v.depth ≤ maxDepth) :
      Seen (give ⟨fs, p⟩ v) (cs ++ text)
  | word {fs : List Frame} {next : Char} {rest : List Char} {v : Json} {cs text : List Char}
      (opened : Opened fs cs) (written : TextOf v (text ++ next :: rest)) (flat : v.depth = 0) :
      Seen ⟨fs, .word next rest v⟩ (cs ++ text)
  | numeral {fs : List Frame} {n : Numeral} {cs : List Char} (opened : Opened fs cs)
      (begun : n.IsBegun) : Seen ⟨fs, .numeral n⟩ (cs ++ n.chars)
  | text {fs : List Frame} {ds : List Char} {e : Escape} {cs text : List Char}
      (opened : Opened fs cs) (body : BodySeen ds e text) :
      Seen ⟨fs, .string false ds e⟩ (cs ++ '"' :: text)
  | key {fs : List Frame} {members : List (String × Json)} {p : Place} {cs : List Char}
      (atKey : AtKey fs members cs) (place : p = .firstKey ∨ p = .nextKey)
      (first : p = .firstKey → members = []) : Seen ⟨.object members none :: fs, p⟩ cs
  | keyText {fs : List Frame} {members : List (String × Json)} {ds : List Char} {e : Escape}
      {cs text : List Char} (atKey : AtKey fs members cs) (body : BodySeen ds e text) :
      Seen ⟨.object members none :: fs, .string true ds e⟩ (cs ++ '"' :: text)
  | colon {fs : List Frame} {members : List (String × Json)} {key : String}
      {before text keyText : List Char} (outer : Opened fs before) (room : fs.length < maxDepth)
      (done : MembersText (fs.length + 1) members text) (named : KeyText key keyText) :
      Seen ⟨.object members (some key) :: fs, .colon⟩ (before ++ '\x7b' :: (text ++ keyText))

namespace Seen

variable {r r' : Reader} {cs : List Char} {c : Char}

/-- Before the first character nothing has been read. -/
theorem start : Seen Reader.start [] :=
  .value (.root (by simp)) (.inl rfl) (by simp [Reader.start])

/-- The first character of a value, or a blank before it. -/
theorem startValue (opened : Opened r.opened cs) (start : r.AtValue)
    (first : r.place = .firstItem → ∃ fs, r.opened = .array [] :: fs)
    (step : r.startValue c = .ok r') : Seen r' (cs ++ [c]) := by
  unfold Reader.startValue at step
  repeat' split at step
  · next space =>
      cases step
      exact .value (opened.blank (isBlank_of_isSpace space)) start first
  · next quote =>
      cases step
      rw [quote]
      exact .text opened .start
  · next minus =>
      cases step
      rw [minus]
      exact .numeral opened Numeral.isBegun_minus
  · next digit =>
      cases step
      exact .numeral opened (Numeral.isBegun_ofDigit digit)
  · next t =>
      cases step
      rw [t]
      exact .word opened .true rfl
  · next f =>
      cases step
      rw [f]
      exact .word opened .false rfl
  · next n =>
      cases step
      rw [n]
      exact .word opened .null rfl
  · next bracket =>
      unfold openFrame at step
      split at step
      · next room =>
          cases step
          rw [bracket]
          exact .value (.ofItems opened room .nil) (.inr (.inl rfl)) fun _ => ⟨_, rfl⟩
      · cases step
  · next brace =>
      unfold openFrame at step
      split at step
      · next room =>
          cases step
          rw [brace]
          exact .key (.ofMembers opened room .nil) (.inl rfl) fun _ => rfl
      · cases step
  · cases step

/-- An array whose bracket is closed is a value of the container around it. -/
theorem closeArray {fs : List Frame} {items : List Json} {v : Json} {before text last : List Char}
    (outer : Opened fs before) (room : fs.length < maxDepth)
    (done : ItemsText (fs.length + 1) items text) (written : TextOf v last)
    (fits : fs.length + 1 + v.depth ≤ maxDepth) (p : Place) :
    Seen (give ⟨fs, p⟩ (.array (v :: items).reverse))
      (before ++ '[' :: (text ++ last ++ [']'])) := by
  have hdepth : ∀ w ∈ (v :: items).reverse, fs.length + 1 + w.depth ≤ maxDepth := by
    intro w hw
    exact (done.cons written fits).room w (List.mem_reverse.1 hw)
  rcases done.complete written with ⟨first, more, hitems, hwritten, htext⟩
  rw [htext, List.append_assoc]
  refine .given outer ?_ (depth_array_le room hdepth)
  rw [hitems]
  exact .array first more hwritten

/-- An object whose brace is closed is a value of the container around it. -/
theorem closeObject {fs : List Frame} {members : List (String × Json)} {before text : List Char}
    (outer : Opened fs before) (room : fs.length < maxDepth)
    (done : MembersText (fs.length + 1) members text) (last : Entry)
    (named : KeyText last.key last.keyText) (written : TextOf last.value last.valueText)
    (fits : fs.length + 1 + last.value.depth ≤ maxDepth) (p : Place) :
    Seen (give ⟨fs, p⟩ (.object (last.member :: members).reverse))
      (before ++ '\x7b' :: (text ++ last.chars ++ ['\x7d'])) := by
  have hdepth : ∀ m ∈ (last.member :: members).reverse, fs.length + 1 + m.2.depth ≤ maxDepth := by
    intro m hm
    exact (done.cons named written fits).room m (List.mem_reverse.1 hm)
  rcases done.complete named written with ⟨first, more, hmembers, hkeys, hvalues, htext⟩
  rw [htext, List.append_assoc]
  refine .given outer ?_ (depth_object_le room hdepth)
  rw [hmembers]
  exact .object first more hkeys hvalues

/-- A value that is complete, and then one more character. -/
theorem separate {fs : List Frame} {p : Place} {v : Json} {text : List Char}
    (opened : Opened fs cs) (written : TextOf v text) (room : fs.length + v.depth ≤ maxDepth)
    (step : (give ⟨fs, p⟩ v).separate c = .ok r') : Seen r' (cs ++ text ++ [c]) := by
  unfold Reader.separate at step
  split at step
  · next space =>
      cases step
      rw [List.append_assoc]
      exact .given opened (textOf_snoc written (isBlank_of_isSpace space)) room
  · cases opened with
    | root blank => cases step
    | @array fs items before done' blanks outer open' done blank =>
        dsimp only [give] at step
        split at step
        · next comma =>
            cases step
            have hopened := Opened.ofItems outer open'
              (done.cons (textOf_blanks blank written) room)
            have hseen : Seen (Reader.goto ⟨.array (v :: items) :: fs, .separator⟩ .nextItem) _ :=
              .value hopened (.inr (.inr rfl)) (by simp [goto])
            simpa [comma] using hseen
        · split at step
          · next bracket =>
              cases step
              have hseen :=
                closeArray outer open' done (textOf_blanks blank written) room .separator
              change Seen (give ⟨fs, .separator⟩ (.array (v :: items).reverse)) _
              simpa [bracket] using hseen
          · cases step
    | @object fs members key before done' keyText blanks outer open' done named blank =>
        dsimp only [give] at step
        split at step
        · next comma =>
            cases step
            have hkey := AtKey.ofMembers outer open'
              (done.cons named (textOf_blanks blank written) room)
            have hseen : Seen (Reader.goto ⟨.object ((key, v) :: members) none :: fs, .separator⟩
                .nextKey) _ := .key hkey (.inr rfl) (by simp)
            simpa [comma] using hseen
        · split at step
          · next brace =>
              cases step
              have hseen := closeObject outer open' done ⟨key, keyText, v, blanks ++ text⟩ named
                (textOf_blanks blank written) room .separator
              change Seen (give ⟨fs, .separator⟩ (.object ((key, v) :: members).reverse)) _
              simpa [brace, Entry.chars, Entry.member] using hseen
          · cases step

/-- The first character of a key, or a blank before it. -/
theorem startKey {fs : List Frame} {members : List (String × Json)} {p : Place}
    (atKey : AtKey fs members cs) (place : p = .firstKey ∨ p = .nextKey)
    (first : p = .firstKey → members = [])
    (step : Reader.startKey ⟨.object members none :: fs, p⟩ c = .ok r') : Seen r' (cs ++ [c]) := by
  unfold Reader.startKey at step
  repeat' split at step
  · next space =>
      cases step
      exact .key (atKey.blank (isBlank_of_isSpace space)) place first
  · next quote =>
      cases step
      rw [quote]
      exact .keyText atKey .start
  · cases step

/-! ### One more character -/

section Step

variable {fs : List Frame}

/-- Where a value may start, an array without items may end instead. -/
theorem stepValue (opened : Opened r.opened cs) (start : r.AtValue)
    (first : r.place = .firstItem → ∃ fs, r.opened = .array [] :: fs) (step : r.step c = .ok r') :
    Seen r' (cs ++ [c]) := by
  unfold Reader.step at step
  rcases start with hplace | hplace | hplace
  · simp only [hplace] at step
    exact startValue opened (.inl hplace) first step
  · simp only [hplace] at step
    split at step
    · next bracket =>
        rcases r with ⟨fs, p⟩
        rcases first hplace with ⟨fs, rfl⟩
        cases step
        cases opened with
        | array outer room done blank =>
            cases done
            have hseen := given (p := p) outer (.emptyArray blank) (depth_array_le room (by simp))
            change Seen (give ⟨fs, p⟩ (.array [])) _
            simpa [bracket] using hseen
    · exact startValue opened (.inr (.inl hplace)) first step
  · simp only [hplace] at step
    split at step
    · cases step
    · exact startValue opened (.inr (.inr hplace)) first step

theorem stepWord {next : Char} {rest text : List Char} {v : Json} (opened : Opened fs cs)
    (written : TextOf v (text ++ next :: rest)) (flat : v.depth = 0)
    (step : Reader.step ⟨fs, .word next rest v⟩ c = .ok r') : Seen r' (cs ++ text ++ [c]) := by
  dsimp only [Reader.step] at step
  split at step
  · cases step
  · next same =>
      have hnext : c = next := Decidable.not_not.1 same
      rw [List.append_assoc, hnext]
      cases rest with
      | nil =>
          cases step
          exact .given opened written (by rw [flat]; exact opened.length_le)
      | cons d ds =>
          cases step
          exact .word opened (by simpa using written) flat

/-- A numeral goes on, or it is a value before the character. -/
theorem stepNumeral {n : Numeral} (opened : Opened fs cs) (begun : n.IsBegun)
    (step : Reader.step ⟨fs, .numeral n⟩ c = .ok r') : Seen r' (cs ++ n.chars ++ [c]) := by
  dsimp only [Reader.step] at step
  split at step
  · cases step
  · next longer hlonger =>
      cases step
      rcases begun.step hlonger with ⟨hbegun, hchars⟩
      rw [List.append_assoc, ← hchars]
      exact .numeral opened hbegun
  · next ended =>
      split at step
      · cases step
      · next v hv =>
          have hwritten := TextOf.number (begun.isWellFormed (Numeral.isComplete_of_step ended)) hv
          exact separate opened hwritten opened.length_le step

theorem stepText {ds text : List Char} {e : Escape} (opened : Opened fs cs)
    (body : BodySeen ds e text) (step : Reader.step ⟨fs, .string false ds e⟩ c = .ok r') :
    Seen r' (cs ++ '"' :: text ++ [c]) := by
  dsimp only [Reader.step] at step
  rw [List.append_assoc, List.cons_append]
  split at step
  · next quote =>
      cases step
      rcases quote with ⟨rfl, rfl⟩
      have hwritten : TextOf (.text (String.ofList ds.reverse)) ('"' :: (text ++ ['"'])) :=
        .text (by simpa using body.bodyText)
      exact .given opened hwritten opened.length_le
  · next inside =>
      split at step
      · next hstep =>
          cases step
          exact .text opened (body.step inside hstep)
      · cases step

/-- Where a key may start, an object without members may end instead. -/
theorem stepKey {members : List (String × Json)} {p : Place} (atKey : AtKey fs members cs)
    (place : p = .firstKey ∨ p = .nextKey) (first : p = .firstKey → members = [])
    (step : Reader.step ⟨.object members none :: fs, p⟩ c = .ok r') : Seen r' (cs ++ [c]) := by
  rcases place with rfl | rfl
  · dsimp only [Reader.step] at step
    split at step
    · next brace =>
        cases first rfl
        cases step
        cases atKey with
        | mk outer room done blank =>
            cases done
            have hseen := given (p := .firstKey) outer (.emptyObject blank)
              (depth_object_le room (by simp))
            change Seen (give ⟨fs, .firstKey⟩ (.object [])) _
            simpa [brace] using hseen
    · exact startKey atKey (.inl rfl) first step
  · dsimp only [Reader.step] at step
    split at step
    · cases step
    · exact startKey atKey (.inr rfl) first step

theorem stepKeyText {members : List (String × Json)} {ds text : List Char} {e : Escape}
    (atKey : AtKey fs members cs) (body : BodySeen ds e text)
    (step : Reader.step ⟨.object members none :: fs, .string true ds e⟩ c = .ok r') :
    Seen r' (cs ++ '"' :: text ++ [c]) := by
  dsimp only [Reader.step] at step
  rw [List.append_assoc, List.cons_append]
  split at step
  · next quote =>
      cases step
      rcases quote with ⟨rfl, rfl⟩
      cases atKey with
      | @mk before done' blanks outer room done blank =>
          have hnamed : KeyText (String.ofList ds.reverse) (blanks ++ '"' :: (text ++ '"' :: [])) :=
            ⟨blanks, text, [], blank, by simp, by simpa using body.bodyText, rfl⟩
          have hseen := colon outer room done hnamed
          change Seen ⟨.object members (some (String.ofList ds.reverse)) :: fs, .colon⟩ _
          simpa using hseen
  · next inside =>
      split at step
      · next hstep =>
          cases step
          exact .keyText atKey (body.step inside hstep)
      · cases step

theorem stepColon {members : List (String × Json)} {key : String}
    {before text keyText : List Char} (outer : Opened fs before) (room : fs.length < maxDepth)
    (done : MembersText (fs.length + 1) members text) (named : KeyText key keyText)
    (step : Reader.step ⟨.object members (some key) :: fs, .colon⟩ c = .ok r') :
    Seen r' (before ++ '\x7b' :: (text ++ keyText) ++ [c]) := by
  dsimp only [Reader.step] at step
  split at step
  · next space =>
      cases step
      rcases named with ⟨blanks, body, after, hblanks, hafter, hbody, rfl⟩
      have hnamed : KeyText key (blanks ++ '"' :: (body ++ '"' :: (after ++ [c]))) :=
        ⟨blanks, body, after ++ [c], hblanks, blanks_snoc hafter (isBlank_of_isSpace space), hbody,
          rfl⟩
      have hseen := colon outer room done hnamed
      simpa using hseen
  · split at step
    · next hcolon =>
        cases step
        have hopened := Opened.ofMembers outer room done named
        have hseen : Seen (Reader.goto ⟨.object members (some key) :: fs, .colon⟩ .value) _ :=
          .value hopened (.inl rfl) (by simp [goto])
        simpa [hcolon] using hseen
    · cases step

/-- Whatever has been read, one more character is seen after it. -/
theorem step (seen : Seen r cs) (step : r.step c = .ok r') : Seen r' (cs ++ [c]) := by
  cases seen with
  | value opened start first => exact stepValue opened start first step
  | given opened written room =>
      rw [step_give] at step
      exact separate opened written room step
  | word opened written flat => exact stepWord opened written flat step
  | numeral opened begun => exact stepNumeral opened begun step
  | text opened body => exact stepText opened body step
  | key atKey place first => exact stepKey atKey place first step
  | keyText atKey body => exact stepKeyText atKey body step
  | colon outer room done named => exact stepColon outer room done named step

end Step

/-! ### The end of the text -/

/-- Outside of all containers, a value is the whole text. -/
theorem result_give {fs : List Frame} {p : Place} {v w : Json} {text : List Char}
    (opened : Opened fs cs) (written : TextOf w text) (room : fs.length + w.depth ≤ maxDepth)
    (finish : (give ⟨fs, p⟩ w).result = .ok v) : TextOf v (cs ++ text) ∧ v.depth ≤ maxDepth := by
  cases opened with
  | root blank =>
      cases finish
      exact ⟨textOf_blanks blank written, by simpa using room⟩
  | array => cases finish
  | object => cases finish

/-- Where the text may end, everything that was read is a text of the result. -/
theorem finish {v : Json} (seen : Seen r cs) (finish : r.finish = .ok v) :
    TextOf v cs ∧ v.depth ≤ maxDepth := by
  cases seen with
  | value opened start first =>
      rcases start with hplace | hplace | hplace <;> simp [Reader.finish, result, hplace] at finish
  | given opened written room =>
      rw [finish_give] at finish
      exact result_give opened written room finish
  | @numeral fs n cs opened begun =>
      dsimp only [Reader.finish] at finish
      split at finish
      · next complete =>
          split at finish
          · next x hx =>
              exact result_give opened (.number (begun.isWellFormed complete) hx) opened.length_le
                finish
          · cases finish
      · cases finish
  | word => cases finish
  | text => cases finish
  | key _ place => rcases place with rfl | rfl <;> cases finish
  | keyText => cases finish
  | colon => cases finish

/-- What is read is seen. -/
theorem reads {text : List Char} (seen : Seen r cs) (reads : Reads r text r') :
    Seen r' (cs ++ text) := by
  induction text generalizing r cs with
  | nil =>
      cases reads
      rwa [List.append_nil]
  | cons c text ih =>
      unfold Reads at reads
      rw [List.foldlM_cons] at reads
      rcases bind_eq_ok_iff.1 reads with ⟨r₁, hstep, hrest⟩
      rw [List.append_cons]
      exact ih (seen.step hstep) hrest

end Seen

end Reader

/-- Whatever the reader accepts is a text of the tree that it gives. -/
theorem textOf_of_readChars {cs : List Char} {v : Json} (h : readChars cs = .ok v) :
    TextOf v cs ∧ v.depth ≤ Reader.maxDepth := by
  rcases bind_eq_ok_iff.1 h with ⟨r, hreads, hfinish⟩
  exact (Reader.Seen.start.reads hreads).finish hfinish

/-- The reader accepts exactly the texts of trees that are not too deep, each as its tree. -/
theorem read_eq_ok_iff {text : String} {v : Json} :
    read text = .ok v ↔ TextOf v text.toList ∧ v.depth ≤ Reader.maxDepth := by
  constructor
  · exact textOf_of_readChars
  · rintro ⟨written, room⟩
    exact readChars_of_textOf written room

end Converge.Json
