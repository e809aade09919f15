import Converge.Proofs.Fact.Response
import Converge.Proofs.Json.Soundness
import Mathlib.Data.List.TakeWhile

/-!
# Responses by what their lines hold

A line of facts is blank, or it is the text of a tree between the blank characters at its ends, or
it is no text at all.  A response is accepted exactly if each line that is not blank is the text of
an object, and the records are those objects in the order of their lines.  Otherwise the first line
that is neither blank nor an object is reported by its place among all lines, whatever follows it.

Texts are those of the grammar, not what the reader happens to take; `holds_iff_read` puts the two
together.  Nothing is said about the place within a line at which the reader stops.
-/

namespace Converge.Fact

/-! ## Lines -/

def IsBlankLine (line : String) : Prop := ∀ c ∈ line.toList, Text.isBlank c = true

instance (line : String) : Decidable (IsBlankLine line) :=
  inferInstanceAs (Decidable (∀ c ∈ line.toList, Text.isBlank c = true))

/-- A line that is a text of a tree, apart from the blank characters at its ends.  A tree that is
nested deeper than the reader goes has no text: the reader refuses it like any other fault. -/
def Holds (line : String) (v : Json) : Prop :=
  Json.TextOf v (Text.trim line).toList ∧ v.depth ≤ Json.Reader.maxDepth

def IsFine (line : String) : Prop :=
  ¬ IsBlankLine line → ∃ members, Holds line (.object members)

/-- What is wrong with a line that is neither blank nor an object, and the words for it. -/
inductive Complaint (line : String) : LineFault → String → Prop where
  | malformed {stop : Json.Stop} (nothing : ∀ v, ¬ Holds line v)
      (stopped : Json.read (Text.trim line) = .error stop) :
      Complaint line (.malformed stop.fault) stop.fault.message
  | notAnObject {v : Json} (holds : Holds line v) (other : ∀ members, v ≠ .object members) :
      Complaint line (.notAnObject v) ("expected a JSON object, got " ++ LineFault.typeName v)

/-- What lines show of an object: nothing, or the record of the first line that is not blank. -/
inductive Shows : List String → Option Record → Prop where
  | nothing : Shows [] none
  | blank {line : String} {lines : List String} {o : Option Record} (blank : IsBlankLine line)
      (rest : Shows lines o) : Shows (line :: lines) o
  | first {line : String} {members : List (String × Json)} (filled : ¬ IsBlankLine line)
      (holds : Holds line (.object members)) (lines : List String) :
      Shows (line :: lines) (some (.ofRaw members))

section Line

variable {line : String}

/-- Nothing is left of characters by trimming exactly if all of them are blank. -/
theorem trimBlank_eq_nil_iff {cs : List Char} :
    Text.trimBlank cs = [] ↔ ∀ c ∈ cs, Text.isBlank c = true := by
  unfold Text.trimBlank
  rw [List.reverse_eq_nil_iff, List.dropWhile_eq_nil_iff]
  constructor
  · intro h
    -- What is left after the blank characters in front would start with one that is not blank.
    have hfront : cs.dropWhile Text.isBlank = [] := by
      cases hrest : cs.dropWhile Text.isBlank with
      | nil => rfl
      | cons c rest =>
          have hnot : Text.isBlank c = false := by
            simpa [hrest] using List.head?_dropWhile_not Text.isBlank cs
          have hblank : Text.isBlank c = true := h c (by simp [hrest])
          rw [hnot] at hblank
          cases hblank
    exact List.dropWhile_eq_nil_iff.1 hfront
  · intro h c hc
    rw [List.dropWhile_eq_nil_iff.2 h] at hc
    cases hc

theorem trim_isEmpty_iff : (Text.trim line).isEmpty = true ↔ IsBlankLine line := by
  rw [String.isEmpty_iff, IsBlankLine, ← trimBlank_eq_nil_iff, Text.trim]
  exact String.ofList_eq_empty_iff

/-- The reader takes a line exactly as the tree whose text it is. -/
theorem holds_iff_read {v : Json} : Holds line v ↔ Json.read (Text.trim line) = .ok v :=
  Json.read_eq_ok_iff.symm

/-- A line that is refused is one of which there is something to complain, and it is the text of no
object. -/
theorem complaint_of_parseLine {fault : LineFault}
    (found : parseLine (Text.trim line) = .error fault) :
    Complaint line fault fault.message ∧ ∀ members, ¬ Holds line (.object members) := by
  unfold parseLine at found
  split at found
  · next stop stopped =>
      cases found
      have hnothing : ∀ v, ¬ Holds line v := by
        intro v hv
        rw [holds_iff_read.1 hv] at stopped
        cases stopped
      exact ⟨.malformed hnothing stopped, fun members => hnothing (.object members)⟩
  · cases found
  · next v other hread =>
      cases found
      have hholds : Holds line v := holds_iff_read.2 hread
      refine ⟨.notAnObject hholds other, ?_⟩
      intro members hobject
      rw [holds_iff_read.1 hobject] at hread
      exact other members (Except.ok.inj hread).symm

/-- The record of a line is that of an object whose text the line is. -/
theorem holds_of_parseLine {record : Record} (found : parseLine (Text.trim line) = .ok record) :
    ∃ members, Holds line (.object members) ∧ record = .ofRaw members := by
  unfold parseLine at found
  split at found
  · cases found
  · next members hread =>
      cases found
      exact ⟨members, holds_iff_read.2 hread, rfl⟩
  · cases found

/-- A line spoils a response exactly if it is neither blank nor an object. -/
theorem fault?_eq_none_iff : fault? line = none ↔ IsFine line := by
  unfold fault?
  split
  · next blank => exact iff_of_true rfl fun hnot => absurd (trim_isEmpty_iff.1 blank) hnot
  · next filled =>
      have hfilled : ¬ IsBlankLine line := fun h => filled (trim_isEmpty_iff.2 h)
      cases hline : parseLine (Text.trim line) with
      | error fault =>
          refine iff_of_false (by simp) fun fine => ?_
          rcases fine hfilled with ⟨members, hmembers⟩
          exact (complaint_of_parseLine hline).2 members hmembers
      | ok record =>
          rcases holds_of_parseLine hline with ⟨members, hmembers, _⟩
          exact iff_of_true rfl fun _ => ⟨members, hmembers⟩

theorem faultless_of_fine {lines : List String} (fine : ∀ l ∈ lines, IsFine l) :
    ∀ l ∈ lines, fault? l = none :=
  fun l hl => fault?_eq_none_iff.2 (fine l hl)

theorem complaint_of_fault? {fault : LineFault} (found : fault? line = some fault) :
    ¬ IsBlankLine line ∧ Complaint line fault fault.message := by
  unfold fault? at found
  split at found
  · cases found
  · next filled =>
      split at found
      · next hline =>
          cases found
          exact ⟨fun h => filled (trim_isEmpty_iff.2 h), (complaint_of_parseLine hline).1⟩
      · cases found

theorem record?_of_isBlankLine (blank : IsBlankLine line) : record? line = none := by
  rw [record?, if_pos (trim_isEmpty_iff.2 blank)]

theorem record?_of_holds {members : List (String × Json)} (filled : ¬ IsBlankLine line)
    (holds : Holds line (.object members)) : record? line = some (.ofRaw members) := by
  have hline : parseLine (Text.trim line) = .ok (.ofRaw members) := by
    rw [parseLine, holds_iff_read.1 holds]
  rw [record?, if_neg (fun h => filled (trim_isEmpty_iff.1 h)), hline]
  rfl

/-- A line that is fine and not blank gives the record of its object. -/
theorem record?_of_isFine (filled : ¬ IsBlankLine line) (fine : IsFine line) :
    ∃ members, Holds line (.object members) ∧ record? line = some (.ofRaw members) := by
  rcases fine filled with ⟨members, hmembers⟩
  exact ⟨members, hmembers, record?_of_holds filled hmembers⟩

end Line

/-! ## Numbering -/

def later (n : Nat) : Failure → Failure
  | .facts line fault => .facts (line + n) fault
  | failure => failure

/-- Lines before a response move the number of its fault on and change nothing else. -/
theorem parseFrom_add (before n : Nat) (lines : List String) :
    parseFrom (before + n) lines = (parseFrom before lines).mapError (later n) := by
  induction lines generalizing before with
  | nil => rfl
  | cons line lines ih =>
      rw [parseFrom_cons, parseFrom_cons]
      cases fault? line with
      | some fault =>
          have hnumber : before + n + 1 = before + 1 + n := by omega
          change Except.error (Failure.facts (before + n + 1) fault) = _
          rw [hnumber]
          rfl
      | none =>
          have hrest : parseFrom (before + n + 1) lines =
              (parseFrom (before + 1) lines).mapError (later n) := by
            rw [← ih, Nat.add_right_comm]
          dsimp only
          rw [hrest]
          cases parseFrom (before + 1) lines <;> rfl

/-- Lines that are fine put their records in front of what the others give. -/
theorem parseFrom_append {good : List String} (fine : ∀ l ∈ good, IsFine l) (rest : List String)
    (before : Nat) :
    parseFrom before (good ++ rest) =
      (parseFrom (before + good.length) rest).map (good.filterMap record? ++ ·) := by
  induction good generalizing before with
  | nil =>
      change parseFrom before rest = (parseFrom before rest).map _
      cases parseFrom before rest <;> rfl
  | cons line good ih =>
      have hline : fault? line = none := fault?_eq_none_iff.2 (fine line (List.mem_cons_self ..))
      have hrest := ih (fun l hl => fine l (List.mem_cons_of_mem _ hl)) (before + 1)
      have hnumber : before + 1 + good.length = before + (line :: good).length := by
        rw [List.length_cons]
        omega
      rw [List.cons_append, parseFrom_cons, hline, hrest, hnumber]
      cases parseFrom (before + (line :: good).length) rest with
      | error failure => simp only [Except.map]
      | ok records => cases hrecord : record? line <;> simp [Except.map, hrecord]

/-- Blank lines in front only move the number of a fault. -/
theorem parseFrom_blanks {blanks : List String} (blank : ∀ l ∈ blanks, IsBlankLine l)
    (lines : List String) (before : Nat) :
    parseFrom before (blanks ++ lines) =
      (parseFrom before lines).mapError (later blanks.length) := by
  have hfine : ∀ l ∈ blanks, IsFine l := fun l hl hnot => absurd (blank l hl) hnot
  have hnone : blanks.filterMap record? = [] :=
    List.filterMap_eq_nil_iff.2 fun l hl => record?_of_isBlankLine (blank l hl)
  rw [parseFrom_append hfine, hnone, parseFrom_add]
  cases parseFrom before lines <;> rfl

/-! ## Responses -/

/-- The records of lines that are fine are those of the lines that are not blank. -/
theorem forall₂_records {lines : List String} (fine : ∀ l ∈ lines, IsFine l) :
    List.Forall₂ (fun line record => ∃ members, Holds line (.object members) ∧
        record = Record.ofRaw members)
      (lines.filter (¬ IsBlankLine ·)) (lines.filterMap record?) := by
  induction lines with
  | nil => exact .nil
  | cons line lines ih =>
      have hrest := ih fun l hl => fine l (List.mem_cons_of_mem _ hl)
      by_cases hblank : IsBlankLine line
      · rw [List.filterMap_cons_none (record?_of_isBlankLine hblank)]
        simpa [hblank] using hrest
      · rcases record?_of_isFine hblank (fine line (List.mem_cons_self ..)) with
          ⟨members, hmembers, hrecord⟩
        rw [List.filterMap_cons_some hrecord]
        simpa [hblank] using List.Forall₂.cons ⟨members, hmembers, rfl⟩ hrest

/-- Lines that are fine show the first of their records. -/
theorem shows_iff {lines : List String} (fine : ∀ l ∈ lines, IsFine l) {o : Option Record} :
    Shows lines o ↔ (lines.filterMap record?).head? = o := by
  constructor
  · intro shows
    induction shows with
    | nothing => rfl
    | blank blank _ ih =>
        rw [List.filterMap_cons_none (record?_of_isBlankLine blank)]
        exact ih fun l hl => fine l (List.mem_cons_of_mem _ hl)
    | first filled holds lines =>
        rw [List.filterMap_cons_some (record?_of_holds filled holds)]
        rfl
  · rintro rfl
    induction lines with
    | nil => exact .nothing
    | cons line lines ih =>
        by_cases hblank : IsBlankLine line
        · rw [List.filterMap_cons_none (record?_of_isBlankLine hblank)]
          exact .blank hblank (ih fun l hl => fine l (List.mem_cons_of_mem _ hl))
        · rcases record?_of_isFine hblank (fine line (List.mem_cons_self ..)) with
            ⟨members, hmembers, hrecord⟩
          rw [List.filterMap_cons_some hrecord]
          exact .first hblank hmembers lines

/-- The first line that is not fine is reported by its number, whatever follows it. -/
theorem parse_of_first_fault {lines : List String} (spoilt : ¬ ∀ l ∈ lines, IsFine l) :
    ∃ good line rest fault words, lines = good ++ line :: rest ∧ (∀ l ∈ good, IsFine l) ∧
      ¬ IsFine line ∧ Complaint line fault words ∧ fault.message = words ∧
      ∀ others, parse (good ++ line :: others) = .error (.facts (good.length + 1) fault) := by
  rcases faultless_or_first_fault lines with
    faultless | ⟨good, line, rest, fault, hlines, hgood, hline⟩
  · exact absurd (fun l hl => fault?_eq_none_iff.1 (faultless l hl)) spoilt
  · have hnot : ¬ IsFine line := by
      rw [← fault?_eq_none_iff, hline]
      simp
    exact ⟨good, line, rest, fault, fault.message, hlines,
      fun l hl => fault?_eq_none_iff.1 (hgood l hl), hnot, (complaint_of_fault? hline).2, rfl,
      parse_of_fault hgood hline⟩

structure JudgedByLines (lines : List String) : Prop where
  /-- It is accepted if every line that is not blank is an object, and only then. -/
  accepted : (∃ records, parse lines = .ok records) ↔
    ∀ line ∈ lines, ¬ IsBlankLine line → ∃ members, Holds line (.object members)
  /-- The records are the objects of the lines that are not blank, each for its line. -/
  inOrder : ∀ records, parse lines = .ok records →
    List.Forall₂ (fun line record => ∃ members, Holds line (.object members) ∧
        record = Record.ofRaw members)
      (lines.filter (¬ IsBlankLine ·)) records
  /-- The first other line is reported, by its number and whatever follows it. -/
  refused : (¬ ∀ line ∈ lines, ¬ IsBlankLine line → ∃ members, Holds line (.object members)) →
    ∃ good line rest fault words, lines = good ++ line :: rest ∧ (∀ l ∈ good, IsFine l) ∧
      ¬ IsFine line ∧ Complaint line fault words ∧ fault.message = words ∧
      ∀ others, parse (good ++ line :: others) = .error (.facts (good.length + 1) fault)
  /-- Blank lines before it are counted and change nothing else. -/
  spaced : ∀ before blanks after, lines = before ++ after → (∀ l ∈ before, IsFine l) →
    (∀ l ∈ blanks, IsBlankLine l) →
    parse (before ++ (blanks ++ after)) = (parse lines).mapError (later blanks.length)

theorem judgedByLines (lines : List String) : JudgedByLines lines where
  accepted := by
    constructor
    · rintro ⟨records, hrecords⟩ line hline
      exact fault?_eq_none_iff.1 ((parse_eq_ok_iff.1 hrecords).1 line hline)
    · intro fine
      exact ⟨_, parse_of_faultless (faultless_of_fine fine)⟩
  inOrder := by
    intro records hrecords
    rcases parse_eq_ok_iff.1 hrecords with ⟨faultless, rfl⟩
    exact forall₂_records fun l hl => fault?_eq_none_iff.1 (faultless l hl)
  refused := parse_of_first_fault
  spaced := by
    rintro before blanks after rfl fine blank
    unfold parse
    rw [parseFrom_append fine, parseFrom_append fine, parseFrom_blanks blank]
    cases parseFrom (0 + before.length) after <;> rfl

/-- Two blank lines count, and the line after the array does not. -/
example : parse ["", " ", " []", "\x7b"] = .error (.facts 3 (.notAnObject (.array []))) := by decide

end Converge.Fact
