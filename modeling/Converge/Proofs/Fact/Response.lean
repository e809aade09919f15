import Converge.Fact.Response
import Converge.Proofs.Json.RoundTrip

/-!
# Faults of a response

A response is judged line by line: each line is blank, a record or a fault, whatever stands around
it.  The whole response fails with its first fault, and otherwise gives the records in their order.
-/

namespace Converge.Fact

/-- What is wrong with a line that is neither blank nor a record. -/
def fault? (line : String) : Option LineFault :=
  if (Text.trim line).isEmpty then none
  else match parseLine (Text.trim line) with
    | .error fault => some fault
    | .ok _ => none

def record? (line : String) : Option Record :=
  if (Text.trim line).isEmpty then none else (parseLine (Text.trim line)).toOption

/-- A line fails the response if it is a fault, and otherwise adds its record, if it has one. -/
theorem parseFrom_cons (before : Nat) (line : String) (lines : List String) :
    parseFrom before (line :: lines) =
      match fault? line with
      | some fault => .error (.facts (before + 1) fault)
      | none => (parseFrom (before + 1) lines).map ((record? line).toList ++ ·) := by
  rw [parseFrom]
  generalize parseFrom (before + 1) lines = rest
  cases hblank : (Text.trim line).isEmpty with
  | true =>
      simp only [fault?, record?, hblank, if_true]
      cases rest <;> rfl
  | false =>
      simp only [fault?, record?, hblank, Bool.false_eq_true, if_false]
      cases parseLine (Text.trim line) with
      | error fault => rfl
      | ok record => cases rest <;> rfl

/-- A response without fault gives the records of its lines. -/
theorem parseFrom_of_faultless {lines : List String} (faultless : ∀ l ∈ lines, fault? l = none)
    (before : Nat) : parseFrom before lines = .ok (lines.filterMap record?) := by
  induction lines generalizing before with
  | nil => rfl
  | cons line lines ih =>
      have hline : fault? line = none := faultless line (List.mem_cons_self ..)
      have hrest := ih (fun l hl => faultless l (List.mem_cons_of_mem _ hl)) (before + 1)
      rw [parseFrom_cons, hline, hrest]
      -- A blank line adds nothing, and any other one adds its record in front.
      cases hrecord : record? line <;> simp [hrecord, Except.map]

/-- An answer without faults comes to its records in order. -/
theorem parse_of_faultless {lines : List String} (faultless : ∀ l ∈ lines, fault? l = none) :
    parse lines = .ok (lines.filterMap record?) :=
  parseFrom_of_faultless faultless 0

/-- The first fault of a response is its failure, under the number of its line. -/
theorem parseFrom_of_fault {good : List String} {line : String} {fault : LineFault}
    (faultless : ∀ l ∈ good, fault? l = none) (found : fault? line = some fault)
    (rest : List String) (before : Nat) :
    parseFrom before (good ++ line :: rest) = .error (.facts (before + good.length + 1) fault) := by
  induction good generalizing before with
  | nil =>
      rw [List.nil_append, parseFrom_cons, found]
      rfl
  | cons l good ih =>
      have hl : fault? l = none := faultless l (List.mem_cons_self ..)
      have hrest := ih (fun l hl => faultless l (List.mem_cons_of_mem _ hl)) (before + 1)
      -- Every line before the fault moves its number on by one.
      have hcount : before + 1 + good.length + 1 = before + (l :: good).length + 1 := by
        rw [List.length_cons]
        omega
      rw [List.cons_append, parseFrom_cons, hl, hrest, hcount]
      rfl

/-- The first fault in an answer is the one that is reported, with the number of its line. -/
theorem parse_of_fault {good : List String} {line : String} {fault : LineFault}
    (faultless : ∀ l ∈ good, fault? l = none) (found : fault? line = some fault)
    (rest : List String) :
    parse (good ++ line :: rest) = .error (.facts (good.length + 1) fault) := by
  simpa [parse] using parseFrom_of_fault faultless found rest 0

/-- A response is either free of faults or has a first one. -/
theorem faultless_or_first_fault (lines : List String) :
    (∀ l ∈ lines, fault? l = none) ∨
      ∃ good line rest fault, lines = good ++ line :: rest ∧ (∀ l ∈ good, fault? l = none) ∧
        fault? line = some fault := by
  induction lines with
  | nil => exact .inl (by simp)
  | cons line lines ih =>
      cases hline : fault? line with
      | some fault => exact .inr ⟨[], line, lines, fault, rfl, by simp, hline⟩
      | none =>
          rcases ih with hnone | ⟨good, l, rest, fault, rfl, hgood, hl⟩
          · exact .inl (by simpa [hline] using hnone)
          · exact .inr ⟨line :: good, l, rest, fault, rfl, by simpa [hline] using hgood, hl⟩

/-- A response succeeds exactly if it has no fault. -/
theorem parse_eq_ok_iff {lines : List String} {records : List Record} :
    parse lines = .ok records ↔
      (∀ l ∈ lines, fault? l = none) ∧ records = lines.filterMap record? := by
  constructor
  · intro h
    rcases faultless_or_first_fault lines with
      faultless | ⟨good, line, rest, fault, rfl, hgood, hline⟩
    · rw [parse_of_faultless faultless] at h
      exact ⟨faultless, (Except.ok.inj h).symm⟩
    · rw [parse_of_fault hgood hline] at h
      cases h
  · rintro ⟨faultless, rfl⟩
    exact parse_of_faultless faultless

/-! ## Printed records -/

/-- Trimming leaves a printed object as it is. -/
theorem trim_render_object (members : List (String × Json)) :
    Text.trim (Json.object members).render = (Json.object members).render := by
  rcases Json.exists_chars_object members with ⟨cs, hcs⟩
  have hopen : Text.isBlank '\x7b' = false := by decide
  have hclose : Text.isBlank '\x7d' = false := by decide
  simp [Text.trim, Text.trimBlank, Json.render, hcs, hopen, hclose]

/-- A line on which a plain object is printed is the record of that object. -/
theorem record?_render_object {depth : Nat} {members : List (String × Json)}
    (plain : Json.IsPlain depth (.object members)) (room : depth ≤ Json.Reader.maxDepth) :
    fault? (Json.object members).render = none ∧
      record? (Json.object members).render = some (.ofRaw members) := by
  have hline : parseLine (Json.object members).render = .ok (.ofRaw members) := by
    unfold parseLine
    rw [Json.read_render plain room]
  have hblank : (Json.object members).render.isEmpty = false := by
    rcases Json.exists_chars_object members with ⟨cs, hcs⟩
    rw [Json.render, hcs]
    simp
  unfold fault? record?
  rw [trim_render_object, hblank, hline]
  exact ⟨rfl, rfl⟩

end Converge.Fact
