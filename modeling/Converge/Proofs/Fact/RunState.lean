import Converge.Proofs.Fact.Collisions
import Converge.Proofs.Fact.Names

/-!
# Run-states

What a raw record tells of the run-state of a container, before its fields are renamed.  Only two
keys get the name `state` and only two get the name `status`, and of either two the one in small
letters wins.  So the run-state is read from one field of the raw record, and, where this holds an
object, from one field of that object; nothing else in the record has any influence on it.
-/

namespace Converge.Record

open Converge.Fact

def either (key other : String) (members : List (String × Json)) : Option Json :=
  (Json.lookup key members).or (Json.lookup other members)

/-- The run-state that a raw record tells: in a list it stands by itself, and an inspection has it
within the state. -/
def toldState? (members : List (String × Json)) : Option String :=
  match either "state" "State" members with
  | some (.text s) => some s
  | some (.object fields) => (either "status" "Status" fields).bind Json.text?
  | _ => none

/-! ## Names with two sources -/

section TwoSources

variable {key other : String} (sources : ∀ k, name k = key ↔ k = key ∨ k = other)
  (less : other < key)
include sources less

/-- The key wins its own name, or else the other one does. -/
theorem wins_iff {members : List (String × Json)} {k : String} :
    Wins members key k ↔
      (k = key ∧ key ∈ members.map Prod.fst) ∨
        (k = other ∧ key ∉ members.map Prod.fst ∧ other ∈ members.map Prod.fst) := by
  have hkey : name key = key := (sources key).2 (.inl rfl)
  have hother : name other = key := (sources other).2 (.inr rfl)
  constructor
  · rintro ⟨there, named, greatest⟩
    rcases (sources k).1 named with rfl | rfl
    · exact .inl ⟨rfl, there⟩
    · refine .inr ⟨rfl, fun hmem => ?_, there⟩
      have hle := Text.bytes_le_iff.1 (greatest key hmem hkey)
      exact absurd less (String.not_lt.2 hle)
  · rintro (⟨rfl, there⟩ | ⟨rfl, hnot, there⟩)
    · refine ⟨there, hkey, fun k _ hk => Text.bytes_le_iff.2 ?_⟩
      rcases (sources k).1 hk with rfl | rfl
      · exact String.le_refl _
      · exact String.not_lt.1 (String.lt_asymm less)
    · refine ⟨there, hother, fun k hmem hk => Text.bytes_le_iff.2 ?_⟩
      rcases (sources k).1 hk with rfl | rfl
      · exact absurd hmem hnot
      · exact String.le_refl _

/-- What is kept under the name is what the raw object holds under the one key, or else under the
other, with its fields renamed. -/
theorem get?_of_two_sources
    (renamed : treatment key = .renamed ∧ treatment other = .renamed)
    (members : List (String × Json)) :
    (ofRaw members).get? key = (either key other members).map fun v => rename v.canonical := by
  have hheld : ∀ k, Json.lookup k (rawMap members) = (Json.lookup k members).map Json.canonical :=
    fun k => Json.lookup_canonicalMembers k members
  have hthere : ∀ k, k ∈ (rawMap members).map Prod.fst ↔ (Json.lookup k members).isSome := by
    intro k
    rw [← not_iff_not, ← Json.lookup_eq_none_iff, hheld, Option.map_eq_none_iff,
      Option.not_isSome_iff_eq_none]
  ext w
  rw [get?_ofRaw_iff, Option.map_eq_some_iff]
  cases hkey : Json.lookup key members with
  | some v =>
      have hwins : ∀ k, Wins (rawMap members) key k ↔ k = key := by
        intro k
        simp [wins_iff sources less, hthere, hkey]
      simp [hwins, hheld, either, hkey, renamed.1, renameAs]
  | none =>
      -- Where the name is not a key itself, it is the other key that gets it.
      have hwins : ∀ k, Wins (rawMap members) key k ↔
          k = other ∧ (Json.lookup other members).isSome := by
        intro k
        simp [wins_iff sources less, hthere, hkey]
      cases hother : Json.lookup other members with
      | some v => simp [hwins, hheld, either, hkey, hother, renamed.2, renameAs]
      | none => simp [hwins, either, hkey, hother]

end TwoSources

/-- The value under `state` is that of the raw `state` or `State`. -/
theorem get?_state (members : List (String × Json)) :
    (ofRaw members).get? "state" =
      (either "state" "State" members).map fun v => rename v.canonical := by
  refine get?_of_two_sources (fun k => ?_) (by decide) ⟨rfl, rfl⟩ members
  exact @name_eq_iff 's' ['t', 'a', 't', 'e'] (by simp [Text.IsSteady]) k

theorem get?_status (members : List (String × Json)) :
    (ofRaw members).get? "status" =
      (either "status" "Status" members).map fun v => rename v.canonical := by
  refine get?_of_two_sources (fun k => ?_) (by decide) ⟨rfl, rfl⟩ members
  exact @name_eq_iff 's' ['t', 'a', 't', 'u', 's'] (by simp [Text.IsSteady]) k

/-! ## Run-states -/

theorem text?_rename_canonical (v : Json) : (rename v.canonical).text? = v.text? := by
  cases v <;> rfl

/-- The run-state of a record is the one that its raw record tells. -/
theorem runState?_ofRaw (members : List (String × Json)) :
    (ofRaw members).runState? = toldState? members := by
  unfold runState? toldState?
  rw [get?_state]
  cases either "state" "State" members with
  | none => rfl
  | some v =>
      cases v with
      | object fields =>
          -- The renamed state is the record of the fields, so its status is found in the same way.
          change ((ofRaw fields).get? "status").bind Json.text? =
            (either "status" "Status" fields).bind Json.text?
          rw [get?_status]
          cases either "status" "Status" fields with
          | none => rfl
          | some u => exact text?_rename_canonical u
      | text s => rfl
      | array items => rfl
      | null => rfl
      | bool b => rfl
      | number n => rfl

structure ReadsRunState (members : List (String × Json)) : Prop where
  /-- The container is running exactly if its state is `running`, or its state is an object whose
  status is. -/
  running : (ofRaw members).isRunning = true ↔
    either "state" "State" members = some (.text "running") ∨
      ∃ fields, either "state" "State" members = some (.object fields) ∧
        either "status" "Status" fields = some (.text "running")
  /-- Any other run-state is read in the same way, or there is none. -/
  told : (ofRaw members).runState? = toldState? members
  /-- No other field of the record matters. -/
  stateAlone : ∀ others, either "state" "State" members = either "state" "State" others →
    (ofRaw members).isRunning = (ofRaw others).isRunning
  /-- No other field of the state matters. -/
  statusAlone : ∀ others fields fields', either "state" "State" members = some (.object fields) →
    either "state" "State" others = some (.object fields') →
    either "status" "Status" fields = either "status" "Status" fields' →
      (ofRaw members).isRunning = (ofRaw others).isRunning

theorem text?_eq_some_iff {v : Json} {s : String} : v.text? = some s ↔ v = .text s := by
  cases v <;> simp [Json.text?]

/-- A container runs exactly if its raw record tells so in this one word. -/
theorem isRunning_ofRaw_eq (members : List (String × Json)) :
    (ofRaw members).isRunning = (toldState? members == some "running") := by
  rw [isRunning, runState?_ofRaw]

theorem toldState?_eq_some_iff {members : List (String × Json)} {s : String} :
    toldState? members = some s ↔
      either "state" "State" members = some (.text s) ∨
        ∃ fields, either "state" "State" members = some (.object fields) ∧
          either "status" "Status" fields = some (.text s) := by
  unfold toldState?
  cases either "state" "State" members with
  | none => simp
  | some v =>
      cases v with
      | text t => simp
      | object fields => simp [Option.bind_eq_some_iff, text?_eq_some_iff]
      | _ => simp

/-- The run-state is read from the state and the status of the raw record, and from nothing else. -/
theorem readsRunState (members : List (String × Json)) : ReadsRunState members where
  running := by
    rw [isRunning_ofRaw_eq, beq_iff_eq]
    exact toldState?_eq_some_iff
  told := runState?_ofRaw members
  stateAlone others same := by
    have htold : toldState? members = toldState? others := by
      unfold toldState?
      rw [same]
    rw [isRunning_ofRaw_eq, isRunning_ofRaw_eq, htold]
  statusAlone others fields fields' hstate hstate' same := by
    have htold : toldState? members = toldState? others := by
      simp only [toldState?, hstate, hstate', same]
    rw [isRunning_ofRaw_eq, isRunning_ofRaw_eq, htold]

/-- Other spellings get other names. -/
example : (ofRaw [("STATE", .text "running"), ("ſtate", .text "running")]).isRunning = false := by
  decide

end Converge.Record
