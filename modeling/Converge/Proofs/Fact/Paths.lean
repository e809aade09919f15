import Mathlib.Data.List.Forall2
import Converge.Fact.Record
import Converge.Proofs.Json.Maps

/-!
# Paths to facts

Renaming goes down a tree in one of three ways, and which one depends on the raw keys above: in a
record keys are renamed, below the user's own keys nothing is, and between the two stands the map of
networks, whose keys are names and whose values are records again.

`Treatment.below` says how the treatment changes from an object to a value in it, `renamePath` what
becomes of a path, and `TakenOver` what becomes of a value; none of them mentions how a tree is
renamed.  The main statement is that a path leads to a value in a raw object exactly if the renamed
path leads to the renamed value in its record, where no two keys of an object get the same name.
-/

namespace Converge.Fact

/-! ## Paths -/

/-- Keys below which the keys are the user's own. -/
def IsUsers (key : String) : Prop := key = "Labels" ∨ key = "Options" ∨ key = "DriverOpts"

instance (key : String) : Decidable (IsUsers key) := inferInstanceAs (Decidable (_ ∨ _))

namespace Treatment

/-- The treatment of the value under a raw key of an object. -/
def below : Treatment → String → Treatment
  | renamed, key => if IsUsers key then verbatim else if key = "Networks" then named else renamed
  | verbatim, _ => verbatim
  | named, _ => renamed

/-- In a record, renaming goes by the same keys. -/
theorem below_renamed (key : String) : renamed.below key = treatment key := by
  by_cases users : IsUsers key
  · rcases users with rfl | rfl | rfl <;> rfl
  · have hothers : key ≠ "Labels" ∧ key ≠ "Options" ∧ key ≠ "DriverOpts" := by
      simpa [IsUsers] using users
    simp [below, treatment, users, hothers]

def keep : Treatment → String → String
  | renamed, key => name key
  | verbatim, key => key
  | named, key => key

end Treatment

def renamePath : Treatment → List String → List String
  | _, [] => []
  | t, key :: path => t.keep key :: renamePath (t.below key) path

def treatmentAt (t : Treatment) (path : List String) : Treatment :=
  path.foldl Treatment.below t

/-! ## Values -/

mutual

inductive TakenOver : Treatment → Json → Json → Prop where
  | verbatim (v : Json) : TakenOver .verbatim v v
  /-- What is no object is no map of networks either, and nothing in it is renamed. -/
  | unnamed {v : Json} (other : ∀ entries, v ≠ .object entries) : TakenOver .named v v
  | names {entries others : List (String × Json)}
      (paired : List.Forall₂ (MemberTakenOver .named) entries others) :
      TakenOver .named (.object entries) (.object others)
  | scalar {v : Json} (noArray : ∀ items, v ≠ .array items)
      (noObject : ∀ members, v ≠ .object members) : TakenOver .renamed v v
  | array {items others : List Json} (paired : List.Forall₂ (TakenOver .renamed) items others) :
      TakenOver .renamed (.array items) (.array others)
  /-- The members of a record are listed in the order of their new keys. -/
  | record {members others listed : List (String × Json)}
      (paired : List.Forall₂ (MemberTakenOver .renamed) members others)
      (same : listed.Perm others) (ascending : Json.Ascending listed) :
      TakenOver .renamed (.object members) (.object listed)

inductive MemberTakenOver : Treatment → String × Json → String × Json → Prop where
  | intro {t : Treatment} (key : String) {v w : Json} (taken : TakenOver (t.below key) v w) :
      MemberTakenOver t (key, v) (t.keep key, w)

end

/-- No two members of an object whose keys are renamed get the same name. -/
inductive Apart : Treatment → Json → Prop where
  | verbatim (v : Json) : Apart .verbatim v
  | unnamed {v : Json} (other : ∀ entries, v ≠ .object entries) : Apart .named v
  | names {entries : List (String × Json)} (below : ∀ e ∈ entries, Apart .renamed e.2) :
      Apart .named (.object entries)
  | scalar {v : Json} (noArray : ∀ items, v ≠ .array items)
      (noObject : ∀ members, v ≠ .object members) : Apart .renamed v
  | array {items : List Json} (below : ∀ v ∈ items, Apart .renamed v) :
      Apart .renamed (.array items)
  | record {members : List (String × Json)} (distinct : (members.map fun m => name m.1).Nodup)
      (below : ∀ m ∈ members, Apart (Treatment.renamed.below m.1) m.2) :
      Apart .renamed (.object members)

/-! ## What renaming does -/

def renameAs : Treatment → Json → Json
  | .renamed, v => rename v
  | .verbatim, v => v
  | .named, v => renameNamed v

theorem renameItems_eq_map (items : List Json) : renameItems items = items.map rename := by
  induction items with
  | nil => rfl
  | cons v items ih => simp [renameItems, ih]

theorem renameMember_eq (m : String × Json) :
    renameMember m = (name m.1, renameAs (treatment m.1) m.2) := by
  rcases m with ⟨key, v⟩
  unfold renameMember
  cases treatment key <;> rfl

theorem renameMembers_eq_map (members : List (String × Json)) :
    renameMembers members = members.map fun m => (name m.1, renameAs (treatment m.1) m.2) := by
  induction members with
  | nil => rfl
  | cons m members ih => simp [renameMembers, renameMember_eq, ih]

theorem renameEntries_eq_map (entries : List (String × Json)) :
    renameEntries entries = entries.map fun e => (e.1, rename e.2) := by
  induction entries with
  | nil => rfl
  | cons e entries ih =>
      rcases e with ⟨key, v⟩
      simp [renameEntries, renameEntry, ih]

theorem rename_of_scalar {v : Json} (noArray : ∀ items, v ≠ .array items)
    (noObject : ∀ members, v ≠ .object members) : rename v = v := by
  cases v with
  | array items => exact absurd rfl (noArray items)
  | object members => exact absurd rfl (noObject members)
  | _ => rfl

theorem renameNamed_of_other {v : Json} (other : ∀ entries, v ≠ .object entries) :
    renameNamed v = v := by
  cases v with
  | object entries => exact absurd rfl (other entries)
  | _ => rfl

/-- An object becomes the map of its renamed members. -/
theorem rename_object (members : List (String × Json)) :
    rename (.object members) = .object (Json.toMap (renameMembers members)) := by
  unfold rename
  rfl

theorem keys_renameMembers (members : List (String × Json)) :
    (renameMembers members).map Prod.fst = members.map fun m => name m.1 := by
  simp [renameMembers_eq_map]

/-! ## Values are taken over -/

/-- Renaming takes every value over. -/
theorem takenOver_renameAs {t : Treatment} {v : Json} (apart : Apart t v) :
    TakenOver t v (renameAs t v) := by
  induction apart with
  | verbatim v => exact .verbatim v
  | unnamed other =>
      simpa only [renameAs, renameNamed_of_other other] using TakenOver.unnamed other
  | @names entries _ ih =>
      have hpaired : List.Forall₂ (MemberTakenOver .named) entries
          (entries.map fun e => (e.1, rename e.2)) :=
        List.forall₂_map_right_iff.2 (List.forall₂_same.2 fun e he => .intro e.1 (ih e he))
      simpa only [renameAs, renameNamed, renameEntries_eq_map] using TakenOver.names hpaired
  | scalar noArray noObject =>
      simpa only [renameAs, rename_of_scalar noArray noObject] using
        TakenOver.scalar noArray noObject
  | @array items _ ih =>
      have hpaired : List.Forall₂ (TakenOver .renamed) items (items.map rename) :=
        List.forall₂_map_right_iff.2 (List.forall₂_same.2 ih)
      simpa only [renameAs, rename, renameItems_eq_map] using TakenOver.array hpaired
  | @record members distinct _ ih =>
      have hpaired : List.Forall₂ (MemberTakenOver .renamed) members (renameMembers members) := by
        simp only [renameMembers_eq_map, ← Treatment.below_renamed]
        exact List.forall₂_map_right_iff.2 (List.forall₂_same.2 fun m hm => .intro m.1 (ih m hm))
      have hdistinct : ((renameMembers members).map Prod.fst).Nodup := by
        rwa [keys_renameMembers]
      simpa only [renameAs, rename_object] using
        TakenOver.record hpaired (Json.toMap_perm hdistinct) (Json.ascending_toMap _)

/-! ## Paths are renamed -/

theorem apart_of_get? {t : Treatment} {v u : Json} (apart : Apart t v) {key : String}
    (found : v.get? key = some u) : Apart (t.below key) u := by
  cases apart with
  | verbatim => exact .verbatim u
  | unnamed other =>
      cases v with
      | object members => exact absurd rfl (other members)
      | _ => cases found
  | names below => exact below _ (Json.mem_of_lookup found)
  | scalar noArray noObject =>
      cases v with
      | object members => exact absurd rfl (noObject members)
      | _ => cases found
  | array below => cases found
  | record distinct below => exact below _ (Json.mem_of_lookup found)

/-- A key of a record is found exactly under its new name. -/
theorem lookup_renameMembers_iff {members : List (String × Json)}
    (distinct : (members.map fun m => name m.1).Nodup) {key : String} {w : Json} :
    Json.lookup key (Json.toMap (renameMembers members)) = some w ↔
      ∃ raw u, name raw = key ∧ Json.lookup raw members = some u ∧
        renameAs (treatment raw) u = w := by
  have hnames : ((renameMembers members).map Prod.fst).Nodup := by rwa [keys_renameMembers]
  have hkeys : (members.map Prod.fst).Nodup := by
    refine List.Nodup.of_map name ?_
    simpa [Function.comp_def] using distinct
  have hperm := Json.toMap_perm hnames
  calc
    Json.lookup key (Json.toMap (renameMembers members)) = some w
        ↔ (key, w) ∈ Json.toMap (renameMembers members) :=
          Json.lookup_eq_some_iff ((hperm.map Prod.fst).nodup_iff.2 hnames)
    _ ↔ (key, w) ∈ renameMembers members := hperm.mem_iff
    _ ↔ ∃ m ∈ members, name m.1 = key ∧ renameAs (treatment m.1) m.2 = w := by
          simp [renameMembers_eq_map]
    _ ↔ ∃ raw u, name raw = key ∧ Json.lookup raw members = some u ∧
          renameAs (treatment raw) u = w := by
          simp only [Json.lookup_eq_some_iff hkeys, Prod.exists]
          exact exists_congr fun raw => exists_congr fun u => by tauto

/-- A step from a renamed value is the renaming of a step from the value. -/
theorem get?_renameAs_iff {t : Treatment} {v : Json} (apart : Apart t v) {key : String} {w : Json} :
    (renameAs t v).get? key = some w ↔
      ∃ raw u, t.keep raw = key ∧ v.get? raw = some u ∧ renameAs (t.below raw) u = w := by
  cases apart with
  | verbatim => simp [renameAs, Treatment.keep, Treatment.below]
  | unnamed other =>
      cases v with
      | object members => exact absurd rfl (other members)
      | _ => simp [renameAs, renameNamed, Json.get?]
  | @names entries below =>
      simp [renameAs, renameNamed, renameEntries_eq_map, Json.get?, Json.lookup_of_map_values,
        Treatment.keep, Treatment.below]
  | scalar noArray noObject =>
      cases v with
      | object members => exact absurd rfl (noObject members)
      | array items => exact absurd rfl (noArray items)
      | _ => simp [renameAs, rename, Json.get?]
  | array below => simp [renameAs, rename, Json.get?]
  | @record members distinct below =>
      have hrename : renameAs .renamed (.object members) =
          .object (Json.toMap (renameMembers members)) := rename_object members
      simp only [hrename, Treatment.below_renamed]
      exact lookup_renameMembers_iff distinct

theorem apart_of_follow {t : Treatment} {v w : Json} (apart : Apart t v) {path : List String}
    (led : v.follow path = some w) : Apart (treatmentAt t path) w := by
  induction path generalizing t v with
  | nil =>
      cases led
      exact apart
  | cons key path ih =>
      rcases Option.bind_eq_some_iff.1 led with ⟨u, hstep, hrest⟩
      exact ih (apart_of_get? apart hstep) hrest

/-- The paths of a renamed value are the renamed paths of the value, and they lead to what the value
at the end of the path is renamed to. -/
theorem follow_renameAs_iff {t : Treatment} {v : Json} (apart : Apart t v) {path' : List String}
    {w' : Json} :
    (renameAs t v).follow path' = some w' ↔
      ∃ path w, renamePath t path = path' ∧ v.follow path = some w ∧
        renameAs (treatmentAt t path) w = w' := by
  induction path' generalizing t v with
  | nil =>
      constructor
      · intro h
        exact ⟨[], v, rfl, rfl, Option.some.inj h⟩
      · rintro ⟨path, w, hpath, hled, rfl⟩
        cases path with
        | nil =>
            cases hled
            rfl
        | cons key path => cases hpath
  | cons key' path' ih =>
      simp only [Json.follow_cons, Option.bind_eq_some_iff]
      constructor
      · rintro ⟨u', hstep, hrest⟩
        rcases (get?_renameAs_iff apart).1 hstep with ⟨key, u, rfl, hget, rfl⟩
        rcases (ih (apart_of_get? apart hget)).1 hrest with ⟨path, w, rfl, hled, hw⟩
        exact ⟨key :: path, w, rfl, Option.bind_eq_some_iff.2 ⟨u, hget, hled⟩, hw⟩
      · rintro ⟨path, w, hpath, hled, hw⟩
        cases path with
        | nil => cases hpath
        | cons key path =>
            cases hpath
            rcases Option.bind_eq_some_iff.1 hled with ⟨u, hget, hrest⟩
            exact ⟨_, (get?_renameAs_iff apart).2 ⟨key, u, rfl, hget, rfl⟩,
              (ih (apart_of_get? apart hget)).2 ⟨path, w, rfl, hrest, hw⟩⟩

end Converge.Fact

/-! ## Records -/

namespace Converge

open Converge.Fact

namespace Record

/-- A record is its raw object renamed. -/
theorem toJson_ofRaw (members : List (String × Json)) :
    (ofRaw members).toJson = renameAs .renamed (.canonical (.object members)) := by
  simp [toJson, ofRaw, renameAs, Json.canonical, rename_object]

theorem getPath?_eq_follow (r : Record) {path : List String} (nonempty : path ≠ []) :
    r.getPath? path = r.toJson.follow path := by
  cases path with
  | nil => exact absurd rfl nonempty
  | cons key path => rfl

theorem renamePath_ne_nil_iff {t : Treatment} {path : List String} :
    renamePath t path ≠ [] ↔ path ≠ [] := by
  cases path <;> simp [renamePath]

/-- Let no two keys of a renamed object within a raw object get the same name.  Then a path leads to
a value in the raw object exactly if the renamed path leads, in its record, to what the value is
taken over as; and a record has no other paths. -/
theorem getPath?_ofRaw {members : List (String × Json)}
    (apart : Apart .renamed (.canonical (.object members))) :
    (∀ path w, path ≠ [] → (Json.canonical (.object members)).follow path = some w →
      ∃ w', (ofRaw members).getPath? (renamePath .renamed path) = some w' ∧
        TakenOver (treatmentAt .renamed path) w w') ∧
    ∀ path' w', (ofRaw members).getPath? path' = some w' →
      ∃ path w, path ≠ [] ∧ path' = renamePath .renamed path ∧
        (Json.canonical (.object members)).follow path = some w ∧
        TakenOver (treatmentAt .renamed path) w w' := by
  constructor
  · intro path w nonempty led
    have hled := (follow_renameAs_iff apart).2 ⟨path, w, rfl, led, rfl⟩
    refine ⟨_, ?_, takenOver_renameAs (apart_of_follow apart led)⟩
    rw [getPath?_eq_follow _ (renamePath_ne_nil_iff.2 nonempty), toJson_ofRaw]
    exact hled
  · intro path' w' led
    have nonempty : path' ≠ [] := by
      rintro rfl
      cases led
    rw [getPath?_eq_follow _ nonempty, toJson_ofRaw] at led
    rcases (follow_renameAs_iff apart).1 led with ⟨path, w, rfl, hled, rfl⟩
    exact ⟨path, w, renamePath_ne_nil_iff.1 nonempty, rfl, hled,
      takenOver_renameAs (apart_of_follow apart hled)⟩

/-- A label, and a network that is called `Labels`. -/
theorem getPath?_ofRaw_of_networks :
    let members : List (String × Json) := [
      ("Labels", .object [("com.example.Owner", .text "ops")]),
      ("Networks", .object [("Labels", .object [("IPAddress", .text "10.0.0.2")])])]
    Apart .renamed (.canonical (.object members)) ∧
      (ofRaw members).getPath? ["labels", "com.example.Owner"] = some (.text "ops") ∧
      (ofRaw members).getPath? ["networks", "Labels", "i_p_address"] = some (.text "10.0.0.2") := by
  intro members
  have hraw : Json.canonical (.object members) = .object members := by decide
  have hscalar (s : String) : Apart .renamed (.text s) := .scalar (by simp) (by simp)
  have hnetwork : Apart .renamed (.object [("IPAddress", .text "10.0.0.2")]) :=
    .record (by simp) (List.forall_mem_singleton.2 (hscalar "10.0.0.2"))
  have hapart : Apart .renamed (.canonical (.object members)) := by
    rw [hraw]
    refine .record (by decide) (List.forall_mem_cons.2 ⟨.verbatim _, ?_⟩)
    exact List.forall_mem_singleton.2 (.names (List.forall_mem_singleton.2 hnetwork))
  have hpaths := (getPath?_ofRaw hapart).1
  rw [hraw] at hpaths
  have hlabel : renamePath .renamed ["Labels", "com.example.Owner"] =
      ["labels", "com.example.Owner"] := by decide
  have haddress : renamePath .renamed ["Networks", "Labels", "IPAddress"] =
      ["networks", "Labels", "i_p_address"] := by decide
  refine ⟨hapart, ?_, ?_⟩
  · rcases hpaths ["Labels", "com.example.Owner"] (.text "ops") (by simp) rfl with ⟨w, hled, htaken⟩
    cases htaken
    exact hlabel ▸ hled
  · rcases hpaths ["Networks", "Labels", "IPAddress"] (.text "10.0.0.2") (by simp) rfl with
      ⟨w, hled, htaken⟩
    cases htaken
    exact haddress ▸ hled

end Record

end Converge
