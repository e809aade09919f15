import Converge.Proofs.Fact.Paths
import Converge.Proofs.Text.ByteOrder

/-!
# Keys that get the same name

Two raw keys of an object may get the same name.  Then the greater of the two wins, in the order of
their bytes, and decides alone what is kept under the name: its own value, taken over as its own raw
key says.  This holds at every level of the tree.

`Becomes` says what becomes of a value.  It goes by the names of keys and their order, and mentions
neither the order in which members are put into a map nor how a tree is renamed.  The main statement
is that it holds of a raw object and its record, and of no other record.
-/

namespace Converge.Fact

/-- A raw key whose value is kept under a name: of those that get the name, it is the greatest in
the order of bytes. -/
structure Wins (members : List (String × Json)) (o k : String) : Prop where
  there : k ∈ members.map Prod.fst
  named : name k = o
  greatest : ∀ other ∈ members.map Prod.fst, name other = o → Text.bytes other ≤ Text.bytes k

mutual

inductive Becomes : Json → Json → Prop where
  | scalar {v : Json} (noArray : ∀ items, v ≠ .array items)
      (noObject : ∀ members, v ≠ .object members) : Becomes v v
  | array {items others : List Json} (paired : List.Forall₂ Becomes items others) :
      Becomes (.array items) (.array others)
  /-- There is one member for each name that some key gets. -/
  | record {members kept : List (String × Json)} (ascending : Json.Ascending kept)
      (names : ∀ o, o ∈ kept.map Prod.fst ↔ ∃ k ∈ members.map Prod.fst, name k = o)
      (values : ∀ m ∈ kept, Prevails members m) : Becomes (.object members) (.object kept)

/-- A member that is kept of an object: it comes from the key that wins its name. -/
inductive Prevails : List (String × Json) → String × Json → Prop where
  | intro {members : List (String × Json)} {o k : String} {v w : Json} (wins : Wins members o k)
      (held : Json.lookup k members = some v) (becomes : BecomesUnder k v w) :
      Prevails members (o, w)

inductive BecomesUnder : String → Json → Json → Prop where
  | verbatim {k : String} (users : IsUsers k) (v : Json) : BecomesUnder k v v
  | unnamed {v : Json} (other : ∀ entries, v ≠ .object entries) : BecomesUnder "Networks" v v
  | names {entries others : List (String × Json)}
      (paired : List.Forall₂ EntryBecomes entries others) :
      BecomesUnder "Networks" (.object entries) (.object others)
  | renamed {k : String} {v w : Json} (notUsers : ¬ IsUsers k) (notNetworks : k ≠ "Networks")
      (becomes : Becomes v w) : BecomesUnder k v w

/-- What becomes of a network: its name stays. -/
inductive EntryBecomes : String × Json → String × Json → Prop where
  | intro (network : String) {v w : Json} (becomes : Becomes v w) :
      EntryBecomes (network, v) (network, w)

end

/-! ## Treatments -/

theorem treatment_of_isUsers {k : String} (users : IsUsers k) : treatment k = .verbatim := by
  rw [← Treatment.below_renamed]
  exact if_pos users

theorem treatment_of_other {k : String} (notUsers : ¬ IsUsers k) (notNetworks : k ≠ "Networks") :
    treatment k = .renamed := by
  rw [← Treatment.below_renamed, Treatment.below, if_neg notUsers, if_neg notNetworks]

/-! ## Renaming is what becomes of a value -/

/-- Where a relation is a function on each element, so it is on the list. -/
theorem forall₂_iff_eq_map {α β : Type} {R : α → β → Prop} {f : α → β} {xs : List α}
    (h : ∀ x ∈ xs, ∀ y, R x y ↔ y = f x) {ys : List β} :
    List.Forall₂ R xs ys ↔ ys = xs.map f := by
  induction xs generalizing ys with
  | nil => simp
  | cons x xs ih =>
      rcases List.forall_mem_cons.1 h with ⟨hx, hxs⟩
      simp [List.forall₂_cons_left_iff, hx, ih hxs]

/-- The members that are kept are those of the keys that win. -/
theorem mem_toMap_renameMembers_iff {members : List (String × Json)}
    (ascending : Json.Ascending members) {o : String} {w : Json} :
    (o, w) ∈ Json.toMap (renameMembers members) ↔
      ∃ k v, Wins members o k ∧ Json.lookup k members = some v ∧
        renameAs (treatment k) v = w := by
  rw [← Json.lookup_eq_some_iff (Json.ascending_toMap _).nodup, Json.lookup_toMap,
    renameMembers_eq_map, Json.lookup_map_iff ascending name fun m => renameAs (treatment m.1) m.2]
  simp only [Json.lookup_eq_some_iff ascending.nodup]
  constructor
  · rintro ⟨⟨k, v⟩, hmem, hname, hgreatest, hvalue⟩
    refine ⟨k, v, ⟨List.mem_map_of_mem hmem, hname, ?_⟩, hmem, hvalue⟩
    intro other hother hsame
    rcases List.mem_map.1 hother with ⟨n, hn, rfl⟩
    exact Text.bytes_le_iff.2 (hgreatest n hn hsame)
  · rintro ⟨k, v, wins, hmem, hvalue⟩
    refine ⟨(k, v), hmem, wins.named, ?_, hvalue⟩
    intro n hn hsame
    exact Text.bytes_le_iff.1 (wins.greatest n.1 (List.mem_map_of_mem hn) hsame)

section Values

variable {v : Json}

/-- Under a raw key a value becomes what its treatment makes of it, if that is so further down. -/
theorem becomesUnder_iff (below : ∀ w, Becomes v w ↔ w = rename v)
    (entries : ∀ es, v = .object es → ∀ e ∈ es, ∀ w, Becomes e.2 w ↔ w = rename e.2)
    (k : String) (w : Json) : BecomesUnder k v w ↔ w = renameAs (treatment k) v := by
  -- Each rule is for one sort of keys, so the sort of the key leaves one rule, for networks two.
  by_cases husers : IsUsers k
  · rw [treatment_of_isUsers husers]
    constructor
    · intro h
      cases h with
      | verbatim => rfl
      | unnamed => simp [IsUsers] at husers
      | names => simp [IsUsers] at husers
      | renamed notUsers => exact absurd husers notUsers
    · rintro rfl
      exact .verbatim husers _
  · by_cases hnetworks : k = "Networks"
    · subst hnetworks
      change _ ↔ w = renameNamed v
      constructor
      · intro h
        cases h with
        | verbatim users => exact absurd users husers
        | unnamed other => exact (renameNamed_of_other other).symm
        | @names es others paired =>
            have hothers : others = es.map fun e => (e.1, rename e.2) := by
              refine (forall₂_iff_eq_map fun e he f => ?_).1 paired
              constructor
              · rintro ⟨network, hbecomes⟩
                rw [(entries es rfl _ he _).1 hbecomes]
              · rintro rfl
                exact .intro e.1 ((entries es rfl e he _).2 rfl)
            rw [renameNamed, renameEntries_eq_map, hothers]
        | renamed _ notNetworks => exact absurd rfl notNetworks
      · rintro rfl
        by_cases hobject : ∃ es, v = .object es
        · rcases hobject with ⟨es, rfl⟩
          rw [renameNamed, renameEntries_eq_map]
          refine .names (List.forall₂_map_right_iff.2 (List.forall₂_same.2 fun e he => ?_))
          exact .intro e.1 ((entries es rfl e he _).2 rfl)
        · have hother : ∀ es, v ≠ .object es := fun es h => hobject ⟨es, h⟩
          rw [renameNamed_of_other hother]
          exact .unnamed hother
    · rw [treatment_of_other husers hnetworks]
      change _ ↔ w = rename v
      constructor
      · intro h
        cases h with
        | verbatim users => exact absurd users husers
        | unnamed => exact absurd rfl hnetworks
        | names => exact absurd rfl hnetworks
        | renamed _ _ hbecomes => exact (below w).1 hbecomes
      · intro h
        exact .renamed husers hnetworks ((below w).2 h)

/-- A record becomes the map of what the winning keys keep. -/
theorem becomes_object_iff {members : List (String × Json)} (ascending : Json.Ascending members)
    (under : ∀ m ∈ members, ∀ k w, BecomesUnder k m.2 w ↔ w = renameAs (treatment k) m.2)
    (w : Json) : Becomes (.object members) w ↔ w = rename (.object members) := by
  have hprevails : ∀ m, Prevails members m ↔ m ∈ Json.toMap (renameMembers members) := by
    rintro ⟨o, u⟩
    rw [mem_toMap_renameMembers_iff ascending]
    constructor
    · rintro ⟨wins, held, hbecomes⟩
      exact ⟨_, _, wins, held, ((under _ (Json.mem_of_lookup held) _ u).1 hbecomes).symm⟩
    · rintro ⟨k, v, wins, held, hvalue⟩
      exact .intro wins held ((under _ (Json.mem_of_lookup held) k u).2 hvalue.symm)
  have hnames : ∀ o, o ∈ (Json.toMap (renameMembers members)).map Prod.fst ↔
      ∃ k ∈ members.map Prod.fst, name k = o := by
    intro o
    rw [Json.mem_keys_toMap_iff, keys_renameMembers]
    simp
  rw [rename_object]
  constructor
  · intro h
    cases h with
    | scalar noArray noObject => exact absurd rfl (noObject members)
    | @record _ kept hascending names values =>
        have hsame : kept = Json.toMap (renameMembers members) := by
          refine hascending.eq_of_mem_iff (Json.ascending_toMap _) fun m => ?_
          refine ⟨fun hm => (hprevails m).1 (values m hm), fun hm => ?_⟩
          -- Something is kept under the name, and it can only be this.
          have hname : m.1 ∈ kept.map Prod.fst :=
            (names m.1).2 ((hnames m.1).1 (List.mem_map_of_mem hm))
          rcases List.mem_map.1 hname with ⟨n, hn, hkey⟩
          have hn' := (hprevails n).1 (values n hn)
          have hequal : n = m :=
            List.inj_on_of_nodup_map (Json.ascending_toMap _).nodup hn' hm hkey
          exact hequal ▸ hn
        rw [hsame]
  · rintro rfl
    exact .record (Json.ascending_toMap _) hnames fun m hm => (hprevails m).2 hm

/-- In a tree of maps, a value becomes its renaming and nothing else. -/
theorem becomes_and_becomesUnder_iff (sorted : v.Sorted) :
    (∀ w, Becomes v w ↔ w = rename v) ∧
      ∀ k w, BecomesUnder k v w ↔ w = renameAs (treatment k) v := by
  -- Both at once, since a record goes by what becomes of the values under its keys.
  induction sorted with
  | @scalar v noArray noObject =>
      have hbelow : ∀ w, Becomes v w ↔ w = rename v := by
        intro w
        rw [rename_of_scalar noArray noObject]
        constructor
        · intro h
          cases h with
          | scalar => rfl
          | array => exact absurd rfl (noArray _)
          | record => exact absurd rfl (noObject _)
        · rintro rfl
          exact .scalar noArray noObject
      exact ⟨hbelow, becomesUnder_iff hbelow fun es h => absurd h (noObject es)⟩
  | @array items _ ih =>
      have hbelow : ∀ w, Becomes (.array items) w ↔ w = rename (.array items) := by
        intro w
        have hitems : ∀ others, List.Forall₂ Becomes items others ↔ others = items.map rename :=
          fun _ => forall₂_iff_eq_map fun u hu => (ih u hu).1
        rw [rename, renameItems_eq_map]
        constructor
        · intro h
          cases h with
          | scalar noArray => exact absurd rfl (noArray items)
          | array paired => rw [(hitems _).1 paired]
        · rintro rfl
          exact .array ((hitems _).2 rfl)
      exact ⟨hbelow, becomesUnder_iff hbelow (by simp)⟩
  | @object members ascending _ ih =>
      have hbelow := becomes_object_iff ascending fun m hm => (ih m hm).2
      refine ⟨hbelow, becomesUnder_iff hbelow ?_⟩
      rintro es ⟨⟩ e he
      exact (ih e he).1

end Values

end Converge.Fact

namespace Converge.Record

open Converge.Fact

def rawMap (members : List (String × Json)) : List (String × Json) :=
  Json.toMap (Json.canonicalMembers members)

variable {members : List (String × Json)}

theorem ascending_rawMap : Json.Ascending (rawMap members) := Json.ascending_toMap _

theorem sorted_rawMap : (Json.object (rawMap members)).Sorted :=
  Json.sorted_canonical (.object members)

theorem facts_ofRaw (members : List (String × Json)) :
    (ofRaw members).facts = Json.toMap (renameMembers (rawMap members)) := rfl

theorem names_rawMap (members : List (String × Json)) :
    (renameMembers (rawMap members)).map Prod.fst =
      ((rawMap members).map Prod.fst).map name := by
  simp [keys_renameMembers]

/-- A record has a name exactly if some raw key gets that name. -/
theorem isSome_get?_ofRaw_iff {o : String} :
    ((ofRaw members).get? o).isSome ↔ ∃ k ∈ (rawMap members).map Prod.fst, name k = o := by
  rw [get?, facts_ofRaw, Option.isSome_iff_ne_none, ne_eq, Json.lookup_eq_none_iff, not_not,
    Json.mem_keys_toMap_iff, names_rawMap, List.mem_map]

/-- What a record has under a name is what the winning key has in the raw object. -/
theorem get?_ofRaw_iff {o : String} {w : Json} :
    (ofRaw members).get? o = some w ↔
      ∃ k v, Wins (rawMap members) o k ∧ Json.lookup k (rawMap members) = some v ∧
        renameAs (treatment k) v = w := by
  rw [get?, facts_ofRaw, Json.lookup_eq_some_iff (Json.ascending_toMap _).nodup]
  exact mem_toMap_renameMembers_iff ascending_rawMap

theorem becomesUnder_of_lookup_iff {k : String} {v : Json}
    (held : Json.lookup k (rawMap members) = some v) {key : String} {w : Json} :
    BecomesUnder key v w ↔ w = renameAs (treatment key) v := by
  have hsorted : (Json.object (rawMap members)).Sorted := sorted_rawMap
  cases hsorted with
  | scalar _ noObject => exact absurd rfl (noObject _)
  | object _ below =>
      have hsorted : v.Sorted := below (k, v) (Json.mem_of_lookup held)
      exact (becomes_and_becomesUnder_iff hsorted).2 key w

/-- Each name stands once in a record, however many raw keys get it. -/
theorem length_facts_ofRaw (members : List (String × Json)) :
    (ofRaw members).facts.length = (((rawMap members).map Prod.fst).map name).dedup.length := by
  rw [facts_ofRaw, Json.length_toMap, names_rawMap]

structure KeepsGreatest (members : List (String × Json)) : Prop where
  /-- At every level the record is what becomes of the raw object, and nothing else is. -/
  becomes : ∀ facts, Becomes (.object (rawMap members)) facts ↔ facts = (ofRaw members).toJson
  /-- A name is there exactly if some raw key gets it. -/
  named : ∀ o, ((ofRaw members).get? o).isSome ↔
    ∃ k ∈ (rawMap members).map Prod.fst, name k = o
  /-- Its value comes from the raw key that wins, and is taken over as that key says. -/
  value : ∀ o w, (ofRaw members).get? o = some w ↔
    ∃ k v, Wins (rawMap members) o k ∧ Json.lookup k (rawMap members) = some v ∧
      BecomesUnder k v w
  /-- There are as many facts as there are different names. -/
  count : (ofRaw members).facts.length = (((rawMap members).map Prod.fst).map name).dedup.length

/-- Of the raw keys that get the same name the greatest decides, at every level. -/
theorem keepsGreatest (members : List (String × Json)) : KeepsGreatest members where
  becomes facts := by
    rw [(becomes_and_becomesUnder_iff sorted_rawMap).1, rename_object, toJson, facts_ofRaw]
  named _ := isSome_get?_ofRaw_iff
  value o w := by
    rw [get?_ofRaw_iff]
    refine exists_congr fun k => exists_congr fun v => and_congr_right fun _ =>
      and_congr_right fun held => ?_
    rw [becomesUnder_of_lookup_iff held, eq_comm]
  count := length_facts_ofRaw members

/-- The key in small letters is the greater one, and its value alone is kept. -/
example : (ofRaw [("Id", .text "4f1e"), ("ID", .text "deadbeef"), ("id", .object [])]).facts =
    [("id", .object [])] := by decide

end Converge.Record
