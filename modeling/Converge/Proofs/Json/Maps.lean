import Mathlib.Data.List.Dedup
import Mathlib.Data.List.Nodup
import Converge.Json.Map

/-!
# Objects as maps

A map lists its members with ascending keys, so no key stands twice and a key is looked up by
membership.  Making a map of members whose keys differ keeps every member and only sorts them.
-/

namespace Converge.Json

def Ascending (members : List (String × Json)) : Prop :=
  members.Pairwise fun m n => m.1 < n.1

def follow (v : Json) (path : List String) : Option Json :=
  path.foldlM get? v

@[simp] theorem follow_nil (v : Json) : v.follow [] = some v := rfl

@[simp] theorem follow_cons (v : Json) (key : String) (path : List String) :
    v.follow (key :: path) = (v.get? key).bind fun u => u.follow path := rfl

/-! ## Looking up -/

theorem mem_of_lookup {members : List (String × Json)} {key : String} {v : Json}
    (h : lookup key members = some v) : (key, v) ∈ members := by
  rcases Option.map_eq_some_iff.1 h with ⟨⟨k, u⟩, hfind, rfl⟩
  have hkey : k = key := by simpa using List.find?_some hfind
  exact hkey ▸ List.mem_reverse.1 (List.mem_of_find?_eq_some hfind)

/-- Where keys differ, a key is looked up by membership. -/
theorem lookup_eq_some_iff {members : List (String × Json)}
    (distinct : (members.map Prod.fst).Nodup) {key : String} {v : Json} :
    lookup key members = some v ↔ (key, v) ∈ members := by
  refine ⟨mem_of_lookup, fun h => ?_⟩
  have hfound : (lookup key members).isSome := by
    simpa [lookup] using ⟨v, h⟩
  rcases Option.isSome_iff_exists.1 hfound with ⟨u, hlookup⟩
  -- Two members under one key would be the same.
  have hsame : u = v :=
    congrArg Prod.snd (List.inj_on_of_nodup_map distinct (mem_of_lookup hlookup) h rfl)
  exact hsame ▸ hlookup

theorem lookup_of_map_values (f : Json → Json) (key : String) (members : List (String × Json)) :
    lookup key (members.map fun m => (m.1, f m.2)) = (lookup key members).map f := by
  unfold lookup
  rw [← List.map_reverse, List.find?_map]
  simp [Function.comp_def]

theorem lookup_append (key : String) (members others : List (String × Json)) :
    lookup key (members ++ others) = (lookup key others).or (lookup key members) := by
  simp [lookup, List.find?_append, Option.map_or]

theorem lookup_singleton (key k : String) (v : Json) :
    lookup key [(k, v)] = if key = k then some v else none := by
  by_cases hkey : key = k <;> simp [lookup, hkey, Ne.symm]

theorem lookup_eq_none_iff {members : List (String × Json)} {key : String} :
    lookup key members = none ↔ key ∉ members.map Prod.fst := by
  simp only [lookup, Option.map_eq_none_iff, List.find?_eq_none, List.mem_reverse, beq_iff_eq,
    List.mem_map, not_exists, not_and]

/-! ## Making a map -/

variable {key : String} {v : Json} {members : List (String × Json)}

theorem mem_insert {m : String × Json} (h : m ∈ insert key v members) :
    m = (key, v) ∨ m ∈ members := by
  induction members with
  | nil => exact .inl (List.mem_singleton.1 h)
  | cons n members ih => grind [insert]

/-- Putting in a member keeps the order. -/
theorem ascending_insert (ascending : Ascending members) : Ascending (insert key v members) := by
  induction members with
  | nil => exact List.pairwise_singleton _ _
  | cons n members ih =>
      rcases n with ⟨k, u⟩
      rcases List.pairwise_cons.1 ascending with ⟨hfirst, hrest⟩
      unfold insert
      split
      · next hless =>
          refine List.pairwise_cons.2 ⟨?_, ascending⟩
          intro m hm
          rcases List.mem_cons.1 hm with rfl | hm
          · exact hless
          · exact String.lt_trans hless (hfirst m hm)
      · next hless =>
          split
          · next hsame =>
              subst hsame
              exact List.pairwise_cons.2 ⟨hfirst, hrest⟩
          · next hdiffer =>
              have hgreater : k < key := by grind
              refine List.pairwise_cons.2 ⟨?_, ih hrest⟩
              intro m hm
              rcases mem_insert hm with rfl | hm
              · exact hgreater
              · exact hfirst m hm

/-- Putting in a member replaces the one under its key and leaves the others. -/
theorem mem_insert_iff (ascending : Ascending members) {m : String × Json} :
    m ∈ insert key v members ↔ m = (key, v) ∨ (m ∈ members ∧ m.1 ≠ key) := by
  induction members with
  | nil => simp [insert]
  | cons n members ih =>
      rcases n with ⟨k, u⟩
      rcases List.pairwise_cons.1 ascending with ⟨hfirst, hrest⟩
      unfold insert
      split
      · next hless =>
          -- All keys are greater than the new one.
          have hothers : ∀ m ∈ (k, u) :: members, m.1 ≠ key := by
            intro m hm
            rcases List.mem_cons.1 hm with rfl | hm
            · grind
            · have hgreater : key < m.1 := String.lt_trans hless (hfirst m hm)
              grind
          rw [List.mem_cons]
          exact or_congr_right ⟨fun hm => ⟨hm, hothers m hm⟩, And.left⟩
      · split
        · next hsame =>
            subst hsame
            have hothers : ∀ m ∈ members, m.1 ≠ key := by
              intro m hm
              have hgreater : key < m.1 := hfirst m hm
              grind
            grind
        · next hdiffer =>
            rw [List.mem_cons, ih hrest]
            grind

/-- A new key adds its member. -/
theorem insert_perm (new : key ∉ members.map Prod.fst) :
    (insert key v members).Perm ((key, v) :: members) := by
  induction members with
  | nil => exact .refl _
  | cons n members ih =>
      rcases n with ⟨k, u⟩
      have hnew : key ≠ k ∧ key ∉ members.map Prod.fst := by simpa using new
      unfold insert
      split
      · exact .refl _
      · rw [if_neg hnew.1]
        calc
          ((k, u) :: insert key v members).Perm ((k, u) :: (key, v) :: members) :=
            (ih hnew.2).cons _
          List.Perm _ ((key, v) :: (k, u) :: members) := .swap ..

theorem ascending_foldl_insert {map : List (String × Json)} (ascending : Ascending map)
    (members : List (String × Json)) :
    Ascending (members.foldl (fun map m => insert m.1 m.2 map) map) := by
  induction members generalizing map with
  | nil => exact ascending
  | cons m members ih => exact ih (ascending_insert ascending)

/-- No key stands twice in a map. -/
theorem Ascending.nodup (ascending : Ascending members) : (members.map Prod.fst).Nodup := by
  refine List.pairwise_map.2 (ascending.imp fun hless hsame => ?_)
  rw [hsame] at hless
  exact String.lt_irrefl _ hless

/-- Maps with the same members are the same. -/
theorem Ascending.eq_of_mem_iff {others : List (String × Json)} (ascending : Ascending members)
    (ascending' : Ascending others) (same : ∀ m, m ∈ members ↔ m ∈ others) : members = others := by
  have hperm : members.Perm others :=
    (List.perm_ext_iff_of_nodup ascending.nodup.of_map ascending'.nodup.of_map).2 same
  refine hperm.eq_of_pairwise (fun m n _ _ hless hgreater => ?_) ascending ascending'
  exact absurd hgreater (String.lt_asymm hless)

/-- An insertion is seen under its own key alone. -/
theorem lookup_insert (ascending : Ascending members) (k : String) :
    lookup k (insert key v members) = if k = key then some v else lookup k members := by
  ext u
  rw [lookup_eq_some_iff (ascending_insert ascending).nodup, mem_insert_iff ascending]
  by_cases hkey : k = key
  · simp [hkey, eq_comm]
  · simp [hkey, lookup_eq_some_iff ascending.nodup]

theorem ascending_toMap (members : List (String × Json)) : Ascending (toMap members) :=
  ascending_foldl_insert .nil members

theorem lookup_foldl_insert {map : List (String × Json)} (ascending : Ascending map)
    (members : List (String × Json)) (k : String) :
    lookup k (members.foldl (fun map m => insert m.1 m.2 map) map) =
      (lookup k members).or (lookup k map) := by
  induction members generalizing map with
  | nil => rfl
  | cons m members ih =>
      rcases m with ⟨key, v⟩
      have hfirst : lookup k ((key, v) :: members) =
          (lookup k members).or (if k = key then some v else none) := by
        rw [← lookup_singleton, ← lookup_append]
        rfl
      rw [List.foldl_cons, ih (ascending_insert ascending), lookup_insert ascending, hfirst]
      by_cases hkey : k = key <;> cases lookup k members <;> simp [hkey]

/-- In a map whose keys are changed, the greatest of the keys that become the same is found. -/
theorem lookup_map_iff (ascending : Ascending members) (f : String → String)
    (g : String × Json → Json) {w : Json} :
    lookup key (members.map fun m => (f m.1, g m)) = some w ↔
      ∃ m ∈ members, f m.1 = key ∧ (∀ n ∈ members, f n.1 = key → n.1 ≤ m.1) ∧ g m = w := by
  have hfind : lookup key (members.map fun m => (f m.1, g m)) =
      (members.reverse.find? fun m => f m.1 == key).map g := by
    rw [lookup, ← List.map_reverse, List.find?_map, Option.map_map]
    rfl
  -- The members after the one that is found become something else, those before it are smaller.
  have hgreatest : ∀ m, (members.reverse.find? fun m => f m.1 == key) = some m →
      m ∈ members ∧ f m.1 = key ∧ ∀ n ∈ members, f n.1 = key → n.1 ≤ m.1 := by
    intro m hm
    rcases List.find?_eq_some_iff_append.1 hm with ⟨hkey, later, earlier, hmembers, hlater⟩
    have hmem : ∀ n, n ∈ members ↔ n ∈ later ++ m :: earlier := by simp [← hmembers]
    have hdescending : (later ++ m :: earlier).Pairwise fun x y => y.1 < x.1 :=
      hmembers ▸ List.pairwise_reverse.2 ascending
    have hearlier := (List.pairwise_cons.1 (List.pairwise_append.1 hdescending).2.1).1
    refine ⟨(hmem m).2 (by simp), by simpa using hkey, fun n hn hsame => ?_⟩
    rcases List.mem_append.1 ((hmem n).1 hn) with hn | hn
    · have hother : f n.1 ≠ key := by simpa using hlater n hn
      exact absurd hsame hother
    · rcases List.mem_cons.1 hn with rfl | hn
      · exact String.le_refl _
      · exact String.not_lt.1 (String.lt_asymm (hearlier n hn))
  rw [hfind, Option.map_eq_some_iff]
  constructor
  · rintro ⟨m, hm, rfl⟩
    rcases hgreatest m hm with ⟨hmem, hkey, hall⟩
    exact ⟨m, hmem, hkey, hall, rfl⟩
  · rintro ⟨m, hmem, hkey, hall, rfl⟩
    have hfound : (members.reverse.find? fun m => f m.1 == key).isSome := by
      simpa using ⟨m.1, ⟨m.2, hmem⟩, hkey⟩
    rcases Option.isSome_iff_exists.1 hfound with ⟨n, hn⟩
    rcases hgreatest n hn with ⟨hnmem, hnkey, hnall⟩
    -- Two greatest members have the same key.
    have hsame : n.1 = m.1 := String.le_antisymm (hall n hnmem hnkey) (hnall m hmem hkey)
    have hequal : n = m := List.inj_on_of_nodup_map ascending.nodup hnmem hmem hsame
    exact ⟨m, hequal ▸ hn, rfl⟩

/-- The last member with a key is the one that the map has. -/
theorem lookup_toMap (k : String) (members : List (String × Json)) :
    lookup k (toMap members) = lookup k members := by
  rw [toMap, lookup_foldl_insert .nil]
  exact Option.or_none

theorem mem_of_mem_toMap {m : String × Json} (h : m ∈ toMap members) : m ∈ members := by
  have hfound := (lookup_eq_some_iff (ascending_toMap members).nodup).2 h
  rw [lookup_toMap] at hfound
  exact mem_of_lookup hfound

theorem mem_keys_toMap_iff {k : String} :
    k ∈ (toMap members).map Prod.fst ↔ k ∈ members.map Prod.fst := by
  rw [← not_iff_not, ← lookup_eq_none_iff, ← lookup_eq_none_iff, lookup_toMap]

/-- A map has one member for each key. -/
theorem length_toMap (members : List (String × Json)) :
    (toMap members).length = (members.map Prod.fst).dedup.length := by
  have hkeys : ((toMap members).map Prod.fst).Perm (members.map Prod.fst).dedup :=
    (List.perm_ext_iff_of_nodup (ascending_toMap members).nodup (List.nodup_dedup _)).2 fun k => by
      rw [mem_keys_toMap_iff, List.mem_dedup]
  simpa using hkeys.length_eq

/-- Members whose keys differ, also from those that the map has, are added to it. -/
theorem foldl_insert_perm {map members : List (String × Json)}
    (distinct : ((map ++ members).map Prod.fst).Nodup) :
    (members.foldl (fun map m => insert m.1 m.2 map) map).Perm (map ++ members) := by
  induction members generalizing map with
  | nil => simp
  | cons m members ih =>
      have hmoved : (map ++ m :: members).Perm (m :: (map ++ members)) := List.perm_middle
      have hnew : m.1 ∉ (map ++ members).map Prod.fst :=
        (List.nodup_cons.1 ((hmoved.map Prod.fst).nodup_iff.1 distinct)).1
      have hfirst : m.1 ∉ map.map Prod.fst := by
        intro hmem
        exact hnew (by simpa using Or.inl hmem)
      have hinsert : (insert m.1 m.2 map ++ members).Perm (map ++ m :: members) :=
        ((insert_perm hfirst).append_right members).trans hmoved.symm
      exact (ih ((hinsert.map Prod.fst).nodup_iff.2 distinct)).trans hinsert

/-- Where keys differ, the map has the same members. -/
theorem toMap_perm (distinct : (members.map Prod.fst).Nodup) : (toMap members).Perm members :=
  @foldl_insert_perm [] members distinct

/-! ## Trees of maps -/

/-- Every object in the tree is a map. -/
inductive Sorted : Json → Prop where
  | scalar {v : Json} (noArray : ∀ items, v ≠ .array items)
      (noObject : ∀ members, v ≠ .object members) : Sorted v
  | array {items : List Json} (below : ∀ v ∈ items, Sorted v) : Sorted (.array items)
  | object {members : List (String × Json)} (ascending : Ascending members)
      (below : ∀ m ∈ members, Sorted m.2) : Sorted (.object members)

theorem canonicalMembers_eq_map (members : List (String × Json)) :
    canonicalMembers members = members.map fun m => (m.1, m.2.canonical) := by
  induction members with
  | nil => rfl
  | cons m members ih =>
      rcases m with ⟨k, v⟩
      simp [canonicalMembers, canonicalMember, ih]

theorem lookup_canonicalMembers (k : String) (members : List (String × Json)) :
    lookup k (toMap (canonicalMembers members)) = (lookup k members).map canonical := by
  rw [lookup_toMap, canonicalMembers_eq_map, lookup_of_map_values]

mutual

/-- The canonical form of a tree has maps throughout. -/
theorem sorted_canonical : (v : Json) → Sorted v.canonical
  | .array items => .array (sorted_canonicalItems items)
  | .object members =>
    .object (ascending_toMap _) fun m hm => sorted_canonicalMembers members m (mem_of_mem_toMap hm)
  | .null => .scalar (by simp [canonical]) (by simp [canonical])
  | .bool b => .scalar (by simp [canonical]) (by simp [canonical])
  | .number n => .scalar (by simp [canonical]) (by simp [canonical])
  | .text s => .scalar (by simp [canonical]) (by simp [canonical])
termination_by structural v => v

theorem sorted_canonicalItems : (items : List Json) → ∀ v ∈ canonicalItems items, Sorted v
  | [] => by simp [canonicalItems]
  | v :: items =>
    List.forall_mem_cons.2 ⟨sorted_canonical v, sorted_canonicalItems items⟩
termination_by structural items => items

theorem sorted_canonicalMembers :
    (members : List (String × Json)) → ∀ m ∈ canonicalMembers members, Sorted m.2
  | [] => by simp [canonicalMembers]
  | m :: members =>
    List.forall_mem_cons.2 ⟨sorted_canonicalMember m, sorted_canonicalMembers members⟩
termination_by structural members => members

theorem sorted_canonicalMember : (m : String × Json) → Sorted (canonicalMember m).2
  | (_, v) => sorted_canonical v
termination_by structural m => m

end

end Converge.Json
