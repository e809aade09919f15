import Converge.Proofs.Fact.Collisions
import Converge.Proofs.Fact.Names

/-!
# Docker's field names

Docker writes its field names in ASCII, with a capital at the front and without underscores.  Such a
name can be read back from the name that it gets, since every underscore stands for one capital.
The whole tokens are the exception: each of them gets the name of one other field, its twin.

So the fields of a raw object stay apart unless it has a token and its twin, and then the record has
as many fields as the raw object.
-/

namespace Converge.Fact

open Text (lowered)

structure IsFieldName (k : String) : Prop where
  ascii : ∀ c ∈ k.toList, c.toNat < 0x80
  capital : k.toList.head?.any isCapital = true
  noUnderscore : '_' ∉ k.toList

instance (k : String) : Decidable (IsFieldName k) :=
  decidable_of_iff
    (k.toList.all (fun c => c.toNat < 0x80) = true ∧ k.toList.head?.any isCapital = true ∧
      '_' ∉ k.toList)
    ⟨fun ⟨ascii, capital, noUnderscore⟩ => ⟨by simpa using ascii, capital, noUnderscore⟩,
      fun ⟨ascii, capital, noUnderscore⟩ => ⟨by simpa using ascii, capital, noUnderscore⟩⟩

/-- The whole tokens, each with the field name that gets the same name. -/
def twins : List (String × String) := [("ID", "Id"), ("IPv6", "Ipv6"), ("IPv4", "Ipv4")]

theorem keys_twins : twins.map Prod.fst = wholeNames := rfl

/-! ## Reading a name back -/

/-- Drop the underscores and raise the characters behind them; the first character is raised if
`raised` says so. -/
def restoreFrom : Bool → List Char → List Char
  | _, [] => []
  | raised, c :: cs =>
      if c = '_' then restoreFrom true cs
      else (if raised then c.toUpper else c) :: restoreFrom false cs

/-- Upper-case the first character and every one behind an underscore, which is dropped. -/
def restore (s : String) : String := String.ofList (restoreFrom true s.toList)

theorem lowered_of_capital {c : Char} (capital : isCapital c = true) :
    lowered c = [c.toLower] ∧ c.toLower ≠ '_' ∧ c.toLower.toUpper = c := by
  have hascii := ascii_of_isCapital capital
  exact ⟨Text.lowered_of_ascii hascii,
    Text.of_ascii
      (P := fun c => isCapital c = true → c.toLower ≠ '_' ∧ c.toLower.toUpper = c) (by decide)
      hascii capital⟩

theorem lowered_of_not_capital {c : Char} (ascii : c.toNat < 0x80)
    (notCapital : isCapital c = false) : lowered c = [c] :=
  Text.of_ascii (P := fun c => isCapital c = false → lowered c = [c]) (by decide) ascii notCapital

/-- A capital comes back where a raised character is due. -/
theorem restoreFrom_lowered_capital {c : Char} (capital : isCapital c = true) (rest : List Char) :
    restoreFrom true (lowered c ++ rest) = c :: restoreFrom false rest := by
  rcases lowered_of_capital capital with ⟨hlowered, hunderscore, hupper⟩
  simp [hlowered, restoreFrom, hunderscore, hupper]

/-- Each capital has left an underscore behind by which it is found again. -/
theorem restoreFrom_split {cs : List Char}
    (plain : ∀ c ∈ cs, c.toNat < 0x80 ∧ c ≠ '_') : restoreFrom false (split cs) = cs := by
  induction cs with
  | nil => rfl
  | cons c cs ih =>
      rcases List.forall_mem_cons.1 plain with ⟨⟨hascii, hunderscore⟩, hcs⟩
      cases hcapital : isCapital c with
      | true =>
          -- The underscore that was put in raises the small letter behind it again.
          calc restoreFrom false (split (c :: cs))
              = restoreFrom true (lowered c ++ split cs) := by simp [split, hcapital, restoreFrom]
            _ = c :: restoreFrom false (split cs) := restoreFrom_lowered_capital hcapital _
            _ = c :: cs := by rw [ih hcs]
      | false =>
          have hlowered := lowered_of_not_capital hascii hcapital
          simp [split, hcapital, hlowered, restoreFrom, hunderscore, ih hcs]

/-- A field name is read back from the name that it gets, unless it is a whole token. -/
theorem restore_name {k : String} (field : IsFieldName k) (notWhole : k ∉ wholeNames) :
    restore (name k) = k := by
  have hname : name k = String.ofList (nameChars k.toList) := by
    simp [name, notWhole]
  rw [restore, hname, String.toList_ofList, ← String.toList_inj, String.toList_ofList]
  cases hchars : k.toList with
  | nil => simpa [hchars] using field.capital
  | cons c cs =>
      have hcapital : isCapital c = true := by simpa [hchars] using field.capital
      have hcs : ∀ d ∈ cs, d.toNat < 0x80 ∧ d ≠ '_' := by
        intro d hd
        have hmem : d ∈ k.toList := by simp [hchars, hd]
        exact ⟨field.ascii d hmem, fun h => field.noUnderscore (h ▸ hmem)⟩
      rw [nameChars, restoreFrom_lowered_capital hcapital, restoreFrom_split hcs]

/-! ## Field names with the same name -/

section SameName

variable {k k' : String}

/-- Field names that are no whole tokens are restored from their names, and so told apart. -/
theorem eq_of_name_eq (field : IsFieldName k) (notWhole : k ∉ wholeNames)
    (field' : IsFieldName k') (notWhole' : k' ∉ wholeNames) (same : name k = name k') : k = k' := by
  rw [← restore_name field notWhole, ← restore_name field' notWhole', same]

theorem isFieldName_of_whole : ∀ k ∈ wholeNames, IsFieldName k := by decide

/-- The twin of a whole token is an ordinary field name. -/
theorem exists_twin_of_whole : ∀ k ∈ wholeNames, ∃ t ∈ twins,
    t.1 = k ∧ IsFieldName t.2 ∧ t.2 ∉ wholeNames ∧ name t.2 = name k := by decide

theorem name_eq_of_mem_twins : ∀ t ∈ twins, name t.1 = name t.2 := by decide

/-- Beside a whole token, only its twin gets the same name. -/
theorem mem_twins_of_name_eq (whole : k ∈ wholeNames) (field' : IsFieldName k')
    (notWhole' : k' ∉ wholeNames) (same : name k = name k') : (k, k') ∈ twins := by
  rcases exists_twin_of_whole k whole with ⟨⟨_, twin⟩, htwins, rfl, hfield, hnotWhole, hname⟩
  have htwin : twin = k' := eq_of_name_eq hfield hnotWhole field' notWhole' (hname.trans same)
  rwa [← htwin]

/-- The only different field names that get one name are a whole token and its twin. -/
theorem name_eq_name_iff (field : IsFieldName k) (field' : IsFieldName k') :
    name k = name k' ↔ k = k' ∨ (k, k') ∈ twins ∨ (k', k) ∈ twins := by
  constructor
  · intro same
    -- The names can be read back unless one of the keys is a token, or both are.
    by_cases hwhole : k ∈ wholeNames
    · by_cases hwhole' : k' ∈ wholeNames
      · have hdifferent : ∀ k ∈ wholeNames, ∀ k' ∈ wholeNames, name k = name k' → k = k' := by
          decide
        exact .inl (hdifferent k hwhole k' hwhole' same)
      · exact .inr (.inl (mem_twins_of_name_eq hwhole field' hwhole' same))
    · by_cases hwhole' : k' ∈ wholeNames
      · exact .inr (.inr (mem_twins_of_name_eq hwhole' field hwhole same.symm))
      · exact .inl (eq_of_name_eq field hwhole field' hwhole' same)
  · rintro (rfl | htwins | htwins)
    · rfl
    · exact name_eq_of_mem_twins _ htwins
    · exact (name_eq_of_mem_twins _ htwins).symm

end SameName

end Converge.Fact

namespace Converge.Record

open Converge.Fact

section Apart

variable {members : List (String × Json)}
  (apart : ∀ k ∈ (rawMap members).map Prod.fst, ∀ k' ∈ (rawMap members).map Prod.fst,
    name k = name k' → k = k')
include apart

theorem length_facts_of_apart : (ofRaw members).facts.length = (rawMap members).length := by
  have hnodup : (((rawMap members).map Prod.fst).map name).Nodup :=
    ascending_rawMap.nodup.map_on apart
  rw [length_facts_ofRaw, hnodup.dedup, List.length_map, List.length_map]

/-- A key whose name no other key gets wins it. -/
theorem get?_name_of_apart {k : String} {v : Json}
    (held : Json.lookup k (rawMap members) = some v) :
    (ofRaw members).get? (name k) = some (renameAs (treatment k) v) := by
  have hthere : k ∈ (rawMap members).map Prod.fst :=
    List.mem_map_of_mem (Json.mem_of_lookup held)
  have hwins : Wins (rawMap members) (name k) k :=
    ⟨hthere, rfl, fun other hother same => (apart other hother k hthere same) ▸ Std.le_refl _⟩
  exact get?_ofRaw_iff.2 ⟨k, v, hwins, held, rfl⟩

end Apart

/-- A raw object of fields: its keys are field names, and no token stands beside its twin. -/
structure HasFields (members : List (String × Json)) : Prop where
  fields : ∀ k ∈ (rawMap members).map Prod.fst, IsFieldName k
  noTwins : ∀ t ∈ twins,
    ¬ (t.1 ∈ (rawMap members).map Prod.fst ∧ t.2 ∈ (rawMap members).map Prod.fst)

/-- Where no token stands beside its twin, different keys get different names. -/
theorem HasFields.apart {members : List (String × Json)} (hasFields : HasFields members) :
    ∀ k ∈ (rawMap members).map Prod.fst, ∀ k' ∈ (rawMap members).map Prod.fst,
      name k = name k' → k = k' := by
  intro k hk k' hk' same
  rcases (name_eq_name_iff (hasFields.fields k hk) (hasFields.fields k' hk')).1 same with
    rfl | htwins | htwins
  · rfl
  · exact absurd ⟨hk, hk'⟩ (hasFields.noTwins _ htwins)
  · exact absurd ⟨hk', hk⟩ (hasFields.noTwins _ htwins)

structure KeepsFieldsApart : Prop where
  /-- A field name is read back from the name that it gets, unless it is a whole token. -/
  restored : ∀ k, IsFieldName k → k ∉ twins.map Prod.fst → restore (name k) = k
  /-- So no two of them get the same name. -/
  injective : ∀ k k', IsFieldName k → k ∉ twins.map Prod.fst →
    IsFieldName k' → k' ∉ twins.map Prod.fst → name k = name k' → k = k'
  /-- The whole tokens have the shape of a field name, too. -/
  wholes : ∀ k ∈ twins.map Prod.fst, IsFieldName k
  /-- Two field names get the same name only if they are a whole token and its twin. -/
  same : ∀ k k', IsFieldName k → IsFieldName k' →
    (name k = name k' ↔ k = k' ∨ (k, k') ∈ twins ∨ (k', k) ∈ twins)
  /-- An object of fields becomes a record of as many. -/
  count : ∀ members, HasFields members →
    (ofRaw members).facts.length = (rawMap members).length
  /-- Every value is kept under the name of its own field. -/
  kept : ∀ members, HasFields members → ∀ k v, Json.lookup k (rawMap members) = some v →
    ∃ w, (ofRaw members).get? (name k) = some w ∧ BecomesUnder k v w

theorem keepsFieldsApart : KeepsFieldsApart where
  restored _ field notWhole := restore_name field (keys_twins ▸ notWhole)
  injective _ _ field notWhole field' notWhole' same :=
    eq_of_name_eq field (keys_twins ▸ notWhole) field' (keys_twins ▸ notWhole') same
  wholes := keys_twins ▸ isFieldName_of_whole
  same _ _ field field' := name_eq_name_iff field field'
  count _ hasFields := length_facts_of_apart hasFields.apart
  kept _ hasFields _ _ held :=
    ⟨_, get?_name_of_apart hasFields.apart held, (becomesUnder_of_lookup_iff held).2 rfl⟩

/-- A token may stand beside any other field, and keeps its value. -/
theorem keepsFieldsApart_network :
    HasFields [("IPv6", .bool true), ("Id", .text "4f1e"), ("IPAddress", .null)] ∧
      (ofRaw [("IPv6", .bool true), ("Id", .text "4f1e"), ("IPAddress", .null)]).facts.length = 3 ∧
      ∃ w, (ofRaw [("IPv6", .bool true), ("Id", .text "4f1e"), ("IPAddress", .null)]).get?
        "i_p_address" = some w ∧ BecomesUnder "IPAddress" .null w := by
  have hfields : HasFields [("IPv6", .bool true), ("Id", .text "4f1e"), ("IPAddress", .null)] :=
    ⟨by decide, by decide⟩
  exact ⟨hfields, keepsFieldsApart.count _ hfields,
    keepsFieldsApart.kept _ hfields "IPAddress" .null (by decide)⟩

end Converge.Record
