import Converge.Manifest.Decode
import Converge.Proofs.Failing

/-!
# Fields set one after another

The fields of a kind are independent of one another: each has names that no other field has, and
setting it leaves all others as they are.  Setting different fields in any order therefore succeeds
exactly if every value is of its field's type, and every field then has the value that it was set to
or the one that it had.
-/

namespace Converge

namespace Field

open Manifest (Problem)

variable {σ : Type}

def Takes (f : Field σ) (v : Json) : Prop :=
  match f.slot with
  | .text .. => ∃ s, v = .text s
  | .flag .. => ∃ b, v = .bool b
  | .texts .. => ∃ l : List String, v = .array (l.map .text)

/-- The value of a field that is not given: empty or off, but a resource is present, and a container
is started. -/
def default (f : Field σ) : Json :=
  match f.slot with
  | .text .. => .text ""
  | .flag .. => .bool (f.name == "present" || f.name == "start")
  | .texts .. => .array []

theorem readText_eq_ok_iff {v : Json} {s : String} : readText v = .ok s ↔ v = .text s := by
  cases v <;> simp [readText]

theorem readFlag_eq_ok_iff {v : Json} {b : Bool} : readFlag v = .ok b ↔ v = .bool b := by
  cases v <;> simp [readFlag]

theorem readTexts_eq_ok_iff {v : Json} {l : List String} :
    readTexts v = .ok l ↔ v = .array (l.map .text) := by
  cases v with
  | array items =>
      have hitems : readTexts (.array items) = items.mapM readText := rfl
      rw [hitems, mapM_eq_ok_iff, Json.array.injEq]
      simp only [readText_eq_ok_iff]
      rw [← List.forall₂_eq_eq_eq, List.forall₂_map_right_iff]
  | _ => simp [readTexts]

/-- What setting the field of `x` to `v` gives. -/
theorem assign_eq_ok_iff {f : Field σ} {v : Json} {x y : σ} :
    f.assign v x = .ok y ↔
      match f.slot with
      | .text _ set => ∃ s, v = .text s ∧ set s x = y
      | .flag _ set => ∃ b, v = .bool b ∧ set b x = y
      | .texts _ set => ∃ l : List String, v = .array (l.map .text) ∧ set l x = y := by
  unfold assign
  cases f.slot with
  | text get set => simp [bind_eq_ok_iff, readText_eq_ok_iff, pure, Except.pure]
  | flag get set => simp [bind_eq_ok_iff, readFlag_eq_ok_iff, pure, Except.pure]
  | texts get set => simp [bind_eq_ok_iff, readTexts_eq_ok_iff, pure, Except.pure]

/-- A field takes exactly the values of its type. -/
theorem exists_assign_iff {f : Field σ} {v : Json} {x : σ} :
    (∃ y, f.assign v x = .ok y) ↔ f.Takes v := by
  simp only [assign_eq_ok_iff, Takes]
  cases f.slot <;> grind

/-! ## Tables -/

/-- Setting the field gives it the value and changes no other of the fields. -/
def Writes (fields : List (Field σ)) (f : Field σ) : Prop :=
  match f.slot with
  | .text _ set => ∀ s x, ∀ g ∈ fields,
      g.toJson (set s x) = if g.name = f.name then .text s else g.toJson x
  | .flag _ set => ∀ b x, ∀ g ∈ fields,
      g.toJson (set b x) = if g.name = f.name then .bool b else g.toJson x
  | .texts _ set => ∀ l x, ∀ g ∈ fields,
      g.toJson (set l x) = if g.name = f.name then .array (l.map .text) else g.toJson x

/-- The fields are those of a kind: no two have a name in common, setting one of them changes no
other, and they make up the whole record.  `initial` is the record of which no field was given. -/
structure IsTable (fields : List (Field σ)) (initial : σ) : Prop where
  apart : fields.Pairwise fun f g => ∀ key ∈ f.names, key ∉ g.names
  writes : ∀ f ∈ fields, f.Writes fields
  ext : ∀ x y, (∀ f ∈ fields, f.toJson x = f.toJson y) → x = y
  defaults : ∀ f ∈ fields, f.toJson initial = f.default

theorem map_text_inj {l m : List String} : l.map Json.text = m.map Json.text ↔ l = m :=
  List.map_inj_right fun _ _ => Json.text.inj

theorem isTable_container : IsTable Container.fields {} where
  apart := by decide
  writes := by simp [Container.fields, Writes, toJson, text, flag, texts, orAlso]
  ext := by
    intro x y h
    cases x
    cases y
    simpa [Container.fields, toJson, text, flag, texts, orAlso, map_text_inj] using h
  defaults := by simp [Container.fields, toJson, default, text, flag, texts, orAlso]

theorem isTable_image : IsTable Image.fields {} where
  apart := by decide
  writes := by simp [Image.fields, Writes, toJson, text, flag, orAlso]
  ext := by
    intro x y h
    cases x
    cases y
    simpa [Image.fields, toJson, text, flag, orAlso] using h
  defaults := by simp [Image.fields, toJson, default, text, flag, orAlso]

theorem isTable_volume : IsTable Volume.fields {} where
  apart := by decide
  writes := by simp [Volume.fields, Writes, toJson, text, flag, texts, orAlso]
  ext := by
    intro x y h
    cases x
    cases y
    simpa [Volume.fields, toJson, text, flag, texts, orAlso, map_text_inj] using h
  defaults := by simp [Volume.fields, toJson, default, text, flag, texts, orAlso]

theorem isTable_network : IsTable Network.fields {} where
  apart := by decide
  writes := by simp [Network.fields, Writes, toJson, text, flag, texts, orAlso]
  ext := by
    intro x y h
    cases x
    cases y
    simpa [Network.fields, toJson, text, flag, texts, orAlso, map_text_inj] using h
  defaults := by simp [Network.fields, toJson, default, text, flag, texts, orAlso]

theorem mem_names_iff {f : Field σ} {key : String} :
    key ∈ f.names ↔ f.name = key ∨ f.synonym = some key := by
  unfold names
  cases f.synonym with
  | none => simp [eq_comm]
  | some a =>
      by_cases h : a < f.name <;> simp [h, eq_comm, or_comm]

theorem name_mem_names (f : Field σ) : f.name ∈ f.names := mem_names_iff.2 (.inl rfl)

theorem answersTo_iff {f : Field σ} {key : String} : f.answersTo key = true ↔ key ∈ f.names := by
  simp [answersTo]

namespace IsTable

variable {fields : List (Field σ)} {initial : σ} (table : IsTable fields initial)
include table

/-- A key names at most one field. -/
theorem eq_of_mem_names {f g : Field σ} (hf : f ∈ fields) (hg : g ∈ fields) {key : String}
    (hfkey : key ∈ f.names) (hgkey : key ∈ g.names) : f = g := by
  have hapart := table.apart
  clear table
  induction hapart with
  | nil => cases hf
  | @cons h hs hhead _ ih =>
      rcases List.mem_cons.1 hf with rfl | hf' <;> rcases List.mem_cons.1 hg with rfl | hg'
      · rfl
      · exact absurd hgkey (hhead g hg' key hfkey)
      · exact absurd hfkey (hhead f hf' key hgkey)
      · exact ih hf' hg'

/-- Among the fields of a table, a key finds the one that answers to it. -/
theorem find?_answersTo {f : Field σ} (hf : f ∈ fields) {key : String}
    (hkey : f.answersTo key = true) : fields.find? (·.answersTo key) = some f := by
  cases hfind : fields.find? (·.answersTo key) with
  | none => exact absurd hkey (List.find?_eq_none.1 hfind f hf)
  | some g =>
      have hg := List.find?_some hfind
      rw [table.eq_of_mem_names (List.mem_of_find?_eq_some hfind) hf (answersTo_iff.1 hg)
        (answersTo_iff.1 hkey)]

/-- Setting a field changes that field alone. -/
theorem toJson_of_assign {f : Field σ} (hf : f ∈ fields) {v : Json} {x y : σ}
    (h : f.assign v x = .ok y) {g : Field σ} (hg : g ∈ fields) :
    g.toJson y = if g.name = f.name then v else g.toJson x := by
  have hwrites := table.writes f hf
  have hassign := assign_eq_ok_iff.1 h
  unfold Writes at hwrites
  cases hslot : f.slot with
  | text get set =>
      rw [hslot] at hwrites hassign
      rcases hassign with ⟨s, rfl, rfl⟩
      exact hwrites s x g hg
  | flag get set =>
      rw [hslot] at hwrites hassign
      rcases hassign with ⟨b, rfl, rfl⟩
      exact hwrites b x g hg
  | texts get set =>
      rw [hslot] at hwrites hassign
      rcases hassign with ⟨l, rfl, rfl⟩
      exact hwrites l x g hg

end IsTable

/-! ## Settings -/

def assignEach (x : σ) (settings : List (Field σ × Json)) : Except Problem σ :=
  settings.foldlM (fun x p => p.1.assign p.2 x) x

/-- Values of the right types can be set. -/
theorem exists_assignEach {settings : List (Field σ × Json)}
    (takes : ∀ p ∈ settings, p.1.Takes p.2) (x : σ) : ∃ y, assignEach x settings = .ok y := by
  induction settings generalizing x with
  | nil => exact ⟨x, rfl⟩
  | cons p settings ih =>
      rcases exists_assign_iff.2 (takes p (List.mem_cons_self ..)) with ⟨z, hz⟩
      rcases ih (fun q hq => takes q (List.mem_cons_of_mem _ hq)) z with ⟨y, hy⟩
      exact ⟨y, bind_eq_ok_iff.2 ⟨z, hz, hy⟩⟩

/-- Every field has the value that it is set to, and the one that it had if it is not set. -/
def HoldsAfter (fields : List (Field σ)) (settings : List (Field σ × Json)) (x y : σ) : Prop :=
  ∀ f ∈ fields, (∀ p ∈ settings, p.1.name = f.name → f.toJson y = p.2) ∧
    ((∀ p ∈ settings, p.1.name ≠ f.name) → f.toJson y = f.toJson x)

namespace IsTable

variable {fields : List (Field σ)} {initial : σ} (table : IsTable fields initial)
include table

/-- The first setting may be made before the others, which set other fields. -/
theorem holdsAfter_cons_iff {p : Field σ × Json} {settings : List (Field σ × Json)}
    (known : p.1 ∈ fields) (fresh : ∀ q ∈ settings, p.1.name ≠ q.1.name) {x y z : σ}
    (first : p.1.assign p.2 x = .ok z) :
    HoldsAfter fields (p :: settings) x y ↔ HoldsAfter fields settings z y := by
  constructor
  · intro h f hf
    have hstep := table.toJson_of_assign known first hf
    refine ⟨fun q hq hname => (h f hf).1 q (List.mem_cons_of_mem _ hq) hname, ?_⟩
    intro hnone
    by_cases hname : f.name = p.1.name
    · rw [hstep, if_pos hname]
      exact (h f hf).1 p (List.mem_cons_self ..) hname.symm
    · rw [hstep, if_neg hname]
      exact (h f hf).2 (List.forall_mem_cons.2 ⟨fun heq => hname heq.symm, hnone⟩)
  · intro h f hf
    have hstep := table.toJson_of_assign known first hf
    constructor
    · intro q hq hname
      rcases List.mem_cons.1 hq with rfl | hq
      · -- No later setting has the name of the first one.
        have hkept := (h f hf).2 fun q' hq' heq => fresh q' hq' (hname.trans heq.symm)
        rw [hkept, hstep, if_pos hname.symm]
      · exact (h f hf).1 q hq hname
    · intro hnone
      have hkept := (h f hf).2 fun q hq => hnone q (List.mem_cons_of_mem _ hq)
      have hname : f.name ≠ p.1.name := fun heq => hnone p (List.mem_cons_self ..) heq.symm
      rw [hkept, hstep, if_neg hname]

/-- Different fields are set exactly if each value is of its field's type, and what results is known
by what each field then holds. -/
theorem assignEach_eq_ok_iff {settings : List (Field σ × Json)} (known : ∀ p ∈ settings, p.1 ∈ fields)
    (distinct : settings.Pairwise fun p q => p.1.name ≠ q.1.name) {x y : σ} :
    assignEach x settings = .ok y ↔
      (∀ p ∈ settings, p.1.Takes p.2) ∧ HoldsAfter fields settings x y := by
  -- By induction on the settings, for every record: the rest starts from what the first one gives.
  induction settings generalizing x with
  | nil =>
      have hnil : assignEach x [] = .ok x := rfl
      rw [hnil]
      constructor
      · intro h
        cases h
        exact ⟨by simp, fun f _ => ⟨by simp, fun _ => rfl⟩⟩
      · intro h
        have hsame : x = y := table.ext x y fun f hf => ((h.2 f hf).2 (by simp)).symm
        rw [hsame]
  | cons p settings ih =>
      have hp := known p (List.mem_cons_self ..)
      have hfresh := (List.pairwise_cons.1 distinct).1
      have hrest (z : σ) : assignEach z settings = .ok y ↔
          (∀ q ∈ settings, q.1.Takes q.2) ∧ HoldsAfter fields settings z y :=
        ih (fun q hq => known q (List.mem_cons_of_mem _ hq)) distinct.of_cons
      have hcons : assignEach x (p :: settings) =
          (p.1.assign p.2 x >>= fun z => assignEach z settings) := rfl
      rw [hcons, bind_eq_ok_iff, List.forall_mem_cons]
      constructor
      · rintro ⟨z, hz, hy⟩
        rcases (hrest z).1 hy with ⟨htakes, hholds⟩
        exact ⟨⟨exists_assign_iff.1 ⟨z, hz⟩, htakes⟩,
          (table.holdsAfter_cons_iff hp hfresh hz).2 hholds⟩
      · rintro ⟨⟨hfirst, htakes⟩, hholds⟩
        rcases exists_assign_iff.2 hfirst with ⟨z, hz⟩
        exact ⟨z, hz, (hrest z).2 ⟨htakes, (table.holdsAfter_cons_iff hp hfresh hz).1 hholds⟩⟩

end IsTable

end Field

end Converge
