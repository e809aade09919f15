import Converge.Proofs.Plan.Shape

/-!
# Steps that cannot be taken

Decisions come only to steps that docker has a command for, but a list of steps can hold any verb
for any kind of resource, and the steps of many resources.  Such a list is rendered as a whole or not
at all.  `Action.IsRenderable` says which steps have a command, and `Action.Objection` what is said
against the others; both go by a table of verbs and by the image of a container, and neither
mentions how a command is made.
-/

namespace Converge

/-- The verbs that docker has a command for, on a resource of the kind. -/
def Kind.verbs : Kind → List Verb
  | .container => [.create, .remove, .start, .stop]
  | .image => [.pull, .remove]
  | .volume => [.create, .remove]
  | .network => [.create, .remove]

namespace Action

def IsRenderable (a : Action) : Prop :=
  a.verb ∈ a.spec.kind.verbs ∧ ∀ c, a = .create (.container c) → c.image ≠ ""

/-- What is said against a step that does something and cannot be rendered. -/
inductive Objection : Action → Failure → Prop where
  | unsupported {a : Action} (acts : a.isNoop = false) (missing : a.verb ∉ a.spec.kind.verbs) :
      Objection a (.unsupported a.verb a.spec.kind)
  | imageMissing {c : Container} (empty : c.image = "") :
      Objection (.create (.container c)) (.configuration (.imageMissing c.name))

/-- The command is the step's own: its links do what the step does, one after another and to the
resource of the step. -/
structure RenderedAs (binary : String) (a : Action) (command : Command) : Prop where
  made : a.command binary = .ok command
  deeds : command.links.map (fun link => Deed.ofArgs? link.args) =
    a.linkVerbs.map fun verb => some ⟨a.spec.kind, verb, a.spec.identity⟩
  program : ∀ link ∈ command.links, link.program = binary

/-! ## Single steps -/

variable {a : Action}

theorem RenderedAs.of_command {binary : String} {command : Command}
    (made : a.command binary = .ok command) : RenderedAs binary a command :=
  ⟨made, deeds_of_command made, fun _ => program_of_mem_links made⟩

/-- A verb that is not the kind's own is refused, by its name and that of the kind. -/
theorem command_of_missing (binary : String) (missing : a.verb ∉ a.spec.kind.verbs) :
    a.command binary = .error (.unsupported a.verb a.spec.kind) := by
  -- One case for each verb, and within it one for the kinds that have the verb.
  cases a with
  | create s =>
      cases s with
      | image i => rfl
      | _ => simp [verb, spec, Spec.kind, Kind.verbs] at missing
  | remove s => cases s <;> simp [verb, spec, Spec.kind, Kind.verbs] at missing
  | start s =>
      cases s with
      | container c => simp [verb, spec, Spec.kind, Kind.verbs] at missing
      | _ => rfl
  | stop s =>
      cases s with
      | container c => simp [verb, spec, Spec.kind, Kind.verbs] at missing
      | _ => rfl
  | pull s =>
      cases s with
      | image i => simp [verb, spec, Spec.kind, Kind.verbs] at missing
      | _ => rfl
  | noop s reason => cases s <;> rfl

/-- A step of the table has a command, but for a container without an image. -/
theorem exists_command_of_isRenderable (binary : String) (renderable : a.IsRenderable) :
    ∃ command, a.command binary = .ok command := by
  rcases renderable with ⟨hverb, himage⟩
  cases a with
  | create s =>
      cases s with
      | container c => exact c.exists_createCommand binary (by simpa using himage c rfl)
      | image i => simp [verb, spec, Spec.kind, Kind.verbs] at hverb
      | volume v => exact ⟨_, rfl⟩
      | network n => exact ⟨_, rfl⟩
  | remove s => cases s <;> exact ⟨_, rfl⟩
  | start s =>
      cases s with
      | container c => exact ⟨_, rfl⟩
      | _ => simp [verb, spec, Spec.kind, Kind.verbs] at hverb
  | stop s =>
      cases s with
      | container c => exact ⟨_, rfl⟩
      | _ => simp [verb, spec, Spec.kind, Kind.verbs] at hverb
  | pull s =>
      cases s with
      | image i => exact ⟨_, rfl⟩
      | _ => simp [verb, spec, Spec.kind, Kind.verbs] at hverb
  | noop s reason => cases s <;> simp [verb, spec, Spec.kind, Kind.verbs] at hverb

/-- A step to which there is an objection is refused for it. -/
theorem Objection.command_eq {f : Failure} (objection : Objection a f) (binary : String) :
    a.command binary = .error f := by
  cases objection with
  | unsupported _ missing => exact command_of_missing binary missing
  | @imageMissing c empty => simp [command, verb, spec, Container.createCommand, empty]

/-- There is an objection to every step that is not renderable and does something. -/
theorem exists_objection_of_not_isRenderable (acts : a.isNoop = false) (h : ¬ a.IsRenderable) :
    ∃ f, Objection a f := by
  by_cases hverb : a.verb ∈ a.spec.kind.verbs
  · -- The verb is the kind's own, so a container lacks its image.
    have hlacking : ∃ c, a = .create (.container c) ∧ c.image = "" := by
      simpa [IsRenderable, hverb] using h
    rcases hlacking with ⟨c, rfl, hempty⟩
    exact ⟨_, .imageMissing hempty⟩
  · exact ⟨_, .unsupported acts hverb⟩

/-- A step that does something has a command exactly if it is renderable. -/
theorem exists_command_iff (binary : String) (acts : a.isNoop = false) :
    (∃ command, a.command binary = .ok command) ↔ a.IsRenderable := by
  constructor
  · rintro ⟨command, hcommand⟩
    by_contra hnot
    rcases exists_objection_of_not_isRenderable acts hnot with ⟨f, hf⟩
    cases hcommand.symm.trans (hf.command_eq binary)
  · exact exists_command_of_isRenderable binary

/-- A step that does something fails exactly with the objection that it meets. -/
theorem command_eq_error_iff (binary : String) (acts : a.isNoop = false) {f : Failure} :
    a.command binary = .error f ↔ Objection a f := by
  constructor
  · intro h
    have hnot : ¬ a.IsRenderable := by
      intro hrenderable
      rcases exists_command_of_isRenderable binary hrenderable with ⟨command, hcommand⟩
      cases hcommand.symm.trans h
    rcases exists_objection_of_not_isRenderable acts hnot with ⟨g, hg⟩
    cases (hg.command_eq binary).symm.trans h
    exact hg
  · exact fun hf => hf.command_eq binary

theorem Objection.acts {f : Failure} (objection : Objection a f) : a.isNoop = false := by
  cases objection with
  | unsupported acts _ => exact acts
  | imageMissing _ => rfl

end Action

/-! ## Lists of steps -/

namespace Plan

structure AllOrNothing (binary : String) (p : Plan) : Prop where
  /-- It is rendered exactly if each of its steps that does something can be. -/
  rendered : (∃ commands, p.commands binary = .ok commands) ↔
    ∀ a ∈ p.actions, a.isNoop = false → a.IsRenderable
  /-- There is one command for each step that does something, in the order of the steps. -/
  inOrder : ∀ commands, p.commands binary = .ok commands →
    List.Forall₂ (Action.RenderedAs binary) (p.actions.filter (!·.isNoop)) commands
  /-- It is refused for the first step that meets an objection, whatever steps follow it. -/
  refused : ∀ f, p.commands binary = .error f ↔
    ∃ before a after, p.actions = before ++ a :: after ∧
      (∀ b ∈ before, b.isNoop = false → b.IsRenderable) ∧ a.Objection f
  /-- Steps that do nothing make no difference, wherever they stand. -/
  skipped : ∀ q : Plan, q.actions.filter (!·.isNoop) = p.actions.filter (!·.isNoop) →
    q.commands binary = p.commands binary

variable {binary : String} {p : Plan}

theorem exists_commands_iff : (∃ commands, p.commands binary = .ok commands) ↔
    ∀ a ∈ p.actions, a.isNoop = false → a.IsRenderable := by
  constructor
  · rintro ⟨commands, hcommands⟩ a ha hacts
    have hkept : a ∈ p.actions.filter (!·.isNoop) := by simp [ha, hacts]
    rcases exists_mem_of_forall₂ (mapM_eq_ok_iff.1 hcommands) hkept with ⟨command, -, hcommand⟩
    exact (Action.exists_command_iff binary hacts).1 ⟨command, hcommand⟩
  · intro h
    refine exists_mapM_eq_ok fun a ha => ?_
    have hkept : a ∈ p.actions ∧ a.isNoop = false := by simpa using ha
    exact Action.exists_command_of_isRenderable binary (h a hkept.1 hkept.2)

/-- The first step that meets an objection decides. -/
theorem commands_eq_error_iff {f : Failure} : p.commands binary = .error f ↔
    ∃ before a after, p.actions = before ++ a :: after ∧
      (∀ b ∈ before, b.isNoop = false → b.IsRenderable) ∧ a.Objection f := by
  rw [commands, mapM_eq_error_iff]
  constructor
  · rintro ⟨before, a, after, hkept, hbefore, ha⟩
    -- The steps before the failing one are those that do something among the steps before it.
    rcases List.filter_eq_append_iff.1 hkept with ⟨front, back, hactions, rfl, hback⟩
    rcases List.filter_eq_cons_iff.1 hback with ⟨idle, rest, rfl, hidle, hacts, rfl⟩
    refine ⟨front ++ idle, a, rest, by simp [hactions], ?_, ?_⟩
    · intro b hb hbacts
      rcases List.mem_append.1 hb with hfront | hmiddle
      · exact (Action.exists_command_iff binary hbacts).1 (hbefore b (by simp [hfront, hbacts]))
      · exact absurd (by simp [hbacts]) (hidle b hmiddle)
    · exact (Action.command_eq_error_iff binary (by simpa using hacts)).1 ha
  · rintro ⟨before, a, after, hactions, hbefore, hobjection⟩
    refine ⟨before.filter (!·.isNoop), a, after.filter (!·.isNoop), ?_, ?_,
      hobjection.command_eq binary⟩
    · simp [hactions, hobjection.acts]
    · intro b hb
      have hkept : b ∈ before ∧ b.isNoop = false := by simpa using hb
      exact Action.exists_command_of_isRenderable binary (hbefore b hkept.1 hkept.2)

/-- Every list of steps is rendered as a whole or not at all, for whatever program. -/
theorem allOrNothing (binary : String) (p : Plan) : AllOrNothing binary p where
  rendered := exists_commands_iff
  inOrder commands h := (forall₂_of_commands_eq_ok h).imp fun _ _ made => .of_command made
  refused _ := commands_eq_error_iff
  skipped q same := by rw [commands, commands, same]

/-- Of two objections the first is reported, and the step before them is not rendered either. -/
example : (Plan.mk .volume "data" [.create (.volume { name := "data" }),
    .start (.volume { name := "data" }),
    .create (.container { name := "web" })]).commands "docker" =
      .error (.unsupported .start .volume) := rfl

end Plan

end Converge
