import Converge.Command.Rendering

/-!
# Deeds

What docker reads from the arguments of a call: the kind of object, the verb, and the one object
that the call acts on.
-/

namespace Converge

def Verb.subcommand? : Verb → Option String
  | .create => some "create"
  | .remove => some "rm"
  | .start => some "start"
  | .stop => some "stop"
  | .pull => some "pull"
  | .noop => none

structure Deed where
  kind : Kind
  verb : Verb
  target : String
deriving DecidableEq, Repr

namespace Deed

def verbOf? (word : String) : Option Verb :=
  [.create, .remove, .start, .stop, .pull].find? (·.subcommand? == some word)

/-- The object among the arguments after the kind and the verb.  A container that is created gets
its name from an option, and every other object is named by an operand. -/
def target? : Kind → Verb → List String → Option String
  | .container, .create, "--name" :: name :: _ => some name
  | .container, .remove, ["-f", name] => some name
  | .container, .start, [name] => some name
  | .container, .stop, [name] => some name
  | .image, .pull, [reference] => some reference
  | .image, .remove, [reference] => some reference
  | .volume, .create, name :: _ => some name
  | .volume, .remove, [name] => some name
  | .network, .create, name :: _ => some name
  | .network, .remove, [name] => some name
  | _, _, _ => none

def ofArgs? : List String → Option Deed
  | kind :: word :: operands => do
    let kind ← Kind.ofName? kind
    let verb ← verbOf? word
    return ⟨kind, verb, ← target? kind verb operands⟩
  | _ => none

/-- The verb that is found for a word has that word. -/
theorem subcommand?_of_verbOf? {word : String} {v : Verb} (h : verbOf? word = some v) :
    v.subcommand? = some word := by
  simpa using List.find?_some h

/-- The first two arguments of a call say what kind of object it is about and what it does. -/
theorem args_of_ofArgs? {args : List String} {d : Deed} (h : ofArgs? args = some d) :
    args.head? = some d.kind.name ∧ args[1]? = d.verb.subcommand? := by
  rcases args with _ | ⟨kind, _ | ⟨word, operands⟩⟩
  · cases h
  · cases h
  · cases hkind : Kind.ofName? kind with
    | none => simp [ofArgs?, hkind] at h
    | some k =>
        cases hverb : verbOf? word with
        | none => simp [ofArgs?, hkind, hverb] at h
        | some v =>
            -- Kind and verb are known; only the object may still be missing.
            cases htarget : target? k v operands with
            | none => simp [ofArgs?, hkind, hverb, htarget] at h
            | some name =>
                have hd : d = ⟨k, v, name⟩ := by
                  simpa [ofArgs?, hkind, hverb, htarget] using h.symm
                subst hd
                exact ⟨by simp [Kind.name_of_ofName? hkind],
                  by simp [subcommand?_of_verbOf? hverb]⟩

theorem ofArgs?_createArgs (c : Container) :
    ofArgs? c.createArgs = some ⟨.container, .create, c.name⟩ := rfl

theorem ofArgs?_startArgs (c : Container) :
    ofArgs? c.startArgs = some ⟨.container, .start, c.name⟩ := rfl

end Deed

/-! ## The deeds of rendered commands -/

/-- Creating a container is one link, and a second one starts it where it should run. -/
theorem Container.links_of_createCommand {binary : String} {c : Container} {command : Command}
    (h : c.createCommand binary = .ok command) :
    command.links =
      ⟨binary, c.createArgs⟩ :: (if c.start then [⟨binary, c.startArgs⟩] else []) := by
  unfold createCommand at h
  cases himage : c.image.isEmpty with
  | true => simp [himage] at h
  | false =>
      cases hstart : c.start with
      | true =>
          have : command = (Command.last ⟨binary, c.createArgs⟩).chain
              (.last ⟨binary, c.startArgs⟩) := by
            simpa [himage, hstart] using h.symm
          rw [this, Command.links_chain]
          rfl
      | false =>
          have : command = .last ⟨binary, c.createArgs⟩ := by
            simpa [himage, hstart] using h.symm
          rw [this]
          rfl

namespace Action

/-- What the links of an action's command do, one after another.  A container that should run is
created and then started. -/
def linkVerbs : Action → List Verb
  | create (.container c) => .create :: (if c.start then [.start] else [])
  | noop .. => []
  | a => [a.verb]

/-- The links of an action's command are its deeds, done to the object of the action's spec. -/
theorem deeds_of_command {binary : String} {a : Action} {command : Command}
    (h : a.command binary = .ok command) :
    command.links.map (fun i => Deed.ofArgs? i.args) =
      a.linkVerbs.map fun v => some ⟨a.spec.kind, v, a.spec.identity⟩ := by
  cases a with
  | create s =>
      cases s with
      | container c =>
          rw [Container.links_of_createCommand h]
          -- The one action that may come to two links.
          cases hstart : c.start <;> simp [linkVerbs, hstart, Deed.ofArgs?_createArgs,
            Deed.ofArgs?_startArgs, spec, Spec.kind, Spec.identity]
      | image i => cases h
      | volume v =>
          cases h
          rfl
      | network n =>
          cases h
          rfl
  | remove s => cases s <;> cases h <;> rfl
  | start s =>
      cases s with
      | container c =>
          cases h
          rfl
      | _ => cases h
  | stop s =>
      cases s with
      | container c =>
          cases h
          rfl
      | _ => cases h
  | pull s =>
      cases s with
      | image i =>
          cases h
          rfl
      | _ => cases h
  | noop s reason =>
      -- Doing nothing has no command at all.
      cases s <;> cases h

/-- Every link of an action's command is one of its deeds. -/
theorem deed_of_mem_links {binary : String} {a : Action} {command : Command}
    (h : a.command binary = .ok command) {link : Invocation} (hlink : link ∈ command.links) :
    ∃ v ∈ a.linkVerbs, Deed.ofArgs? link.args = some ⟨a.spec.kind, v, a.spec.identity⟩ := by
  have hdeed : Deed.ofArgs? link.args ∈ command.links.map fun i => Deed.ofArgs? i.args :=
    List.mem_map_of_mem hlink
  rw [deeds_of_command h] at hdeed
  rcases List.mem_map.1 hdeed with ⟨v, hv, hargs⟩
  exact ⟨v, hv, hargs.symm⟩

end Action

end Converge
