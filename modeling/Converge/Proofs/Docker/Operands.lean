import Converge.Proofs.Docker.Creation
import Converge.Proofs.Manifest.Acceptance
import Converge.Proofs.Plan.Justified

/-!
# Operands

Every call of a plan has one operand, and for all but new containers it is the resource's identity,
which a valid spec keeps from looking like an option.  The operand of a call that creates a container
is the image, of which no more is known than that it is not empty: an image that starts with a hyphen
stands where docker still reads options.
-/

namespace Converge

namespace Docker

def grammar : Kind → Verb → Grammar
  | .container, .create => containerGrammar
  | .volume, .create => objectGrammar
  | .network, .create => objectGrammar
  | .container, .remove => ⟨[], ["-f"], true⟩
  | _, _ => ⟨[], [], true⟩

def reading? : List String → Option Reading
  | kind :: word :: args => do (grammar (← Kind.ofName? kind) (← Deed.verbOf? word)).read args
  | _ => none

/-- The argument that stands in the place of the operand: the image, which ends the arguments for a
new container, and the name of the object for every other call. -/
def operand? (args : List String) : Option String :=
  match Deed.ofArgs? args with
  | some ⟨.container, .create, _⟩ => args.getLast?
  | some d => some d.target
  | none => none

/-- Words that docker reads as an operand and never as an option. -/
def IsOperand (word : String) : Prop :=
  word.toList ≠ [] ∧ word.toList.head? ≠ some '-' ∧ ∀ c ∈ word.toList, Text.isBlank c = false

/-- A valid identity does not look like an option. -/
theorem isOperand_identity {s : Spec} (valid : s.validate = .ok ()) : IsOperand s.identity :=
  (s.validate_eq_ok_iff).1 valid

/-- The word is the operand of the call, and docker reads it as such unless it looks like an
option. -/
def IsOperandOf (word : String) (args : List String) : Prop :=
  operand? args = some word ∧
    ((∃ r, reading? args = some r ∧ r.operands = [word]) ↔ word.toList.head? ≠ some '-')

end Docker

open Docker

/-! ## The operands of each call -/

/-- The image is the operand of a new container. -/
theorem Container.isOperandOf_createArgs (c : Container) : IsOperandOf c.image c.createArgs := by
  have hread : reading? c.createArgs = containerGrammar.read ("--name" :: c.name ::
      (Args.repeated "--network" c.networks ++ (Args.repeated "-p" c.ports ++
        (Args.repeated "-v" c.volumes ++ (Args.repeated "-e" c.envVars ++
          (Args.repeated "--pull" (if c.pullAlways then ["always"] else []) ++ [c.image])))))) := by
    rw [createArgs_eq]
    rfl
  constructor
  · have hlast : c.createArgs.getLast? = some c.image := List.getLast?_concat
    exact hlast
  · rw [hread]
    simp (disch := decide) only [Grammar.read_valued, Grammar.read_repeated]
    by_cases hyphen : c.image.toList.head? = some '-'
    · -- Neither an option that needs a value nor an unknown one can end the arguments.
      have hend : containerGrammar.read [c.image] = none := by
        simp [Grammar.read, hyphen, containerGrammar]
      simp [hend, hyphen]
    · have hend : containerGrammar.read [c.image] = some ⟨[], [c.image]⟩ :=
        Grammar.read_operands hyphen (by decide) rfl []
      simp [hend, hyphen]

theorem Docker.Reading.operands_of_volume? {r : Reading} {v : Volume} (h : r.volume? = some v) :
    r.operands = [v.name] := by
  unfold Reading.volume? at h
  split at h
  · next name hname =>
      cases h
      exact hname
  · cases h

theorem Docker.Reading.operands_of_network? {r : Reading} {n : Network}
    (h : r.network? = some n) : r.operands = [n.name] := by
  unfold Reading.network? at h
  split at h
  · next name hname =>
      cases h
      exact hname
  · cases h

/-- The name is the operand of a new volume. -/
theorem Volume.isOperandOf_createArgs (v : Volume) (hyphen : v.name.toList.head? ≠ some '-') :
    IsOperandOf v.name v.createArgs := by
  refine ⟨rfl, fun _ => hyphen, fun _ => ?_⟩
  have hcreation := v.creation?_createArgs hyphen
  obtain ⟨args, hargs⟩ : ∃ args, v.createArgs = "volume" :: "create" :: args := ⟨_, rfl⟩
  rw [hargs] at hcreation ⊢
  rcases Option.map_eq_some_iff.1 hcreation with ⟨w, hw, hcreated⟩
  rcases Option.bind_eq_some_iff.1 hw with ⟨r, hr, hvolume⟩
  have hname : w.name = v.name := congrArg Spec.identity hcreated
  exact ⟨r, hr, hname ▸ Reading.operands_of_volume? hvolume⟩

theorem Network.isOperandOf_createArgs (n : Network) (hyphen : n.name.toList.head? ≠ some '-') :
    IsOperandOf n.name n.createArgs := by
  refine ⟨rfl, fun _ => hyphen, fun _ => ?_⟩
  have hcreation := n.creation?_createArgs hyphen
  obtain ⟨args, hargs⟩ : ∃ args, n.createArgs = "network" :: "create" :: args := ⟨_, rfl⟩
  rw [hargs] at hcreation ⊢
  rcases Option.map_eq_some_iff.1 hcreation with ⟨w, hw, hcreated⟩
  rcases Option.bind_eq_some_iff.1 hw with ⟨r, hr, hnetwork⟩
  have hname : w.name = n.name := congrArg Spec.identity hcreated
  exact ⟨r, hr, hname ▸ Reading.operands_of_network? hnetwork⟩

section Named

variable {name : String} (hyphen : name.toList.head? ≠ some '-')
include hyphen

/-- Where a subcommand is given a name and nothing else, the name is its operand. -/
theorem Docker.isOperandOf_name {args : List String} (stands : operand? args = some name)
    (alone : reading? args = Grammar.read ⟨[], [], true⟩ [name]) : IsOperandOf name args := by
  have hread := Grammar.read_operand (g := ⟨[], [], true⟩) hyphen (by simp) rfl []
  exact ⟨stands, fun _ => hyphen, fun _ => ⟨_, alone.trans hread, rfl⟩⟩

/-- A container is removed by its name, whether or not it runs. -/
theorem Docker.isOperandOf_removed : IsOperandOf name ["container", "rm", "-f", name] := by
  have hread := Grammar.read_operand (g := ⟨[], ["-f"], true⟩) hyphen (by simp) rfl []
  have hremoved : reading? ["container", "rm", "-f", name] =
      (Grammar.read ⟨[], ["-f"], true⟩ [name]).map (·.switching "-f" true) := rfl
  rw [hread] at hremoved
  exact ⟨rfl, fun _ => hyphen, fun _ => ⟨_, hremoved, rfl⟩⟩

end Named

namespace Action

/-- The operand of a call is the resource's identity, or the image of a new container. -/
theorem Justified.exists_operand {s : Spec} {o : Option Record} {a : Action}
    (justified : Justified s o a) (valid : s.validate = .ok ()) {binary : String}
    {command : Command} (h : a.command binary = .ok command) {link : Invocation}
    (mem : link ∈ command.links) :
    IsOperandOf s.identity link.args ∨
      ∃ c, s = .container c ∧ a = .create s ∧ link.args = c.createArgs ∧ c.image ≠ "" := by
  have hyphen : s.identity.toList.head? ≠ some '-' := (isOperand_identity valid).2.1
  cases justified with
  | @createContainer c _ _ image _ =>
      rw [Container.links_of_createCommand h] at mem
      rcases List.mem_cons.1 mem with rfl | mem
      · exact .inr ⟨c, rfl, rfl, rfl, by simpa using image⟩
      · -- The second link of the only chain there is.
        have hlink : link = ⟨binary, c.startArgs⟩ := by
          cases hstart : c.start <;> simp [hstart] at mem
          exact mem
        exact .inl (hlink ▸ isOperandOf_name hyphen rfl rfl)
  | removeContainer =>
      cases h
      rcases List.mem_singleton.1 mem with rfl
      exact .inl (isOperandOf_removed hyphen)
  | createVolume =>
      cases h
      rcases List.mem_singleton.1 mem with rfl
      exact .inl (Volume.isOperandOf_createArgs _ hyphen)
  | createNetwork =>
      cases h
      rcases List.mem_singleton.1 mem with rfl
      exact .inl (Network.isOperandOf_createArgs _ hyphen)
  | nothing => cases s <;> cases h
  | _ =>
      cases h
      rcases List.mem_singleton.1 mem with rfl
      exact .inl (isOperandOf_name hyphen rfl rfl)

end Action

/-! ## Manifests -/

namespace Manifest

/-- The first link of a planned creation has the image as its operand. -/
theorem exists_image_operand {c : Container} {p : Plan} {binary : String} {commands : List Command}
    (rendered : p.commands binary = .ok commands) (creates : .create (.container c) ∈ p.actions) :
    ∃ command ∈ commands, ∃ link ∈ command.links, operand? link.args = some c.image := by
  have hacts : .create (.container c) ∈ p.actions.filter (!·.isNoop) :=
    List.mem_filter.2 ⟨creates, rfl⟩
  rcases exists_mem_of_forall₂ (Plan.forall₂_of_commands_eq_ok rendered) hacts with
    ⟨command, hcommand, hcreate⟩
  have hlinks := Container.links_of_createCommand hcreate
  exact ⟨command, hcommand, ⟨binary, c.createArgs⟩, hlinks ▸ List.mem_cons_self ..,
    c.isOperandOf_createArgs.1⟩

structure Operands (s : Spec) (p : Plan) (commands : List Command) : Prop where
  /-- Every link has one operand, and docker reads it as such unless it starts with a hyphen.  It is
  the identity of the resource, which is no option, or the image of a new container, which is only
  known not to be empty. -/
  placed : ∀ command ∈ commands, ∀ link ∈ command.links, ∃ word, IsOperandOf word link.args ∧
    (word = s.identity ∧ IsOperand word ∨
      ∃ c, s = .container c ∧ link.args = c.createArgs ∧ word = c.image ∧ word ≠ "")
  /-- So no operand can be read as an option exactly if that image cannot. -/
  exact_iff : (∀ command ∈ commands, ∀ link ∈ command.links, ∀ word,
      operand? link.args = some word → IsOperand word) ↔
    ∀ c, s = .container c → .create s ∈ p.actions → IsOperand c.image

/-- The operands of whatever an accepted manifest leads to are identities and images. -/
theorem operands_of_parse {text : String} {specs : List Spec} (accepted : parse text = .ok specs)
    {s : Spec} (mem : s ∈ specs) {o : Option Record} {p : Plan} (planned : s.plan o = .ok p)
    (binary : String) :
    ∃ commands, p.commands binary = .ok commands ∧ Operands s p commands := by
  have hvalid := (parse_eq_ok_iff.1 accepted).2 s mem
  have hname := isOperand_identity hvalid
  rcases Plan.exists_commands planned binary with ⟨commands, hcommands⟩
  have hlinks {command : Command} (hcommand : command ∈ commands) {link : Invocation}
      (hlink : link ∈ command.links) :
      IsOperandOf s.identity link.args ∨
        ∃ c, s = .container c ∧ .create s ∈ p.actions ∧ link.args = c.createArgs ∧ c.image ≠ "" := by
    rcases exists_mem_of_mapM_eq_ok hcommands hcommand with ⟨a, ha, hrendered⟩
    have hplanned := (List.mem_filter.1 ha).1
    have hjustified := Spec.justified_of_plan_eq_ok planned a hplanned
    rcases hjustified.exists_operand hvalid hrendered hlink with hword | ⟨c, hs, rfl, hargs, himage⟩
    · exact .inl hword
    · exact .inr ⟨c, hs, hplanned, hargs, himage⟩
  refine ⟨commands, hcommands, ?_⟩
  constructor
  case placed =>
    intro command hcommand link hlink
    rcases hlinks hcommand hlink with hword | ⟨c, hs, -, hargs, himage⟩
    · exact ⟨s.identity, hword, .inl ⟨rfl, hname⟩⟩
    · exact ⟨c.image, hargs ▸ c.isOperandOf_createArgs, .inr ⟨c, hs, hargs, rfl, himage⟩⟩
  case exact_iff =>
    constructor
    · rintro hall c rfl hcreates
      rcases exists_image_operand hcommands hcreates with ⟨command, hcommand, link, hlink, hword⟩
      exact hall command hcommand link hlink c.image hword
    · intro himage command hcommand link hlink word hword
      rcases hlinks hcommand hlink with hidentity | ⟨c, hs, hcreates, hargs, -⟩
      · have heq : word = s.identity := Option.some.inj (hword.symm.trans hidentity.1)
        exact heq ▸ hname
      · have heq : word = c.image := by
          rw [hargs, c.isOperandOf_createArgs.1] at hword
          exact (Option.some.inj hword).symm
        exact heq ▸ himage c hs hcreates

/-- The manifest of a container that says no more than its name and its image. -/
theorem parse_of_container {name image text : String}
    (valid : (Spec.container { name := name, image := image }).misconfiguration? = none)
    (printed : text.toList = (Json.array [.object [("type", .text "container"),
      ("name", .text name), ("image", .text image)]]).chars) :
    parse text = .ok [.container { name := name, image := image }] := by
  have hplain : Json.IsPlain 2 (.array [.object [("type", .text "container"),
      ("name", .text name), ("image", .text image)]]) := by
    refine .array (List.forall_mem_singleton.2 (.object ?_))
    simp [Json.IsPlain.text]
  refine parse_of_chars hplain (by decide) printed.symm rfl (List.forall_mem_singleton.2 ?_)
  exact (Spec.validate_eq_ok_iff_none _).2 valid

/-- A container that is created and started. -/
theorem operands_of_parse_of_started :
    let text := "[\x7b\"type\":\"container\",\"name\":\"web\",\"image\":\"nginx\"\x7d]"
    let s : Spec := .container { name := "web", image := "nginx" }
    let p : Plan := .ofActions s [.create s]
    parse text = .ok [s] ∧ s.plan none = .ok p ∧
      ∃ commands, p.commands "docker" = .ok commands ∧ Operands s p commands := by
  intro text s p
  have haccepted : parse text = .ok [s] := parse_of_container (by decide) (by decide)
  have hplanned : s.plan none = .ok p :=
    Spec.plan_of_validate_eq_ok (s.validate_eq_ok_iff_none.2 (by decide)) none
  exact ⟨haccepted, hplanned,
    operands_of_parse haccepted (List.mem_singleton_self s) hplanned "docker"⟩

/-- An image that looks like an option is accepted, and stands in the place of the operand. -/
theorem operand_like_option :
    let text :=
      "[\x7b\"type\":\"container\",\"name\":\"web\",\"image\":\"--privileged\"\x7d]"
    let s : Spec := .container { name := "web", image := "--privileged" }
    parse text = .ok [s] ∧
      ∃ p commands, s.plan none = .ok p ∧ p.commands "docker" = .ok commands ∧
        ∃ command ∈ commands, ∃ link ∈ command.links,
          operand? link.args = some "--privileged" ∧ ¬ IsOperand "--privileged" := by
  intro text s
  have haccepted : parse text = .ok [s] := parse_of_container (by decide) (by decide)
  have hplanned : s.plan none = .ok (.ofActions s [.create s]) :=
    Spec.plan_of_validate_eq_ok (s.validate_eq_ok_iff_none.2 (by decide)) none
  have hcommands : (Plan.ofActions s [.create s]).commands "docker" =
      .ok [.followed ⟨"docker", ["container", "create", "--name", "web", "--privileged"]⟩
        (.last ⟨"docker", ["container", "start", "web"]⟩)] := rfl
  refine ⟨haccepted, _, _, hplanned, hcommands, _, List.mem_singleton_self _, _,
    List.mem_cons_self .., rfl, ?_⟩
  intro hoperand
  exact hoperand.2.1 rfl

end Manifest

end Converge
