import Converge.Desired.Validity
import Converge.Proofs.Docker.Deed
import Converge.Proofs.Docker.Options

/-!
# What a creation asks for

The arguments of `create` carry every setting of a spec that matters for the new object.  Docker
reads from them exactly these settings, whatever texts they hold, so two specs that ask for different
objects are never rendered alike.
-/

namespace Converge

/-! ## Reading creations -/

namespace Docker

/-- The options of `container create`.  Everything after the image is the container's own command. -/
def containerGrammar : Grammar where
  valued := ["--name", "--network", "-p", "-v", "-e", "--pull"]
  switches := []
  interspersed := false

def objectGrammar : Grammar where
  valued := ["-d", "--label", "--gateway", "--ip-range", "--ipam-driver", "--subnet", "--scope",
    "--opt", "--ipam-opt"]
  switches := ["--ingress", "--attachable"]
  interspersed := true

/-- The container that is asked for: its only operand is the image. -/
def Reading.container? (r : Reading) : Option Container :=
  match r.operands with
  | [image] => some {
      name := r.value "--name"
      image := image
      ports := r.values "-p"
      networks := r.values "--network"
      volumes := r.values "-v"
      envVars := r.values "-e"
      pullAlways := r.value "--pull" == "always" }
  | _ => none

def Reading.volume? (r : Reading) : Option Volume :=
  match r.operands with
  | [name] => some { name := name, driver := r.value "-d", labels := r.values "--label" }
  | _ => none

def Reading.network? (r : Reading) : Option Network :=
  match r.operands with
  | [name] => some {
      name := name
      driver := r.value "-d"
      gateway := r.value "--gateway"
      ipRange := r.value "--ip-range"
      ipamDriver := r.value "--ipam-driver"
      subnet := r.value "--subnet"
      scope := r.value "--scope"
      ingress := r.isOn "--ingress"
      attachable := r.isOn "--attachable"
      opts := r.values "--opt"
      ipamOpts := r.values "--ipam-opt"
      labels := r.values "--label" }
  | _ => none

def creation? : List String → Option Spec
  | "container" :: "create" :: args =>
    ((containerGrammar.read args).bind Reading.container?).map .container
  | "volume" :: "create" :: args => ((objectGrammar.read args).bind Reading.volume?).map .volume
  | "network" :: "create" :: args => ((objectGrammar.read args).bind Reading.network?).map .network
  | _ => none

end Docker

namespace Spec

/-- The settings of a spec that matter for a new object.  The others are at their defaults. -/
def created : Spec → Spec
  | container c => container {
      name := c.name, image := c.image, ports := c.ports, networks := c.networks,
      volumes := c.volumes, envVars := c.envVars, pullAlways := c.pullAlways }
  | image i => image i
  | volume v => volume { name := v.name, driver := v.driver, labels := v.labels }
  | network n => network {
      name := n.name, driver := n.driver, gateway := n.gateway, ipRange := n.ipRange,
      ipamDriver := n.ipamDriver, subnet := n.subnet, scope := n.scope, ingress := n.ingress,
      attachable := n.attachable, opts := n.opts, ipamOpts := n.ipamOpts, labels := n.labels }

/-- Whether docker has something to create for the spec.  Images are pulled and not created, and a
container is created from an image, whose name does not start like an option. -/
def IsCreatable : Spec → Prop
  | container c => c.image ≠ "" ∧ c.image.toList.head? ≠ some '-'
  | image _ => False
  | volume _ | network _ => True

end Spec

/-! ## What is rendered is read back -/

open Docker

/-- The settings of a new container stand one after another, and the image stands last. -/
theorem Container.createArgs_eq (c : Container) :
    c.createArgs = "container" :: "create" :: "--name" :: c.name ::
      (Args.repeated "--network" c.networks ++ (Args.repeated "-p" c.ports ++
        (Args.repeated "-v" c.volumes ++ (Args.repeated "-e" c.envVars ++
          (Args.repeated "--pull" (if c.pullAlways then ["always"] else []) ++ [c.image]))))) := by
  cases hpull : c.pullAlways <;> simp [createArgs, Args.repeated, hpull]

/-- The image is the first operand of a new container, and nothing follows it. -/
theorem Container.creation?_createArgs (c : Container) (image : c.image.toList.head? ≠ some '-') :
    creation? c.createArgs = some (Spec.container c).created := by
  have hend : containerGrammar.read [c.image] = some ⟨[], [c.image]⟩ :=
    Grammar.read_operands image (by decide) rfl []
  have hpull : ((if c.pullAlways then ["always"] else []).getLast?.getD "" == "always") =
      c.pullAlways := by
    cases c.pullAlways <;> rfl
  rw [createArgs_eq, creation?]
  -- Every option is read with its own value, so the reading goes on where the next setting starts.
  simp (disch := decide) only [Grammar.read_valued, Grammar.read_repeated, hend, Option.map_some,
    Option.bind_some]
  simp [Reading.container?, Reading.value, Spec.created, hpull]

/-- The name is the only operand of a new volume, and the options stand after it. -/
theorem Volume.creation?_createArgs (v : Volume) (hyphen : v.name.toList.head? ≠ some '-') :
    creation? v.createArgs = some (Spec.volume v).created := by
  have hname (rest : List String) :
      objectGrammar.read (v.name :: rest) = (objectGrammar.read rest).map (·.operand v.name) :=
    Grammar.read_operand hyphen (by decide) rfl rest
  have hargs : v.createArgs = "volume" :: "create" :: v.name ::
      (Args.optional "-d" v.driver ++ (Args.repeated "--label" v.labels ++ [])) := by
    simp [createArgs]
  rw [hargs, creation?, hname]
  simp (disch := decide) only [Grammar.read_optional, Grammar.read_repeated, Grammar.read,
    Option.map_some, Option.bind_some]
  simp [Reading.volume?, Reading.value, Spec.created]

theorem Network.creation?_createArgs (n : Network) (hyphen : n.name.toList.head? ≠ some '-') :
    creation? n.createArgs = some (Spec.network n).created := by
  have hname (rest : List String) :
      objectGrammar.read (n.name :: rest) = (objectGrammar.read rest).map (·.operand n.name) :=
    Grammar.read_operand hyphen (by decide) rfl rest
  have hargs : n.createArgs = "network" :: "create" :: n.name ::
      (Args.optional "-d" n.driver ++ (Args.optional "--gateway" n.gateway ++
        (Args.optional "--ip-range" n.ipRange ++ (Args.optional "--ipam-driver" n.ipamDriver ++
          (Args.optional "--subnet" n.subnet ++ (Args.optional "--scope" n.scope ++
            (Args.switch "--ingress" n.ingress ++ (Args.switch "--attachable" n.attachable ++
              (Args.repeated "--opt" n.opts ++ (Args.repeated "--ipam-opt" n.ipamOpts ++
                (Args.repeated "--label" n.labels ++ []))))))))))) := by
    simp [createArgs]
  rw [hargs, creation?, hname]
  simp (disch := decide) only [Grammar.read_optional, Grammar.read_repeated, Grammar.read_switch,
    Grammar.read, Option.map_some, Option.bind_some]
  simp [Reading.network?, Reading.value, Spec.created]

namespace Spec

/-- A valid spec that can be created has a command, and docker reads from its first call what the
spec asks for. -/
theorem exists_creation (binary : String) {s : Spec} (valid : s.validate = .ok ())
    (creatable : s.IsCreatable) :
    ∃ command link more, (Action.create s).command binary = .ok command ∧
      command.links = link :: more ∧ link.program = binary ∧ creation? link.args = some s.created := by
  have hhyphen : s.identity.toList.head? ≠ some '-' := ((validate_eq_ok_iff s).1 valid).2.1
  cases s with
  | container c =>
      have himage : c.image.isEmpty = false := by simpa using creatable.1
      have hcreate : (Action.create (container c)).command binary = c.createCommand binary := rfl
      rcases c.exists_createCommand binary himage with ⟨command, hcommand⟩
      exact ⟨command, ⟨binary, c.createArgs⟩, _, hcreate.trans hcommand,
        Container.links_of_createCommand hcommand, rfl, c.creation?_createArgs creatable.2⟩
  | image i => exact absurd creatable id
  | volume v => exact ⟨_, _, [], rfl, rfl, rfl, v.creation?_createArgs hhyphen⟩
  | network n => exact ⟨_, _, [], rfl, rfl, rfl, n.creation?_createArgs hhyphen⟩

/-- Docker reads from the call that creates an object exactly the settings of the spec, and two specs
that ask for different objects have different calls. -/
theorem creation_read_back (binary : String) {s : Spec} (valid : s.validate = .ok ())
    (creatable : s.IsCreatable) :
    ∃ command link more, (Action.create s).command binary = .ok command ∧
      command.links = link :: more ∧ link.program = binary ∧
      creation? link.args = some s.created ∧
      ∀ t : Spec, t.validate = .ok () → t.IsCreatable → ∀ other,
        (Action.create t).command binary = .ok other → other.links.head? = some link →
        t.created = s.created := by
  rcases exists_creation binary valid creatable with
    ⟨command, link, more, hcommand, hlinks, hprogram, hread⟩
  refine ⟨command, link, more, hcommand, hlinks, hprogram, hread, ?_⟩
  intro t hvalid hcreatable other hother hhead
  rcases exists_creation binary hvalid hcreatable with ⟨command', link', more', h₁, h₂, -, h₄⟩
  -- The other spec has one command only, and its first call is the one that was read.
  have hsame : command' = other := Except.ok.inj (h₁.symm.trans hother)
  have hlink : link' = link := by simpa [← hsame, h₂] using hhead
  have hboth : some t.created = some s.created := by rw [← h₄, hlink, hread]
  exact Option.some.inj hboth

/-- Settings that look like options are no options. -/
theorem creation_read_back_of_option_like :
    let s : Spec := .container {
      name := "web", image := "nginx:alpine", ports := ["-p", "80:80", ""],
      networks := ["--name", "proxy"], envVars := ["-e", "--pull"], pullAlways := true }
    s.validate = .ok () ∧ s.IsCreatable ∧
      ∃ command link more, (Action.create s).command "docker" = .ok command ∧
        command.links = link :: more ∧ link.program = "docker" ∧
        creation? link.args = some s.created ∧
        ∀ t : Spec, t.validate = .ok () → t.IsCreatable → ∀ other,
          (Action.create t).command "docker" = .ok other → other.links.head? = some link →
          t.created = s.created := by
  intro s
  have hvalid : s.validate = .ok () := s.validate_eq_ok_iff_none.2 (by decide)
  have hcreatable : s.IsCreatable := ⟨by decide, by decide⟩
  exact ⟨hvalid, hcreatable, creation_read_back "docker" hvalid hcreatable⟩

end Spec

end Converge
