import Converge.Command.Basic
import Converge.Plan.Action

/-!
# Commands for actions

The exact call of a docker-compatible program for each action.  Repeated settings keep the order of
the spec, and a setting that is empty or off is left out.
-/

namespace Converge

/-! ## Arguments -/

namespace Args

def repeated (option : String) (values : List String) : List String :=
  values.flatMap fun value => [option, value]

/-- An option for a value that is not empty. -/
def optional (option value : String) : List String :=
  if value.isEmpty then [] else [option, value]

def switch (option : String) (on : Bool) : List String :=
  if on then [option] else []

end Args

open Args

def Container.createArgs (c : Container) : List String :=
  ["container", "create", "--name", c.name] ++
    repeated "--network" c.networks ++
    repeated "-p" c.ports ++
    repeated "-v" c.volumes ++
    repeated "-e" c.envVars ++
    (if c.pullAlways then ["--pull", "always"] else []) ++
    [c.image]

def Container.startArgs (c : Container) : List String := ["container", "start", c.name]

def Volume.createArgs (v : Volume) : List String :=
  ["volume", "create", v.name] ++ optional "-d" v.driver ++ repeated "--label" v.labels

def Network.createArgs (n : Network) : List String :=
  ["network", "create", n.name] ++
    optional "-d" n.driver ++
    optional "--gateway" n.gateway ++
    optional "--ip-range" n.ipRange ++
    optional "--ipam-driver" n.ipamDriver ++
    optional "--subnet" n.subnet ++
    optional "--scope" n.scope ++
    switch "--ingress" n.ingress ++
    switch "--attachable" n.attachable ++
    repeated "--opt" n.opts ++
    repeated "--ipam-opt" n.ipamOpts ++
    repeated "--label" n.labels

/-! ## Commands -/

/-- The program that is called unless another one is named. -/
def defaultBinary : String := "docker"

/-- The command that creates a container, and starts it where it should run. -/
def Container.createCommand (binary : String) (c : Container) : Except Failure Command :=
  if c.image.isEmpty then .error (.configuration (.imageMissing c.name))
  else if c.start then
    .ok ((Command.last ⟨binary, c.createArgs⟩).chain (.last ⟨binary, c.startArgs⟩))
  else .ok (.last ⟨binary, c.createArgs⟩)

/-- With an image there is always a command. -/
theorem Container.exists_createCommand (c : Container) (binary : String)
    (image : c.image.isEmpty = false) : ∃ command, c.createCommand binary = .ok command := by
  unfold createCommand
  cases c.start <;> simp [image]

/-- The command for an action.  Not every verb makes sense for every kind. -/
def Action.command (binary : String) (a : Action) : Except Failure Command :=
  let call (args : List String) : Except Failure Command := .ok (.last ⟨binary, args⟩)
  match a.verb, a.spec with
  | .create, .container c => c.createCommand binary
  | .remove, .container c => call ["container", "rm", "-f", c.name]
  | .start, .container c => call c.startArgs
  | .stop, .container c => call ["container", "stop", c.name]
  | .pull, .image i => call ["image", "pull", i.reference]
  | .remove, .image i => call ["image", "rm", i.reference]
  | .create, .volume v => call v.createArgs
  | .remove, .volume v => call ["volume", "rm", v.name]
  | .create, .network n => call n.createArgs
  | .remove, .network n => call ["network", "rm", n.name]
  | verb, spec => .error (.unsupported verb spec.kind)

end Converge
