import Converge.Desired.Kind

/-!
# Desired state

What a resource should look like.  A resource is present unless it says otherwise, a container is
also started, and every other setting is empty or off.
-/

namespace Converge

/-- The desired state of a container. -/
structure Container where
  name : String := ""
  image : String := ""
  ports : List String := []
  networks : List String := []
  volumes : List String := []
  envVars : List String := []
  pullAlways : Bool := false
  present : Bool := true
  force : Bool := false
  start : Bool := true
deriving DecidableEq, Repr

structure Image where
  reference : String := ""
  present : Bool := true
deriving DecidableEq, Repr

structure Volume where
  name : String := ""
  driver : String := ""
  labels : List String := []
  present : Bool := true
deriving DecidableEq, Repr

structure Network where
  name : String := ""
  driver : String := ""
  gateway : String := ""
  ipRange : String := ""
  ipamDriver : String := ""
  subnet : String := ""
  scope : String := ""
  ingress : Bool := false
  attachable : Bool := false
  opts : List String := []
  ipamOpts : List String := []
  labels : List String := []
  present : Bool := true
deriving DecidableEq, Repr

/-- The desired state of a resource. -/
inductive Spec where
  | container (c : Container)
  | image (i : Image)
  | volume (v : Volume)
  | network (n : Network)
deriving DecidableEq, Repr

namespace Spec

def kind : Spec → Kind
  | container _ => .container
  | image _ => .image
  | volume _ => .volume
  | network _ => .network

/-- The name or reference by which docker knows the resource. -/
def identity : Spec → String
  | container c => c.name
  | image i => i.reference
  | volume v => v.name
  | network n => n.name

def present : Spec → Bool
  | container c => c.present
  | image i => i.present
  | volume v => v.present
  | network n => n.present

/-- Whether a decision about the resource depends on what docker reports.  The commands for images
and networks may be repeated, so these are never asked about. -/
def needsFacts (s : Spec) : Bool :=
  match s.kind with
  | .container | .volume => true
  | .image | .network => false

/-- The spec that gives a resource's identity and leaves the rest at its default. -/
def ofIdentity (identity : String) : Kind → Spec
  | .container => container { name := identity }
  | .image => image { reference := identity }
  | .volume => volume { name := identity }
  | .network => network { name := identity }

/-- The spec with an image to run, where it is a container's. -/
def withImage (s : Spec) (image : String) : Spec :=
  match s with
  | container c => container { c with image := image }
  | s => s

end Spec

end Converge
