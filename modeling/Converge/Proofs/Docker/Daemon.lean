import Mathlib.Logic.Function.Basic
import Converge.Proofs.Docker.Deed
import Converge.Proofs.Pass.Course

/-!
# The docker daemon

What docker is assumed to do: it knows containers with their run-states and it knows volumes, and
every deed either changes the one object that it is done to or fails.  An inspection prints the
object that it asks for on one line, and no line for an object that is missing.

A pass reads back what the daemon knows: the observed record of a container is there exactly if the
container is, and it is running exactly if the daemon says so.
-/

namespace Converge

/-! ## Deeds -/

namespace Verb

/-- What a deed makes of a container, given by its run-state if it exists. -/
def onContainer : Verb → Option String → Option (Option String)
  | create, none => some (some "created")
  | start, some _ => some (some "running")
  | stop, some _ => some (some "exited")
  | remove, some _ => some none
  | _, _ => none

def onVolume : Verb → Bool → Option Bool
  | create, _ => some true
  | remove, true => some false
  | _, _ => none

end Verb

/-- What docker knows: the run-states of the containers by their names, and the names of volumes. -/
structure Daemon where
  containers : String → Option String
  volumes : String → Bool

namespace Daemon

def setContainer (d : Daemon) (name : String) (state : Option String) : Daemon :=
  { d with containers := Function.update d.containers name state }

def setVolume (d : Daemon) (name : String) (there : Bool) : Daemon :=
  { d with volumes := Function.update d.volumes name there }

/-- The daemon after a deed, unless the deed fails.  Images and networks are kept elsewhere. -/
def perform? (d : Daemon) (deed : Deed) : Option Daemon :=
  match deed.kind with
  | .container => (deed.verb.onContainer (d.containers deed.target)).map (d.setContainer deed.target)
  | .volume => (deed.verb.onVolume (d.volumes deed.target)).map (d.setVolume deed.target)
  | .image | .network => some d

/-! ## Facts -/

def containerFacts (name state : String) : List (String × Json) :=
  [("Name", .text ("/" ++ name)), ("State", .object [("Status", .text state)])]

def volumeFacts (name : String) : List (String × Json) :=
  [("Name", .text name)]

def inspect (d : Daemon) (name : String) : Kind → List (List (String × Json))
  | .container => (d.containers name).toList.map (containerFacts name)
  | .volume => if d.volumes name then [volumeFacts name] else []
  | .image | .network => []

/-- The daemon as a host.  A call that is no deed, or a deed that fails, changes nothing. -/
def host : Host Daemon where
  fetch d q :=
    match q with
    | .inspect kind name => (.ok ((d.inspect name kind).map fun facts => (Json.object facts).render), d)
    | .list _ | .systemInfo => (.ok [], d)
  run d i :=
    match (Deed.ofArgs? i.args).bind d.perform? with
    | some d' => (.ok (), d')
    | none => (.error (.command i.line (.exited 1) ""), d)

/-- The daemon answers the queries of a pass with what it knows, and does not change. -/
theorem answer_host (spec : Spec) (d : Daemon) :
    Pass.answer host spec d =
      (.ok ((d.inspect spec.identity spec.kind).map fun facts => (Json.object facts).render), d) := by
  unfold Pass.answer
  cases spec.kind <;> rfl

/-- What the daemon prints can be read back: it has no numbers and hardly any depth. -/
theorem isPlain_of_mem_inspect {d : Daemon} {name : String} {kind : Kind}
    {facts : List (String × Json)} (h : facts ∈ d.inspect name kind) :
    Json.IsPlain 2 (.object facts) := by
  have hcontainer (state : String) : Json.IsPlain 2 (.object (containerFacts name state)) := by
    refine .object fun m hm => ?_
    rcases List.mem_cons.1 hm with rfl | hm
    · exact .text _
    · cases List.mem_singleton.1 hm
      refine .object fun m hm => ?_
      cases List.mem_singleton.1 hm
      exact .text _
  have hvolume : Json.IsPlain 2 (.object (volumeFacts name)) := by
    refine .object fun m hm => ?_
    cases List.mem_singleton.1 hm
    exact .text _
  cases kind with
  | container =>
      rcases List.mem_map.1 h with ⟨state, -, rfl⟩
      exact hcontainer state
  | volume =>
      cases hthere : d.volumes name with
      | true =>
          have : facts = volumeFacts name := by simpa [inspect, hthere] using h
          exact this ▸ hvolume
      | false => simp [inspect, hthere] at h
  | image => cases h
  | network => cases h

theorem fault?_of_mem_inspect (d : Daemon) (name : String) (kind : Kind) :
    ∀ line ∈ (d.inspect name kind).map fun facts => (Json.object facts).render,
      Fact.fault? line = none := by
  intro line hline
  rcases List.mem_map.1 hline with ⟨facts, hfacts, rfl⟩
  exact (Fact.record?_render_object (isPlain_of_mem_inspect hfacts) (by decide)).1

theorem records_inspect (d : Daemon) (name : String) (kind : Kind) :
    ((d.inspect name kind).map fun facts => (Json.object facts).render).filterMap Fact.record? =
      (d.inspect name kind).map Record.ofRaw := by
  -- Every printed line is the record of what was printed on it.
  rw [List.filterMap_map, ← List.filterMap_eq_map]
  apply List.filterMap_congr
  intro facts hfacts
  have hrecord := (Fact.record?_render_object (isPlain_of_mem_inspect hfacts) (by decide)).2
  rw [Function.comp_apply, Function.comp_apply, hrecord]

/-- A pass observes what docker knows about its object. -/
theorem observed_host (spec : Spec) (d : Daemon) :
    Pass.observed host spec d =
      ((d.inspect spec.identity spec.kind).map Record.ofRaw).head? := by
  unfold Pass.observed
  rw [answer_host]
  exact congrArg List.head? (records_inspect d spec.identity spec.kind)

/-- A pass observes a container in the run-state that the daemon has for it. -/
theorem observed_container (c : Container) (d : Daemon) :
    Pass.observed host (.container c) d =
      (d.containers c.name).map fun state => .ofRaw (containerFacts c.name state) := by
  rw [observed_host]
  cases hslot : d.containers c.name <;> simp [inspect, Spec.kind, Spec.identity, hslot]

theorem observed_volume (v : Volume) (d : Daemon) :
    (Pass.observed host (.volume v) d).isSome = d.volumes v.name := by
  rw [observed_host]
  cases hthere : d.volumes v.name <;> simp [inspect, Spec.kind, Spec.identity, hthere]

/-- The record of a container tells whether the container is running. -/
theorem isRunning_ofRaw_containerFacts (name state : String) :
    (Record.ofRaw (containerFacts name state)).isRunning = (state == "running") := by
  -- The two members keep their order, before and after they are renamed.
  have hraw : ¬ "State" < "Name" := by decide
  have hname : Fact.name "Name" = "name" := by decide
  have hstate : Fact.name "State" = "state" := by decide
  have hstatus : Fact.name "Status" = "status" := by decide
  have hfacts : ¬ "state" < "name" := by decide
  have hrecord : Record.ofRaw (containerFacts name state) =
      ⟨[("name", .text ("/" ++ name)), ("state", .object [("status", .text state)])]⟩ := by
    simp [Record.ofRaw, containerFacts, Json.canonicalMembers, Json.canonicalMember,
      Json.canonical, Json.toMap, Json.insert, Fact.renameMembers, Fact.renameMember, Fact.rename,
      Fact.treatment, hraw, hname, hstate, hstatus, hfacts]
  rw [hrecord]
  simp [Record.isRunning, Record.runState?, Record.get?, Json.get?, Json.lookup, Json.text?]

end Daemon

end Converge
