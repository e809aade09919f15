import Converge.Plan.Decision
import Converge.Proofs.Failing

/-!
# Why a step is decided

`Action.Justified` lists the steps that can be decided for a spec and what was observed, each with
everything that must hold for it.  Every step of every plan is justified, and a justified step that
does something has a command.  What is said about plans elsewhere follows from this list.
-/

namespace Converge

namespace Spec

/-- Whether a container must be created and there is no image to create it from. -/
def LacksImage (s : Spec) (observed : Option Record) : Prop :=
  ∃ c, s = container c ∧ c.present = true ∧ (observed = none ∨ c.force = true) ∧
    c.image.isEmpty = true

def forced : Spec → Bool
  | container c => c.force
  | _ => false

end Spec

namespace Action

/-- The steps that can be decided, and what must hold for each of them. -/
inductive Justified : Spec → Option Record → Action → Prop where
  | createContainer {c : Container} {o : Option Record} (wanted : c.present = true)
      (image : c.image.isEmpty = false) (missing : o = none ∨ c.force = true) :
      Justified (.container c) o (.create (.container c))
  | removeContainer {c : Container} {r : Record} (unwanted : c.present = false ∨ c.force = true) :
      Justified (.container c) (some r) (.remove (.container c))
  | startContainer {c : Container} {r : Record} (wanted : c.present = true)
      (kept : c.force = false) (start : c.start = true) (idle : r.isRunning = false) :
      Justified (.container c) (some r) (.start (.container c))
  | stopContainer {c : Container} {r : Record} (wanted : c.present = true)
      (kept : c.force = false) (stop : c.start = false) (running : r.isRunning = true) :
      Justified (.container c) (some r) (.stop (.container c))
  | pullImage {i : Image} {o : Option Record} (wanted : i.present = true) :
      Justified (.image i) o (.pull (.image i))
  | removeImage {i : Image} {o : Option Record} (unwanted : i.present = false) :
      Justified (.image i) o (.remove (.image i))
  | createVolume {v : Volume} (wanted : v.present = true) :
      Justified (.volume v) none (.create (.volume v))
  | removeVolume {v : Volume} {r : Record} (unwanted : v.present = false) :
      Justified (.volume v) (some r) (.remove (.volume v))
  | createNetwork {n : Network} {o : Option Record} (wanted : n.present = true) :
      Justified (.network n) o (.create (.network n))
  | removeNetwork {n : Network} {o : Option Record} (unwanted : n.present = false) :
      Justified (.network n) o (.remove (.network n))
  | nothing {s : Spec} {o : Option Record} {reason : String} : Justified s o (.noop s reason)

/-- A justified step is about the spec that it was decided for. -/
theorem Justified.spec_eq {s : Spec} {o : Option Record} {a : Action} (h : Justified s o a) :
    a.spec = s := by
  cases h <;> rfl

/-- A justified step that does something has a command. -/
theorem Justified.exists_command {s : Spec} {o : Option Record} {a : Action}
    (h : Justified s o a) (binary : String) (acts : a.isNoop = false) :
    ∃ c, a.command binary = .ok c := by
  cases h with
  | @createContainer c _ _ image _ => exact c.exists_createCommand binary image
  | nothing => simp [isNoop, reason?] at acts
  | _ => exact ⟨_, rfl⟩

end Action

/-! ## Plans -/

theorem Container.actions_of_plan_eq_ok {c : Container} {o : Option Record} {p : Plan}
    (h : c.plan o = .ok p) : p.actions = c.actions o := by
  unfold plan at h
  cases hlacks : c.present && (o.isNone || c.force) && c.image.isEmpty with
  | true => simp [hlacks] at h
  | false =>
      have : p = .ofActions (.container c) (c.actions o) := by
        simpa [hlacks] using h.symm
      rw [this]
      rfl

/-- Every step for a container is justified, unless an image is lacking. -/
theorem Container.justified_of_mem_actions {c : Container} {o : Option Record}
    (image : ¬ (Spec.container c).LacksImage o) {a : Action} (ha : a ∈ c.actions o) :
    Action.Justified (.container c) o a := by
  -- Wherever a step creates the container, there is an image to create it from.
  have himage : c.present = true → (o = none ∨ c.force = true) → c.image.isEmpty = false := by
    intro hpresent hmissing
    cases hempty : c.image.isEmpty with
    | true => exact absurd ⟨c, rfl, hpresent, hmissing, hempty⟩ image
    | false => rfl
  cases o with
  | none =>
      cases hpresent : c.present with
      | false =>
          have : a = .noop (.container c) "does not exist" := by
            simpa [actions, stepsIf, hpresent] using ha
          exact this ▸ .nothing
      | true =>
          have : a = .create (.container c) := by
            simpa [actions, stepsIf, hpresent] using ha
          exact this ▸ .createContainer hpresent (himage hpresent (.inl rfl)) (.inl rfl)
  | some r =>
      cases hforce : c.force with
      | true =>
          cases hpresent : c.present with
          | false =>
              have : a = .remove (.container c) := by
                simpa [actions, stepsIf, hpresent, hforce] using ha
              exact this ▸ .removeContainer (.inl hpresent)
          | true =>
              have : a = .remove (.container c) ∨ a = .create (.container c) := by
                simpa [actions, stepsIf, hpresent, hforce] using ha
              -- The only plan of two steps: the container is removed for the sake of a new one.
              rcases this with rfl | rfl
              · exact .removeContainer (.inr hforce)
              · exact .createContainer hpresent (himage hpresent (.inr hforce)) (.inr hforce)
      | false =>
          cases hpresent : c.present with
          | false =>
              have : a = .remove (.container c) := by
                simpa [actions, stepsIf, hpresent, hforce] using ha
              exact this ▸ .removeContainer (.inl hpresent)
          | true =>
              cases hstart : c.start <;> cases hrunning : r.isRunning
              · have : a = .noop (.container c) "already in desired state" := by
                  simpa [actions, stepsIf, hpresent, hforce, hstart, hrunning] using ha
                exact this ▸ .nothing
              · have : a = .stop (.container c) := by
                  simpa [actions, stepsIf, hpresent, hforce, hstart, hrunning] using ha
                exact this ▸ .stopContainer hpresent hforce hstart hrunning
              · have : a = .start (.container c) := by
                  simpa [actions, stepsIf, hpresent, hforce, hstart, hrunning] using ha
                exact this ▸ .startContainer hpresent hforce hstart hrunning
              · have : a = .noop (.container c) "already in desired state" := by
                  simpa [actions, stepsIf, hpresent, hforce, hstart, hrunning] using ha
                exact this ▸ .nothing

namespace Spec

/-- An invalid spec is a misconfiguration. -/
theorem misconfiguration_of_validate_eq_error {s : Spec} {e : Failure}
    (h : s.validate = .error e) :
    ∃ cause, s.misconfiguration? = some cause ∧ e = .configuration cause := by
  unfold validate at h
  cases hm : s.misconfiguration? with
  | none => simp [hm] at h
  | some cause => exact ⟨cause, rfl, by simpa [hm] using h.symm⟩

theorem plan_of_validate_eq_ok {s : Spec} (h : s.validate = .ok ()) (o : Option Record) :
    s.plan o = s.planUnchecked o := by
  unfold plan
  rw [h]
  rfl

/-- A container that must be created and has no image has no plan at all. -/
theorem planUnchecked_of_lacksImage {s : Spec} {o : Option Record} (h : s.LacksImage o) :
    s.planUnchecked o = .error (.configuration (.imageNeeded s.identity)) := by
  rcases h with ⟨c, rfl, hpresent, hmissing, himage⟩
  have hneeded : (c.present && (o.isNone || c.force)) = true := by
    rcases hmissing with rfl | hforce
    · simp [hpresent]
    · simp [hpresent, hforce]
  simp [planUnchecked, Container.plan, hneeded, himage, identity]

/-- Every other resource has a plan, with nothing but justified steps for this resource. -/
theorem exists_planUnchecked {s : Spec} {o : Option Record} (image : ¬ s.LacksImage o) :
    ∃ p, s.planUnchecked o = .ok p ∧ p.kind = s.kind ∧ p.identity = s.identity ∧
      ∀ a ∈ p.actions, Action.Justified s o a := by
  cases s with
  | container c =>
      have hneeded : (c.present && (o.isNone || c.force) && c.image.isEmpty) = false := by
        cases hneed : c.present && (o.isNone || c.force) && c.image.isEmpty with
        | false => rfl
        | true =>
            simp only [Bool.and_eq_true, Bool.or_eq_true, Option.isNone_iff_eq_none] at hneed
            exact absurd ⟨c, rfl, hneed.1.1, hneed.1.2, hneed.2⟩ image
      refine ⟨.ofActions (.container c) (c.actions o), ?_, rfl, rfl, ?_⟩
      · simp [planUnchecked, Container.plan, hneeded]
      · intro a ha
        exact Container.justified_of_mem_actions image ha
  | image i =>
      refine ⟨_, rfl, rfl, rfl, ?_⟩
      intro a ha
      cases hpresent : i.present with
      | true =>
          have : a = .pull (.image i) := by simpa [Image.plan, Plan.ofActions, hpresent] using ha
          exact this ▸ .pullImage hpresent
      | false =>
          have : a = .remove (.image i) := by simpa [Image.plan, Plan.ofActions, hpresent] using ha
          exact this ▸ .removeImage hpresent
  | volume v =>
      refine ⟨_, rfl, rfl, rfl, ?_⟩
      intro a ha
      cases o with
      | none =>
          cases hpresent : v.present with
          | true =>
              have : a = .create (.volume v) := by
                simpa [Volume.plan, Plan.ofActions, hpresent] using ha
              exact this ▸ .createVolume hpresent
          | false =>
              have : a = .noop (.volume v) "does not exist" := by
                simpa [Volume.plan, Plan.ofActions, hpresent] using ha
              exact this ▸ .nothing
      | some r =>
          cases hpresent : v.present with
          | true =>
              have : a = .noop (.volume v) "already exists" := by
                simpa [Volume.plan, Plan.ofActions, hpresent] using ha
              exact this ▸ .nothing
          | false =>
              have : a = .remove (.volume v) := by
                simpa [Volume.plan, Plan.ofActions, hpresent] using ha
              exact this ▸ .removeVolume hpresent
  | network n =>
      refine ⟨_, rfl, rfl, rfl, ?_⟩
      intro a ha
      cases hpresent : n.present with
      | true =>
          have : a = .create (.network n) := by
            simpa [Network.plan, Plan.ofActions, hpresent] using ha
          exact this ▸ .createNetwork hpresent
      | false =>
          have : a = .remove (.network n) := by
            simpa [Network.plan, Plan.ofActions, hpresent] using ha
          exact this ▸ .removeNetwork hpresent

/-- What is planned is about the resource, and holds only justified steps. -/
theorem justified_of_planUnchecked {s : Spec} {o : Option Record} {p : Plan}
    (h : s.planUnchecked o = .ok p) :
    p.kind = s.kind ∧ p.identity = s.identity ∧ ∀ a ∈ p.actions, Action.Justified s o a := by
  -- Without its image the spec would have no plan.
  have image : ¬ s.LacksImage o := by
    intro hl
    rw [planUnchecked_of_lacksImage hl] at h
    cases h
  rcases exists_planUnchecked image with ⟨q, hq, habout⟩
  cases hq.symm.trans h
  exact habout

/-- A plan is made without looking at the identity once that has been checked. -/
theorem planUnchecked_of_plan {s : Spec} {o : Option Record} {p : Plan} (h : s.plan o = .ok p) :
    s.planUnchecked o = .ok p := by
  rcases bind_eq_ok_iff.1 h with ⟨_, -, hplanned⟩
  exact hplanned

/-- A plan comes from a valid spec that lacks no image, and holds only justified steps. -/
theorem justified_of_plan_eq_ok {s : Spec} {o : Option Record} {p : Plan}
    (h : s.plan o = .ok p) : ∀ a ∈ p.actions, Action.Justified s o a :=
  (justified_of_planUnchecked (planUnchecked_of_plan h)).2.2

end Spec

/-- Where every step is justified there are commands, one for each step that does something. -/
theorem Plan.exists_commands_of_justified {s : Spec} {o : Option Record} {p : Plan}
    (h : ∀ a ∈ p.actions, Action.Justified s o a) (binary : String) :
    ∃ cs, p.commands binary = .ok cs := by
  apply exists_mapM_eq_ok
  intro a ha
  rw [List.mem_filter] at ha
  exact (h a ha.1).exists_command binary (by simpa using ha.2)

/-- Every plan has commands. -/
theorem Plan.exists_commands {s : Spec} {o : Option Record} {p : Plan}
    (h : s.plan o = .ok p) (binary : String) : ∃ cs, p.commands binary = .ok cs :=
  exists_commands_of_justified (Spec.justified_of_plan_eq_ok h) binary

/-- The commands of a plan belong to its steps one by one. -/
theorem Plan.forall₂_of_commands_eq_ok {binary : String} {p : Plan} {cs : List Command}
    (h : p.commands binary = .ok cs) :
    List.Forall₂ (fun a c => Action.command binary a = .ok c) (p.actions.filter (!·.isNoop)) cs :=
  mapM_eq_ok_iff.1 h

end Converge
