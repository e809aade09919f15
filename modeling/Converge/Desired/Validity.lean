import Converge.Desired.Spec
import Converge.Failure
import Converge.Text.Blank

/-!
# Valid specs

The identity of a resource stands on docker's command lines as an operand, so it must be there, must
not look like an option, and must not hold a blank character.  What a single action needs besides is
checked where the action is decided.
-/

namespace Converge.Spec

/-- What is wrong with the spec's identity. -/
def misconfiguration? (s : Spec) : Option Misconfiguration :=
  let cs := s.identity.toList
  if cs.all Text.isBlank then some (.missingIdentity s.kind)
  else if cs.head? = some '-' then some (.leadingHyphen s.kind s.identity)
  else if cs.any Text.isBlank then some (.blankInIdentity s.kind s.identity)
  else none

/-- Fails where the identity is no operand. -/
def validate (s : Spec) : Except Failure Unit :=
  match s.misconfiguration? with
  | some cause => .error (.configuration cause)
  | none => .ok ()

/-- A spec is valid if its identity is not empty, does not start with a hyphen and holds no blank
character. -/
def IsValid (s : Spec) : Prop :=
  s.identity.toList ≠ [] ∧ s.identity.toList.head? ≠ some '-' ∧
    ∀ c ∈ s.identity.toList, Text.isBlank c = false

theorem misconfiguration?_eq_none_iff (s : Spec) : s.misconfiguration? = none ↔ s.IsValid := by
  unfold misconfiguration? IsValid
  generalize s.identity.toList = cs
  cases cs with
  | nil => simp
  | cons c cs => grind

theorem validate_eq_ok_iff_none (s : Spec) :
    s.validate = .ok () ↔ s.misconfiguration? = none := by
  unfold validate
  cases s.misconfiguration? <;> simp

theorem validate_eq_ok_iff (s : Spec) : s.validate = .ok () ↔ s.IsValid :=
  (validate_eq_ok_iff_none s).trans (misconfiguration?_eq_none_iff s)

end Converge.Spec
