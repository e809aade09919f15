import Converge.Command.Rendering

/-!
# Options and operands

How docker reads the arguments after a subcommand.  A valued option takes the argument after it,
whatever that is, a switch stands alone, and any other argument that does not start with a hyphen is
an operand.  Some subcommands read options among the operands, for the others the first operand ends
the options.

What `Args.repeated`, `Args.optional` and `Args.switch` write is read back as it was meant, wherever
it stands before the first operand that ends the options.
-/

namespace Converge.Docker

/-- The options of a subcommand, and whether they may stand among its operands. -/
structure Grammar where
  valued : List String
  switches : List String
  interspersed : Bool

/-- What arguments are read as: the options in their order, those that take a value with it, and the
operands in theirs. -/
structure Reading where
  options : List (String × Option String)
  operands : List String
deriving DecidableEq, Repr

namespace Reading

/-- The reading with an option before all others, once for each value. -/
def giving (option : String) (values : List String) (r : Reading) : Reading :=
  { r with options := values.map (fun value => (option, some value)) ++ r.options }

def switching (option : String) (on : Bool) (r : Reading) : Reading :=
  { r with options := (if on then [(option, none)] else []) ++ r.options }

def operand (word : String) (r : Reading) : Reading := { r with operands := word :: r.operands }

def values (r : Reading) (option : String) : List String :=
  r.options.filterMap fun o => if o.1 = option then o.2 else none

/-- The value of an option that may be given once; of several, docker keeps the last one. -/
def value (r : Reading) (option : String) : String := (r.values option).getLast?.getD ""

def isOn (r : Reading) (option : String) : Bool := r.options.contains (option, none)

section Options

variable (r : Reading) (option other word : String) (values : List String) (on : Bool)

@[simp] theorem values_giving :
    (r.giving other values).values option =
      (if other = option then values else []) ++ r.values option := by
  unfold Reading.values giving
  rw [List.filterMap_append, List.filterMap_map, Function.comp_def]
  by_cases h : other = option <;> simp [h]

@[simp] theorem values_switching : (r.switching other on).values option = r.values option := by
  cases on <;> simp [switching, Reading.values]

@[simp] theorem values_operand : (r.operand word).values option = r.values option := rfl

@[simp] theorem isOn_giving : (r.giving other values).isOn option = r.isOn option := by
  simp [giving, isOn]

@[simp] theorem isOn_switching :
    (r.switching other on).isOn option = ((on && decide (option = other)) || r.isOn option) := by
  cases on <;> simp [switching, isOn]

@[simp] theorem isOn_operand : (r.operand word).isOn option = r.isOn option := rfl

@[simp] theorem operands_giving : (r.giving other values).operands = r.operands := rfl

@[simp] theorem operands_switching : (r.switching other on).operands = r.operands := rfl

@[simp] theorem operands_operand : (r.operand word).operands = word :: r.operands := rfl

@[simp] theorem values_of_no_options (operands : List String) :
    Reading.values ⟨[], operands⟩ option = [] := rfl

@[simp] theorem isOn_of_no_options (operands : List String) : isOn ⟨[], operands⟩ option = false :=
  rfl

end Options

/-- A setting that is left out where it is empty still has its value. -/
@[simp] theorem getLast?_getD_optional (value : String) :
    (if value = "" then [] else [value]).getLast?.getD "" = value := by
  by_cases h : value = "" <;> simp [h]

end Reading

namespace Grammar

/-- Reads arguments, unless an option is unknown or lacks its value. -/
def read (g : Grammar) : List String → Option Reading
  | [] => some ⟨[], []⟩
  | word :: rest =>
    if g.valued.contains word then
      match rest with
      | value :: rest => (g.read rest).map (·.giving word [value])
      | [] => none
    else if g.switches.contains word then (g.read rest).map (·.switching word true)
    else if word.toList.head? = some '-' then none
    else if g.interspersed then (g.read rest).map (·.operand word)
    else some ⟨[], word :: rest⟩

variable {g : Grammar} {option : String}

/-- A valued option takes the next argument, even one that looks like an option. -/
theorem read_valued (known : g.valued.contains option = true) (value : String)
    (rest : List String) :
    g.read (option :: value :: rest) = (g.read rest).map (·.giving option [value]) := by
  rw [read, if_pos known]

/-- An option that is repeated for each value gives all of them in their order. -/
theorem read_repeated (known : g.valued.contains option = true) (values rest : List String) :
    g.read (Args.repeated option values ++ rest) = (g.read rest).map (·.giving option values) := by
  induction values with
  | nil =>
      have hid : (fun r : Reading => r.giving option []) = id := rfl
      rw [hid, Option.map_id]
      rfl
  | cons value values ih =>
      have hcons : Args.repeated option (value :: values) ++ rest =
          option :: value :: (Args.repeated option values ++ rest) := rfl
      rw [hcons, read_valued known, ih, Option.map_map]
      rfl

/-- A setting that may be left out is an option that is given once or not at all. -/
theorem read_optional (known : g.valued.contains option = true) (value : String)
    (rest : List String) :
    g.read (Args.optional option value ++ rest) =
      (g.read rest).map (·.giving option (if value = "" then [] else [value])) := by
  have hrepeated : Args.optional option value =
      Args.repeated option (if value = "" then [] else [value]) := by
    by_cases h : value = "" <;> simp [Args.optional, Args.repeated, h]
  rw [hrepeated]
  exact read_repeated known _ rest

/-- An argument that takes no value is read by itself, whatever follows it. -/
theorem read_of_not_valued {word : String} (unvalued : g.valued.contains word = false)
    (rest : List String) :
    g.read (word :: rest) =
      if g.switches.contains word then (g.read rest).map (·.switching word true)
      else if word.toList.head? = some '-' then none
      else if g.interspersed then (g.read rest).map (·.operand word)
      else some ⟨[], word :: rest⟩ := by
  have hvalued : word ∉ g.valued := by simpa using unvalued
  cases rest <;> simp [read, hvalued]

/-- A switch that is given is read as on, and one that is not given leaves no word behind. -/
theorem read_switch (unvalued : g.valued.contains option = false)
    (known : g.switches.contains option = true) (on : Bool) (rest : List String) :
    g.read (Args.switch option on ++ rest) = (g.read rest).map (·.switching option on) := by
  cases on with
  | false =>
      have hid : (fun r : Reading => r.switching option false) = id := rfl
      rw [hid, Option.map_id]
      rfl
  | true =>
      have hcons : Args.switch option true ++ rest = option :: rest := rfl
      rw [hcons, read_of_not_valued unvalued, if_pos known]

section Operands

variable {word : String} (hyphen : word.toList.head? ≠ some '-')
  (options : ∀ option ∈ g.valued ++ g.switches, option.toList.head? = some '-')
include hyphen options

/-- A word without a hyphen in front is no option. -/
theorem not_option : g.valued.contains word = false ∧ g.switches.contains word = false := by
  have hnone : word ∉ g.valued ++ g.switches := by
    intro hmem
    exact hyphen (options word hmem)
  simpa using hnone

/-- A word that does not look like an option is an operand. -/
theorem read_operand (interspersed : g.interspersed = true) (rest : List String) :
    g.read (word :: rest) = (g.read rest).map (·.operand word) := by
  have hnone := not_option hyphen options
  rw [read_of_not_valued hnone.1, hnone.2]
  simp [hyphen, interspersed]

/-- Where options do not stand among operands, everything from the first operand on is an operand. -/
theorem read_operands (ends : g.interspersed = false) (rest : List String) :
    g.read (word :: rest) = some ⟨[], word :: rest⟩ := by
  have hnone := not_option hyphen options
  rw [read_of_not_valued hnone.1, hnone.2]
  simp [hyphen, ends]

end Operands

end Grammar

end Converge.Docker
