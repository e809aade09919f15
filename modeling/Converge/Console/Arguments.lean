/-!
# Arguments of the command line

What the words of a command line ask for.  The words are taken from left to right.  A word with two
hyphens is an option by its long name, with its value after `=` or in the next word.  A word with
one hyphen is a cluster of short options, of which one that takes a value takes the rest of the
word.  After a lone `--`, every word is an operand.
-/

namespace Converge.Console

inductive UsageFault where
  | unknownOption (word : String)
  | missingValue (option : String)
  | surplusValue (option : String)
  | emptyValue (option : String)
  | repeated (option : String)
  | unexpectedOperand (word : String)
  | missingCommand
  | unknownCommand (word : String)
  | missingOption (option : String)
  | missingOperand (name : String)
deriving DecidableEq, Repr

def UsageFault.message : UsageFault → String
  | unknownOption word => "unknown option '" ++ word ++ "'"
  | missingValue option => "option '" ++ option ++ "' needs a value"
  | surplusValue option => "option '" ++ option ++ "' takes no value"
  | emptyValue option => "option '" ++ option ++ "' needs a value that is not empty"
  | repeated option => "option '" ++ option ++ "' is given twice"
  | unexpectedOperand word => "unexpected argument '" ++ word ++ "'"
  | missingCommand => "a command is needed: plan, apply, facts or help"
  | unknownCommand word => "unknown command '" ++ word ++ "'"
  | missingOption option => "option '" ++ option ++ "' is needed"
  | missingOperand name => "argument '" ++ name ++ "' is needed"

/-! ## Options and operands -/

/-- What an option does. -/
inductive Effect where
  | value (mayBeEmpty : Bool)
  | switch
  | help
  | version
deriving DecidableEq, Repr

structure Opt where
  long : String
  short : Option Char
  effect : Effect
deriving DecidableEq, Repr

/-- What a command line may hold. -/
structure Grammar where
  options : List Opt
  operands : Nat
  commands : List String
deriving Repr

/-- The words that were understood.  `waiting` is an option whose value must come next, and after
`operandsOnly` no word is an option any more. -/
structure Scan where
  values : List (String × String) := []
  operands : List String := []
  waiting : Option Opt := none
  operandsOnly : Bool := false
deriving Repr

/-- How the reading of the words ended. -/
inductive Scanned where
  | words (s : Scan)
  | command (name : String) (s : Scan) (rest : List String)
  | help
  | version
deriving Repr

/-- What a word made of the reading: it goes on, or it ends with help or the version. -/
inductive Next where
  | go (s : Scan)
  | help
  | version
deriving Repr

namespace Scan

/-- Records the value of an option, which may be given once. -/
def record (s : Scan) (o : Opt) (value : String) : Except UsageFault Scan :=
  if (s.values.lookup o.long).isSome then .error (.repeated o.long)
  else if o.effect = .value false ∧ value = "" then .error (.emptyValue o.long)
  else .ok { s with values := (o.long, value) :: s.values, waiting := none }

/-- Takes an option that has no value. -/
def plain (s : Scan) (o : Opt) : Except UsageFault Next :=
  match o.effect with
  | .help => .ok .help
  | .version => .ok .version
  | _ => (s.record o "").map .go

def long (g : Grammar) (s : Scan) (word : List Char) : Except UsageFault Next :=
  let name := String.ofList (word.takeWhile (· != '='))
  let attached := (word.dropWhile (· != '=')).tail?.map String.ofList
  match g.options.find? (·.long == name) with
  | none => .error (.unknownOption name)
  | some o =>
    match o.effect, attached with
    | .value _, some v => (s.record o v).map .go
    | .value _, none => .ok (.go { s with waiting := some o })
    | _, some _ => .error (.surplusValue name)
    | _, none => s.plain o

def short (g : Grammar) (s : Scan) : List Char → Except UsageFault Next
  | [] => .ok (.go s)
  | c :: cs =>
    match g.options.find? (·.short == some c) with
    | none => .error (.unknownOption (String.ofList [c]))
    | some o =>
      match o.effect, cs with
      | .value _, [] => .ok (.go { s with waiting := some o })
      | .value _, '=' :: v => (s.record o (String.ofList v)).map .go
      | .value _, v => (s.record o (String.ofList v)).map .go
      | _, _ => do
        match ← s.plain o with
        | .go s => short g s cs
        | ended => .ok ended

def operand (g : Grammar) (s : Scan) (word : String) : Except UsageFault Scan :=
  if s.operands.length < g.operands then .ok { s with operands := s.operands ++ [word] }
  else if g.commands.isEmpty then .error (.unexpectedOperand word)
  else .error (.unknownCommand word)

/-- Takes a word that is no command. -/
def word (g : Grammar) (s : Scan) (w : String) : Except UsageFault Next :=
  if s.operandsOnly then (s.operand g w).map .go
  else
    match w.toList, s.waiting with
    | ['-', '-'], some o | '-' :: _ :: _, some o => .error (.missingValue o.long)
    | _, some o => (s.record o w).map .go
    | ['-', '-'], none => .ok (.go { s with operandsOnly := true })
    | '-' :: '-' :: cs, none => s.long g cs
    | '-' :: c :: cs, none => s.short g (c :: cs)
    | _, none => (s.operand g w).map .go

end Scan

/-- Takes the words one after another, up to the first command. -/
def scan (g : Grammar) (s : Scan) : List String → Except UsageFault Scanned
  | [] =>
    match s.waiting with
    | some o => .error (.missingValue o.long)
    | none => .ok (.words s)
  | w :: ws =>
    if !s.operandsOnly && s.waiting.isNone && g.commands.contains w then .ok (.command w s ws)
    else do
      match ← s.word g w with
      | .go s => scan g s ws
      | .help => .ok .help
      | .version => .ok .version

/-! ## The command line of the program -/

/-- What a command line asks for. -/
inductive Request where
  | help
  | version
  | plan (docker : String) (manifest : String)
  | apply (docker : String) (manifest : String) (dryRun : Bool)
  | facts (docker : String) (kind : String) (identity : Option String)
deriving DecidableEq, Repr

namespace Request

def helpOption : Opt := ⟨"help", some 'h', .help⟩

/-- The option that names the manifest. -/
def manifestOption : Opt := ⟨"manifest", some 'f', .value false⟩

/-- What may stand before the command. -/
def top : Grammar where
  options := [⟨"docker", none, .value true⟩, helpOption, ⟨"version", some 'V', .version⟩]
  operands := 0
  commands := ["plan", "apply", "facts", "help"]

/-- What may follow `plan`. -/
def planGrammar : Grammar := ⟨[manifestOption, helpOption], 0, []⟩

/-- What may follow `apply`. -/
def applyGrammar : Grammar := ⟨[manifestOption, ⟨"dry-run", none, .switch⟩, helpOption], 0, []⟩

/-- What may follow `facts`. -/
def factsGrammar : Grammar := ⟨[helpOption], 2, []⟩

/-- The request for help with what the words name. -/
def ofHelp : List String → Except UsageFault Request
  | [] => .ok help
  | [w] => if top.commands.contains w then .ok help else .error (.unknownCommand w)
  | w :: x :: _ => .error (.unknownCommand (if top.commands.contains w then x else w))

/-- Reads the words of a command and makes a request of them. -/
def ofCommand (g : Grammar) (words : List String) (request : Scan → Except UsageFault Request) :
    Except UsageFault Request := do
  match ← scan g {} words with
  | .words s => request s
  | .command name .. => .error (.unknownCommand name)
  | .help => .ok help
  | .version => .ok version

/-- The manifest that must be named. -/
def manifestOf (s : Scan) : Except UsageFault String :=
  match s.values.lookup "manifest" with
  | some path => .ok path
  | none => .error (.missingOption "manifest")

/-- The request that a command and the words after it make. -/
def ofWords (docker : String) (command : String) (words : List String) :
    Except UsageFault Request :=
  match command with
  | "plan" => ofCommand planGrammar words fun s => return plan docker (← manifestOf s)
  | "apply" =>
    ofCommand applyGrammar words fun s =>
      return apply docker (← manifestOf s) (s.values.lookup "dry-run").isSome
  | "facts" =>
    ofCommand factsGrammar words fun s =>
      match s.operands with
      | [] => .error (.missingOperand "kind")
      | kind :: rest => .ok (facts docker kind rest.head?)
  | _ => ofHelp words

/-- The request of a command line. -/
def parse (defaultDocker : String) (args : List String) : Except UsageFault Request := do
  match ← scan top {} args with
  | .words _ => .error .missingCommand
  | .command name s rest => ofWords ((s.values.lookup "docker").getD defaultDocker) name rest
  | .help => .ok help
  | .version => .ok version

end Request

end Converge.Console
