import Converge.Command.Basic
import Converge.Fact.Query
import Converge.Failure

/-!
# Scripts

What a pass does, as data: it asks for facts, runs calls, and leaves notes, and how it goes on
depends only on the answers.  A host answers.  Playing a script on a host gives everything that
happened, in order, also where the script fails halfway.
-/

namespace Converge

inductive LogEntry where
  | reconciling (kind : Kind) (identity : String)
  | unchanged (kind : Kind) (identity : String) (reason : String)
  | withheld (command : Command)
  | executing (command : Command)
  | finished (resources changed : Nat)
deriving DecidableEq, Repr

/-- What a script leaves for the user to read. -/
inductive Note where
  | log (entry : LogEntry)
  | output (line : String)
deriving DecidableEq, Repr

/-- A computation that may ask for facts, run calls and leave notes before it ends. -/
inductive Script (α : Type) where
  | done (result : α)
  | fail (failure : Failure)
  | ask (query : Query) (next : Except Failure (List String) → Script α)
  | run (link : Invocation) (next : Except Failure Unit → Script α)
  | note (n : Note) (next : Script α)

namespace Script

variable {α β : Type}

/-- Goes on with the result. -/
def bind : Script α → (α → Script β) → Script β
  | done a, k => k a
  | fail e, _ => fail e
  | ask q next, k => ask q fun answer => (next answer).bind k
  | run i next, k => run i fun answer => (next answer).bind k
  | note n next, k => note n (next.bind k)

theorem bind_assoc {γ : Type} (p : Script α) (f : α → Script β) (g : β → Script γ) :
    (p.bind f).bind g = p.bind fun a => (f a).bind g := by
  induction p with
  | done a => rfl
  | fail e => rfl
  | ask q next ih => simp only [bind, ih]
  | run i next ih => simp only [bind, ih]
  | note n next ih => simp only [bind, ih]

theorem bind_done (p : Script α) : p.bind done = p := by
  induction p with
  | done a => rfl
  | fail e => rfl
  | ask q next ih => simp only [bind, ih]
  | run i next ih => simp only [bind, ih]
  | note n next ih => simp only [bind, ih]

instance : Monad Script where
  pure := done
  bind := bind

instance : LawfulMonad Script :=
  LawfulMonad.mk' Script (fun p => bind_done p) (fun _ _ => rfl) (fun p f g => bind_assoc p f g)

/-- A result or a failure that needs no host. -/
def ofExcept : Except Failure α → Script α
  | .ok a => done a
  | .error e => fail e

def fetch (q : Query) : Script (List String) := ask q ofExcept

/-- Runs a call that must succeed. -/
def call (i : Invocation) : Script Unit := run i ofExcept

def log (entry : LogEntry) : Script Unit := note (.log entry) (done ())

def say (line : String) : Script Unit := note (.output line) (done ())

/-- Does something for each element in turn. -/
def each (xs : List α) (f : α → Script Unit) : Script Unit :=
  match xs with
  | [] => done ()
  | x :: xs => (f x).bind fun _ => each xs f

/-- The results for each element in turn. -/
def collect (xs : List α) (f : α → Script β) : Script (List β) :=
  match xs with
  | [] => done []
  | x :: xs => (f x).bind fun y => (collect xs f).bind fun ys => done (y :: ys)

end Script

/-! ## Hosts -/

/-- Where scripts run: how queries are answered and calls are carried out.  The answers may depend
on everything that happened before, which the state can remember. -/
structure Host (σ : Type) where
  fetch : σ → Query → Except Failure (List String) × σ
  run : σ → Invocation → Except Failure Unit × σ

inductive Event where
  | asked (query : Query)
  | ran (link : Invocation) (succeeded : Bool)
  | noted (n : Note)
deriving DecidableEq, Repr

/-- A script that was played to its end. -/
structure Played (σ α : Type) where
  events : List Event
  host : σ
  result : Except Failure α

/-- Puts an event in front. -/
def Played.after {σ α : Type} (e : Event) (p : Played σ α) : Played σ α :=
  { p with events := e :: p.events }

def succeeded {α : Type} : Except Failure α → Bool
  | .ok _ => true
  | .error _ => false

/-- Plays a script on a host that is in a given state. -/
def Script.play {σ α : Type} (h : Host σ) : Script α → σ → Played σ α
  | done a, s => ⟨[], s, .ok a⟩
  | fail e, s => ⟨[], s, .error e⟩
  | ask q next, s =>
    let (answer, s) := h.fetch s q
    ((next answer).play h s).after (.asked q)
  | run i next, s =>
    let (answer, s) := h.run s i
    ((next answer).play h s).after (.ran i (succeeded answer))
  | note n next, s => (next.play h s).after (.noted n)

/-- Playing a script that goes on: what happens first happens as without the rest, and the rest is
played from where it left the host, unless it failed. -/
theorem Script.play_bind {σ α β : Type} (h : Host σ) (p : Script α) (k : α → Script β) (s : σ) :
    (p.bind k).play h s =
      let first := p.play h s
      match first.result with
      | .ok a =>
        let rest := (k a).play h first.host
        ⟨first.events ++ rest.events, rest.host, rest.result⟩
      | .error e => ⟨first.events, first.host, .error e⟩ := by
  induction p generalizing s with
  | done a => rfl
  | fail e => rfl
  | ask q next ih =>
    simp only [bind, play, Played.after, ih]
    split <;> simp_all
  | run i next ih =>
    simp only [bind, play, Played.after, ih]
    split <;> simp_all
  | note n next ih =>
    simp only [bind, play, Played.after, ih]
    split <;> simp_all

namespace Event

def query? : Event → Option Query
  | asked q => some q
  | _ => none

def success? : Event → Option Invocation
  | ran i true => some i
  | _ => none

end Event

end Converge
