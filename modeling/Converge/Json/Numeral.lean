import Converge.Json.Basic
import Converge.Json.Fault

/-!
# Numerals

A number as it is written, the reader that extends it by one character, and its value.  A numeral
without fraction and exponent is an integer if 64 bits hold it.  Every other numeral is a float: the
leading digits that fit into 64 bits, rounded once to a float, and then scaled by a rounded power of
ten.
-/

namespace Converge.Json

/-- The exponent of a numeral as written: `e` or `E`, a sign if there is one, and digits. -/
structure Exponent where
  mark : Char
  sign : Option Char
  digits : List Char
deriving DecidableEq, Repr

/-- A numeral as written.  While it is being read, the last part may still lack digits. -/
structure Numeral where
  negative : Bool
  whole : List Char
  fraction : Option (List Char)
  exponent : Option Exponent
deriving DecidableEq, Repr

namespace Numeral

def isDigit (c : Char) : Bool := '0' ≤ c && c ≤ '9'

def digit (c : Char) : Nat := c.toNat - '0'.toNat

def minus : Numeral := ⟨true, [], none, none⟩

def ofDigit (c : Char) : Numeral := ⟨false, [c], none, none⟩

/-! ## Reading -/

/-- What a character does to a numeral without fraction or exponent: it extends the numeral, or it
is no part of it. -/
def extendWhole (n : Numeral) (c : Char) : Option Numeral :=
  if c = '.' then some { n with fraction := some [] }
  else if c = 'e' ∨ c = 'E' then some { n with exponent := some ⟨c, none, []⟩ }
  else none

/-- Reads one more character: the longer numeral, nothing where the numeral has ended before the
character, or a fault where it must not end there. -/
def step (n : Numeral) (c : Char) : Except Fault (Option Numeral) :=
  match n.exponent, n.fraction with
  | some e, _ =>
    if isDigit c then .ok (some { n with exponent := some { e with digits := e.digits ++ [c] } })
    else if !e.digits.isEmpty then .ok none
    else if e.sign.isNone && (c == '+' || c == '-') then
      .ok (some { n with exponent := some { e with sign := some c } })
    else .error .invalidNumber
  | none, some ds =>
    if isDigit c then .ok (some { n with fraction := some (ds ++ [c]) })
    else if ds.isEmpty then .error .invalidNumber
    else if c = 'e' ∨ c = 'E' then .ok (some { n with exponent := some ⟨c, none, []⟩ })
    else .ok none
  | none, none =>
    if isDigit c then
      if n.whole = ['0'] then .error .invalidNumber
      else .ok (some { n with whole := n.whole ++ [c] })
    else if n.whole.isEmpty then .error .invalidNumber
    else .ok (n.extendWhole c)

def isComplete (n : Numeral) : Bool :=
  match n.exponent, n.fraction with
  | some e, _ => !e.digits.isEmpty
  | none, some ds => !ds.isEmpty
  | none, none => !n.whole.isEmpty

/-! ## Value -/

/-- The largest unsigned number of 64 bits. -/
def maxWord : Nat := Nat.pow 2 64 - 1

/-- Takes digits into a number while 64 bits hold it, and returns the number and the digits that are
left. -/
def absorb (value : Nat) : List Char → Nat × List Char
  | [] => (value, [])
  | c :: cs =>
    if value * 10 + digit c ≤ maxWord then absorb (value * 10 + digit c) cs
    else (value, c :: cs)

/-- The leading digits as a number, and the power of ten that the other digits leave it at: digits
before the point that were left out count up, digits after it that were taken count down. -/
def leading (n : Numeral) : Nat × Int :=
  let (w, rest) := absorb 0 n.whole
  let fraction := n.fraction.getD []
  let (f, left) := absorb w fraction
  (f, (rest.length : Int) - (fraction.length - left.length : Nat))

def written (n : Numeral) : Int :=
  match n.exponent with
  | none => 0
  | some e =>
    let k : Nat := e.digits.foldl (fun k c => k * 10 + digit c) 0
    if e.sign = some '-' then -k else k

open Decimal in
/-- The magnitude divided by `10 ^ k`.  Powers beyond `10 ^ 308` are divided off in steps of
`10 ^ 308`; three of these leave nothing of a number of 64 bits. -/
def divideByPow10 (x : Magnitude) (k : Nat) : Option Magnitude := do
  if 3 * 308 < k then return .zero
  let steps := (k - 1) / 308
  let big ← Magnitude.pow10? 308
  let y ← steps.fold (fun _ _ acc => acc.bind (·.div? big)) (some x)
  y.div? (← Magnitude.pow10? (k - 308 * steps))

open Decimal in
/-- The number times the power of ten, or nothing where that is infinity. -/
def scale (value : Nat) (k : Int) : Option Magnitude := do
  let x ← Magnitude.nearest value 1
  if x.isZero then return .zero
  else if k < 0 then divideByPow10 x k.natAbs
  else if 308 < k then none
  else x.mul? (← Magnitude.pow10? k.toNat)

/-- The float of a number times a power of ten. -/
def float (negative : Bool) (value : Nat) (k : Int) : Except Fault Number :=
  match scale value k with
  | some x => .ok (.float ⟨negative, x⟩)
  | none => .error .numberOutOfRange

/-- The number that a complete numeral denotes.  A negative zero is a float. -/
def value (n : Numeral) : Except Fault Number :=
  let (lead, k) := n.leading
  if n.fraction.isNone && n.exponent.isNone && k == 0 then
    if !n.negative then .ok (.integer lead)
    else if 0 < lead ∧ lead ≤ Nat.pow 2 63 then .ok (.integer (-lead))
    else float true lead 0
  else float n.negative lead (k + n.written)

end Numeral

end Converge.Json
