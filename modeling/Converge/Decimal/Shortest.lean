import Converge.Decimal.Binary64

/-!
# Shortest digits

The fewest decimal digits that read back as the same float, and of those the ones nearest to it.
For a growing number of digits the two neighbours of the float on that decimal grid are compared
with the interval of reals that round to it, in exact arithmetic.
-/

namespace Converge.Decimal

/-- The number `0.d₁d₂d₃… * 10 ^ point` with the decimal digits of `digits`. -/
structure Digits where
  digits : Nat
  point : Int
deriving DecidableEq, Repr

namespace Magnitude

/-- The least `k` with `num < den * 10 ^ k`, for a positive fraction.  It starts from an estimate
by the lengths of the numbers, which is at most one too small. -/
def pointOf (num den : Nat) : Int :=
  let bits : Int := (Nat.log2 num : Int) - Nat.log2 den - 1
  let k : Int := (bits * 30103).fdiv 100000
  let below (k : Int) : Bool := num * Nat.pow 10 (-k).toNat < den * Nat.pow 10 k.toNat
  if below k then k else if below (k + 1) then k + 1 else k + 2

/-- Whether `n / d` rounds to the float: it lies between the midpoints to both neighbours, a
midpoint itself belonging to the even significand.  The lower neighbour of a power of two is only
half as far away. -/
def covers (x : Magnitude) (n d : Nat) : Bool :=
  let m := x.significand
  let narrow := m == Nat.pow 2 52 && minExponent < x.exponent
  let up := Nat.pow 2 x.exponent.toNat
  let down := Nat.pow 2 (-x.exponent).toNat
  let value := 4 * n * down
  let low := (if narrow then 4 * m - 1 else 4 * m - 2) * up * d
  let high := (4 * m + 2) * up * d
  if m % 2 = 0 then low ≤ value && value ≤ high else low < value && value < high

/-- Of the two neighbours of the float on the grid of `count` digits, the nearest one that reads
back, of two equally near ones the even one. -/
def onGrid (x : Magnitude) (point : Int) (count : Nat) : Option Nat :=
  let shift : Int := count - point
  let n := x.num * Nat.pow 10 shift.toNat
  let d := x.den * Nat.pow 10 (-shift).toNat
  let reads (digits : Nat) : Bool :=
    x.covers (digits * Nat.pow 10 (-shift).toNat) (Nat.pow 10 shift.toNat)
  let near := roundDiv n d
  let far := if near = n / d then near + 1 else near - 1
  if reads near then some near else if reads far then some far else none

/-- The digits without the zeros at their end. -/
def stripZeros (digits : Nat) : Nat → Nat
  | 0 => digits
  | count + 1 => if digits % 10 = 0 then stripZeros (digits / 10) count else digits

/-- The shortest digits among the grids of `count`, `count + 1`, … digits, of which `more` are
tried after the first. -/
def shortestFrom (x : Magnitude) (point : Int) (count : Nat) : Nat → Digits
  | 0 => ⟨(x.onGrid point count).getD 0, point⟩
  | more + 1 =>
    match x.onGrid point count with
    | some digits =>
      if digits = Nat.pow 10 count then ⟨1, point + 1⟩ else ⟨digits, point⟩
    | none => shortestFrom x point (count + 1) more

/-- The shortest digits of a positive float; seventeen digits always suffice. -/
def shortest (x : Magnitude) : Digits :=
  x.shortestFrom (pointOf x.num x.den) 1 16

end Magnitude

end Converge.Decimal
