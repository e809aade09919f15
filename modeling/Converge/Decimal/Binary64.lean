/-!
# Sixty-four bit floats

A finite float as an exact number: a sign, a significand below `2 ^ 53` and a power of two.  Every
operation computes the exact result in natural numbers and rounds it once, to the nearest float,
ties to the even significand.
-/

namespace Converge.Decimal

/-- The magnitude `significand * 2 ^ exponent` of a finite float.  The significand is at least
`2 ^ 52` unless the exponent is the least one, so each magnitude is written in one way. -/
structure Magnitude where
  significand : Nat
  exponent : Int
deriving DecidableEq, Repr

/-- A finite float.  Zero has both signs. -/
structure Binary64 where
  negative : Bool
  magnitude : Magnitude
deriving DecidableEq, Repr

/-- The quotient rounded to the nearest natural number, ties to the even one. -/
def roundDiv (num den : Nat) : Nat :=
  let q := num / den
  let twice := 2 * (num % den)
  if twice < den then q
  else if den < twice then q + 1
  else if q % 2 = 0 then q else q + 1

namespace Magnitude

def minExponent : Int := -1074

def maxExponent : Int := 971

def zero : Magnitude := ⟨0, minExponent⟩

def isZero (x : Magnitude) : Bool := x.significand == 0

/-- The numerator of the magnitude as a fraction. -/
def num (x : Magnitude) : Nat := x.significand * Nat.pow 2 x.exponent.toNat

/-- The denominator of the magnitude as a fraction, a power of two. -/
def den (x : Magnitude) : Nat := Nat.pow 2 (-x.exponent).toNat

/-- The exponent with which `num / den` has a significand of 53 bits, or the least exponent. -/
def exponentFor (num den : Nat) : Int :=
  let e : Int := (Nat.log2 num : Int) - Nat.log2 den - 53
  let tooLow := Nat.pow 2 53 * den * Nat.pow 2 e.toNat ≤ num * Nat.pow 2 (-e).toNat
  let e := if tooLow then e + 1 else e
  max e minExponent

/-- The float nearest to `num / den`, or nothing where that is infinity. -/
def nearest (num den : Nat) : Option Magnitude :=
  if num = 0 then some zero
  else
    let e := exponentFor num den
    let m := roundDiv (num * Nat.pow 2 (-e).toNat) (den * Nat.pow 2 e.toNat)
    let (m, e) := if m = Nat.pow 2 53 then (Nat.pow 2 52, e + 1) else (m, e)
    if maxExponent < e then none else some ⟨m, e⟩

def mul? (x y : Magnitude) : Option Magnitude := nearest (x.num * y.num) (x.den * y.den)

def div? (x y : Magnitude) : Option Magnitude := nearest (x.num * y.den) (x.den * y.num)

def pow10? (k : Nat) : Option Magnitude := nearest (Nat.pow 10 k) 1

end Magnitude

end Converge.Decimal
