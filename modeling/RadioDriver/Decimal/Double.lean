
namespace RadioDriver

/-- The canonical forms keep 53 significant bits unless the exponent is already the least one. -/
def Double.Canonical (mantissa : Nat) (exponent : Int) : Prop :=
  mantissa < Nat.pow 2 53 ∧ -1074 ≤ exponent ∧ exponent ≤ 971 ∧
    (Nat.pow 2 52 ≤ mantissa ∨ exponent = -1074)

instance (m : Nat) (e : Int) : Decidable (Double.Canonical m e) :=
  inferInstanceAs (Decidable (_ ∧ _))

/-- A finite binary64 number `±m · 2^e` in one canonical form, so that equal records are equal
numbers and only the two zeros share a value. Infinities and NaN are not represented: a quotient too
large for the format rounds to `none`. -/
structure Double where
  negative : Bool
  mantissa : Nat
  exponent : Int
  canonical : Double.Canonical mantissa exponent
deriving DecidableEq, Repr

namespace Double

def zero (negative : Bool) : Double := ⟨negative, 0, -1074, by decide⟩

def half : Double := ⟨false, Nat.pow 2 52, -53, by decide⟩

def two : Double := ⟨false, Nat.pow 2 52, -51, by decide⟩

def ofParts? (negative : Bool) (mantissa : Nat) (exponent : Int) : Option Double :=
  if h : Canonical mantissa exponent then some ⟨negative, mantissa, exponent, h⟩ else none

def scaledRatio (num den : Nat) (e : Int) : Nat × Nat :=
  (num * Nat.pow 2 (-e).toNat, den * Nat.pow 2 e.toNat)

/-- The quotient rounded to the nearest integer, a half to the even one. -/
def roundHalfEven (num den : Nat) : Nat :=
  let q := num / den
  let r := num % den
  if 2 * r < den then q
  else if den < 2 * r then q + 1
  else if q % 2 = 0 then q else q + 1

/-- The exponent that leaves 53 bits before the point of a positive quotient, never below the
least one. -/
def exponentOf (num den : Nat) : Int :=
  let guess : Int := (num.log2 : Int) - (den.log2 : Int) - 52
  let (n, d) := scaledRatio num den guess
  max (if d * Nat.pow 2 52 ≤ n then guess else guess - 1) (-1074)

/-- The double nearest to `num / den`, ties to even, unless it is too large. -/
def ofRatio? (negative : Bool) (num den : Nat) : Option Double :=
  if num = 0 ∨ den = 0 then some (zero negative)
  else
    let e := exponentOf num den
    let (n, d) := scaledRatio num den e
    let m := roundHalfEven n d
    if m = Nat.pow 2 53 then ofParts? negative (Nat.pow 2 52) (e + 1) else ofParts? negative m e

/-- The double nearest to `digits · 10^exponent`. The two guards answer for exponents so far out
that the power of ten need not be built. -/
def ofDecimal? (negative : Bool) (digits : Nat) (exponent : Int) : Option Double :=
  if digits = 0 then some (zero negative)
  else if 400 < exponent then none
  else if exponent + ((digits.log2 : Int) + 1) < -400 then some (zero negative)
  else ofRatio? negative (digits * Nat.pow 10 exponent.toNat) (Nat.pow 10 (-exponent).toNat)

def ofInt? (n : Int) : Option Double := ofRatio? (n < 0) n.natAbs 1

/-- The number in units of `2^unit`, exact when `unit` is at most the exponent. -/
def inUnits (x : Double) (unit : Int) : Int :=
  let magnitude : Int := x.mantissa * Nat.pow 2 (x.exponent - unit).toNat
  if x.negative then -magnitude else magnitude

/-- Numeric order; the two zeros are not below each other. -/
def lt (x y : Double) : Bool :=
  let unit := min x.exponent y.exponent
  decide (x.inUnits unit < y.inUnits unit)

theorem lt_self (x : Double) : x.lt x = false := decide_eq_false (Int.lt_irrefl _)

def le (x y : Double) : Bool := !y.lt x

def isZero (x : Double) : Bool := x.mantissa == 0

end Double

end RadioDriver
