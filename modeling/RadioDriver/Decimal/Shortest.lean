import RadioDriver.Decimal.Double

namespace RadioDriver

/-- Which of two equally near decimals is taken. -/
inductive Tie
  /-- The one whose last digit is even. -/
  | toEven
  /-- The one farther from zero. -/
  | away
deriving DecidableEq, Repr

def Tie.goesUp (tie : Tie) (below : Nat) : Bool :=
  match tie with
  | .toEven => below % 2 == 1
  | .away => true

/-- The number `0.D₁D₂… · 10^point`. -/
structure Digits where
  digits : List Char
  point : Int
deriving DecidableEq, Repr

namespace Digits

/-- The value and the two ends of its rounding interval over one denominator. -/
structure Interval where
  low : Nat
  value : Nat
  high : Nat
  denominator : Nat
  closed : Bool

/-- The reals that round to `x`, in quarter units. Below a power of two the gap is half as wide. -/
def Interval.ofDouble (x : Double) : Interval :=
  let q := 4 * x.mantissa
  let below := if x.mantissa = Nat.pow 2 52 ∧ -1074 < x.exponent then 1 else 2
  let e := x.exponent - 2
  let up := Nat.pow 2 e.toNat
  ⟨(q - below) * up, q * up, (q + 2) * up, Nat.pow 2 (-e).toNat, x.mantissa % 2 == 0⟩

/-- Whether `n` steps of `step / scale` fall into the interval. -/
def Interval.accepts (i : Interval) (scale step n : Nat) : Bool :=
  let candidate := n * step
  if i.closed then i.low * scale ≤ candidate && candidate ≤ i.high * scale
  else i.low * scale < candidate && candidate < i.high * scale

/-- The grid point nearest to the value among the accepted neighbours. On each decimal grid only the
two neighbours of the value need a test: if any grid point lies in the interval, one of them
does. -/
def Interval.nearest? (i : Interval) (tie : Tie) (scale step : Nat) : Option Nat :=
  let below := i.value * scale / step
  let rest := i.value * scale % step
  match i.accepts scale step below, i.accepts scale step (below + 1) with
  | false, false => none
  | true, false => some below
  | false, true => some (below + 1)
  | true, true =>
    if 2 * rest < step then some below
    else if step < 2 * rest then some (below + 1)
    else if tie.goesUp below then some (below + 1) else some below

/-- How many digits stand before the point of `num / den`; not positive for a value below one
tenth. -/
def pointOf (num den : Nat) : Int :=
  ((Nat.toDigits 10 (num * Nat.pow 10 400 / den)).length : Int) - 400

/-- The digits of `n` counted in units of `10^exponent`, without trailing zeros. -/
def ofUnits (n : Nat) (exponent : Int) : Digits :=
  let ds := Nat.toDigits 10 n
  ⟨(ds.reverse.dropWhile (· == '0')).reverse, (ds.length : Int) + exponent⟩

/-- The grid point with `count` digits that reads back, if there is one. -/
def withCount? (i : Interval) (tie : Tie) (point : Int) (count : Nat) : Option Digits :=
  let exponent := point - count
  let scale := Nat.pow 10 (-exponent).toNat
  let step := Nat.pow 10 exponent.toNat * i.denominator
  (i.nearest? tie scale step).map (ofUnits · exponent)

/-- The fewest digits that read back as the magnitude of `x`, nearest to it among those and `tie`
between two as near; none for zero. Seventeen digits always suffice. -/
def shortest (tie : Tie) (x : Double) : Digits :=
  if x.isZero then ⟨[], 0⟩
  else
    let i := Interval.ofDouble x
    let point := pointOf i.value i.denominator
    ((List.range 17).findSome? fun n => withCount? i tie point (n + 1)).getD ⟨[], 0⟩

end Digits

end RadioDriver
