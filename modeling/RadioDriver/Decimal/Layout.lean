import RadioDriver.Decimal.Shortest

namespace RadioDriver

/-- One way to write a decimal: which numbers are written positionally, the marks around the digits,
and which way a tie between two decimals goes. -/
structure Layout where
  /-- The least point written positionally. -/
  least : Int
  /-- The greatest point written positionally. -/
  greatest : Int
  /-- A whole number written positionally ends in `.0`. -/
  wholeMark : Bool
  /-- A positive exponent has a plus sign. -/
  plusSign : Bool
  /-- Negative zero keeps its sign. -/
  signedZero : Bool
  /-- Which of two equally short and near decimals is written. -/
  tie : Tie

namespace Layout

/-- Positional form: zeros fill the gap between the digits and the point. -/
def positional (l : Layout) (d : Digits) : List Char :=
  let n : Int := d.digits.length
  let whole := if l.wholeMark then ['.', '0'] else []
  if d.digits.isEmpty then '0' :: whole
  else if d.point ≤ 0 then
    '0' :: '.' :: (List.replicate (-d.point).toNat '0' ++ d.digits)
  else if d.point < n then
    d.digits.take d.point.toNat ++ '.' :: d.digits.drop d.point.toNat
  else d.digits ++ List.replicate (d.point - n).toNat '0' ++ whole

def scientific (l : Layout) (d : Digits) : List Char :=
  let exponent := d.point - 1
  let mark := if exponent < 0 then ['-'] else if l.plusSign then ['+'] else []
  let tail := match d.digits.drop 1 with
    | [] => []
    | more => '.' :: more
  d.digits.take 1 ++ tail ++ 'e' :: mark ++ Nat.toDigits 10 exponent.natAbs

def chars (l : Layout) (x : Double) : List Char :=
  let d := Digits.shortest l.tie x
  let sign := if x.negative && (l.signedZero || !x.isZero) then ['-'] else []
  sign ++
    if x.isZero || (l.least ≤ d.point && d.point ≤ l.greatest) then l.positional d
    else l.scientific d

def render (l : Layout) (x : Double) : String := String.ofList (l.chars x)

/-- JSON documents always show a fraction and sign their exponents. -/
def json : Layout := ⟨-4, 16, true, true, true, .toEven⟩

/-- RFC 8785 writes whole numbers without a fraction and zero without a sign. -/
def canonical : Layout := ⟨-5, 21, false, true, false, .toEven⟩

/-- Diagnostic listings show a fraction, leave exponents unsigned and take the greater of two
equally near magnitudes. -/
def listing : Layout := ⟨-3, 16, true, false, true, .away⟩

end Layout

end RadioDriver
