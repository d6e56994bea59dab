import RadioDriver.Json.Reader

namespace RadioDriver.Toml

/-- Digits and single underscores between them; the first character must be a digit. -/
def readRun (isDigit : Char → Bool) : List Char → Option (List Char × List Char)
  | [] => none
  | c :: rest => if isDigit c then (more rest).map fun (ds, rest) => (c :: ds, rest) else none
where
  /-- The digits after the first; an underscore without a digit behind it refuses the number. -/
  more : List Char → Option (List Char × List Char)
    | '_' :: c :: rest =>
      if isDigit c then (more rest).map fun (ds, rest) => (c :: ds, rest) else none
    | '_' :: [] => none
    | c :: rest =>
      if isDigit c then (more rest).map fun (ds, rest) => (c :: ds, rest)
      else some ([], c :: rest)
    | [] => some ([], [])

def runValue (base : Nat) (ds : List Char) : Nat :=
  ds.foldl (fun n d => n * base + (Json.Reader.hexValue? d).getD 0) 0

def readSign : List Char → Bool × List Char
  | '+' :: rest => (false, rest)
  | '-' :: rest => (true, rest)
  | cs => (false, cs)

/-- The digits of a whole number: a zero alone, or digits that do not begin with one. -/
def readWhole : List Char → Option (List Char × List Char)
  | '0' :: rest => some (['0'], rest)
  | cs => readRun Char.isDigit cs

def integerOf (n : Int) : Option Json :=
  if -0x8000000000000000 ≤ n ∧ n < 0x8000000000000000 then some (.ofInt n) else none

def readBased (base : Nat) (isDigit : Char → Bool) (cs : List Char) : Option (Json × List Char) :=
  match readRun isDigit cs with
  | none => none
  | some (ds, rest) => (integerOf (runValue base ds)).map (·, rest)

def readDecimalInteger (cs : List Char) : Option (Json × List Char) :=
  let (negative, cs) := readSign cs
  match readWhole cs with
  | none => none
  | some (ds, rest) =>
    let n : Int := runValue 10 ds
    (integerOf (if negative then -n else n)).map (·, rest)

def isHexDigit (c : Char) : Bool := (Json.Reader.hexValue? c).isSome

def isOctalDigit (c : Char) : Bool := '0' ≤ c && c ≤ '7'

def isBinaryDigit (c : Char) : Bool := c == '0' || c == '1'

/-- An integer: one of 64 bits with a sign in base ten, or without a sign in base 16, 8 or 2. A
single underscore may stand between digits. -/
def readInteger : List Char → Option (Json × List Char)
  | '0' :: 'x' :: rest => readBased 16 isHexDigit rest
  | '0' :: 'o' :: rest => readBased 8 isOctalDigit rest
  | '0' :: 'b' :: rest => readBased 2 isBinaryDigit rest
  | cs => readDecimalInteger cs

/-- A number that is no number, or has no bound. JSON cannot hold it, so it reads as `null`. -/
def readSpecial (cs : List Char) : Option (Json × List Char) :=
  match (readSign cs).2 with
  | 'i' :: 'n' :: 'f' :: rest => some (.null, rest)
  | 'n' :: 'a' :: 'n' :: rest => some (.null, rest)
  | _ => none

/-- What an attempt to read a fractional number finds. -/
inductive FloatReading
  /-- There is none at the front. -/
  | absent
  /-- It is begun but malformed. -/
  | refused
  | found (value : Json) (rest : List Char)

def readExponent : List Char → Option (Option Int × List Char)
  | c :: cs =>
    if c = 'e' ∨ c = 'E' then
      let (negative, cs) := readSign cs
      match readRun Char.isDigit cs with
      | none => none
      | some (ds, rest) =>
        let n : Int := runValue 10 ds
        some (some (if negative then -n else n), rest)
    else some (none, c :: cs)
  | [] => some (none, [])

/-- The value of a fractional number. One too large is refused, unless it is negative: that reads as
a number without a bound. -/
def floatOf (negative : Bool) (whole fraction : List Char) (exponent : Int) (rest : List Char) :
    FloatReading :=
  match Double.ofDecimal? negative (runValue 10 (whole ++ fraction))
    (exponent - fraction.length) with
  | some x => .found (.ofDouble x) rest
  | none => if negative then .found .null rest else .refused

def readFloat (cs : List Char) : FloatReading :=
  let (negative, digits) := readSign cs
  match readWhole digits with
  | none =>
    match readSpecial cs with
    | some (v, rest) => .found v rest
    | none => .absent
  | some (whole, '.' :: rest) =>
    match readRun Char.isDigit rest with
    | none => .refused
    | some (fraction, rest) =>
      match readExponent rest with
      | none => .refused
      | some (exponent, rest) => floatOf negative whole fraction (exponent.getD 0) rest
  | some (whole, rest) =>
    match readExponent rest with
    | none => .refused
    | some (none, _) => .absent
    | some (some exponent, rest) => floatOf negative whole [] exponent rest

end RadioDriver.Toml
