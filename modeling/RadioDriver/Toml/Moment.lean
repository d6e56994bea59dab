import RadioDriver.Text.Pieces

namespace RadioDriver.Toml

/-- A calendar day. -/
structure Day where
  year : Nat
  month : Nat
  day : Nat

/-- A time of day; the fraction has no zeros at its end. -/
structure Clock where
  hour : Nat
  minute : Nat
  second : Nat
  fraction : List Char

/-- The distance from universal time. -/
inductive Offset
  | universal
  | minutes (behind : Bool) (amount : Nat)

def readDigits : Nat → Nat → List Char → Option (Nat × List Char)
  | 0, value, cs => some (value, cs)
  | n + 1, value, c :: cs =>
    if c.isDigit then readDigits n (value * 10 + (c.toNat - 48)) cs else none
  | _ + 1, _, [] => none

def after (c : Char) : List Char → Option (List Char)
  | d :: rest => if c = d then some rest else none
  | [] => none

def readTwo (least greatest : Nat) (cs : List Char) : Option (Nat × List Char) :=
  match readDigits 2 0 cs with
  | some (n, rest) => if least ≤ n ∧ n ≤ greatest then some (n, rest) else none
  | none => none

def daysIn (year month : Nat) : Nat :=
  if month = 2 then
    if year % 4 = 0 ∧ (year % 100 ≠ 0 ∨ year % 400 = 0) then 29 else 28
  else if month = 4 ∨ month = 6 ∨ month = 9 ∨ month = 11 then 30
  else 31

def readDay (cs : List Char) : Option (Day × List Char) := do
  let (year, cs) ← readDigits 4 0 cs
  let cs ← after '-' cs
  let (month, cs) ← readTwo 1 12 cs
  let cs ← after '-' cs
  let (day, cs) ← readTwo 1 (daysIn year month) cs
  return (⟨year, month, day⟩, cs)

/-- A fraction of a second cut to nine digits; `none` for a point without digits. -/
def readSecondFraction : List Char → Option (List Char × List Char)
  | '.' :: cs =>
    match cs.takeWhile Char.isDigit with
    | [] => none
    | ds =>
      some (((ds.take 9).reverse.dropWhile (· == '0')).reverse, cs.dropWhile Char.isDigit)
  | cs => some ([], cs)

/-- A time of day; the second may be a leap second. -/
def readClock (cs : List Char) : Option (Clock × List Char) := do
  let (hour, cs) ← readTwo 0 23 cs
  let cs ← after ':' cs
  let (minute, cs) ← readTwo 0 59 cs
  let cs ← after ':' cs
  let (second, cs) ← readTwo 0 60 cs
  let (fraction, cs) ← readSecondFraction cs
  return (⟨hour, minute, second, fraction⟩, cs)

def readAmount (behind : Bool) (cs : List Char) : Option (Offset × List Char) := do
  let (hours, cs) ← readTwo 0 23 cs
  let cs ← after ':' cs
  let (minutes, cs) ← readTwo 0 59 cs
  return (.minutes behind (hours * 60 + minutes), cs)

def readOffset : List Char → Option (Offset × List Char)
  | 'Z' :: rest => some (.universal, rest)
  | 'z' :: rest => some (.universal, rest)
  | '+' :: rest => readAmount false rest
  | '-' :: rest => readAmount true rest
  | _ => none

def Day.render (d : Day) : String :=
  Text.padded 4 d.year ++ "-" ++ Text.padded 2 d.month ++ "-" ++ Text.padded 2 d.day

def Clock.render (t : Clock) : String :=
  let fraction := if t.fraction.isEmpty then "" else "." ++ String.ofList t.fraction
  Text.padded 2 t.hour ++ ":" ++ Text.padded 2 t.minute ++ ":" ++ Text.padded 2 t.second ++ fraction

/-- The written form of an offset; no distance has a plus sign. -/
def Offset.render : Offset → String
  | .universal => "Z"
  | .minutes behind n =>
    (if behind && n != 0 then "-" else "+") ++ Text.padded 2 (n / 60) ++ ":" ++
      Text.padded 2 (n % 60)

/-- The time and offset that may follow a date, in written form. -/
def readDayTime : List Char → String × List Char
  | c :: rest =>
    if c = 'T' ∨ c = 't' ∨ c = ' ' then
      match readClock rest with
      | none => ("", c :: rest)
      | some (t, rest) =>
        match readOffset rest with
        | none => ("T" ++ t.render, rest)
        | some (o, rest) => ("T" ++ t.render ++ o.render, rest)
    else ("", c :: rest)
  | [] => ("", [])

/-- The written form of a date, a time or both, with a blank or a `T` between them, then perhaps an
offset. There is one such form: a `T` between the parts, a capital `Z`, and a fraction of at most
nine digits without zeros at its end. -/
def readMoment (cs : List Char) : Option (String × List Char) :=
  match readDay cs with
  | some (d, rest) =>
    let (time, rest) := readDayTime rest
    some (d.render ++ time, rest)
  | none => (readClock cs).map fun (t, rest) => (t.render, rest)

/-- The written form of a text that is a date, a time or both, and nothing else. -/
def momentOf? (s : String) : Option String :=
  match readMoment s.toList with
  | some (written, []) => some written
  | _ => none

end RadioDriver.Toml
