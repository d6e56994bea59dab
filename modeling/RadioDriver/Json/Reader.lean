import RadioDriver.Json.Basic

namespace RadioDriver.Json.Reader

def isBlank (c : Char) : Bool := c == ' ' || c == '\n' || c == '\r' || c == '\t'

def skipBlank (cs : List Char) : List Char := cs.dropWhile isBlank

def expect : List Char → List Char → Option (List Char)
  | [], cs => some cs
  | c :: rest, d :: cs => if c = d then expect rest cs else none
  | _ :: _, [] => none

def hexValue? (c : Char) : Option Nat :=
  if '0' ≤ c && c ≤ '9' then some (c.toNat - 48)
  else if 'a' ≤ c && c ≤ 'f' then some (c.toNat - 87)
  else if 'A' ≤ c && c ≤ 'F' then some (c.toNat - 55)
  else none

def hexUnit? (a b c d : Char) : Option Nat := do
  let a ← hexValue? a
  let b ← hexValue? b
  let c ← hexValue? c
  let d ← hexValue? d
  return ((a * 16 + b) * 16 + c) * 16 + d

def simpleEscape? (c : Char) : Option Char :=
  if c = '\"' then some '\"'
  else if c = '\\' then some '\\'
  else if c = '/' then some '/'
  else if c = 'b' then some '\x08'
  else if c = 'f' then some '\x0c'
  else if c = 'n' then some '\n'
  else if c = 'r' then some '\r'
  else if c = 't' then some '\t'
  else none

def isHighSurrogate (n : Nat) : Bool := 0xD800 ≤ n && n < 0xDC00

def isLowSurrogate (n : Nat) : Bool := 0xDC00 ≤ n && n < 0xE000

/-- The characters up to the closing quote and the input after it. A surrogate must be one half of
a pair. -/
def readText : List Char → Option (List Char × List Char)
  | '\"' :: rest => some ([], rest)
  | '\\' :: 'u' :: a :: b :: c :: d :: rest =>
    match hexUnit? a b c d with
    | none => none
    | some high =>
      if isLowSurrogate high then none
      else if isHighSurrogate high then
        match rest with
        | '\\' :: 'u' :: e :: f :: g :: h :: rest =>
          match hexUnit? e f g h with
          | none => none
          | some low =>
            if isLowSurrogate low then
              (readText rest).map fun (cs, rest) =>
                (Char.ofNat (0x10000 + (high - 0xD800) * 0x400 + (low - 0xDC00)) :: cs, rest)
            else none
        | _ => none
      else (readText rest).map fun (cs, rest) => (Char.ofNat high :: cs, rest)
  | '\\' :: c :: rest =>
    match simpleEscape? c with
    | none => none
    | some c => (readText rest).map fun (cs, rest) => (c :: cs, rest)
  | c :: rest =>
    if c.toNat < 0x20 then none
    else (readText rest).map fun (cs, rest) => (c :: cs, rest)
  | [] => none

def digitsValue (ds : List Char) : Nat := ds.foldl (fun n c => n * 10 + (c.toNat - 48)) 0

def spanDigits (cs : List Char) : List Char × List Char :=
  (cs.takeWhile Char.isDigit, cs.dropWhile Char.isDigit)

def readWhole (cs : List Char) : Option (List Char × List Char) :=
  match spanDigits cs with
  | ([], _) => none
  | ('0' :: _ :: _, _) => none
  | (ds, rest) => some (ds, rest)

def readFraction : List Char → Option (Option (List Char) × List Char)
  | '.' :: cs =>
    match spanDigits cs with
    | ([], _) => none
    | (ds, rest) => some (some ds, rest)
  | cs => some (none, cs)

def readSign : List Char → Bool × List Char
  | '-' :: cs => (true, cs)
  | '+' :: cs => (false, cs)
  | cs => (false, cs)

def readExponent : List Char → Option (Option Int × List Char)
  | c :: cs =>
    if c = 'e' ∨ c = 'E' then
      let (negative, cs) := readSign cs
      match spanDigits cs with
      | ([], _) => none
      | (ds, rest) =>
        let n : Int := digitsValue ds
        some (some (if negative then -n else n), rest)
    else some (none, c :: cs)
  | [] => some (none, [])

def numberOf (negative : Bool) (whole : List Char) (fraction : Option (List Char))
    (exponent : Option Int) : Option Number :=
  let fs := fraction.getD []
  let asDouble :=
    (Double.ofDecimal? negative (digitsValue (whole ++ fs)) (exponent.getD 0 - fs.length)).map
      Number.decimal
  match fraction, exponent with
  | none, none =>
    let n : Int := digitsValue whole
    if negative then
      if n = 0 ∨ 0x8000000000000000 < n then asDouble else some (.integer (-n))
    else if n < 0x10000000000000000 then some (.integer n) else asDouble
  | _, _ => asDouble

def readMagnitude (negative : Bool) (cs : List Char) : Option (Number × List Char) := do
  let (whole, cs) ← readWhole cs
  let (fraction, cs) ← readFraction cs
  let (exponent, cs) ← readExponent cs
  let n ← numberOf negative whole fraction exponent
  return (n, cs)

def readNumber : List Char → Option (Number × List Char)
  | '-' :: cs => readMagnitude true cs
  | cs => readMagnitude false cs

mutual

/-- A value at the front. `depth` arrays or objects may still be opened; `fuel` bounds the length
of the input. -/
def readValue : Nat → Nat → List Char → Option (Json × List Char)
  | 0, _, _ => none
  | fuel + 1, depth, cs =>
    match skipBlank cs with
    | '\"' :: cs => (readText cs).map fun (s, cs) => (.string (String.ofList s), cs)
    | '[' :: cs =>
      match depth with
      | 0 => none
      | depth + 1 =>
        match skipBlank cs with
        | ']' :: cs => some (.array [], cs)
        | cs => (readItems fuel depth cs).map fun (items, cs) => (.array items, cs)
    | '\x7b' :: cs =>
      match depth with
      | 0 => none
      | depth + 1 =>
        match skipBlank cs with
        | '\x7d' :: cs => some (.object [], cs)
        | cs => (readFields fuel depth cs).map fun (pairs, cs) =>
          (.object (Fields.ofPairs pairs), cs)
    | 'n' :: cs => (expect ['u', 'l', 'l'] cs).map fun cs => (.null, cs)
    | 't' :: cs => (expect ['r', 'u', 'e'] cs).map fun cs => (.bool true, cs)
    | 'f' :: cs => (expect ['a', 'l', 's', 'e'] cs).map fun cs => (.bool false, cs)
    | cs => (readNumber cs).map fun (n, cs) => (.number n, cs)

def readItems : Nat → Nat → List Char → Option (List Json × List Char)
  | 0, _, _ => none
  | fuel + 1, depth, cs =>
    match readValue fuel depth cs with
    | none => none
    | some (v, cs) =>
      match skipBlank cs with
      | ',' :: cs => (readItems fuel depth cs).map fun (vs, cs) => (v :: vs, cs)
      | ']' :: cs => some ([v], cs)
      | _ => none

def readFields : Nat → Nat → List Char → Option (List (String × Json) × List Char)
  | 0, _, _ => none
  | fuel + 1, depth, cs =>
    match skipBlank cs with
    | '\"' :: cs =>
      match readText cs with
      | none => none
      | some (name, cs) =>
        match skipBlank cs with
        | ':' :: cs =>
          match readValue fuel depth cs with
          | none => none
          | some (v, cs) =>
            match skipBlank cs with
            | ',' :: cs =>
              (readFields fuel depth cs).map fun (fs, cs) => ((String.ofList name, v) :: fs, cs)
            | '\x7d' :: cs => some ([(String.ofList name, v)], cs)
            | _ => none
        | _ => none
    | _ => none

end

def maxDepth : Nat := 127

end RadioDriver.Json.Reader

namespace RadioDriver.Json

/-- The value of a document: one value between blanks. Integers of at most 64 bits stay integers,
`-0` and every other number is the nearest double, and a number beyond the doubles rejects the
document. Decimals are rounded exactly (ties go to even), where a reader that scales in floating
point may miss by one unit in the last place, or refuse a number next to the largest double. A name
given twice keeps its first place and its last value. Arrays and objects nest at most 127 deep. -/
def read? (s : String) : Option Json :=
  let cs := s.toList
  match Reader.readValue (cs.length + 1) Reader.maxDepth cs with
  | none => none
  | some (v, rest) => if (Reader.skipBlank rest).isEmpty then some v else none

end RadioDriver.Json
