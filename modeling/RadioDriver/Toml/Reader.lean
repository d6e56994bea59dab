import RadioDriver.Toml.Document
import RadioDriver.Toml.Lexeme
import RadioDriver.Toml.Numeral

namespace RadioDriver.Toml

/-- The input after blanks, line breaks and comments. A comment must end in a line break. -/
def skipLines (inComment : Bool) : List Char → Option (List Char)
  | '\r' :: '\n' :: rest => skipLines false rest
  | '\n' :: rest => skipLines false rest
  | c :: rest =>
    if inComment then
      if isPlain c then skipLines true rest else none
    else if isBlank c then skipLines false rest
    else if c = '#' then skipLines true rest
    else some (c :: rest)
  | [] => if inComment then none else some []

def readScalar (cs : List Char) : Option (Item × List Char) :=
  match readMoment cs with
  | some (written, rest) => some (.moment written, rest)
  | none =>
    match readFloat cs with
    | .found v rest => some (.scalar v, rest)
    | .refused => none
    | .absent => (readInteger cs).map fun (v, rest) => (.scalar v, rest)

def splitKey (names : List String) : Option (List String × String) :=
  names.getLast?.map (names.dropLast, ·)

def bracedTable : List (List String × Item) → Fields Item → Option Item
  | [], fields => some (.braced fields)
  | (names, item) :: rest, fields => do
    let (way, key) ← splitKey names
    let fields ← addEntry fields way key item
    bracedTable rest fields

mutual

/-- A value at the front. `depth` arrays or tables may still be opened; `fuel` bounds the
length of the input. -/
def readValue : Nat → Nat → List Char → Option (Item × List Char)
  | 0, _, _ => none
  | fuel + 1, depth, cs =>
    match cs with
    | '[' :: rest =>
      match depth with
      | 0 => none
      | depth + 1 =>
        match skipLines false rest with
        | some (']' :: rest) => some (.array [], rest)
        | some rest => (readItems fuel depth rest).map fun (items, rest) => (.array items, rest)
        | none => none
    | '\x7b' :: rest =>
      match depth with
      | 0 => none
      | depth + 1 =>
        match skipBlank rest with
        | '\x7d' :: rest => some (.braced [], rest)
        | rest =>
          match readPairs fuel depth rest with
          | none => none
          | some (pairs, rest) => (bracedTable pairs []).map (·, rest)
    | 't' :: 'r' :: 'u' :: 'e' :: rest => some (.scalar (.bool true), rest)
    | 'f' :: 'a' :: 'l' :: 's' :: 'e' :: rest => some (.scalar (.bool false), rest)
    | 'i' :: 'n' :: 'f' :: rest => some (.scalar .null, rest)
    | 'n' :: 'a' :: 'n' :: rest => some (.scalar .null, rest)
    | c :: rest =>
      if c = '\"' ∨ c = '\x27' then
        (readText (c :: rest)).map fun (s, rest) => (.scalar (.string (String.ofList s)), rest)
      else if c = '+' ∨ c = '-' ∨ c.isDigit then readScalar (c :: rest)
      else none
    | [] => none

/-- The items of an array from the first on; a comma may stand after the last. -/
def readItems : Nat → Nat → List Char → Option (List Item × List Char)
  | 0, _, _ => none
  | fuel + 1, depth, cs =>
    match readValue fuel depth cs with
    | none => none
    | some (v, cs) =>
      match skipLines false cs with
      | some (',' :: cs) =>
        match skipLines false cs with
        | some (']' :: cs) => some ([v], cs)
        | some cs => (readItems fuel depth cs).map fun (vs, cs) => (v :: vs, cs)
        | none => none
      | some (']' :: cs) => some ([v], cs)
      | _ => none

/-- The pairs of a table between braces that does not close at once. -/
def readPairs : Nat → Nat → List Char → Option (List (List String × Item) × List Char)
  | 0, _, _ => none
  | fuel + 1, depth, cs =>
    match readKey maxKeys cs with
    | some (names, '=' :: cs) =>
      match readValue fuel depth (skipBlank cs) with
      | none => none
      | some (v, cs) =>
        match skipBlank cs with
        | ',' :: cs => (readPairs fuel depth cs).map fun (ps, cs) => ((names, v) :: ps, cs)
        | '\x7d' :: cs => some ([(names, v)], cs)
        | _ => none
    | _ => none

end

def maxDepth : Nat := 79

/-- A header after its opening brackets: the key, the closing brackets and the end of the line. -/
def readHeader (closing : List Char) (cs : List Char) :
    Option ((List String × String) × List Char) := do
  let (names, cs) ← readKey maxKeys cs
  let place ← splitKey names
  let cs ← Json.Reader.expect closing cs
  let cs ← lineEnd? cs
  return (place, cs)

def readEntry (cs : List Char) : Option (Statement × List Char) := do
  let (names, cs) ← readKey maxKeys cs
  let (way, key) ← splitKey names
  let cs ← after '=' cs
  let (v, cs) ← readValue (cs.length + 1) maxDepth (skipBlank cs)
  let cs ← lineEnd? cs
  return (.entry way key v, cs)

/-- The statements of a text; `fuel` bounds its length. -/
def readStatements : Nat → List Char → Option (List Statement)
  | 0, _ => none
  | fuel + 1, cs =>
    match skipBlank cs with
    | [] => some []
    | '\n' :: rest => readStatements fuel rest
    | '\r' :: rest => (after '\n' rest).bind (readStatements fuel)
    | '#' :: rest => (lineEnd? ('#' :: rest)).bind (readStatements fuel)
    | '[' :: '[' :: rest =>
      match readHeader [']', ']'] rest with
      | none => none
      | some ((way, key), rest) => (readStatements fuel rest).map (.arrayHeader way key :: ·)
    | '[' :: rest =>
      match readHeader [']'] rest with
      | none => none
      | some ((way, key), rest) => (readStatements fuel rest).map (.header way key :: ·)
    | cs =>
      match readEntry cs with
      | none => none
      | some (s, rest) => (readStatements fuel rest).map (s :: ·)

/-- The value of a document. A byte order mark at its start is skipped. Dates and times become their
written form, and arrays and tables between braces nest at most 79 deep. -/
def read? (s : String) : Option Json :=
  let cs := match s.toList with
    | '\ufeff' :: rest => rest
    | cs => cs
  (readStatements (cs.length + 1) cs).bind documentOf

end RadioDriver.Toml
