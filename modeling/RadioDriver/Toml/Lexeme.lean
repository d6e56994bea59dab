import RadioDriver.Json.Reader

namespace RadioDriver.Toml

def isBlank (c : Char) : Bool := c == ' ' || c == '\t'

def skipBlank (cs : List Char) : List Char := cs.dropWhile isBlank

def newline? : List Char → Option (List Char)
  | '\n' :: rest => some rest
  | '\r' :: '\n' :: rest => some rest
  | _ => none

/-- Characters that comments and texts may hold: all but controls other than the tab. -/
def isPlain (c : Char) : Bool := c == '\t' || (0x20 ≤ c.toNat && c.toNat != 0x7F)

/-- The input after the end of a line: blanks, perhaps a comment, then a line break or nothing. -/
def lineEnd? (cs : List Char) : Option (List Char) :=
  let cs := match skipBlank cs with
    | '#' :: rest => rest.dropWhile isPlain
    | cs => cs
  match cs with
  | [] => some []
  | cs => newline? cs

/-- The character of a code point; surrogates have none. -/
def charOf? (n : Nat) : Option Char := if n.isValidChar then some (Char.ofNat n) else none

def hexNumber? (ds : List Char) : Option Nat :=
  ds.foldl (fun acc d => do return (← acc) * 16 + (← Json.Reader.hexValue? d)) (some 0)

def simpleEscape? (c : Char) : Option Char :=
  if c = 'b' then some '\x08'
  else if c = 't' then some '\t'
  else if c = 'n' then some '\n'
  else if c = 'f' then some '\x0c'
  else if c = 'r' then some '\r'
  else if c = '\"' then some '\"'
  else if c = '\\' then some '\\'
  else none

def consText (c : Char) (r : Option (List Char × List Char)) : Option (List Char × List Char) :=
  r.map fun (cs, rest) => (c :: cs, rest)

def readBasic : List Char → Option (List Char × List Char)
  | '\"' :: rest => some ([], rest)
  | '\\' :: 'u' :: a :: b :: c :: d :: rest =>
    match (hexNumber? [a, b, c, d]).bind charOf? with
    | some c => consText c (readBasic rest)
    | none => none
  | '\\' :: 'U' :: a :: b :: c :: d :: e :: f :: g :: h :: rest =>
    match (hexNumber? [a, b, c, d, e, f, g, h]).bind charOf? with
    | some c => consText c (readBasic rest)
    | none => none
  | '\\' :: c :: rest =>
    match simpleEscape? c with
    | some c => consText c (readBasic rest)
    | none => none
  | c :: rest => if isPlain c then consText c (readBasic rest) else none
  | [] => none

def readLiteral : List Char → Option (List Char × List Char)
  | '\x27' :: rest => some ([], rest)
  | c :: rest => if isPlain c then consText c (readLiteral rest) else none
  | [] => none

def joinsLines (cs : List Char) : Bool := (newline? (skipBlank cs)).isSome

/-- A basic text of several lines after its opening. While `joining`, blanks and line breaks are
skipped. Up to two quotes may stand before the closing three. -/
def readLongBasic (joining : Bool) : List Char → Option (List Char × List Char)
  | '\"' :: '\"' :: '\"' :: '\"' :: '\"' :: rest => some (['\"', '\"'], rest)
  | '\"' :: '\"' :: '\"' :: '\"' :: rest => some (['\"'], rest)
  | '\"' :: '\"' :: '\"' :: rest => some ([], rest)
  | '\r' :: '\n' :: rest =>
    if joining then readLongBasic true rest else consText '\n' (readLongBasic false rest)
  | '\n' :: rest =>
    if joining then readLongBasic true rest else consText '\n' (readLongBasic false rest)
  | '\\' :: 'u' :: a :: b :: c :: d :: rest =>
    match (hexNumber? [a, b, c, d]).bind charOf? with
    | some c => consText c (readLongBasic false rest)
    | none => none
  | '\\' :: 'U' :: a :: b :: c :: d :: e :: f :: g :: h :: rest =>
    match (hexNumber? [a, b, c, d, e, f, g, h]).bind charOf? with
    | some c => consText c (readLongBasic false rest)
    | none => none
  | '\\' :: c :: rest =>
    if joinsLines (c :: rest) then readLongBasic true (c :: rest)
    else
      match simpleEscape? c with
      | some c => consText c (readLongBasic false rest)
      | none => none
  | c :: rest =>
    if joining && isBlank c then readLongBasic true rest
    else if isPlain c then consText c (readLongBasic false rest)
    else none
  | [] => none

/-- A literal text of several lines after its opening. Up to two quotes may stand before the closing
three. -/
def readLongLiteral : List Char → Option (List Char × List Char)
  | '\x27' :: '\x27' :: '\x27' :: '\x27' :: '\x27' :: rest => some (['\x27', '\x27'], rest)
  | '\x27' :: '\x27' :: '\x27' :: '\x27' :: rest => some (['\x27'], rest)
  | '\x27' :: '\x27' :: '\x27' :: rest => some ([], rest)
  | '\r' :: '\n' :: rest => consText '\n' (readLongLiteral rest)
  | '\n' :: rest => consText '\n' (readLongLiteral rest)
  | c :: rest => if isPlain c then consText c (readLongLiteral rest) else none
  | [] => none

/-- The input without the line break that may follow an opening. -/
def skipNewline (cs : List Char) : List Char := (newline? cs).getD cs

/-- A text value. Basic texts have escapes, literal texts have none, and both come in a form of
several lines. A line break in a text is always read as a single newline. -/
def readText : List Char → Option (List Char × List Char)
  | '\"' :: '\"' :: '\"' :: rest => readLongBasic false (skipNewline rest)
  | '\"' :: rest => readBasic rest
  | '\x27' :: '\x27' :: '\x27' :: rest => readLongLiteral (skipNewline rest)
  | '\x27' :: rest => readLiteral rest
  | _ => none

def isBare (c : Char) : Bool := c.isAlphanum || c == '_' || c == '-'

def readSimpleKey : List Char → Option (String × List Char)
  | '\"' :: rest => (readBasic rest).map fun (cs, rest) => (String.ofList cs, rest)
  | '\x27' :: rest => (readLiteral rest).map fun (cs, rest) => (String.ofList cs, rest)
  | cs =>
    match cs.takeWhile isBare with
    | [] => none
    | name => some (String.ofList name, cs.dropWhile isBare)

def maxKeys : Nat := 79

/-- A dotted key of at most `fuel` keys, and the input after blanks behind it. -/
def readKey : Nat → List Char → Option (List String × List Char)
  | 0, _ => none
  | fuel + 1, cs =>
    match readSimpleKey (skipBlank cs) with
    | none => none
    | some (name, rest) =>
      match skipBlank rest with
      | '.' :: rest => (readKey fuel rest).map fun (names, rest) => (name :: names, rest)
      | rest => some ([name], rest)

end RadioDriver.Toml
