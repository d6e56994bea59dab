import RadioDriver.Decimal.Layout
import RadioDriver.Json.Basic

namespace RadioDriver.Json

def hexEscape (c : Char) : List Char :=
  ['\\', 'u', '0', '0', Nat.digitChar (c.toNat / 16), Nat.digitChar (c.toNat % 16)]

/-- A character inside a JSON text: quotes, backslashes and controls are escaped. -/
def escape (c : Char) : List Char :=
  if c = '\"' then ['\\', '\"']
  else if c = '\\' then ['\\', '\\']
  else if c = '\x08' then ['\\', 'b']
  else if c = '\x0c' then ['\\', 'f']
  else if c = '\n' then ['\\', 'n']
  else if c = '\r' then ['\\', 'r']
  else if c = '\t' then ['\\', 't']
  else if c.toNat < 0x20 then hexEscape c
  else [c]

def quoted (s : String) : List Char := '\"' :: (s.toList.flatMap escape ++ ['\"'])

def integerChars (n : Int) : List Char :=
  if n < 0 then '-' :: Nat.toDigits 10 n.natAbs else Nat.toDigits 10 n.natAbs

def numberChars : Number → List Char
  | .integer n => integerChars n
  | .decimal x => Layout.json.chars x

/-- Pieces one after another with a separator between neighbours. -/
def separated (separator : List Char) : List (List Char) → List Char
  | [] => []
  | [piece] => piece
  | piece :: next :: rest => piece ++ separator ++ separated separator (next :: rest)

mutual

def compactChars : Json → List Char
  | .null => ['n', 'u', 'l', 'l']
  | .bool true => ['t', 'r', 'u', 'e']
  | .bool false => ['f', 'a', 'l', 's', 'e']
  | .number n => numberChars n
  | .string s => quoted s
  | .array items => '[' :: (separated [','] (compactItems items) ++ [']'])
  | .object fields => '\x7b' :: (separated [','] (compactFields fields) ++ ['\x7d'])

def compactItems : List Json → List (List Char)
  | [] => []
  | v :: rest => compactChars v :: compactItems rest

def compactFields : List (String × Json) → List (List Char)
  | [] => []
  | (k, v) :: rest => (quoted k ++ ':' :: compactChars v) :: compactFields rest

end

def lineBreak (indent : List Char) (depth : Nat) : List Char :=
  '\n' :: (List.replicate depth indent).flatten

def block (indent : List Char) (depth : Nat) (opening closing : Char) (pieces : List (List Char)) :
    List Char :=
  if pieces.isEmpty then [opening, closing]
  else
    opening :: (lineBreak indent (depth + 1) ++
      separated (',' :: lineBreak indent (depth + 1)) pieces ++
      lineBreak indent depth ++ [closing])

mutual

def indentedChars (indent : List Char) (depth : Nat) : Json → List Char
  | .array items => block indent depth '[' ']' (indentedItems indent (depth + 1) items)
  | .object fields => block indent depth '\x7b' '\x7d' (indentedFields indent (depth + 1) fields)
  | .null => ['n', 'u', 'l', 'l']
  | .bool true => ['t', 'r', 'u', 'e']
  | .bool false => ['f', 'a', 'l', 's', 'e']
  | .number n => numberChars n
  | .string s => quoted s

def indentedItems (indent : List Char) (depth : Nat) : List Json → List (List Char)
  | [] => []
  | v :: rest => indentedChars indent depth v :: indentedItems indent depth rest

def indentedFields (indent : List Char) (depth : Nat) : List (String × Json) → List (List Char)
  | [] => []
  | (k, v) :: rest =>
    (quoted k ++ ':' :: ' ' :: indentedChars indent depth v) :: indentedFields indent depth rest

end

def compact (v : Json) : String := String.ofList (compactChars v)

/-- The text of a value, two blanks an indent. Every item is put on a line of its own, with a blank
after the colon; an empty array or object stays on one line. -/
def pretty (v : Json) : String := String.ofList (indentedChars [' ', ' '] 0 v)

/-- The text of a value, a tab an indent, with a line break at the end. -/
def tabbed (v : Json) : String := String.ofList (indentedChars ['\t'] 0 v ++ ['\n'])

end RadioDriver.Json

namespace RadioDriver.Number

def render (n : Number) : String := String.ofList (Json.numberChars n)

end RadioDriver.Number
