import RadioDriver.Json.Printer
import RadioDriver.Text.Units

namespace RadioDriver.Json

def sortedByName {α : Type} (fields : List (String × α)) : List (String × α) :=
  fields.mergeSort fun a b => Text.leByUnits a.1 b.1

mutual

def canonicalChars : Json → List Char
  | .null => ['n', 'u', 'l', 'l']
  | .bool true => ['t', 'r', 'u', 'e']
  | .bool false => ['f', 'a', 'l', 's', 'e']
  | .number n => Layout.canonical.chars n.toDouble
  | .string s => quoted s
  | .array items => '[' :: (separated [','] (canonicalItems items) ++ [']'])
  | .object fields =>
    '\x7b' :: (separated [','] ((sortedByName (canonicalFields fields)).map fun f =>
      quoted f.1 ++ ':' :: f.2) ++ ['\x7d'])

def canonicalItems : List Json → List (List Char)
  | [] => []
  | v :: rest => canonicalChars v :: canonicalItems rest

def canonicalFields : List (String × Json) → List (String × List Char)
  | [] => []
  | (k, v) :: rest => (k, canonicalChars v) :: canonicalFields rest

end

/-- The canonical text of a value by RFC 8785: no blanks, fields sorted by the UTF-16 units of their
names at every depth, and every number written as the double nearest to it. -/
def canonical (v : Json) : String := String.ofList (canonicalChars v)

end RadioDriver.Json
