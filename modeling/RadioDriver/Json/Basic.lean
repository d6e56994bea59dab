import RadioDriver.Decimal.Double
import RadioDriver.Json.Fields

namespace RadioDriver

/-- A JSON number: an integer of at most 64 bits, or a finite double. -/
inductive Number
  | integer (value : Int)
  | decimal (value : Double)
deriving DecidableEq, Repr

/-- A JSON value. Objects keep the order of their fields. Integers stay apart from decimals: `1` and
`1.0` are different values. -/
inductive Json
  | null
  | bool (value : Bool)
  | number (value : Number)
  | string (value : String)
  | array (items : List Json)
  | object (fields : List (String × Json))
deriving Inhabited

namespace Number

/-- Whether an integer has at most 64 bits, signed or unsigned. -/
def fits (n : Int) : Bool := -0x8000000000000000 ≤ n && n < 0x10000000000000000

def toDouble : Number → Double
  | .integer n => (Double.ofInt? n).getD (.zero false)
  | .decimal x => x

end Number

namespace Json

def ofInt (n : Int) : Json := .number (.integer n)

def ofNat (n : Nat) : Json := .number (.integer n)

def ofDouble (x : Double) : Json := .number (.decimal x)

def ofStrings (ss : List String) : Json := .array (ss.map .string)

/-- A value that may be absent; absence is `null`. -/
def ofOption : Option Json → Json
  | none => .null
  | some v => v

def typeName : Json → String
  | .null => "null"
  | .bool _ => "boolean"
  | .number _ => "number"
  | .string _ => "string"
  | .array _ => "array"
  | .object _ => "object"

def isNull : Json → Bool
  | .null => true
  | _ => false

def isObject : Json → Bool
  | .object _ => true
  | _ => false

def string? : Json → Option String
  | .string s => some s
  | _ => none

def items? : Json → Option (List Json)
  | .array items => some items
  | _ => none

def fields? : Json → Option (Fields Json)
  | .object fields => some fields
  | _ => none

def double? : Json → Option Double
  | .number n => some n.toDouble
  | _ => none

def field? (v : Json) (name : String) : Option Json := v.fields?.bind (Fields.get? · name)

/-- Loose truth: `null`, `false`, zero and the empty text are false. -/
def isTruthy : Json → Bool
  | .null => false
  | .bool b => b
  | .number n => !n.toDouble.isZero
  | .string s => s ≠ ""
  | .array _ => true
  | .object _ => true

/-- Absent and `null` are the empty list, an array its items, any other value a list of itself. -/
def asList : Option Json → List Json
  | none => []
  | some .null => []
  | some (.array items) => items
  | some other => [other]

end Json

end RadioDriver
