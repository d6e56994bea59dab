
namespace RadioDriver

/-- A family of signals. -/
inductive Radio
  | rf433
  | rf868
  | infrared
deriving DecidableEq, Repr

namespace Radio

def all : List Radio := [.rf433, .rf868, .infrared]

def name : Radio → String
  | .rf433 => "433"
  | .rf868 => "868"
  | .infrared => "ir"

def ofName? (s : String) : Option Radio := all.find? (·.name == s)

/-- The namespace of a family's runtime texts in the built-in catalog. -/
def textSpace (r : Radio) : String := r.name ++ "_generator"

theorem ofName?_name (r : Radio) : ofName? r.name = some r := by cases r <;> decide

end Radio

end RadioDriver
