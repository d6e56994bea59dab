import RadioDriver.Json.Basic

namespace RadioDriver.Settings

mutual

/-- One value laid over another. Two objects merge field by field; any other value replaces what it
is laid over, `null` and arrays included. A field that the overlay has moves to the end. -/
def merge (base : Json) : Json → Json
  | .object overlay =>
    match base with
    | .object fields => .object (mergeFields fields overlay)
    | _ => .object overlay
  | .null => .null
  | .bool b => .bool b
  | .number n => .number n
  | .string s => .string s
  | .array items => .array items

def mergeFields (base : Fields Json) : List (String × Json) → Fields Json
  | [] => base
  | (k, v) :: rest =>
    let merged := match Fields.get? base k with
      | some old => merge old v
      | none => v
    mergeFields (Fields.set (Fields.erase base k) k merged) rest

end

def mergeLayers (layers : List Json) : Json := layers.foldl merge .null

end RadioDriver.Settings
