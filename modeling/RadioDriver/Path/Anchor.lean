import RadioDriver.Json.Basic
import RadioDriver.Path.Join

namespace RadioDriver

/-- Why a reference cannot be anchored. -/
inductive PathError
  /-- The reference at the dotted `location` holds a character that no portable path has. -/
  | invalid (path location : String)
deriving DecidableEq, Repr

def PathError.message : PathError → String
  | .invalid path location => s!"Path '{path}' at '{location}' is not valid"

namespace Path

def isForbidden (c : Char) : Bool :=
  c.toNat < 0x20 || c == '<' || c == '>' || c == ':' || c == '\"' || c == '|' || c == '?' ||
    c == '*'

/-- A text anchored under the base; `location` leads to it, the innermost name first. -/
def anchorText (base : String) (location : List String) (s : String) : Except PathError String :=
  if isRelativeReference s then
    if s.toList.any isForbidden then .error (.invalid s (Text.join "." location.reverse))
    else .ok (join base s)
  else .ok s

mutual

def anchorAt (base : String) (location : List String) : Json → Except PathError Json
  | .string s => (anchorText base location s).map .string
  | .array items => (anchorItems base location 0 items).map .array
  | .object fields => (anchorFields base location fields).map .object
  | .null => .ok .null
  | .bool b => .ok (.bool b)
  | .number n => .ok (.number n)

def anchorItems (base : String) (location : List String) (index : Nat) :
    List Json → Except PathError (List Json)
  | [] => .ok []
  | v :: rest => do
    let v ← anchorAt base (toString index :: location) v
    let rest ← anchorItems base location (index + 1) rest
    return v :: rest

def anchorFields (base : String) (location : List String) :
    List (String × Json) → Except PathError (List (String × Json))
  | [] => .ok []
  | (k, v) :: rest => do
    let v ← anchorAt base (k :: location) v
    let rest ← anchorFields base location rest
    return (k, v) :: rest

end

/-- A value with its references anchored under the base: every text, at any depth, that refers to a
file beside the fragment is joined onto the base. The empty base anchors nothing. -/
def anchor (base : String) (v : Json) : Except PathError Json :=
  if base = "" then .ok v else anchorAt base [] v

def anchorObject (base : String) (fields : Fields Json) : Except PathError (Fields Json) :=
  if base = "" then .ok fields else anchorFields base [] fields

end Path

end RadioDriver
