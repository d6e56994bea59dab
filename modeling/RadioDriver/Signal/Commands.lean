import RadioDriver.Json.Basic
import RadioDriver.Signal.Error
import RadioDriver.Text.Pieces

namespace RadioDriver.Signal

def typeSeparator : String := "$~"

def subtypeSeparator : String := "~$"

def defaultName : String := "default"

abbrev Transform := Json → Json

/-- A payload and the command and subtype it belongs to. -/
structure Leaf where
  command : String
  subtype : String
  payload : Json

def commandKey (kind command subtype : String) : String :=
  let base := if subtype = defaultName then command else command ++ subtypeSeparator ++ subtype
  if kind = defaultName then base else kind ++ typeSeparator ++ base

def checkName (name : String) : Except SignalError Unit :=
  if Text.contains name typeSeparator then .error (.reservedSeparator name typeSeparator)
  else if Text.contains name subtypeSeparator then .error (.reservedSeparator name subtypeSeparator)
  else .ok ()

def subtypeLeaves (command : String) : Fields Json → Except SignalError (List Leaf)
  | [] => .ok []
  | (subtype, payload) :: rest => do
    checkName subtype
    let more ← subtypeLeaves command rest
    return if payload.isNull then more else ⟨command, subtype, payload⟩ :: more

def commandLeaves (command : String) : Json → Except SignalError (List Leaf)
  | .null => .ok []
  | .object subtypes => subtypeLeaves command subtypes
  | payload => .ok [⟨command, defaultName, payload⟩]

def leaves : Fields Json → Except SignalError (List Leaf)
  | [] => .ok []
  | (command, payload) :: rest => do
    checkName command
    let here ← commandLeaves command payload
    let more ← leaves rest
    return here ++ more

def addCommand (table : Fields Json) (key : String) (payload : Json) :
    Except SignalError (Fields Json) :=
  if Fields.contains table key then .error (.commandCollision key)
  else .ok (Fields.set table key payload)

def addLeaves (transform : Transform) (kind : String) :
    List Leaf → Fields Json → Except SignalError (Fields Json)
  | [], table => .ok table
  | leaf :: rest, table => do
    let table ← addCommand table (commandKey kind leaf.command leaf.subtype)
      (transform leaf.payload)
    addLeaves transform kind rest table

def addTypes (transform : Transform) :
    List (String × Fields Json) → Fields Json → Except SignalError (Fields Json)
  | [], table => .ok table
  | (kind, commands) :: rest, table => do
    checkName kind
    let found ← leaves commands
    let table ← addLeaves transform kind found table
    addTypes transform rest table

/-- The tables of all fields, unless one of them is no object. -/
def allObjects? : Fields Json → Option (List (String × Fields Json))
  | [] => some []
  | (name, .object fields) :: rest => (allObjects? rest).map ((name, fields) :: ·)
  | _ :: _ => none

/-- The commands by type. A table is read as typed when it has fields and all of them are objects;
any other table belongs to the default type. -/
def commandTypes (table : Fields Json) : List (String × Fields Json) :=
  match allObjects? table with
  | some (t :: ts) => t :: ts
  | _ => [(defaultName, table)]

/-- The flat table of a command table, in document order. A table maps commands to payloads, or
types to such tables, and a payload that is an object holds one payload for each subtype. Every
payload gets one key, in which the type and subtype `default` are left out. A `null` payload has no
key, but its names are checked all the same. -/
def flattenCommands (transform : Option Transform) (commands : Json) :
    Except SignalError (Fields Json) :=
  match commands with
  | .object table => addTypes (transform.getD id) (commandTypes table) []
  | other => .error (.invalidCommandTable other.typeName)

end RadioDriver.Signal
