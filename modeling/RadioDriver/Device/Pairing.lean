import RadioDriver.Device.Assignment

namespace RadioDriver.Device

def viewNames (device : String) : Json → Except CompileError (List String)
  | .array items => names items
  | .string name => .ok [name]
  | _ => .ok []
where
  /-- The texts of a list, up to the first other value. -/
  names : List Json → Except CompileError (List String)
    | [] => .ok []
    | .string name :: rest => (names rest).map (name :: ·)
    | other :: _ => .error (.unknownView device other.compact)

/-- The options of a view; every view can take content before and after its own. -/
def optionSchema (view : Entity) : Fields Json :=
  let options := ((Fields.get? view "options").bind Json.fields?).getD []
  Fields.set (Fields.set options "prepend" (.object [])) "append" (.object [])

def fillOptions (device view : String) :
    Fields Json → Fields Json → Except CompileError (Fields Json)
  | [], values => .ok values
  | (option, schema) :: rest, values =>
    if Fields.contains values option then fillOptions device view rest values
    else
      match schema.field? "default" with
      | some v => fillOptions device view rest (Fields.set values option v)
      | none =>
        if ((schema.field? "required").map Json.isTruthy).getD false then
          .error (.missingOption device view option)
        else fillOptions device view rest (Fields.set values option (.string ""))

def expandView (s : Surroundings) (device : String) (overrides : Fields Json) (name : String) :
    Except CompileError Json :=
  match Fields.get? s.views name with
  | none => .error (.unknownView device name)
  | some view => do
    let given := ((Fields.get? overrides name).bind Json.fields?).getD []
    let values ← fillOptions device name (optionSchema view) given
    return .object (Fields.set (Fields.set view "options" (.object values)) "id" (.string name))

def expandViews (s : Surroundings) (device : String) (overrides : Fields Json) :
    List String → Except CompileError (List Json)
  | [] => .ok []
  | name :: rest => do
    let view ← expandView s device overrides name
    let rest ← expandViews s device overrides rest
    return view :: rest

/-- The pairing flow of a descriptor with this view order: the views themselves, each with a value
for every option, which is the device's own, else the default of the view, else the empty text. A
required option without a default must come from the device. -/
def expandPair (s : Surroundings) (device : String) (pair : Fields Json) (order : Json) :
    Except CompileError (Fields Json) := do
  let names ← viewNames device order
  let overrides := ((Fields.get? pair "viewOptions").bind Json.fields?).getD []
  let views ← expandViews s device overrides names
  return [("viewOrder", order), ("views", .array views)]

/-- The device with its pairing descriptor expanded, if that has a view order. -/
def pairUp (s : Surroundings) (id : String) (device : Entity) : Except CompileError Entity :=
  match Fields.get? device "pair" with
  | some (.object pair) =>
    match Fields.get? pair "viewOrder" with
    | none => .ok device
    | some order => do
      let pair ← expandPair s id pair order
      return Fields.set device "pair" (.object pair)
  | _ => .ok device

end RadioDriver.Device
