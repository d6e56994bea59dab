import RadioDriver.Device.Pairing

namespace RadioDriver.Device

def flowSections : List String := ["triggers", "conditions", "actions"]

/-- The id of a card as text; a card without one has the empty id. -/
def cardId : Option Json → String
  | none => ""
  | some (.string id) => id
  | some other => other.compact

def deviceArgument (device : String) : Json :=
  .object [("name", .string "device"), ("type", .string "device"),
    ("filter", .string ("driver_id=" ++ device))]

/-- A card with the device before its id and among its arguments. -/
def ownCard (device : String) : Json → Json
  | .object card =>
    let args := ((Fields.get? card "args").bind Json.items?).getD []
    let card := Fields.set card "id" (.string (device ++ ":" ++ cardId (Fields.get? card "id")))
    .object (Fields.set card "args" (.array (args ++ [deviceArgument device])))
  | other => other

def ownSection (id : String) (device : Entity) (name : String) : Entity :=
  match Fields.get? device name with
  | some (.array cards) => Fields.set device name (.array (cards.map (ownCard id)))
  | _ => device

/-- The device with the global driver unless it has one of its own. -/
def withDriver (s : Surroundings) (device : Entity) : Entity :=
  match present (Fields.get? device "driver"), s.globalDriver with
  | none, some driver => Fields.set device "driver" driver
  | _, _ => device

/-- The emitted form of a resolved device, and the registry with its signal: the device gets the
global driver if it has none, its signal, its pairing flow, and flow cards that belong to it
alone. -/
def assemble (s : Surroundings) (id : String) (device : Entity) (registry : Signal.Registry) :
    Except CompileError (Entity × Signal.Registry) := do
  let (device, registry) ← assignSignal s id (withDriver s device) registry
  let device ← pairUp s id device
  return (flowSections.foldl (ownSection id) device, registry)

end RadioDriver.Device
