import RadioDriver.Path.Anchor

namespace RadioDriver

/-- Why a value is no fragment. -/
inductive FragmentError
  /-- The value is not an object but one of the type `found`. -/
  | notAnObject (found : String)
  /-- A section has the wrong shape. -/
  | invalidSection (name expected : String)
deriving DecidableEq, Repr

def FragmentError.message : FragmentError → String
  | .notAnObject found => s!"Fragment must be an object, got {found}"
  | .invalidSection name expected => s!"Fragment section '{name}' must be {expected}"

/-- One partial configuration, split by section. Every field that is no known section is a
global. -/
structure Fragment where
  views : Fields Json := []
  deviceClasses : Fields Json := []
  devices : Fields Json := []
  /-- Declared signals by radio type, then by id. -/
  signals : Fields Json := []
  /-- Driver entries that the manifest takes over as they are. -/
  drivers : List Json := []
  locales : Option (Fields Json) := none
  globals : Fields Json := []

namespace Fragment

/-- A section keyed by id; absent and `null` are empty. -/
def objectSection (root : Fields Json) (name : String) : Except FragmentError (Fields Json) :=
  match Fields.get? root name with
  | none => .ok []
  | some .null => .ok []
  | some (.object fields) => .ok fields
  | some _ => .error (.invalidSection name "an object keyed by id")

def checkSignals : Fields Json → Except FragmentError Unit
  | [] => .ok ()
  | (_, .object _) :: rest => checkSignals rest
  | (radio, _) :: _ =>
    .error (.invalidSection ("signals." ++ radio) "an object of signal definitions")

/-- The driver entries; absent and `null` are none. -/
def driverSection (root : Fields Json) : Except FragmentError (List Json) :=
  match Fields.get? root "drivers" with
  | none => .ok []
  | some .null => .ok []
  | some (.array items) => .ok items
  | some _ => .error (.invalidSection "drivers" "an array")

def localeSection (root : Fields Json) : Except FragmentError (Option (Fields Json)) :=
  match Fields.get? root "locales" with
  | none => .ok none
  | some .null => .ok none
  | some (.object fields) => .ok (some fields)
  | some _ => .error (.invalidSection "locales" "an object keyed by language")

def sectionNames : List String :=
  ["views", "deviceClasses", "devices", "signals", "drivers", "locales"]

def ofJson (v : Json) : Except FragmentError Fragment :=
  match v with
  | .object root => do
    let views ← objectSection root "views"
    let deviceClasses ← objectSection root "deviceClasses"
    let devices ← objectSection root "devices"
    let signals ← objectSection root "signals"
    checkSignals signals
    let drivers ← driverSection root
    let locales ← localeSection root
    let globals := root.filter fun f => f.1 ∉ sectionNames
    return { views, deviceClasses, devices, signals, drivers, locales, globals }
  | other => .error (.notAnObject other.typeName)

def anchorDrivers (base : String) : List Json → Except PathError (List Json)
  | [] => .ok []
  | d :: rest => do
    let d ← Path.anchor base d
    let rest ← anchorDrivers base rest
    return d :: rest

/-- Every section but the texts, with its references anchored under the base. -/
def anchor (base : String) (f : Fragment) : Except PathError Fragment := do
  let drivers ← anchorDrivers base f.drivers
  let views ← Path.anchorObject base f.views
  let deviceClasses ← Path.anchorObject base f.deviceClasses
  let devices ← Path.anchorObject base f.devices
  let signals ← Path.anchorObject base f.signals
  let globals ← Path.anchorObject base f.globals
  return { f with views, deviceClasses, devices, signals, drivers, globals }

def isEmpty (f : Fragment) : Bool :=
  f.views.isEmpty && f.deviceClasses.isEmpty && f.devices.isEmpty && f.signals.isEmpty &&
    f.drivers.isEmpty && f.locales.isNone && f.globals.isEmpty

end Fragment

end RadioDriver
