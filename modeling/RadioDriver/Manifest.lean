import RadioDriver.Device.Assembly
import RadioDriver.Locale.Catalog
import RadioDriver.Path.Anchor
import RadioDriver.Settings.Radio

namespace RadioDriver.Manifest

def localizedNames : List String := ["label", "title", "placeholder"]

mutual

def localize (c : Catalog) : Json → Json
  | .object fields => .object (localizeFields c fields)
  | .array items => .array (localizeItems c items)
  | .null => .null
  | .bool b => .bool b
  | .number n => .number n
  | .string s => .string s

def localizeItems (c : Catalog) : List Json → List Json
  | [] => []
  | v :: rest => localize c v :: localizeItems c rest

def localizeFields (c : Catalog) : List (String × Json) → List (String × Json)
  | [] => []
  | (k, .string s) :: rest =>
    (k, if localizedNames.contains k then c.localized s else .string s) :: localizeFields c rest
  | (k, v) :: rest => (k, localize c v) :: localizeFields c rest

end

/-- One step of a pairing wizard. -/
structure PairStep where
  id : String
  /-- A template of the platform; templates of the project are left out. -/
  template : Option String
  prev : Option String
  next : Option String

/-- A driver entry made from a device. -/
structure Driver where
  id : String
  name : Json
  deviceClass : Json
  capabilities : Json
  images : Option Json
  settings : Option Json
  pair : Option (List PairStep)

/-- The flow cards of all devices and of the project. -/
structure Flow where
  triggers : List Json
  conditions : List Json
  actions : List Json

end Manifest

/-- The platform manifest: signals, drivers and flow cards as the platform reads them. Texts stand
there by language, and paths are anchored in the driver directory. -/
structure Manifest where
  /-- Signals by radio type, then by id. -/
  signals : Fields (Fields Json)
  drivers : List Manifest.Driver
  /-- Driver entries taken over from fragments, after the others. -/
  rawDrivers : List Json
  flow : Manifest.Flow

namespace Manifest

/-- Where an option of a step leads: a text names the step, any other true value means the
neighbour. -/
def link (value : Option Json) (neighbour : Option String) : Option String :=
  match value with
  | none => none
  | some (.string target) => if target = "" then none else some target
  | some v => if v.isTruthy then neighbour else none

def viewId (view : Json) : String := ((view.field? "id").bind Json.string?).getD ""

def stepsBetween (previous : Option String) : List Json → List PairStep
  | [] => []
  | view :: rest =>
    let option name := (view.field? "options").bind (·.field? name)
    let template := ((view.field? "template").bind Json.string?).filter
      fun t => !Path.isRelativeReference t
    ⟨viewId view, template, link (option "previous") previous,
      link (option "next") (rest.head?.map viewId)⟩ :: stepsBetween (some (viewId view)) rest

def pairSteps (device : Fields Json) : Option (List PairStep) :=
  match (((Fields.get? device "pair").bind (·.field? "views")).bind Json.items?) with
  | some (v :: vs) => some (stepsBetween none (v :: vs))
  | _ => none

def driverOf (c : Catalog) (id : String) (device : Fields Json) : Driver where
  id := id
  name := match Fields.get? device "name" with
    | some (.string name) => c.localized name
    | some other => other
    | none => .null
  deviceClass := Json.ofOption (Fields.get? device "class")
  capabilities := (Fields.get? device "capabilities").getD (.array [])
  images := Fields.get? device "images"
  settings := (Fields.get? device "settings").map (localize c)
  pair := pairSteps device

def cardsIn (name : String) (fields : Fields Json) : List Json :=
  ((Fields.get? fields name).bind Json.items?).getD []

/-- The flow cards of devices, then those of the project, given by language. -/
def flowOf (c : Catalog) (devices : List (Fields Json)) (globalFlow : Option Json) : Flow :=
  let own := (globalFlow.bind Json.fields?).getD []
  let cards name :=
    devices.flatMap (fun d => (cardsIn name d).map (localize c)) ++
      cardsIn name (localizeFields c own)
  ⟨cards "triggers", cards "conditions", cards "actions"⟩

/-- The definition of a registered signal with its command table. -/
def signalDefinition (e : Signal.Entry) : Json :=
  match e.commands with
  | some table => .object (Fields.set e.content "cmds" (.object table))
  | none => .object e.content

def addSignals (signals : Fields (Fields Json)) (radio : String) (more : Fields Json) :
    Fields (Fields Json) :=
  Fields.set signals radio (Fields.override ((Fields.get? signals radio).getD []) more)

/-- The declared signals of every radio type, and the registered ones of the compiled type. -/
def signalsOf (radio : Radio) (declared : Fields (Fields Json)) (registry : Signal.Registry) :
    Fields (Fields Json) :=
  let blank := Radio.all.map fun r => (r.name, [])
  let listed := declared.foldl (fun acc d => addSignals acc d.1 d.2) blank
  addSignals listed radio.name (registry.entries.map fun e => (e.id, signalDefinition e))

/-- What a manifest is made from. -/
structure Parts where
  radio : Radio
  devices : Fields Entity
  rawDrivers : List Json
  declaredSignals : Fields (Fields Json)
  globalFlow : Option Json
  registry : Signal.Registry
  catalog : Catalog
  /-- The base that paths of devices and raw drivers are anchored under. -/
  base : String

def anchorDevices (base : String) : Fields Entity → Except PathError (Fields Entity)
  | [] => .ok []
  | (id, device) :: rest => do
    let device ← Path.anchorObject base device
    let rest ← anchorDevices base rest
    return (id, device) :: rest

def build (p : Parts) : Except PathError Manifest := do
  let devices ← anchorDevices p.base p.devices
  let rawDrivers ← Fragment.anchorDrivers p.base p.rawDrivers
  return {
    signals := signalsOf p.radio p.declaredSignals p.registry
    drivers := devices.map fun d => driverOf p.catalog d.1 d.2
    rawDrivers
    flow := flowOf p.catalog (devices.map (·.2)) p.globalFlow }

def optionalField (name : String) : Option Json → Fields Json
  | some v => [(name, v)]
  | none => []

def PairStep.toJson (s : PairStep) : Json :=
  .object (("id", .string s.id) :: optionalField "template" (s.template.map .string) ++
    [("navigation", .object (optionalField "prev" (s.prev.map .string) ++
      optionalField "next" (s.next.map .string)))])

def Driver.toJson (d : Driver) : Json :=
  .object ([("id", .string d.id), ("name", d.name), ("class", d.deviceClass),
      ("capabilities", d.capabilities)] ++
    optionalField "images" d.images ++
    optionalField "settings" d.settings ++
    optionalField "pair" (d.pair.map fun steps => .array (steps.map PairStep.toJson)))

def toJson (m : Manifest) : Json :=
  .object [
    ("signals", .object (Fields.mapValues .object m.signals)),
    ("drivers", .array (m.drivers.map Driver.toJson ++ m.rawDrivers)),
    ("flow", .object [
      ("triggers", .array m.flow.triggers),
      ("conditions", .array m.flow.conditions),
      ("actions", .array m.flow.actions)])]

end Manifest

end RadioDriver
