import RadioDriver.Compiler.Error
import RadioDriver.Signal.Registry

namespace RadioDriver.Device

/-- What the devices of one compilation share. -/
structure Surroundings where
  /-- The resolved views by name. -/
  views : Fields Entity
  /-- The declared signals of the radio type by id. -/
  declaredSignals : Fields Json
  globalDriver : Option Json
  globalSignal : Option Json

def present : Option Json → Option Json
  | none => none
  | some .null => none
  | some v => some v

/-- The definition of a signal that is named: a declared one, else one registered under the name. -/
def namedSignal (s : Surroundings) (device name : String) (registry : Signal.Registry) :
    Except CompileError Json :=
  match Fields.get? s.declaredSignals name, registry.get? name with
  | some (.object fields), _ => .ok (.object (Fields.set fields "id" (.string name)))
  | _, some entry => .ok (.object (Fields.set entry.content "id" (.string name)))
  | _, none => .error (.unknownSignal device name)

def signalOf (s : Surroundings) (id : String) (device : Entity) (registry : Signal.Registry) :
    Except CompileError Json :=
  match (present (Fields.get? device "signal")).or s.globalSignal with
  | none => .error (.noSignal id)
  | some (.string name) => namedSignal s id name registry
  | some definition => .ok definition

/-- The content of a registered signal with the names of its commands in place of the table. -/
def signalCopy (r : Signal.Registration) : Json :=
  match r.commands with
  | some names => .object (Fields.set r.content "cmds" (.ofStrings names))
  | none => .object r.content

/-- The device with its signal registered: the one that it names, whose definition it holds, or the
global one. The device keeps the id and a copy of the content with the command names. -/
def assignSignal (s : Surroundings) (id : String) (device : Entity) (registry : Signal.Registry) :
    Except CompileError (Entity × Signal.Registry) := do
  let definition ← signalOf s id device registry
  match registry.register definition with
  | .error e => .error (.invalidSignal id e)
  | .ok (r, registry) =>
    let device := Fields.set device "signal" (.string r.id)
    return (Fields.set device "signalDefinition" (signalCopy r), registry)

end RadioDriver.Device
