import RadioDriver.Json.Basic

namespace RadioDriver

/-- A finding about a device that never ends a compilation. -/
structure Advisory where
  device : String
  message : String
deriving DecidableEq, Repr

namespace Advisory

def line (a : Advisory) : String := s!"{a.device}: {a.message}"

/-- What the platform expects of a device, and the finding where it is missing. -/
def expectations (device : Fields Json) : List (Option Json × String) :=
  let image name := (Fields.get? device "images").bind (·.field? name)
  [(Fields.get? device "name", "No name set"),
    (Fields.get? device "class", "No device class set"),
    (Fields.get? device "icon", "No icon set"),
    (image "small", "No small image set"),
    (image "large", "No large image set")]

def ofDevice (id : String) (device : Fields Json) : List Advisory :=
  ((expectations device).filter fun e => !((e.1.map Json.isTruthy).getD false)).map
    fun e => ⟨id, e.2⟩

def toJson (a : Advisory) : Json :=
  .object [("device", .string a.device), ("message", .string a.message)]

end Advisory

end RadioDriver
