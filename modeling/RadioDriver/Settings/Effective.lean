import RadioDriver.Compiler.Options
import RadioDriver.Locale.Table
import RadioDriver.Settings.Error
import RadioDriver.Settings.Merge

namespace RadioDriver

/-- Which layer a source belongs to. -/
inductive SettingsOrigin
  | builtin
  | host
  | project
  | cli
deriving DecidableEq, Repr

def SettingsOrigin.label : SettingsOrigin → String
  | .builtin => "builtin"
  | .host => "host"
  | .project => "project"
  | .cli => "cli"

/-- One contributing layer. A file is told by its path and the digest of its bytes. -/
structure SettingsSource where
  origin : SettingsOrigin
  path : Option String := none
  digest : Option String := none

def textField (name : String) : Option String → Fields Json
  | some s => [(name, .string s)]
  | none => []

def SettingsSource.toJson (s : SettingsSource) : Json :=
  .object (("origin", .string s.origin.label) :: textField "path" s.path ++
    textField "digest" s.digest)

/-- Merged settings and their sources in order of precedence. Each setting has a default that
answers where the merged value has no such key. -/
structure Settings where
  merged : Json
  sources : List SettingsSource

namespace Settings

def defaults : Json :=
  .object [
    ("config_type", .string "433"),
    ("config_dir", .string "433_generator"),
    ("driver_dir", .string "drivers"),
    ("locales", .object [("dir", .string "locales"), ("sentinel", .string "keep")]),
    ("signal", .object [("max_sensitivity", .ofDouble .half)])]

def valueAt (v : Json) : List String → Option Json
  | [] => some v
  | key :: rest => (v.field? key).bind (valueAt · rest)

/-- The radio type of a merged value, as text or as a bare number. -/
def radioOf (merged : Json) : Except SettingsError Radio :=
  match merged.field? "config_type" with
  | none => .ok .rf433
  | some given =>
    let name := match given with
      | .string s => some s
      | .number n => some n.render
      | _ => none
    match name.bind Radio.ofName? with
    | some radio => .ok radio
    | none => .error (.unknownRadio given)

def checkSensitivity (merged : Json) : Except SettingsError Unit :=
  match valueAt merged ["signal", "max_sensitivity"] with
  | none => .ok ()
  | some v =>
    match v.double? with
    | some x => if (Double.zero false).lt x && x.le .two then .ok () else .error .sensitivityRange
    | none => .error .sensitivityRange

def checkPolicy (merged : Json) : Except SettingsError Unit :=
  match valueAt merged ["locales", "sentinel"] with
  | none => .ok ()
  | some v =>
    let name := v.string?.getD ""
    if (MarkerPolicy.ofName? name).isSome then .ok () else .error (.unknownPolicy name)

def checkText (merged : Json) (key : String) : Except SettingsError Unit :=
  match merged.field? key with
  | none => .ok ()
  | some (.string _) => .ok ()
  | some _ => .error (.notAString key)

def check (merged : Json) : Except SettingsError Unit := do
  let _ ← radioOf merged
  checkSensitivity merged
  checkPolicy merged
  checkText merged "config_dir"
  checkText merged "driver_dir"

def ofLayers (layers : List (SettingsSource × Json)) : Except SettingsError Settings := do
  let merged := mergeLayers (layers.map (·.2))
  check merged
  return ⟨merged, layers.map (·.1)⟩

def get? (s : Settings) (path : String) : Option Json := valueAt s.merged (Text.split '.' path)

def text? (s : Settings) (path : String) : Option String := (s.get? path).bind Json.string?

def double? (s : Settings) (path : String) : Option Double := (s.get? path).bind Json.double?

def radio (s : Settings) : Radio := (radioOf s.merged).toOption.getD .rf433

def configDir (s : Settings) : String := (s.text? "config_dir").getD "433_generator"

def driverDir (s : Settings) : String := (s.text? "driver_dir").getD "drivers"

def localesDir (s : Settings) : String := (s.text? "locales.dir").getD "locales"

def policy (s : Settings) : MarkerPolicy :=
  ((s.text? "locales.sentinel").bind MarkerPolicy.ofName?).getD .keep

def ceiling (s : Settings) : Double := (s.double? "signal.max_sensitivity").getD .half

def compilerOptions (s : Settings) : CompilerOptions :=
  ⟨s.radio, s.ceiling, Text.trim '/' s.driverDir⟩

def toJson (s : Settings) (now : String) : Json :=
  .object [
    ("schema_version", .ofNat 1),
    ("schema_id", .string "rfgen/settings@1"),
    ("created_at", .string now),
    ("settings", s.merged),
    ("sources", .array (s.sources.map SettingsSource.toJson))]

end Settings

end RadioDriver
