import RadioDriver.Disk.Error
import RadioDriver.Disk.Files
import RadioDriver.Toml.Reader

namespace RadioDriver.ConfigFile

def names : List String := ["config.json", "config.toml"]

def malformedJson : String := "malformed JSON document"

def malformedToml : String := "TOML parse error"

variable {m : Type → Type} [Monad m] [Files m]

def firstFile? : List String → m (Option String)
  | [] => return none
  | path :: rest => do
    if ← Files.isFile path then return some path else firstFile? rest

/-- The file that a location stands for. A directory stands for the file with a fixed name inside
it. -/
def locate (location : String) : m (Except ReadError String) := do
  if ← Files.isDir location then
    match ← firstFile? (names.map (Path.child location)) with
    | some path => return .ok path
    | none => return .error (.notFound location)
  else return .ok location

def parse (path text : String) : Except ReadError Json :=
  match Path.extension? path with
  | some "json" =>
    match Json.read? text with
    | some v => .ok v
    | none => .error (.parse path malformedJson)
  | some "toml" =>
    match Toml.read? text with
    | some v => .ok v
    | none => .error (.parse path malformedToml)
  | _ => .error (.unsupported path)

def read (location : String) : m (Except ReadError Json) := do
  match ← locate location with
  | .error e => return .error e
  | .ok path =>
    match ← Files.readText path with
    | .error e => return .error (.io path e)
    | .ok text => return parse path text

end RadioDriver.ConfigFile
