import RadioDriver.Digest.Sha256
import RadioDriver.Disk.Files
import RadioDriver.Settings.Effective
import RadioDriver.Toml.Reader

namespace RadioDriver.Settings

variable {m : Type → Type} [Monad m] [Files m]

def hostFile : String := ".config/rfgen/settings.toml"

def projectFile : String := ".rfgen.toml"

def layerOf (origin : SettingsOrigin) (path : String) (bytes : ByteArray) :
    Except SettingsError (SettingsSource × Json) :=
  match Text.decodeUtf8 bytes with
  | .error e => .error (.notText e)
  | .ok text =>
    match Toml.read? text with
    | none => .error (.notToml "malformed document")
    | some v => .ok (⟨origin, some path, some (Sha256.hex bytes.data.toList)⟩, v)

/-- The layer of a settings file, if it is given and there. A file that is not there is no
source. -/
def readLayer (origin : SettingsOrigin) (path : Option String) :
    m (Except SettingsError (List (SettingsSource × Json))) := do
  match path with
  | none => return .ok []
  | some path =>
    if ← Files.exists? path then
      match ← Files.read path with
      | .error e => return .error (.io e)
      | .ok bytes => return (layerOf origin path bytes).map ([·])
    else return .ok []

/-- The settings of a host file, a project file and a value from the command line. -/
def read (host project : Option String) (commandLine : Option Json) :
    m (Except SettingsError Settings) := do
  match ← readLayer .host host with
  | .error e => return .error e
  | .ok hostLayer =>
    match ← readLayer .project project with
    | .error e => return .error e
    | .ok projectLayer =>
      let given := match commandLine with
        | some v => [(({ origin := .cli } : SettingsSource), v)]
        | none => []
      return ofLayers ([({ origin := .builtin }, defaults)] ++ hostLayer ++ projectLayer ++ given)

/-- The settings of a root directory, with the host's file below the home directory. -/
def readForRoot (home : Option String) (root : String) (commandLine : Option Json) :
    m (Except SettingsError Settings) :=
  read (home.map (Path.child · hostFile)) (some (Path.child root projectFile)) commandLine

end RadioDriver.Settings
