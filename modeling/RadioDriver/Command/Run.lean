import RadioDriver.Command.Arguments
import RadioDriver.Compiler
import RadioDriver.Disk.ConfigFile
import RadioDriver.Locale.Store
import RadioDriver.Path.Between
import RadioDriver.Settings.Sources

namespace RadioDriver.Command

/-- What a run knows of the machine. -/
structure Environment where
  home : Option String
  /-- The time that reports carry. -/
  now : String

/-- What a run ends with. -/
structure Outcome where
  code : UInt32
  stdout : String := ""
  stderr : String := ""
deriving DecidableEq, Repr

/-- A compiled project. -/
structure Project where
  settings : Settings
  compiler : Compiler
  store : LocaleStore

variable {m : Type → Type} [Monad m] [Files m]

/-- An operation as a step that ends the run with a fault made of its own. -/
def orFail {α ε δ : Type} (fault : ε → δ) (step : m (Except ε α)) : ExceptT δ m α :=
  ExceptT.mk do
    match ← step with
    | .ok a => return .ok a
    | .error e => return .error (fault e)

/-- A result as a step that ends the run with a fault made of its own. -/
def demand {α ε δ : Type} (fault : ε → δ) (result : Except ε α) : ExceptT δ m α :=
  orFail fault (return result)

def overrides (given : Given) : Option Json :=
  let radio := match given.get? .configType with
    | some name => [("config_type", Json.string name)]
    | none => []
  let policy := match given.get? .sentinel with
    | some name => [("locales", Json.object [("sentinel", .string name)])]
    | none => []
  match radio ++ policy with
  | [] => none
  | fields => some (.object fields)

def rootOf (given : Given) : String := (given.get? .root).getD "."

def configOf (given : Given) (settings : Settings) : String :=
  (given.get? .config).getD (Path.child (rootOf given) settings.configDir)

def outputOf (given : Given) (settings : Settings) : String :=
  (given.get? .out).getD (Path.child (rootOf given) settings.driverDir)

/-- Settings, built-ins, the project fragment and the project texts, compiled. References of the
fragment are anchored in its directory, seen from the driver directory. -/
def compileProject (env : Environment) (given : Given) : ExceptT CompileError m Project := do
  let root := rootOf given
  let settings ← orFail .settings (Settings.readForRoot env.home root (overrides given))
  let compiler ← demand id (Compiler.withBuiltins settings.compilerOptions)
  let file ← orFail .read (ConfigFile.locate (configOf given settings))
  let value ← orFail .read (ConfigFile.read file)
  let fragment ← demand .fragment (Fragment.ofJson value)
  let base := Path.between (Path.child root settings.driverDir) ((Path.parent? file).getD ".")
  let (added, compiler) := compiler.addConfig fragment base
  demand id added
  let store : LocaleStore := ⟨Path.child root settings.localesDir⟩
  let texts ← orFail .locale store.load
  let (finished, compiler) := compiler.finalize texts
  demand id finished
  return ⟨settings, compiler, store⟩

def failure (doing : String) (e : CompileError) : Outcome where
  code := 1
  stderr := "Error " ++ doing ++ " [" ++ e.code.name ++ "]: " ++ e.message ++ "\n"

def documents (env : Environment) (p : Project) : Except Outcome (List (String × Json)) := do
  let devices ← p.compiler.deviceConfig.mapError (failure "building device config")
  let manifest ← p.compiler.manifest.mapError (failure "building app manifest")
  let report := { p.compiler.report with sources := p.settings.sources }
  return [("device_config.json", devices), ("app_manifest.json", manifest.toJson),
    ("compile_report.json", report.toJson env.now)]

/-- Stages documents in a directory, up to the first fault. What is staged before stays beside its
target. -/
def stageDocuments (directory : String) : List (String × Json) → StagedWrites →
    ExceptT Outcome m StagedWrites
  | [], writes => return writes
  | (name, v) :: rest, writes => do
    let (staged, writes) ← writes.stage (m := m) (Path.child directory name) v.pretty.toUTF8
    demand (fun e => failure "writing outputs" (.write e)) staged
    stageDocuments directory rest writes

def line (s : String) : String := s ++ "\n"

def summary (p : Project) (localeFiles : Nat) (directory : String) : String :=
  let report := p.compiler.report
  line ("Compiled " ++ p.settings.radio.name ++ " configuration") ++
    line ("  Devices: " ++ toString report.counts.devices) ++
    line ("  Signals: " ++ toString report.counts.signals) ++
    line ("  Locale files: " ++ toString localeFiles) ++
    (if report.warningCount > 0 then line ("  Warnings: " ++ toString report.warningCount)
      else "") ++
    line ("  Output: " ++ directory)

/-- Compiles a project and writes three documents and the locale files, all or none. -/
def compile (env : Environment) (given : Given) : ExceptT Outcome m Outcome := do
  let p ← orFail (failure "compiling configuration") (compileProject env given)
  let files ← demand id (documents env p)
  let catalog ← demand (failure "reading locales") p.compiler.locales
  let directory := outputOf given p.settings
  orFail
    (fun e : OsError =>
      ⟨1, "", "Error creating output directory " ++ directory ++ ": " ++ e.message ++ "\n"⟩)
    (Files.makeDirs (m := m) directory)
  let writes ← stageDocuments directory files {}
  let (targets, writes) ← p.store.stage (m := m) catalog p.settings.policy writes
  let targets ← demand (fun e => failure "writing locales" (.locale e)) targets
  let _ ← orFail (fun e => failure "writing outputs" (.write e)) (writes.commit (m := m))
  return ⟨0, summary p targets.length directory, ""⟩

def resolve (env : Environment) (given : Given) : ExceptT Outcome m Outcome := do
  let p ← orFail (failure "resolving configuration") (compileProject env given)
  let config ← demand (failure "resolving configuration") p.compiler.config
  return ⟨0, line config.pretty, ""⟩

def versionText : String := "rfgen 0.1.0"

def usage : String :=
  line "Usage: rfgen compile [OPTIONS]" ++ line "       rfgen resolve [OPTIONS]" ++ line "" ++
    line "  -r, --root <ROOT>        root directory, . by default" ++
    line "  -c, --config <CONFIG>    project fragment, a file or a directory" ++
    line "  --config-type <TYPE>     433, 868 or ir" ++
    line "  -o, --out <OUT>          output directory of compile" ++
    line "  --sentinel <POLICY>      keep or strip, how compile marks filled texts"

def run (env : Environment) (arguments : List String) : m Outcome := do
  match Request.ofArguments arguments with
  | none => return ⟨2, "", usage⟩
  | some .help => return ⟨0, usage, ""⟩
  | some .version => return ⟨0, line versionText, ""⟩
  | some (.run action given) =>
    let steps := match action with
      | .compile => compile env given
      | .resolve => resolve env given
    match ← steps.run with
    | .ok outcome => return outcome
    | .error outcome => return outcome

end RadioDriver.Command
