import RadioDriver.Disk.StagedWrites
import RadioDriver.Json.Printer
import RadioDriver.Json.Reader
import RadioDriver.Locale.Catalog

namespace RadioDriver

/-- The directory of a project's locale files, one per language. When marks are stripped, the paths
of filled texts stand in a side file of the language. -/
structure LocaleStore where
  directory : String

namespace LocaleStore

variable {m : Type → Type} [Monad m] [Files m]

def textPath (s : LocaleStore) (language : String) : String :=
  Path.child s.directory (language ++ ".json")

def sidePath (s : LocaleStore) (language : String) : String :=
  Path.child s.directory (language ++ ".autofill.json")

/-- The language of a file name, if the file holds the texts of a language. -/
def languageOf? (name : String) : Option String :=
  match Path.splitName name with
  | (stem, some "json") => if Text.contains stem "." then none else some stem
  | _ => none

def encode (v : Json) : ByteArray := v.tabbed.toUTF8

def readJson (path : String) : m (Except LocaleError Json) := do
  match ← Files.readText path with
  | .error e => return .error (.io path e)
  | .ok text =>
    match Json.read? text with
    | some v => return .ok v
    | none => return .error (.parse path "malformed JSON document")

def pathsOf (path : String) (v : Json) : Except LocaleError (List String) :=
  match v.items?.bind (·.mapM Json.string?) with
  | some paths => .ok paths
  | none => .error (.parse path "not a list of texts")

def loadTable (s : LocaleStore) (language : String) : m (Except LocaleError LocaleTable) := do
  match ← readJson (s.textPath language) with
  | .error e => return .error e
  | .ok tree =>
    match LocaleTable.ofTree language tree with
    | .error e => return .error e
    | .ok table =>
      let side := s.sidePath language
      if ← Files.isFile side then
        match ← readJson side with
        | .error e => return .error e
        | .ok v => return (pathsOf side v).map table.markFallback
      else return .ok table

/-- The tables of languages added to a catalog, up to the first fault. -/
def loadTables (s : LocaleStore) : List String → Catalog → m (Except LocaleError Catalog)
  | [], c => return .ok c
  | language :: rest, c => do
    match ← s.loadTable language with
    | .error e => return .error e
    | .ok table => s.loadTables rest (c.insert language table)

def storedLanguages (s : LocaleStore) : m (List String) := do
  let names ← Files.fileNames s.directory
  return (names.filterMap languageOf?).foldl (fun acc l => Text.insertSorted l acc) []

/-- The catalog of every language file. A directory that is not there holds none. -/
def load (s : LocaleStore) : m (Except LocaleError Catalog) := do
  if ← Files.isDir s.directory then
    s.loadTables (← s.storedLanguages) .empty
  else return .ok .empty

/-- Stages one file; the result has its target added to `targets`. -/
def stageFile (target : String) (v : Json) (w : StagedWrites) :
    m (Except LocaleError Unit × StagedWrites) := do
  match ← w.stage target (encode v) with
  | (.ok (), w) => return (.ok (), w)
  | (.error e, w) => return (.error (.io e.path e.cause), w)

/-- Stages the files of one language. The side file is written when marks are stripped and there are
some; one that is out of date is removed. -/
def stageTable (s : LocaleStore) (policy : MarkerPolicy) (language : String) (table : LocaleTable)
    (w : StagedWrites) : m (Except LocaleError (List String) × StagedWrites) := do
  let target := s.textPath language
  let side := s.sidePath language
  match ← stageFile target (table.render policy) w with
  | (.error e, w) => return (.error e, w)
  | (.ok (), w) =>
    if policy = .strip ∧ table.fallback ≠ [] then
      match ← stageFile side (.ofStrings table.fallback) w with
      | (.error e, w) => return (.error e, w)
      | (.ok (), w) => return (.ok [target, side], w)
    else if ← Files.exists? side then return (.ok [target], w.remove side)
    else return (.ok [target], w)

/-- Stages the files of languages in order, up to the first fault. -/
def stageTables (s : LocaleStore) (policy : MarkerPolicy) :
    Fields LocaleTable → StagedWrites → m (Except LocaleError (List String) × StagedWrites)
  | [], w => return (.ok [], w)
  | (language, table) :: rest, w => do
    match ← s.stageTable policy language table w with
    | (.error e, w) => return (.error e, w)
    | (.ok targets, w) =>
      match ← s.stageTables policy rest w with
      | (.error e, w) => return (.error e, w)
      | (.ok more, w) => return (.ok (targets ++ more), w)

/-- Stages the files of a catalog and lists their targets. Nothing but the directory changes before
a commit. -/
def stage (s : LocaleStore) (c : Catalog) (policy : MarkerPolicy) (w : StagedWrites) :
    m (Except LocaleError (List String) × StagedWrites) := do
  match ← Files.makeDirs s.directory with
  | .error e => return (.error (.io s.directory e), w)
  | .ok () => s.stageTables policy c.tables w

/-- Writes the files of a catalog, all or none, and lists those that were placed. -/
def persist (s : LocaleStore) (c : Catalog) (policy : MarkerPolicy) :
    m (Except LocaleError (List String)) := do
  match ← s.stage c policy {} with
  | (.error e, w) =>
    w.drop
    return .error e
  | (.ok _, w) =>
    match ← w.commit with
    | .ok placed => return .ok placed
    | .error e => return .error (.io e.path e.cause)

end LocaleStore

end RadioDriver
