import RadioDriver.Disk.OsError
import RadioDriver.Path.Entry
import RadioDriver.Text.Utf8

namespace RadioDriver

/-- What a path leads to. -/
inductive FileKind
  | directory
  | file
deriving DecidableEq, Repr

/-- A file system reached from `m`: a real disk, or `Disk`, a file system that is a value. -/
class Files (m : Type → Type) where
  /-- What a path leads to; `none` if that is nothing, or cannot be told. -/
  kind? : String → m (Option FileKind)
  read : String → m (Except OsError ByteArray)
  /-- Writes a whole file. -/
  write : String → ByteArray → m (Except OsError Unit)
  /-- Moves an entry; a file that is in the way is replaced. -/
  rename : String → String → m (Except OsError Unit)
  removeFile : String → m (Except OsError Unit)
  /-- Makes one directory. -/
  makeDir : String → m (Except OsError Unit)
  /-- The names of the files in a directory, in no certain order. -/
  fileNames : String → m (List String)

namespace Files

variable {m : Type → Type} [Monad m] [Files m]

def isDir (path : String) : m Bool := do return (← kind? path) == some .directory

def isFile (path : String) : m Bool := do return (← kind? path) == some .file

def exists? (path : String) : m Bool := do return (← kind? path).isSome

def readText (path : String) : m (Except OsError String) := do
  match ← read path with
  | .error e => return .error e
  | .ok bytes =>
    match Text.decodeUtf8 bytes with
    | .ok s => return .ok s
    | .error _ => return .error .notText

/-- Makes one directory; one that is there already will do. -/
def makeDirOnce (path : String) : m (Except OsError Unit) := do
  match ← makeDir path with
  | .ok () => return .ok ()
  | .error e => if ← isDir path then return .ok () else return .error e

/-- Makes a directory and those above it; `depth` bounds how many. -/
def makeDirsWithin : Nat → String → m (Except OsError Unit)
  | 0, _ => return .error .notFound
  | depth + 1, path => do
    if path = "" then return .ok ()
    match ← makeDirOnce path with
    | .ok () => return .ok ()
    | .error .notFound =>
      match Path.parent? path with
      | none => return .error (.other "failed to create whole tree")
      | some above =>
        match ← makeDirsWithin depth above with
        | .error e => return .error e
        | .ok () => makeDirOnce path
    | .error e => return .error e

/-- Makes a directory and every directory above it that is missing. -/
def makeDirs (path : String) : m (Except OsError Unit) := makeDirsWithin (path.length + 1) path

end Files

end RadioDriver
