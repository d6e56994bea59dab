import RadioDriver.Disk.OsError

namespace RadioDriver

/-- Why a configuration file cannot be read. -/
inductive ReadError
  | io (path : String) (cause : OsError)
  | parse (path reason : String)
  /-- The file is neither JSON nor TOML. -/
  | unsupported (path : String)
  /-- A directory holds no configuration file. -/
  | notFound (path : String)
deriving DecidableEq, Repr

def ReadError.message : ReadError → String
  | .io path cause => "IO error reading " ++ path ++ ": " ++ cause.message
  | .parse path reason => s!"Parse error in {path}: {reason}"
  | .unsupported path => s!"Unsupported config format: {path}"
  | .notFound path => s!"No config file found in {path}"

/-- A file that could not be written or put into place. -/
structure WriteError where
  path : String
  cause : OsError
deriving DecidableEq, Repr

def WriteError.message (e : WriteError) : String :=
  "Failed to write " ++ e.path ++ ": " ++ e.cause.message

end RadioDriver
