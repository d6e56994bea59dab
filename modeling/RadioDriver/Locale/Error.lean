import RadioDriver.Disk.OsError

namespace RadioDriver

/-- Why texts cannot be merged, read or written. -/
inductive LocaleError
  /-- The key `leaf` holds a value, so nothing can stand at `path` below it, or the reverse. -/
  | collision (leaf path : String)
  /-- The texts of a language are not an object. -/
  | notAnObject (language : String)
  | io (path : String) (cause : OsError)
  | parse (path reason : String)
deriving DecidableEq, Repr

def LocaleError.message : LocaleError → String
  | .collision leaf path =>
    s!"Translation key '{leaf}' collides with key '{path}'; " ++
      s!"'{leaf}' cannot be a string and an object at the same time"
  | .notAnObject language => s!"Locale '{language}' must be an object"
  | .io path cause => "IO error on locale file " ++ path ++ ": " ++ cause.message
  | .parse path reason => s!"Parse error in locale file {path}: {reason}"

end RadioDriver
