import RadioDriver.Disk.OsError
import RadioDriver.Json.Printer
import RadioDriver.Text.Utf8

namespace RadioDriver

/-- Why settings are refused. -/
inductive SettingsError
  | io (cause : OsError)
  | notText (cause : Text.Utf8Error)
  /-- A settings file is no TOML document. -/
  | notToml (reason : String)
  /-- The radio type is none of the known ones. -/
  | unknownRadio (given : Json)
  /-- The sensitivity ceiling is no number above zero and at most two. -/
  | sensitivityRange
  /-- The marker policy has no such name. -/
  | unknownPolicy (given : String)
  /-- A directory setting is not a text. -/
  | notAString (key : String)

namespace SettingsError

/-- How a refused radio type is shown: texts and numbers between quotes. -/
def shown : Json → String
  | .string s => s!"'{s}'"
  | .number n => "'" ++ n.render ++ "'"
  | other => other.compact

def message : SettingsError → String
  | .io cause => "IO error: " ++ cause.message
  | .notText cause => "Parse error: Invalid UTF-8: " ++ cause.message
  | .notToml reason => "Parse error: TOML parse error: " ++ reason
  | .unknownRadio given =>
    "Validation error: config_type must be one of 433, 868, ir; got " ++ shown given
  | .sensitivityRange => "Validation error: signal.max_sensitivity must be in (0, 2]"
  | .unknownPolicy given =>
    s!"Validation error: locales.sentinel must be 'keep' or 'strip'; got '{given}'"
  | .notAString key => s!"Validation error: {key} must be a string"

end SettingsError

end RadioDriver
