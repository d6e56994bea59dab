import RadioDriver.Advisory
import RadioDriver.Locale.Backfill
import RadioDriver.Settings.Effective

namespace RadioDriver

/-- How much was compiled. -/
structure Counts where
  fragments : Nat
  views : Nat
  deviceClasses : Nat
  devices : Nat
  signals : Nat
deriving DecidableEq, Repr

/-- The summary of a compilation. -/
structure Report where
  radio : Radio
  counts : Counts
  sources : List SettingsSource := []
  advisories : List Advisory
  missing : List MissingText

namespace Report

def warningCount (r : Report) : Nat := r.advisories.length + r.missing.length

def countsJson (c : Counts) : Json :=
  .object [("fragments", .ofNat c.fragments), ("views", .ofNat c.views),
    ("device_classes", .ofNat c.deviceClasses), ("devices", .ofNat c.devices),
    ("signals", .ofNat c.signals)]

def missingJson (m : MissingText) : Json :=
  .object [("language", .string m.language), ("path", .string m.path)]

/-- The report as a document, made at the time `now`. Sources are left out when there are none. -/
def toJson (r : Report) (now : String) : Json :=
  let sources := if r.sources.isEmpty then []
    else [("settings_sources", .array (r.sources.map SettingsSource.toJson))]
  .object ([("schema_version", .ofNat 1), ("schema_id", .string "rfgen/compile_report@1"),
      ("created_at", .string now), ("config_type", .string r.radio.name),
      ("counts", countsJson r.counts)] ++ sources ++
    [("advisories", .array (r.advisories.map Advisory.toJson)),
      ("missing_translations", .array (r.missing.map missingJson))])

end Report

end RadioDriver
