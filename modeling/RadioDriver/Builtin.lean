import RadioDriver.Builtin.DeviceClasses
import RadioDriver.Builtin.Dutch
import RadioDriver.Builtin.English
import RadioDriver.Builtin.Views
import RadioDriver.Fragment
import RadioDriver.Locale.Catalog

namespace RadioDriver.Builtin

def base : String := "./lib"

def fragment : Fragment :=
  { views := Views.all
    deviceClasses := DeviceClasses.all
    globals := [("driver", .string "./driver")] }

def catalog : Catalog where
  tables := [("en", ⟨English.texts, []⟩), ("nl", ⟨Dutch.texts, []⟩)]
  sorted := show ["en", "nl"].Pairwise (· < ·) by decide
  default_mem := show "en" ∈ ["en", "nl"] by decide

end RadioDriver.Builtin
