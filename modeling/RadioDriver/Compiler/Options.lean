import RadioDriver.Settings.Radio
import RadioDriver.Signal.Registry

namespace RadioDriver

/-- What a compilation needs beside fragments. -/
structure CompilerOptions where
  radio : Radio := .rf433
  /-- The highest sensitivity a receiver accepts. -/
  ceiling : Signal.Ceiling := Double.half
  /-- The directory, seen from the root, that manifest paths are anchored in. -/
  driverDir : String := "drivers"

end RadioDriver
