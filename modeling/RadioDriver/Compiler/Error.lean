import RadioDriver.Disk.Error
import RadioDriver.Fragment
import RadioDriver.Inherit.Resolver
import RadioDriver.Locale.Error
import RadioDriver.Settings.Error
import RadioDriver.Signal.Error

namespace RadioDriver

/-- A stable name for a group of faults. -/
inductive ErrorCode
  | cycle
  | notFound
  | missingOption
  | textCollision
  | invalidSignal
  | invalidPath
  | invalidFragment
  | readFailed
  | invalidSettings
  | notFinalized
  | writeFailed
deriving DecidableEq, Repr

def ErrorCode.name : ErrorCode → String
  | .cycle => "CYCLE"
  | .notFound => "NOT_FOUND"
  | .missingOption => "MISSING_OPTION"
  | .textCollision => "TRANSLATION_COLLISION"
  | .invalidSignal => "INVALID_SIGNAL"
  | .invalidPath => "INVALID_PATH"
  | .invalidFragment => "INVALID_FRAGMENT"
  | .readFailed => "READ_FAILED"
  | .invalidSettings => "INVALID_SETTINGS"
  | .notFinalized => "NOT_FINALIZED"
  | .writeFailed => "WRITE_FAILED"

/-- A fault of a compilation. Its code stays the same when its wording changes. -/
inductive CompileError
  | resolve (cause : ResolveError)
  /-- A required option of a view is left open. -/
  | missingOption (device view option : String)
  | unknownView (device view : String)
  | noSignal (device : String)
  | unknownSignal (device signal : String)
  | invalidSignal (device : String) (cause : SignalError)
  | locale (cause : LocaleError)
  | path (cause : PathError)
  | read (cause : ReadError)
  | fragment (cause : FragmentError)
  | settings (cause : SettingsError)
  /-- An output is asked for before a successful finalization. -/
  | notFinalized
  | write (cause : WriteError)

namespace CompileError

def message : CompileError → String
  | .resolve cause => cause.message
  | .missingOption device view option =>
    s!"View option '{option}' is required for view '{view}' in device '{device}'"
  | .unknownView device view => s!"Could not find view '{view}' for device '{device}'"
  | .noSignal device => s!"Device '{device}' has no signal and no global signal is set"
  | .unknownSignal device signal => s!"Device '{device}' refers to undeclared signal '{signal}'"
  | .invalidSignal device cause =>
    "Invalid signal for device '" ++ device ++ "': " ++ cause.message
  | .locale cause => cause.message
  | .path cause => cause.message
  | .read cause => cause.message
  | .fragment cause => cause.message
  | .settings cause => cause.message
  | .notFinalized => "Compiler has not been finalized"
  | .write cause => cause.message

def code : CompileError → ErrorCode
  | .resolve (.cycle ..) => .cycle
  | .resolve (.notFound ..) => .notFound
  | .resolve _ => .invalidFragment
  | .missingOption .. => .missingOption
  | .unknownView .. => .notFound
  | .noSignal _ => .notFound
  | .unknownSignal .. => .notFound
  | .invalidSignal .. => .invalidSignal
  | .locale (.collision ..) => .textCollision
  | .locale _ => .readFailed
  | .path _ => .invalidPath
  | .read _ => .readFailed
  | .fragment _ => .invalidFragment
  | .settings _ => .invalidSettings
  | .notFinalized => .notFinalized
  | .write _ => .writeFailed

end CompileError

end RadioDriver
