
namespace RadioDriver

/-- Why a signal definition or its command table is refused. -/
inductive SignalError
  /-- A definition is not an object but a value of the type `found`. -/
  | notAnObject (found : String)
  /-- A command table is not an object but a value of the type `found`. -/
  | invalidCommandTable (found : String)
  /-- A type, command or subtype name holds one of the separators of command keys. -/
  | reservedSeparator (name separator : String)
  /-- Two commands have the same key. -/
  | commandCollision (key : String)
  /-- A definition asks for a transform that nobody registered. -/
  | unknownTransform (name : String)
  /-- The digest of new content is already the id of other content. -/
  | idConflict (id : String)
  /-- An id is neither text nor a number. -/
  | invalidId
deriving DecidableEq, Repr

def SignalError.message : SignalError → String
  | .notAnObject found => s!"Signal definition must be an object, found {found}"
  | .invalidCommandTable found => s!"Command table must be an object, found {found}"
  | .reservedSeparator name separator =>
    s!"Command name '{name}' contains reserved separator '{separator}'"
  | .commandCollision key => s!"Command key '{key}' is produced by more than one command"
  | .unknownTransform name => s!"Unknown command transform '{name}'"
  | .idConflict id => s!"Signal id '{id}' is already bound to different content"
  | .invalidId => "Signal id must be a string or number"

end RadioDriver
