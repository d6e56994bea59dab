import RadioDriver.Digest.Sha256
import RadioDriver.Json.Canonical
import RadioDriver.Signal.Error

namespace RadioDriver.Signal

/-- The fields that take part in the identity of a signal: its definition without the bookkeeping
fields `id` and `transform`. -/
def contentOf (definition : Json) : Except SignalError (Fields Json) :=
  match definition with
  | .object fields => .ok (Fields.erase (Fields.erase fields "id") "transform")
  | other => .error (.notAnObject other.typeName)

/-- The canonical text of content, which identifies it whatever the order of the fields. -/
def contentText (content : Fields Json) : String := (Json.object content).canonical

/-- The digest of the canonical text, the id of content that brings none of its own. -/
def contentId (content : Fields Json) : String := Sha256.hexOfText (contentText content)

/-- The id that a definition brings: text, or the text of a number. -/
def suppliedId (definition : Json) : Except SignalError (Option String) :=
  match definition.field? "id" with
  | none => .ok none
  | some .null => .ok none
  | some (.string id) => .ok (some id)
  | some (.number n) => .ok (some n.render)
  | some _ => .error .invalidId

end RadioDriver.Signal
