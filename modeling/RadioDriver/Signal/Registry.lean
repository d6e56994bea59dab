import RadioDriver.Signal.Commands
import RadioDriver.Signal.Content

namespace RadioDriver.Signal

/-- The highest sensitivity a receiver accepts: any 64-bit float, the special ones included. -/
inductive Ceiling
  | finite (limit : Double)
  | infinite (negative : Bool)
  | notANumber
deriving DecidableEq, Repr

namespace Ceiling

instance : Coe Double Ceiling := ⟨.finite⟩

/-- Whether a sensitivity is above the ceiling. Nothing is above what is not a number. -/
def exceededBy : Ceiling → Double → Bool
  | .finite limit, s => limit.lt s
  | .infinite negative, _ => negative
  | .notANumber, _ => false

/-- The ceiling as a value; only finite floats have one. -/
def json : Ceiling → Json
  | .finite limit => .ofDouble limit
  | .infinite _ => .null
  | .notANumber => .null

theorem exceededBy_json {ceiling : Ceiling} {s : Double} (h : ceiling.json.double? = some s) :
    ceiling.exceededBy s = false := by
  cases ceiling with
  | finite limit =>
    cases h
    exact limit.lt_self
  | infinite negative => cases h
  | notANumber => rfl

end Ceiling

/-- A registered signal. -/
structure Entry where
  id : String
  content : Fields Json
  /-- The flat command table, if the content has one. -/
  commands : Option (Fields Json)

/-- What one registration answers. -/
structure Registration where
  id : String
  content : Fields Json
  commands : Option (List String)
  isNew : Bool

/-- The signals of one run in the order of registration, indexed by id and by canonical text. Equal
content has one id, and an id keeps the definition and command table of its first registration. -/
structure Registry where
  entries : List Entry := []
  byId : Fields Nat := []
  byContent : Fields Nat := []
  transforms : Fields Transform := []
  ceiling : Ceiling := Double.half

namespace Registry

def addTransform (r : Registry) (name : String) (transform : Transform) : Registry :=
  { r with transforms := Fields.set r.transforms name transform }

def entryAt? (r : Registry) (index : Fields Nat) (key : String) : Option Entry :=
  (Fields.get? index key).bind (r.entries[·]?)

def get? (r : Registry) (id : String) : Option Entry := r.entryAt? r.byId id

def contains (r : Registry) (id : String) : Bool := Fields.contains r.byId id

def clamp (r : Registry) (definition : Json) : Json :=
  match definition with
  | .object fields =>
    match (Fields.get? fields "sensitivity").bind Json.double? with
    | some s =>
      if r.ceiling.exceededBy s then .object (Fields.set fields "sensitivity" r.ceiling.json)
      else definition
    | none => definition
  | _ => definition

def transformFor (r : Registry) (definition : Json) : Except SignalError (Option Transform) :=
  match definition.field? "transform" with
  | none => .ok none
  | some .null => .ok none
  | some (.string name) =>
    match Fields.get? r.transforms name with
    | some t => .ok (some t)
    | none => .error (.unknownTransform name)
  | some other => .error (.unknownTransform other.compact)

def commandsOf (r : Registry) (definition : Json) (content : Fields Json) :
    Except SignalError (Option (Fields Json)) :=
  match Fields.get? content "cmds" with
  | none => .ok none
  | some commands => do
    let transform ← r.transformFor definition
    let table ← flattenCommands transform commands
    return some table

def answer (entry : Entry) (isNew : Bool) : Registration :=
  ⟨entry.id, entry.content, entry.commands.map Fields.names, isNew⟩

/-- The signal that is registered for a definition: by the id it brings, else by its content. -/
def existing? (r : Registry) (supplied : Option String) (content : Fields Json) : Option Entry :=
  match supplied with
  | some id => r.get? id
  | none => r.entryAt? r.byContent (contentText content)

/-- Registers a definition, its sensitivity clamped first. The changes are made one after another,
and one that is made before a failure would stay made. -/
def registering (definition : Json) : ExceptT SignalError (StateM Registry) Registration := do
  let r ← get
  let definition := r.clamp definition
  let content ← contentOf definition
  let supplied ← suppliedId definition
  match r.existing? supplied content with
  | some entry => return answer entry false
  | none =>
    let id := supplied.getD (contentId content)
    if r.contains id then throw (.idConflict id)
    let commands ← r.commandsOf definition content
    let index := r.entries.length
    let text := contentText content
    unless Fields.contains r.byContent text do
      modify fun r => { r with byContent := Fields.set r.byContent text index }
    let entry : Entry := ⟨id, content, commands⟩
    modify fun r => { r with entries := r.entries ++ [entry] }
    modify fun r => { r with byId := Fields.set r.byId id index }
    return answer entry true

/-- The answer about a definition and the registry with it, or why it cannot be registered. -/
def register (r : Registry) (definition : Json) : Except SignalError (Registration × Registry) :=
  match (registering definition).run.run r with
  | (.ok answer, r) => .ok (answer, r)
  | (.error e, _) => .error e

end Registry

end RadioDriver.Signal
