import RadioDriver.Inherit.Pool
import RadioDriver.Text.Pieces

namespace RadioDriver

/-- What a declaration describes. -/
inductive EntityKind
  | view
  | deviceClass
deriving DecidableEq, Repr

def EntityKind.label : EntityKind → String
  | .view => "view"
  | .deviceClass => "device class"

/-- Why an entity cannot be resolved. -/
inductive ResolveError
  /-- The last entity of the chain stands in it twice. -/
  | cycle (kind : EntityKind) (chain : List String)
  /-- An id is not declared; `referrer` extends it. -/
  | notFound (kind : EntityKind) (id : String) (referrer : Option String)
  /-- A declaration is not an object. -/
  | notAnObject (kind : EntityKind) (id : String)
  /-- `extends` is neither an id nor a list of ids. -/
  | invalidExtends (kind : EntityKind) (id : String)
deriving DecidableEq, Repr

def ResolveError.message : ResolveError → String
  | .cycle kind chain => "Circular extends in " ++ kind.label ++ ": " ++ Text.join " -> " chain
  | .notFound kind id none => kind.label ++ " '" ++ id ++ "' cannot be found"
  | .notFound kind id (some r) =>
    kind.label ++ " '" ++ id ++ "' cannot be found (extended by '" ++ r ++ "')"
  | .notAnObject kind id => kind.label ++ " '" ++ id ++ "' must be an object"
  | .invalidExtends kind id =>
    kind.label ++ " '" ++ id ++ "' has an invalid extends value; expected an id or a list of ids"

abbrev Entity := Fields Json

/-- How one kind combines the resolved ancestors of `id`, in order, with its own fields. -/
structure Rules where
  kind : EntityKind
  combine : (id : String) → (ancestors : List Entity) → (own : Entity) → Entity

abbrev Memo := Fields Entity

namespace Inherit

def allStrings? : List Json → Option (List String)
  | [] => some []
  | .string s :: rest => (allStrings? rest).map (s :: ·)
  | _ :: _ => none

def parents? : Option Json → Option (List String)
  | none => some []
  | some .null => some []
  | some (.string parent) => some [parent]
  | some (.array items) => allStrings? items
  | some _ => none

mutual

/-- The entity `name`, reached through the chain, and the entities remembered by then. Parents are
expanded depth first, from left to right, and combined with the entity's own fields by the rules of
its kind. -/
def resolveIn (rules : Rules) (pool : Pool) (chain : List String) (name : String) (memo : Memo) :
    Except ResolveError Entity × Memo :=
  if hc : name ∈ chain then (.error (.cycle rules.kind (chain ++ [name])), memo)
  else
    match Fields.get? memo name with
    | some entity => (.ok entity, memo)
    | none =>
      match hd : pool.get? name with
      | none => (.error (.notFound rules.kind name chain.getLast?), memo)
      | some declaration =>
        have := Pool.unvisited_lt hd hc
        match expand rules pool (chain ++ [name]) name declaration memo with
        | (.ok entity, memo) => (.ok entity, Fields.set memo name entity)
        | (.error e, memo) => (.error e, memo)
termination_by (pool.unvisited chain, 0, 0)
decreasing_by exact Prod.Lex.left _ _ this

def expand (rules : Rules) (pool : Pool) (chain : List String) (id : String) (declaration : Json)
    (memo : Memo) : Except ResolveError Entity × Memo :=
  match declaration with
  | .object own =>
    match parents? (Fields.get? own "extends") with
    | none => (.error (.invalidExtends rules.kind id), memo)
    | some parents =>
      match resolveParents rules pool chain parents memo with
      | (.ok ancestors, memo) =>
        (.ok (rules.combine id ancestors (Fields.erase own "extends")), memo)
      | (.error e, memo) => (.error e, memo)
  | _ => (.error (.notAnObject rules.kind id), memo)
termination_by (pool.unvisited chain, 2, 0)

def resolveParents (rules : Rules) (pool : Pool) (chain : List String) (parents : List String)
    (memo : Memo) : Except ResolveError (List Entity) × Memo :=
  match parents with
  | [] => (.ok [], memo)
  | parent :: rest =>
    match resolveIn rules pool chain parent memo with
    | (.error e, memo) => (.error e, memo)
    | (.ok entity, memo) =>
      match resolveParents rules pool chain rest memo with
      | (.error e, memo) => (.error e, memo)
      | (.ok entities, memo) => (.ok (entity :: entities), memo)
termination_by (pool.unvisited chain, 1, parents.length)

end

def resolveNames (rules : Rules) (pool : Pool) :
    List String → Memo → Except ResolveError (Fields Entity) × Memo
  | [], memo => (.ok [], memo)
  | name :: rest, memo =>
    match resolveIn rules pool [] name memo with
    | (.error e, memo) => (.error e, memo)
    | (.ok entity, memo) =>
      match resolveNames rules pool rest memo with
      | (.error e, memo) => (.error e, memo)
      | (.ok entities, memo) => (.ok ((name, entity) :: entities), memo)

end Inherit

/-- What is remembered, and the pool state it is about. -/
structure Resolver where
  memo : Memo := []
  snapshot : Option Nat := none

namespace Resolver

/-- Forgets everything that is about another state of the pool. -/
def sync (r : Resolver) (pool : Pool) : Resolver :=
  if r.snapshot = some pool.snapshot then r else ⟨[], some pool.snapshot⟩

/-- An answer, and the resolver with what it remembers after it. -/
def remember {α : Type} (r : Resolver) (answer : Except ResolveError α × Memo) :
    Except ResolveError α × Resolver :=
  (answer.1, { r with memo := answer.2 })

def resolve (rules : Rules) (r : Resolver) (pool : Pool) (name : String) :
    Except ResolveError Entity × Resolver :=
  let r := r.sync pool
  r.remember (Inherit.resolveIn rules pool [] name r.memo)

/-- Every entity of the pool under its id, in the order of declaration. -/
def resolveAll (rules : Rules) (r : Resolver) (pool : Pool) :
    Except ResolveError (Fields Entity) × Resolver :=
  let r := r.sync pool
  r.remember (Inherit.resolveNames rules pool pool.ids r.memo)

/-- A declaration outside the pool that may extend entities of it. It is not remembered, and its id
may be one of the pool. -/
def resolveDetached (rules : Rules) (r : Resolver) (pool : Pool) (id : String)
    (declaration : Json) : Except ResolveError Entity × Resolver :=
  let r := r.sync pool
  r.remember (Inherit.expand rules pool [] id declaration r.memo)

end Resolver

end RadioDriver
