import RadioDriver.Json.Basic
import RadioDriver.Toml.Moment

namespace RadioDriver.Toml

/-- How a table came to be. -/
inductive TableKind
  /-- By its own header, or as an element of an array of tables. -/
  | defined
  /-- On the way of a header. -/
  | passed
  /-- On the way of a dotted key. -/
  | dotted
deriving DecidableEq

/-- What a key leads to. -/
inductive Item
  /-- A truth value, a number or a text. -/
  | scalar (v : Json)
  /-- A date or time in its written form. -/
  | moment (written : String)
  | array (items : List Item)
  /-- A table between braces; nothing can be added to it. -/
  | braced (fields : List (String × Item))
  | table (kind : TableKind) (fields : List (String × Item))
  | tables (elements : List (List (String × Item)))

/-- One statement of a document. -/
inductive Statement
  /-- A value under a dotted key, given by the way to it and its last key. -/
  | entry (way : List String) (key : String) (item : Item)
  | header (way : List String) (key : String)
  | arrayHeader (way : List String) (key : String)

/-- Fields changed at the end of a way. `dotted` tells whether the way is that of a dotted key;
tables that are missing are made. -/
def Item.changeAt (dotted : Bool)
    (change : TableKind → Fields Item → Option (Fields Item)) :
    List String → TableKind → Fields Item → Option (Fields Item)
  | [], kind, fields => change kind fields
  | key :: way, _, fields =>
    match Fields.get? fields key with
    | none =>
      let kind : TableKind := if dotted then .dotted else .passed
      (changeAt dotted change way kind []).map fun inner =>
        Fields.set fields key (.table kind inner)
    | some (.table kind inner) =>
      if dotted && kind == .defined then none
      else (changeAt dotted change way kind inner).map fun inner =>
        Fields.set fields key (.table kind inner)
    | some (.tables elements) =>
      match elements.getLast? with
      | none => none
      | some last =>
        (changeAt dotted change way .defined last).map fun last =>
          Fields.set fields key (.tables (elements.dropLast ++ [last]))
    | some _ => none

def addEntry (fields : Fields Item) (way : List String) (key : String) (item : Item) :
    Option (Fields Item) :=
  Item.changeAt true
    (fun kind fields =>
      if (kind == .dotted) == way.isEmpty || Fields.contains fields key then none
      else some (Fields.set fields key item))
    way .defined fields

/-- The table that statements are being added to. -/
structure OpenTable where
  way : List String
  key : String
  isArray : Bool
  fields : Fields Item

/-- A document under construction: what is closed, and the table under the last header. Statements
before the first header belong to the root. Dotted keys and headers open the tables on their way,
but a table is defined only once: a header may still define a table that other headers only passed
through, and dotted keys may extend only what dotted keys made. -/
structure Draft where
  root : Fields Item := []
  current : Option OpenTable := none

namespace Draft

def close (d : Draft) : Option (Fields Item) :=
  match d.current with
  | none => some d.root
  | some t =>
    Item.changeAt false
      (fun _ fields =>
        if t.isArray then
          match Fields.get? fields t.key with
          | none => some (Fields.set fields t.key (.tables [t.fields]))
          | some (.tables elements) =>
            some (Fields.set fields t.key (.tables (elements ++ [t.fields])))
          | some _ => none
        else
          match Fields.get? fields t.key with
          | none => some (Fields.set fields t.key (.table .defined t.fields))
          | some _ => none)
      t.way .defined d.root

/-- The fields that a header finds at its place: none, or those of a table that was only passed
through. -/
def foundAt (root : Fields Item) : List String → String → Option (Fields Item)
  | [], key =>
    match Fields.get? root key with
    | none => some []
    | some (.table .passed fields) => some fields
    | some _ => none
  | step :: way, key =>
    match Fields.get? root step with
    | none => some []
    | some (.table _ inner) => foundAt inner way key
    | some (.tables elements) =>
      match elements.getLast? with
      | none => none
      | some last => foundAt last way key
    | some _ => none

def add (d : Draft) : Statement → Option Draft
  | .entry way key item =>
    match d.current with
    | none => (addEntry d.root way key item).map fun root => { d with root := root }
    | some t =>
      (addEntry t.fields way key item).map fun fields =>
        { d with current := some { t with fields := fields } }
  | .header way key => do
    let root ← d.close
    let fields ← foundAt root way key
    let root ← Item.changeAt false (fun _ fields => some (Fields.erase fields key))
      way .defined root
    return ⟨root, some ⟨way, key, false, fields⟩⟩
  | .arrayHeader way key => do
    let root ← d.close
    let root ← Item.changeAt false
      (fun _ fields =>
        match Fields.get? fields key with
        | none => some (Fields.set fields key (.tables []))
        | some (.tables _) => some fields
        | some _ => none)
      way .defined root
    return ⟨root, some ⟨way, key, true, []⟩⟩

def addAll : List Statement → Draft → Option Draft
  | [], d => some d
  | s :: rest, d => (d.add s).bind (addAll rest)

end Draft

def momentKey : String := "$__toml_private_datetime"

mutual

/-- An item as a JSON value; `none` if a table in it should stand for a date or time and does
not. -/
def Item.toJson? : Item → Option Json
  | .scalar v => some v
  | .moment written => some (.string written)
  | .array items => (itemsJson? items).map .array
  | .braced fields => tableJson? fields
  | .table _ fields => tableJson? fields
  | .tables elements => (elementsJson? elements).map .array

/-- A table as a JSON value. With `momentKey` as its first key it stands for the date or time that
is the text under that key, whatever else it holds. -/
def tableJson? : List (String × Item) → Option Json
  | [] => some (.object [])
  | (k, item) :: rest =>
    if k = momentKey then
      match item with
      | .scalar (.string s) => (momentOf? s).map .string
      | _ => none
    else
      match item.toJson?, fieldsJson? rest with
      | some v, some fields => some (.object ((k, v) :: fields))
      | _, _ => none

def fieldsJson? : List (String × Item) → Option (List (String × Json))
  | [] => some []
  | (k, item) :: rest =>
    match item.toJson?, fieldsJson? rest with
    | some v, some fields => some ((k, v) :: fields)
    | _, _ => none

def itemsJson? : List Item → Option (List Json)
  | [] => some []
  | item :: rest =>
    match item.toJson?, itemsJson? rest with
    | some v, some items => some (v :: items)
    | _, _ => none

def elementsJson? : List (List (String × Item)) → Option (List Json)
  | [] => some []
  | fields :: rest =>
    match tableJson? fields, elementsJson? rest with
    | some v, some elements => some (v :: elements)
    | _, _ => none

end

def documentOf (statements : List Statement) : Option Json := do
  let draft ← Draft.addAll statements {}
  let root ← draft.close
  tableJson? root

end RadioDriver.Toml
