import RadioDriver.Json.Basic
import RadioDriver.Locale.Error
import RadioDriver.Text.Pieces
import RadioDriver.Text.Sorted

namespace RadioDriver

/-- Where a text comes from. -/
inductive Provenance
  | authored
  | fallback
deriving DecidableEq, Repr

def Provenance.label : Provenance → String
  | .authored => "authored"
  | .fallback => "fallback"

/-- How files tell filled leaves from authored ones. -/
inductive MarkerPolicy
  /-- Filled leaves end in the mark. -/
  | keep
  /-- Texts are clean, and a side file lists the filled leaves. -/
  | strip
deriving DecidableEq, Repr

namespace MarkerPolicy

def label : MarkerPolicy → String
  | .keep => "keep"
  | .strip => "strip"

def ofName? (name : String) : Option MarkerPolicy :=
  if name = "keep" then some .keep else if name = "strip" then some .strip else none

def unknown (name : String) : String := s!"unknown sentinel policy '{name}'"

end MarkerPolicy

/-- The mark of a filled leaf. Only in files may a text carry it, at its end. -/
def fillMark : Char := '\x00'

namespace Locale

def isMarked (s : String) : Bool := s.toList.getLast? == some fillMark

def valueAt : Fields Json → List String → Option Json
  | _, [] => none
  | fields, [last] => Fields.get? fields last
  | fields, segment :: rest =>
    match Fields.get? fields segment with
    | some (.object inner) => valueAt inner rest
    | _ => none

def below (path name : String) : String := path ++ "." ++ name

mutual

def cleaned : Json → Json
  | .string s => .string (Text.trimEnd fillMark s)
  | .object fields => .object (cleanedFields fields)
  | .null => .null
  | .bool b => .bool b
  | .number n => .number n
  | .array items => .array items

def cleanedFields : List (String × Json) → List (String × Json)
  | [] => []
  | (k, v) :: rest => (k, cleaned v) :: cleanedFields rest

end

mutual

def markedPaths (path : String) : Json → List String
  | .string s => if isMarked s then [path] else []
  | .object fields => markedBelow path fields
  | .null => []
  | .bool _ => []
  | .number _ => []
  | .array _ => []

def markedBelow (path : String) : List (String × Json) → List String
  | [] => []
  | (k, v) :: rest => markedPaths (below path k) v ++ markedBelow path rest

end

mutual

def leavesAt (path : String) : Json → List (String × String)
  | .string s => [(path, s)]
  | .object fields => leavesBelow path fields
  | .null => []
  | .bool _ => []
  | .number _ => []
  | .array _ => []

def leavesBelow (path : String) : List (String × Json) → List (String × String)
  | [] => []
  | (k, v) :: rest => leavesAt (below path k) v ++ leavesBelow path rest

end

def collisionAt (walked : List String) (path : String) : LocaleError :=
  .collision (Text.join "." walked) path

/-- A value put at the end of a path; `walked` is the path so far and `path` the whole of it.
Absent and `null` nodes on the way become objects. -/
def setAt (walked : List String) (path : String) (value : Json) :
    Fields Json → List String → Except LocaleError (Fields Json)
  | fields, [] => .ok fields
  | fields, [last] =>
    match Fields.get? fields last with
    | some (.object children) =>
      .error (.collision path (below path ((Fields.names children).headD "")))
    | _ => .ok (Fields.set fields last value)
  | fields, segment :: rest => do
    let walked := walked ++ [segment]
    let inner ← match Fields.get? fields segment with
      | none => .ok []
      | some .null => .ok []
      | some (.object inner) => .ok inner
      | some _ => .error (collisionAt walked path)
    let inner ← setAt walked path value inner rest
    return Fields.set fields segment (.object inner)

/-- The fields with an object under a name that had nothing or `null`. -/
def opened (fields : Fields Json) (name : String) : Fields Json :=
  match Fields.get? fields name with
  | none => Fields.set fields name (.object [])
  | some .null => Fields.set fields name (.object [])
  | some _ => fields

/-- A value put at the end of a path in place: how that ends, and the fields that it leaves. Every
node on the way is made an object before it is seen what stands below. -/
def putAt (walked : List String) (path : String) (value : Json) :
    Fields Json → List String → Except LocaleError Unit × Fields Json
  | fields, [] => (.ok (), fields)
  | fields, [last] =>
    match Fields.get? fields last with
    | some (.object children) =>
      (.error (.collision path (below path ((Fields.names children).headD ""))), fields)
    | _ => (.ok (), Fields.set fields last value)
  | fields, segment :: rest =>
    let walked := walked ++ [segment]
    let fields := opened fields segment
    match Fields.get? fields segment with
    | some (.object inner) =>
      let (outcome, inner) := putAt walked path value inner rest
      (outcome, Fields.set fields segment (.object inner))
    | _ => (.error (collisionAt walked path), fields)

def markAt : Fields Json → List String → Fields Json
  | fields, [] => fields
  | fields, [last] =>
    match Fields.get? fields last with
    | some (.string s) => Fields.set fields last (.string (s.push fillMark))
    | _ => fields
  | fields, segment :: rest =>
    match Fields.get? fields segment with
    | some (.object inner) => Fields.set fields segment (.object (markAt inner rest))
    | _ => fields

end Locale

/-- The texts of one language: a tree whose leaves are named by dotted paths, and the paths of those
that were filled in rather than written by a person. -/
structure LocaleTable where
  tree : Fields Json := []
  /-- Strictly increasing. -/
  fallback : List String := []

namespace LocaleTable

def segments (path : String) : List String := Text.split '.' path

def insertAll (paths set : List String) : List String :=
  paths.foldl (fun acc p => Text.insertSorted p acc) set

def markedLeaves : Fields Json → List String
  | [] => []
  | (k, v) :: rest => Locale.markedPaths k v ++ markedLeaves rest

/-- The table of a tree read from a file: marks are taken off and remembered. -/
def ofTree (language : String) (tree : Json) : Except LocaleError LocaleTable :=
  match tree with
  | .object fields =>
    .ok ⟨Locale.cleanedFields fields, insertAll (markedLeaves fields) []⟩
  | _ => .error (.notAnObject language)

def get? (t : LocaleTable) (path : String) : Option Json := Locale.valueAt t.tree (segments path)

def text? (t : LocaleTable) (path : String) : Option String := (t.get? path).bind Json.string?

def isFallback (t : LocaleTable) (path : String) : Bool := t.fallback.contains path

def markFallback (t : LocaleTable) (paths : List String) : LocaleTable :=
  ⟨t.tree, insertAll (paths.filter fun p => (t.text? p).isSome) t.fallback⟩

def provenance? (t : LocaleTable) (path : String) : Option Provenance :=
  (t.text? path).map fun _ => if t.isFallback path then .fallback else .authored

/-- The text that a person wrote at a path. One that repeats its own path does not count. -/
def authored? (t : LocaleTable) (path : String) : Option String :=
  (t.text? path).filter fun s => s ≠ path && !t.isFallback path

def usable? (t : LocaleTable) (path : String) : Option String :=
  (t.text? path).filter fun s => s ≠ path

/-- Sets a leaf. A value on the way other than `null` and an object, or an object at the path, is a
collision. -/
def set (t : LocaleTable) (path : String) (value : Json) (provenance : Provenance) :
    Except LocaleError LocaleTable := do
  let tree ← Locale.setAt [] path value t.tree (segments path)
  let fallback := match provenance with
    | .fallback => Text.insertSorted path t.fallback
    | .authored => t.fallback.filter (· ≠ path)
  return ⟨tree, fallback⟩

/-- Sets a leaf in place: how that ends, and the table that it leaves. Only at the end is it noted
whether the leaf is filled in. -/
def put (t : LocaleTable) (path : String) (value : Json) (provenance : Provenance) :
    Except LocaleError Unit × LocaleTable :=
  match Locale.putAt [] path value t.tree (segments path) with
  | (.error e, tree) => (.error e, ⟨tree, t.fallback⟩)
  | (.ok (), tree) =>
    match provenance with
    | .fallback => (.ok (), ⟨tree, Text.insertSorted path t.fallback⟩)
    | .authored => (.ok (), ⟨tree, t.fallback.filter (· ≠ path)⟩)

def render (t : LocaleTable) (policy : MarkerPolicy) : Json :=
  match policy with
  | .keep => .object (t.fallback.foldl (fun tree p => Locale.markAt tree (segments p)) t.tree)
  | .strip => .object t.tree

def leavesOf : Fields Json → List (String × String)
  | [] => []
  | (k, v) :: rest => Locale.leavesAt k v ++ leavesOf rest

def leaves (t : LocaleTable) : List (String × String) := leavesOf t.tree

end LocaleTable

end RadioDriver
