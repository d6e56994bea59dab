import RadioDriver.Disk.Files

namespace RadioDriver

abbrev Location := List String

/-- What a place holds. -/
inductive Node
  | directory
  | file (bytes : ByteArray)

def Node.kind : Node → FileKind
  | .directory => .directory
  | .file _ => .file

/-- Places and what they hold, by the names that lead to them from the root, and a directory in
which relative paths begin. The root is always a directory and is not listed. Operations refuse what
POSIX systems refuse, with the same cause. -/
structure Disk where
  nodes : List (Location × Node) := []
  /-- Where relative paths begin. -/
  here : Location := []

namespace Disk

def nodeIn : List (Location × Node) → Location → Option Node
  | [], _ => none
  | (place, node) :: rest, at_ => if place = at_ then some node else nodeIn rest at_

def node? (d : Disk) : Location → Option Node
  | [] => some .directory
  | place => nodeIn d.nodes place

def erase (d : Disk) (place : Location) : Disk :=
  { d with nodes := d.nodes.filter fun n => n.1 ≠ place }

def put (d : Disk) (place : Location) (node : Node) : Disk :=
  { d.erase place with nodes := (place, node) :: (d.erase place).nodes }

theorem nodeIn_erase_self (nodes : List (Location × Node)) (place : Location) :
    nodeIn (nodes.filter fun n => n.1 ≠ place) place = none := by
  induction nodes with
  | nil => rfl
  | cons n rest ih =>
    obtain ⟨k, v⟩ := n
    by_cases h : k = place <;> simp_all [nodeIn]

theorem nodeIn_erase_of_ne (nodes : List (Location × Node)) {place other : Location}
    (h : other ≠ place) :
    nodeIn (nodes.filter fun n => n.1 ≠ place) other = nodeIn nodes other := by
  induction nodes with
  | nil => rfl
  | cons n rest ih =>
    obtain ⟨k, v⟩ := n
    by_cases hk : k = place
    · subst hk
      simpa [nodeIn, Ne.symm h] using ih
    · simp_all [nodeIn]

theorem node?_of_ne_nil (d : Disk) {place : Location} (h : place ≠ []) :
    d.node? place = nodeIn d.nodes place := by
  cases place with
  | nil => exact absurd rfl h
  | cons => rfl

theorem node?_erase_self (d : Disk) {place : Location} (h : place ≠ []) :
    (d.erase place).node? place = none := by
  rw [node?_of_ne_nil _ h]
  exact nodeIn_erase_self d.nodes place

theorem node?_erase_of_ne (d : Disk) {place other : Location} (h : other ≠ place) :
    (d.erase place).node? other = d.node? other := by
  cases other with
  | nil => rfl
  | cons => exact nodeIn_erase_of_ne d.nodes h

theorem node?_put_self (d : Disk) {place : Location} (node : Node) (h : place ≠ []) :
    (d.put place node).node? place = some node := by
  rw [node?_of_ne_nil _ h]
  exact if_pos rfl

theorem node?_put_of_ne (d : Disk) {place other : Location} (node : Node) (h : other ≠ place) :
    (d.put place node).node? other = d.node? other := by
  rw [← node?_erase_of_ne d h]
  cases other with
  | nil => rfl
  | cons => exact if_neg (Ne.symm h)

def eraseTree (d : Disk) (place : Location) : Disk :=
  { d with nodes := d.nodes.filter fun n => !place.isPrefixOf n.1 }

/-- The disk with everything at or below `source` moved to `target`. -/
def moveTree (d : Disk) (source target : Location) : Disk :=
  { d.erase target with
    nodes := (d.erase target).nodes.map fun n =>
      if source.isPrefixOf n.1 then (target ++ n.1.drop source.length, n.2) else n }

/-- The disk with the node at `source` moved to `target`, a directory with everything below it. -/
def move (d : Disk) (source target : Location) : Node → Disk
  | .file bytes => (d.erase source).put target (.file bytes)
  | .directory => d.moveTree source target

def isEmptyAt (d : Disk) (place : Location) : Bool :=
  d.nodes.all fun n => n.1 == place || !place.isPrefixOf n.1

def maxName : Nat := 255

def maxPath : Nat := 4095

/-- Follows names from a place. Every place on the way must be a directory; the last need not be
there. -/
def walk (d : Disk) : Location → List String → Except OsError Location
  | place, [] => .ok place
  | place, name :: rest =>
    match d.node? place with
    | none => .error .notFound
    | some (.file _) => .error .notADirectory
    | some .directory =>
      if name = "" ∨ name = "." then walk d place rest
      else if name = ".." then walk d place.dropLast rest
      else if maxName < name.utf8ByteSize then .error .nameTooLong
      else walk d (place ++ [name]) rest

def start (d : Disk) (path : String) : Location :=
  if Text.startsWith path "/" then [] else d.here

def checkPath (path : String) : Except OsError Unit :=
  if path.toList.contains '\x00' then .error .nulInPath
  else if path = "" then .error .notFound
  else if maxPath < path.utf8ByteSize then .error .nameTooLong
  else .ok ()

def lookup (d : Disk) (path : String) : Except OsError (Location × Node) := do
  checkPath path
  let place ← d.walk (d.start path) (Text.split '/' path)
  match d.node? place with
  | some node => return (place, node)
  | none => throw .notFound

/-- An entry of a directory that is there. -/
structure Entry where
  directory : Location
  name : String
  /-- Slashes behind the name: only a directory may be meant. -/
  slashed : Bool

namespace Entry

def place (e : Entry) : Location := e.directory ++ [e.name]

/-- Whether the name stands for a directory on the way and not for an entry. -/
def isSpecial (e : Entry) : Bool := e.name == "" || e.name == "." || e.name == ".."

def check (e : Entry) : Except OsError Unit :=
  if maxName < e.name.utf8ByteSize then .error .nameTooLong else .ok ()

end Entry

/-- The entry that a path names; its directory must be there. -/
def entry (d : Disk) (path : String) : Except OsError Entry := do
  checkPath path
  let names := Text.split '/' path
  let trimmed := (names.reverse.dropWhile (· == "")).reverse
  let directory ← d.walk (d.start path) trimmed.dropLast
  match d.node? directory with
  | some .directory =>
    return ⟨directory, trimmed.getLast?.getD "", trimmed.length < names.length⟩
  | some (.file _) => throw .notADirectory
  | none => throw .notFound

def read (d : Disk) (path : String) : Except OsError ByteArray := do
  match ← d.lookup path with
  | (_, .file bytes) => return bytes
  | (_, .directory) => throw .isADirectory

def write (d : Disk) (path : String) (bytes : ByteArray) : Except OsError Disk := do
  let e ← d.entry path
  if e.isSpecial || e.slashed then throw .isADirectory
  e.check
  match d.node? e.place with
  | some .directory => throw .isADirectory
  | _ => return d.put e.place (.file bytes)

def makeDir (d : Disk) (path : String) : Except OsError Disk := do
  let e ← d.entry path
  if e.isSpecial then throw .exists
  e.check
  match d.node? e.place with
  | some _ => throw .exists
  | none => return d.put e.place .directory

def removeFile (d : Disk) (path : String) : Except OsError Disk := do
  let e ← d.entry path
  if e.isSpecial then throw .isADirectory
  e.check
  match d.node? e.place with
  | none => throw .notFound
  | some .directory => throw .isADirectory
  | some (.file _) => if e.slashed then throw .notADirectory else return d.erase e.place

def checkReplace (d : Disk) (moved : Node) (target : Location) : Except OsError Unit :=
  match moved, d.node? target with
  | _, none => .ok ()
  | .file _, some (.file _) => .ok ()
  | .file _, some .directory => .error .isADirectory
  | .directory, some (.file _) => .error .notADirectory
  | .directory, some .directory => if d.isEmptyAt target then .ok () else .error .notEmpty

def moveEntry (d : Disk) (moved : Node) (e f : Entry) : Except OsError Disk := do
  if moved.kind == .file && (e.slashed || f.slashed) then throw .notADirectory
  if e.place = f.place then return d
  if e.place.isPrefixOf f.place then throw .invalidArgument
  if f.place.isPrefixOf e.place then throw .notEmpty
  d.checkReplace moved f.place
  return d.move e.place f.place moved

def rename (d : Disk) (source target : String) : Except OsError Disk := do
  let e ← d.entry source
  let f ← d.entry target
  if e.isSpecial || f.isSpecial then throw .busy
  e.check
  match d.node? e.place with
  | none => throw .notFound
  | some moved =>
    f.check
    d.moveEntry moved e f

/-- The name of a file among nodes, if it is an entry of a directory. -/
def fileNameIn (directory : Location) : Location × Node → Option String
  | (place, .file _) => if place.dropLast = directory then place.getLast? else none
  | (_, .directory) => none

def fileNames (d : Disk) (path : String) : List String :=
  match d.lookup path with
  | .ok (directory, .directory) => d.nodes.filterMap (fileNameIn directory)
  | _ => []

/-- A change of a disk as a program; a refused change leaves the disk as it is. -/
def change (f : Disk → Except OsError Disk) : StateM Disk (Except OsError Unit) := fun d =>
  match f d with
  | .ok d => (.ok (), d)
  | .error e => (.error e, d)

instance : Files (StateM Disk) where
  kind? path := fun d => (((d.lookup path).toOption.map fun found => found.2.kind), d)
  read path := fun d => (d.read path, d)
  write path bytes := change (·.write path bytes)
  rename source target := change (·.rename source target)
  removeFile path := change (·.removeFile path)
  makeDir path := change (·.makeDir path)
  fileNames path := fun d => (d.fileNames path, d)

end Disk

end RadioDriver
