import RadioDriver.Disk.Basic

namespace RadioDriver.Disk

/-- A disk that holds one directory below the root, in which relative paths begin. -/
def scratch (name : String) : Disk := ⟨[([name], .directory)], [name]⟩

def putTree (path : String) : Node → StateM Disk (Except OsError Unit)
  | .directory => Files.makeDirs path
  | .file bytes => do
    match ← Files.makeDirs ((Path.parent? path).getD "") with
    | .error e => return .error e
    | .ok () => Files.write path bytes

/-- The disk without what a path leads to and all that is below. -/
def removeTree (d : Disk) (path : String) : Except OsError Disk := do
  let (place, _) ← d.lookup path
  return d.eraseTree place

/-- Whether a node is shown in a listing: directories only when nothing is below them. -/
def isShown (d : Disk) : Location × Node → Bool
  | (place, .directory) => d.isEmptyAt place
  | (_, .file _) => true

def insertName (name : String) (node : Node) : List (String × Node) → List (String × Node)
  | [] => [(name, node)]
  | (n, v) :: rest =>
    if name < n then (name, node) :: (n, v) :: rest else (n, v) :: insertName name node rest

/-- The files and the empty directories below a place, by the paths that lead to them from there. -/
def listing (d : Disk) (place : Location) : List (String × Node) :=
  let below := d.nodes.filter fun n => place.isPrefixOf n.1 && n.1 != place && d.isShown n
  below.foldr (fun n acc => insertName (Text.join "/" (n.1.drop place.length)) n.2 acc) []

end RadioDriver.Disk
