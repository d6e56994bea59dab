import RadioDriver.Disk.Error
import RadioDriver.Disk.Files

namespace RadioDriver

/-- A file written beside its target. -/
structure StagedFile where
  temporary : String
  target : String
deriving DecidableEq, Repr

/-- A file moved aside from its place. -/
structure Displaced where
  backup : String
  target : String
deriving DecidableEq, Repr

/-- Files to put into place and files to remove in one commit. Each file is first written beside its
target. -/
structure StagedWrites where
  staged : List StagedFile := []
  removals : List String := []
deriving DecidableEq, Repr

namespace StagedWrites

variable {m : Type → Type} [Monad m] [Files m]

def size (w : StagedWrites) : Nat := w.staged.length

def isEmpty (w : StagedWrites) : Bool := w.staged.isEmpty && w.removals.isEmpty

/-- Writes a file beside its target. A file that cannot be written is not left behind. -/
def stage (w : StagedWrites) (target : String) (bytes : ByteArray) :
    m (Except WriteError Unit × StagedWrites) := do
  let temporary := Path.sibling target ".tmp"
  match ← Files.write temporary bytes with
  | .ok () => return (.ok (), { w with staged := w.staged ++ [⟨temporary, target⟩] })
  | .error e =>
    let _ ← Files.removeFile temporary
    return (.error ⟨temporary, e⟩, w)

def remove (w : StagedWrites) (target : String) : StagedWrites :=
  { w with removals := w.removals ++ [target] }

/-- Removes files in order; one that cannot be removed is passed over. -/
def removeAll : List String → m Unit
  | [] => return ()
  | path :: rest => do
    let _ ← Files.removeFile path
    removeAll rest

/-- Gives up: the files written beside their targets are removed. -/
def drop (w : StagedWrites) : m Unit := removeAll (w.staged.map (·.temporary))

/-- Moves what is there aside, up to the first fault. `aside` is what was moved before. -/
def displace : List String → List Displaced → m (Except WriteError Unit × List Displaced)
  | [], aside => return (.ok (), aside)
  | target :: rest, aside => do
    if ← Files.exists? target then
      let backup := Path.sibling target ".bak"
      match ← Files.rename target backup with
      | .ok () => displace rest (aside ++ [⟨backup, target⟩])
      | .error e => return (.error ⟨target, e⟩, aside)
    else displace rest aside

/-- Puts staged files into place, up to the first fault. `placed` is what was placed before. -/
def place : List StagedFile → List String → m (Except WriteError Unit × List String)
  | [], placed => return (.ok (), placed)
  | file :: rest, placed => do
    match ← Files.rename file.temporary file.target with
    | .ok () => place rest (placed ++ [file.target])
    | .error e => return (.error ⟨file.target, e⟩, placed)

/-- How far a swap came: what was moved aside, and which files were placed. -/
structure Progress where
  aside : List Displaced
  placed : List String
deriving DecidableEq, Repr

/-- Moves what is in the way aside and puts every staged file into place, up to the first fault. -/
def swap (w : StagedWrites) : m (Except WriteError Unit × Progress) := do
  match ← displace (w.staged.map (·.target) ++ w.removals) [] with
  | (.error e, aside) => return (.error e, ⟨aside, []⟩)
  | (.ok (), aside) =>
    let (result, placed) ← place w.staged []
    return (result, ⟨aside, placed⟩)

/-- Moves files back in order and lists those that could not be moved. -/
def restore : List Displaced → m (List WriteError)
  | [] => return []
  | moved :: rest => do
    match ← Files.rename moved.backup moved.target with
    | .ok () => restore rest
    | .error e => return ⟨moved.target, e⟩ :: (← restore rest)

/-- Undoes a swap that failed: placed files are removed, what was moved aside last is moved back
first, and what is still beside its target is removed. The result lists what could not be moved
back. -/
def undo (w : StagedWrites) (done : Progress) : m (List WriteError) := do
  removeAll done.placed
  let lost ← restore done.aside.reverse
  w.drop
  return lost

/-- Puts every staged file into place, or else restores what was there. The result lists the files
that were placed. -/
def commit (w : StagedWrites) : m (Except WriteError (List String)) := do
  match ← w.swap with
  | (.error e, done) =>
    let _ ← w.undo done
    return .error e
  | (.ok (), done) =>
    removeAll (done.aside.map (·.backup))
    return .ok done.placed

end StagedWrites

end RadioDriver
