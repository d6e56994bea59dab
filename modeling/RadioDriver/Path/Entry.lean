import RadioDriver.Text.Pieces

namespace RadioDriver.Path

/-- A name below a directory. An absolute name stands for itself. -/
def child (directory name : String) : String :=
  if Text.startsWith name "/" then name
  else if directory = "" ∨ Text.endsWith directory "/" then directory ++ name
  else directory ++ "/" ++ name

def trimSegments (segments : List String) : List String :=
  (segments.reverse.dropWhile fun s => s == "" || s == ".").reverse

/-- The segments of a relative path; only a `.` at its beginning counts. -/
def relativeSegments (segments : List String) : List String :=
  match trimSegments segments, segments with
  | [], "." :: _ => ["."]
  | trimmed, _ => trimmed

/-- The segments of a path after the root, if it has one. Slashes and `.` segments at the end say
nothing; a leading slash makes the path absolute, and a leading `.` is a directory of its own. -/
def segments (path : String) : List String :=
  match Text.split '/' path with
  | "" :: rest => trimSegments rest
  | names => relativeSegments names

/-- The directory that holds what a path names. The root and the empty path are in none. -/
def parent? (path : String) : Option String :=
  match segments path with
  | [] => none
  | names =>
    if Text.startsWith path "/" then some ("/" ++ Text.join "/" (trimSegments names.dropLast))
    else some (Text.join "/" (relativeSegments names.dropLast))

/-- The name of what a path names; `.` and `..` are none. -/
def fileName? (path : String) : Option String :=
  match (segments path).getLast? with
  | some name => if name = "." ∨ name = ".." then none else some name
  | none => none

def withFileName (path name : String) : String :=
  match fileName? path with
  | some _ => child ((parent? path).getD "") name
  | none => child path name

/-- The entry beside `target` that has its name with `ending` added. -/
def sibling (target ending : String) : String :=
  withFileName target ((fileName? target).getD "" ++ ending)

/-- A name cut at its last dot; a dot in front of the whole name does not count. -/
def splitName (name : String) : String × Option String :=
  let cs := name.toList.reverse
  let ending := cs.takeWhile (· ≠ '.')
  match cs.dropWhile (· ≠ '.') with
  | _ :: c :: stem => (String.ofList (c :: stem).reverse, some (String.ofList ending.reverse))
  | _ => (name, none)

def extension? (path : String) : Option String := (fileName? path).bind fun n => (splitName n).2

end RadioDriver.Path
