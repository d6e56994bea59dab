import RadioDriver.Text.Pieces

namespace RadioDriver.Path

def slashed (s : String) : String :=
  String.ofList (s.toList.map fun c => if c = '\\' then '/' else c)

/-- One segment onto the segments walked so far, the innermost first. -/
def push (absolute : Bool) (walked : List String) (segment : String) : List String :=
  if segment = "" ∨ segment = "." then walked
  else if segment = ".." then
    match walked with
    | [] => if absolute then [] else [".."]
    | last :: outer => if last ≠ ".." then outer else if absolute then walked else ".." :: walked
  else segment :: walked

/-- The segments that a walk leaves, the outermost first. Empty and `.` segments are dropped, and
`..` takes away the segment before it. A path that climbs above its start keeps its `..` segments,
unless it is absolute. -/
def normalized (absolute : Bool) (segments : List String) : List String :=
  (segments.foldl (push absolute) []).reverse

/-- The reference seen from the base. A leading `./` of the base is kept. -/
def join (base reference : String) : String :=
  let base := slashed base
  let reference := slashed reference
  let absolute := Text.startsWith base "/"
  let joined :=
    Text.join "/" (normalized absolute (Text.split '/' base ++ Text.split '/' reference))
  if absolute then "/" ++ joined
  else if joined = "" then "."
  else if Text.startsWith base "./" && !Text.startsWith joined "../" then "./" ++ joined
  else joined

/-- Whether a text refers to a file beside the one it stands in. -/
def isRelativeReference (s : String) : Bool :=
  Text.startsWith s "./" || Text.startsWith s "../"

end RadioDriver.Path
