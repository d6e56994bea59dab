import RadioDriver.Text.Pieces

namespace RadioDriver.Path

/-- The components of a path: a leading slash is one of its own; empty and `.` segments are none. -/
def components (s : String) : List String :=
  let names := (Text.split '/' s).filter fun c => c ≠ "" ∧ c ≠ "."
  if Text.startsWith s "/" then "/" :: names else names

def afterCommon : List String → List String → List String × List String
  | a :: as, b :: bs => if a = b then afterCommon as bs else (a :: as, b :: bs)
  | as, bs => (as, bs)

/-- The relative path that leads from directory `start` to directory `goal`. It climbs out of the
components that only the start has and goes down into those that only the goal has. -/
def between (start goal : String) : String :=
  let (up, down) := afterCommon (components start) (components goal)
  match up.map (fun _ => "..") ++ down with
  | [] => "."
  | parts => Text.join "/" parts

end RadioDriver.Path
