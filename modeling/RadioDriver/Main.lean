import RadioDriver.Command.Run
import Std.Time.Format

namespace RadioDriver

/-- The cause that a number of the operating system stands for. -/
def OsError.ofNumber (number : UInt32) (text : String) : OsError :=
  match number with
  | 2 => .notFound
  | 16 => .busy
  | 17 => .exists
  | 20 => .notADirectory
  | 21 => .isADirectory
  | 22 => .invalidArgument
  | 36 => .nameTooLong
  | 39 => .notEmpty
  | n => .other (text ++ " (os error " ++ toString n ++ ")")

def OsError.ofFault : IO.Error → OsError
  | .alreadyExists _ n text => ofNumber n text
  | .otherError n text => ofNumber n text
  | .resourceBusy n text => ofNumber n text
  | .resourceVanished n text => ofNumber n text
  | .unsupportedOperation n text => ofNumber n text
  | .hardwareFault n text => ofNumber n text
  | .unsatisfiedConstraints n text => ofNumber n text
  | .illegalOperation n text => ofNumber n text
  | .protocolError n text => ofNumber n text
  | .timeExpired n text => ofNumber n text
  | .interrupted _ n text => ofNumber n text
  | .noFileOrDirectory _ n text => ofNumber n text
  | .invalidArgument _ n text => ofNumber n text
  | .permissionDenied _ n text => ofNumber n text
  | .resourceExhausted _ n text => ofNumber n text
  | .inappropriateType _ n text => ofNumber n text
  | .noSuchThing _ n text => ofNumber n text
  | .unexpectedEof => .other "unexpected end of file"
  | .userError text => .other text

def attempt {α : Type} (operation : IO α) : IO (Except OsError α) := do
  try return .ok (← operation) catch e => return .error (.ofFault e)

def attemptOn {α : Type} (paths : List String) (operation : IO α) : IO (Except OsError α) :=
  if paths.any (·.toList.contains '\x00') then return .error .nulInPath else attempt operation

instance : Files IO where
  kind? path := do
    let found ← attemptOn [path] do
      let place ← IO.FS.realPath path
      return (← place.metadata).type
    match found with
    | .ok .dir => return some .directory
    | .ok _ => return some .file
    | .error _ => return none
  read path := attemptOn [path] (IO.FS.readBinFile path)
  write path bytes := attemptOn [path] (IO.FS.writeBinFile path bytes)
  rename source target := attemptOn [source, target] (IO.FS.rename source target)
  removeFile path := attemptOn [path] (IO.FS.removeFile path)
  makeDir path := attemptOn [path] (IO.FS.createDir path)
  fileNames path := do
    let found ← attemptOn [path] do
      let place ← IO.FS.realPath path
      let mut names := []
      for entry in ← place.readDir do
        if (← entry.path.metadata).type == .file then names := entry.fileName :: names
      return names
    return found.toOption.getD []

def currentTime : IO String := do
  let time :=
    (Std.Time.WallTime.ofTimestamp (← Std.Time.Timestamp.now) Std.Time.TimeZone.Offset.zero)
  return (Std.Time.PlainDateTime.ofWallTime time).format "uuuu-MM-dd'T'HH:mm:ss.SSSSSSSSS'Z'"

end RadioDriver

def main (arguments : List String) : IO UInt32 := do
  let environment : RadioDriver.Command.Environment :=
    ⟨← IO.getEnv "HOME", ← RadioDriver.currentTime⟩
  let outcome : RadioDriver.Command.Outcome ← RadioDriver.Command.run environment arguments
  IO.print outcome.stdout
  IO.eprint outcome.stderr
  return outcome.code
