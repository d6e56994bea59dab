
namespace RadioDriver

/-- Why a file operation fails. -/
inductive OsError
  | notFound
  | exists
  | notADirectory
  | isADirectory
  | notEmpty
  | invalidArgument
  | nameTooLong
  | busy
  /-- The path holds a NUL character. -/
  | nulInPath
  /-- The bytes of a text file are not UTF-8. -/
  | notText
  /-- A cause outside this list, with its wording. -/
  | other (text : String)
deriving DecidableEq, Repr

def OsError.message : OsError → String
  | .notFound => "No such file or directory (os error 2)"
  | .exists => "File exists (os error 17)"
  | .notADirectory => "Not a directory (os error 20)"
  | .isADirectory => "Is a directory (os error 21)"
  | .notEmpty => "Directory not empty (os error 39)"
  | .invalidArgument => "Invalid argument (os error 22)"
  | .nameTooLong => "File name too long (os error 36)"
  | .busy => "Device or resource busy (os error 16)"
  | .nulInPath => "file name contained an unexpected NUL byte"
  | .notText => "stream did not contain valid UTF-8"
  | .other text => text

end RadioDriver
