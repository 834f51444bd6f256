/-!
# Errors of input and output

## Main definitions

* `IoError`, `IoError.message` — why a file or a stream could not be used, and its wording.
-/

set_option autoImplicit false

namespace CopyTrial

/-- Why a file or a stream could not be used. -/
inductive IoError where
  | notFound
  | alreadyExists
  | notDirectory
  | isDirectory
  | nameTooLong
  /-- A path holds a zero byte, which ends a name for the system. -/
  | zeroInName
  /-- A file that should hold text holds other bytes. -/
  | notText
  /-- Output has ended before all was written. -/
  | outOfRoom
  | other (wording : String)
  deriving DecidableEq, Repr

/-- The wording of an error; those of the system have its number. -/
def IoError.message : IoError → String
  | .notFound => "No such file or directory (os error 2)"
  | .alreadyExists => "File exists (os error 17)"
  | .notDirectory => "Not a directory (os error 20)"
  | .isDirectory => "Is a directory (os error 21)"
  | .nameTooLong => "File name too long (os error 36)"
  | .zeroInName => "file name contained an unexpected NUL byte"
  | .notText => "stream did not contain valid UTF-8"
  | .outOfRoom => "failed to write whole buffer"
  | .other wording => wording

end CopyTrial
