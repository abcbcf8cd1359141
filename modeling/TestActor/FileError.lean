/-!
# Failures of file operations

The reasons for which reading or changing a file may fail, with the wording the system gives them.
-/

namespace TestActor

/-- Why a file operation fails. -/
inductive FileError where
  | notFound
  | alreadyExists
  | isDirectory
  | notDirectory
  /-- A path ends in the root or a dot where a name is needed. -/
  | resourceBusy
  /-- A name or the whole path is too long. -/
  | nameTooLong
  /-- The path holds a NUL character. -/
  | invalidPath
  /-- The content is not UTF-8. -/
  | notText
  deriving DecidableEq

/-- The wording of a failure. -/
def FileError.message : FileError → String
  | notFound => "No such file or directory (os error 2)"
  | alreadyExists => "File exists (os error 17)"
  | isDirectory => "Is a directory (os error 21)"
  | notDirectory => "Not a directory (os error 20)"
  | resourceBusy => "Device or resource busy (os error 16)"
  | nameTooLong => "File name too long (os error 36)"
  | invalidPath => "file name contained an unexpected NUL byte"
  | notText => "stream did not contain valid UTF-8"

end TestActor
