/-!
# Input and output errors

The ways in which a request to the file system fails, with the words in which users are told.
-/

namespace LogGuard

/-- Why a request to the file system failed. -/
inductive IoError where
  | notFound
  | notDirectory
  | isDirectory
  | nameTooLong
  | tooManyLinks
  | busy
  | alreadyExists
  | permissionDenied
  | invalidArgument
  /-- A path holds a zero byte. -/
  | zeroByte
  /-- A text file is not UTF-8. -/
  | notUtf8
  deriving DecidableEq, Repr

/-- What a user is told. -/
def IoError.message : IoError → String
  | .notFound => "No such file or directory (os error 2)"
  | .notDirectory => "Not a directory (os error 20)"
  | .isDirectory => "Is a directory (os error 21)"
  | .nameTooLong => "File name too long (os error 36)"
  | .tooManyLinks => "Too many levels of symbolic links (os error 40)"
  | .busy => "Device or resource busy (os error 16)"
  | .alreadyExists => "File exists (os error 17)"
  | .permissionDenied => "Permission denied (os error 13)"
  | .invalidArgument => "Invalid argument (os error 22)"
  | .zeroByte => "file name contained an unexpected NUL byte"
  | .notUtf8 => "stream did not contain valid UTF-8"

end LogGuard
