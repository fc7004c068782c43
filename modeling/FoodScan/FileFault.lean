/-!
# Faults of the file system
-/

namespace FoodScan

/-- Why a file or directory could not be used. -/
inductive FileFault where
  | notFound
  | exists
  | notDirectory
  | isDirectory
  /-- A path, or a name in it, has too many bytes. -/
  | nameTooLong
  /-- A path holds the character that ends a path. -/
  | nulInPath
  /-- The content is not text. -/
  | notUtf8
deriving DecidableEq, Repr

/-- The wording of the operating system, with its error number where it gave one. -/
def FileFault.message : FileFault → String
  | .notFound => "No such file or directory (os error 2)"
  | .exists => "File exists (os error 17)"
  | .notDirectory => "Not a directory (os error 20)"
  | .isDirectory => "Is a directory (os error 21)"
  | .nameTooLong => "File name too long (os error 36)"
  | .nulInPath => "file name contained an unexpected NUL byte"
  | .notUtf8 => "stream did not contain valid UTF-8"

end FoodScan
