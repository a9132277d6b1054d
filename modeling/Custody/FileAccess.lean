import Custody.Path

/-!
# Access to files

What loading needs to know about files, in whatever monad they are reached. `Custody.FileTree` gives
a tree of files that is held in memory; the command line reaches those of the machine.
-/

set_option autoImplicit false

namespace Custody

/-- Why a file cannot be had. -/
inductive FileError where
  | notFound
  | notDirectory
  | isDirectory
  | nameTooLong
  | zeroInName
  | notText
  | other (message : String)
  deriving DecidableEq, Repr

/-- The wording of an error. -/
def FileError.message : FileError → String
  | notFound => "No such file or directory (os error 2)"
  | notDirectory => "Not a directory (os error 20)"
  | isDirectory => "Is a directory (os error 21)"
  | nameTooLong => "File name too long (os error 36)"
  | zeroInName => "file name contained an unexpected NUL byte"
  | notText => "stream did not contain valid UTF-8"
  | other message => message

/-- A way to reach files. -/
structure FileAccess (m : Type → Type) where
  /-- Whether a path leads to a file and not to a directory. -/
  isFile : Path → m Bool
  /-- The one spelling that all paths to a file or directory share. -/
  canonical : Path → m (Except FileError Path)
  /-- The text of a file. -/
  read : Path → m (Except FileError String)
  /-- More than the number of files that can import one another in a row. -/
  chainLimit : Nat

end Custody
