import Custody.FileAccess

/-!
# Trees of files

A tree of files in memory. A path is followed name by name from the root or from the working
directory: every name but the last has to lead to a directory, and so has the last one if a slash, a
`.` or a `..` stands behind it.
-/

set_option autoImplicit false

namespace Custody

/-- Files with their bytes, further directories, and the working directory, all by their names from
the root on. The directories around a file exist with it. -/
structure FileTree where
  files : List (List String × ByteArray)
  dirs : List (List String)
  workingDir : List String

namespace FileTree

/-- The bytes of the file with the given names. -/
def content? (t : FileTree) (names : List String) : Option ByteArray := t.files.lookup names

/-- Whether there is a directory with the given names. -/
def isDir (t : FileTree) (names : List String) : Bool :=
  names.isPrefixOf t.workingDir || t.dirs.any names.isPrefixOf ||
    t.files.any fun (file, _) => names.isPrefixOf file && names != file

/-- Whether there is a file or directory with the given names. -/
def has (t : FileTree) (names : List String) : Bool := (t.content? names).isSome || t.isDir names

/-- The most bytes that a name may have. -/
def longestName : Nat := 255

/-- Follows runs of characters from the place with the given names. -/
def follow (t : FileTree) (names : List String) :
    List (List Char) → Except FileError (List String)
  | [] => .ok names
  | run :: runs =>
    if !t.isDir names then .error .notDirectory
    else if run = [] || run = ['.'] then t.follow names runs
    else if run = ['.', '.'] then t.follow names.dropLast runs
    else if longestName < (String.ofList run).utf8ByteSize then .error .nameTooLong
    else if t.has (names ++ [String.ofList run]) then
      t.follow (names ++ [String.ofList run]) runs
    else .error .notFound

/-- The names of what a path leads to. -/
def locate (t : FileTree) (p : Path) : Except FileError (List String) :=
  if p.text.toList.contains '\x00' then .error .zeroInName
  else if p.text.isEmpty then .error .notFound
  else t.follow (if p.isAbsolute then [] else t.workingDir) (Path.splitSlashes p.text.toList)

/-- The path from the root through the given names. -/
def pathOf (names : List String) : Path := ⟨"/" ++ "/".intercalate names⟩

/-- The text of the file that a path leads to. -/
def read (t : FileTree) (p : Path) : Except FileError String :=
  match t.locate p with
  | .error e => .error e
  | .ok names =>
    match t.content? names with
    | none => .error .isDirectory
    | some bytes =>
      match String.fromUTF8? bytes with
      | some text => .ok text
      | none => .error .notText

/-- Whether a path leads to a file. -/
def isFile (t : FileTree) (p : Path) : Bool :=
  match t.locate p with
  | .error _ => false
  | .ok names => (t.content? names).isSome

/-- Puts in a file, in place of what was there. -/
def write (t : FileTree) (names : List String) (bytes : ByteArray) : FileTree :=
  { t with files := (names, bytes) :: t.files.filter fun (file, _) => file != names }

/-- The files of the tree. -/
def access (t : FileTree) : FileAccess Id where
  isFile p := t.isFile p
  canonical p := (t.locate p).map pathOf
  read p := t.read p
  chainLimit := t.files.length + 1

end FileTree

end Custody
