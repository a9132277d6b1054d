/-!
# Paths

A path is a text with slashes between names. Two spellings are the same path when they have the
same components: empty names and inner `.` names do not count, but `..` is a component like any
other, and so is a `.` that a relative path starts with.

`Path.parent?`, `Path.extension?` and `Path.join` work on the spelling and never look at a file.
-/

set_option autoImplicit false

namespace Custody

/-- A path as it is spelled. -/
structure Path where
  text : String
  deriving DecidableEq, Repr, Inhabited

/-- A part of a path. -/
inductive PathPart where
  | root
  | here
  | up
  | name (text : List Char)
  deriving DecidableEq, Repr

namespace Path

/-- The runs of characters between slashes, empty ones included. -/
def splitSlashes : List Char → List (List Char)
  | [] => [[]]
  | c :: cs =>
    if c = '/' then [] :: splitSlashes cs
    else
      match splitSlashes cs with
      | [] => [[c]]
      | w :: ws => (c :: w) :: ws

/-- The part that a run of characters stands for, unless it is empty or `.`. -/
def part? : List Char → Option PathPart
  | [] => none
  | ['.'] => none
  | ['.', '.'] => some .up
  | text => some (.name text)

/-- Whether a path starts at the root. -/
def isAbsolute (p : Path) : Bool := p.text.toList.head? == some '/'

/-- The components of a path. -/
def parts (p : Path) : List PathPart :=
  let runs := splitSlashes p.text.toList
  let named := runs.filterMap part?
  if p.isAbsolute then .root :: named
  else if runs.head? == some ['.'] then .here :: named
  else named

/-- Whether two spellings have the same components. -/
def same (p q : Path) : Bool := p.parts == q.parts

/-! ## Names and directories -/

/-- Runs of characters with slashes between them. -/
def joinSlashes : List (List Char) → List Char
  | [] => []
  | [w] => w
  | w :: ws => w ++ '/' :: joinSlashes ws

/-- Drops what is no component from the front of runs that are listed from the back of a path: empty
runs, and `.` runs unless a relative path starts with one. -/
def dropEmpty (absolute : Bool) : List (List Char) → List (List Char)
  | [] => []
  | run :: before =>
    if run = [] || (run = ['.'] && (absolute || !before.isEmpty)) then dropEmpty absolute before
    else run :: before

/-- The runs of a path behind its root, from the back, the last component first. -/
def backwards (p : Path) : List (List Char) :=
  let runs := splitSlashes p.text.toList
  dropEmpty p.isAbsolute (if p.isAbsolute then runs.tail else runs).reverse

/-- The name at the end of a path. -/
def fileName? (p : Path) : Option (List Char) :=
  match p.backwards with
  | [] => none
  | run :: _ => if run = ['.'] || run = ['.', '.'] then none else some run

/-- A name's end behind its last dot, if something stands before the dot. -/
def nameExtension? (name : List Char) : Option (List Char) :=
  match name.reverse.dropWhile (· ≠ '.') with
  | _ :: _ :: _ => some (name.reverse.takeWhile (· ≠ '.')).reverse
  | _ => none

/-- The extension of the name at the end of a path. -/
def extension? (p : Path) : Option (List Char) := p.fileName?.bind nameExtension?

/-- The path without its last component. -/
def parent? (p : Path) : Option Path :=
  match p.backwards with
  | [] => none
  | _ :: before =>
    let text := joinSlashes (dropEmpty p.isAbsolute before).reverse
    some ⟨String.ofList (if p.isAbsolute then '/' :: text else text)⟩

/-- A path as seen from a directory. -/
def join (dir p : Path) : Path :=
  if p.isAbsolute then p
  else if dir.text.isEmpty || dir.text.toList.getLast? = some '/' then ⟨dir.text ++ p.text⟩
  else ⟨dir.text ++ "/" ++ p.text⟩

end Path

end Custody
