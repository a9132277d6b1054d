/-!
# Places in a source text

A `Span` says where a piece of text stands: byte offsets of its two ends, line and column of its
start, and the number of the file. Lines and columns count from one; columns count characters while
offsets count bytes of the UTF-8 form. `Pos` is a single place, moved one character at a time.
-/

set_option autoImplicit false

namespace Custody

/-- A piece of source text: the bytes from `start` up to `stop`, which begin at `line` and `column`
of the file numbered `file`. -/
structure Span where
  start : Nat
  stop : Nat
  line : Nat
  column : Nat
  file : Nat
  deriving DecidableEq, Repr, Inhabited

namespace Span

/-- The span of a report that has no place in a text. -/
def nowhere : Span := ⟨0, 0, 0, 0, 0⟩

/-- The smallest span that covers both. Line and column come from the one that starts first, from
the left one when both start together; the file is the left one's. -/
def merge (a b : Span) : Span :=
  { start := min a.start b.start
    stop := max a.stop b.stop
    line := if a.start ≤ b.start then a.line else b.line
    column := if a.start ≤ b.start then a.column else b.column
    file := a.file }

end Span

/-- A place between two characters of a text. -/
structure Pos where
  offset : Nat
  line : Nat
  column : Nat
  deriving DecidableEq, Repr, Inhabited

namespace Pos

/-- The place before the first character. -/
def origin : Pos := ⟨0, 1, 1⟩

/-- The place after the character `c`. A line feed starts the next line. -/
def step (p : Pos) (c : Char) : Pos :=
  if c = '\n' then ⟨p.offset + c.utf8Size, p.line + 1, 1⟩
  else ⟨p.offset + c.utf8Size, p.line, p.column + 1⟩

/-- The place after a run of characters. -/
def pass (p : Pos) (text : List Char) : Pos :=
  text.foldl step p

/-- The span between two places of one file. -/
def spanTo (a b : Pos) (file : Nat) : Span :=
  ⟨a.offset, b.offset, a.line, a.column, file⟩

theorem pass_nil (p : Pos) : p.pass [] = p := rfl

theorem pass_cons (p : Pos) (c : Char) (text : List Char) :
    p.pass (c :: text) = (p.step c).pass text := rfl

theorem pass_append (p : Pos) (a b : List Char) : p.pass (a ++ b) = (p.pass a).pass b :=
  List.foldl_append

end Pos

/-- A name together with where it was written. -/
structure Ident where
  name : String
  span : Span
  deriving DecidableEq, Repr, Inhabited

end Custody
