import Custody.Token
import Custody.Tree

/-!
# Reading tokens

A `Cursor` stands in a list of tokens and hands out node numbers. At the end of the list it keeps
pointing at the last token, so that an error always has a place. `Parse` is the type of readers: a
reader moves a cursor and gives a value or an error. A reader that finds no end has no result at
all; that can only happen in a list without an `eof` token.

* `Cursor.advance` never leaves the `eof` token nor the end of the list.
* `Parse.expect` takes a token of a given kind or fails at the current one.
* `Parse.items` reads a list with commas between the items and an optional comma at its end.
-/

set_option autoImplicit false

namespace Custody

/-! ## Errors -/

/-- Why a list of tokens is no tree. -/
inductive SyntaxFault where
  | expected (want found : TokenKind)
  | lexical (message : String)
  | expectedItem (found : TokenKind)
  | expectedExpr (found : TokenKind)
  | expectedType (found : TokenKind)
  | nestedDeclaration (found : TokenKind)
  | emptyGenerics
  | arrayLength (text : String)
  | numberFormat (text : String)
  | decimalFormat (text : String)
  | unsizedLiteral
  deriving DecidableEq, Repr

/-- The wording of a fault. -/
def SyntaxFault.message : SyntaxFault → String
  | expected want found => "Expected " ++ want.describe ++ ", found " ++ found.describe
  | lexical message => message
  | expectedItem found =>
    "Expected 'import', 'struct' or 'fn' at top level, found " ++ found.describe
  | expectedExpr found => "Expected expression, found " ++ found.describe
  | expectedType found => "Expected type, found " ++ found.describe
  | nestedDeclaration found => found.describe ++ " declarations are only allowed at top level"
  | emptyGenerics => "Generic parameter list cannot be empty"
  | arrayLength text => "Invalid array length '" ++ text ++ "'"
  | numberFormat text => "Invalid number suffix '" ++ text ++ "'"
  | decimalFormat text => "Decimal literal '" ++ text ++ "' cannot have an integer suffix"
  | unsizedLiteral => "Static array literal requires a length, e.g. [3]u64\x7b...\x7d"

/-- A fault and where it was found. -/
structure ParseError where
  fault : SyntaxFault
  span : Span
  deriving DecidableEq, Repr

namespace ParseError

/-- The wording of the fault alone. -/
def message (e : ParseError) : String := e.fault.message

/-- The wording with line and column. -/
def text (e : ParseError) : String :=
  "Parse error at " ++ toString e.span.line ++ ":" ++ toString e.span.column ++ ": " ++ e.message

end ParseError

/-! ## Cursors -/

/-- A place in a list of tokens: the token before it, the tokens from it on, and the number for the
next node. At the start of a list the token before it is the first one. -/
structure Cursor where
  previous : Token
  rest : List Token
  nextId : Nat
  deriving Repr

namespace Cursor

/-- The current token; at the end of the list, the last one. -/
def current (c : Cursor) : Token :=
  match c.rest with
  | [] => c.previous
  | t :: _ => t

/-- Whether the list ends here or its `eof` token stands here. -/
def atEnd (c : Cursor) : Bool :=
  match c.rest with
  | [] => true
  | t :: _ => t.kind == .eof

/-- Whether a token of the kind stands here, before the end. -/
def check (c : Cursor) (kind : TokenKind) : Bool :=
  !c.atEnd && c.current.kind == kind

/-- Whether the token behind the current one has the kind. -/
def peekIs (c : Cursor) (kind : TokenKind) : Bool :=
  match c.rest with
  | _ :: t :: _ => t.kind == kind
  | _ => false

/-- Moves behind the current token, unless the end is reached. -/
def advance (c : Cursor) : Cursor :=
  match c.rest with
  | [] => c
  | t :: ts => if t.kind = .eof then c else { c with previous := t, rest := ts }

end Cursor

/-! ## Readers -/

/-- A reader: from a cursor to a value or an error, and the cursor where it stopped. -/
def Parse (α : Type) : Type := Cursor → Option (Except ParseError α × Cursor)

namespace Parse

/-- Reads nothing. -/
protected def pure {α : Type} (a : α) : Parse α := fun c => some (.ok a, c)

/-- Reads one thing and then another; an error of the first stays. -/
protected def bind {α β : Type} (p : Parse α) (f : α → Parse β) : Parse β := fun c =>
  match p c with
  | none => none
  | some (.error e, c) => some (.error e, c)
  | some (.ok a, c) => f a c

instance : Monad Parse where
  pure := Parse.pure
  bind := Parse.bind

/-- The reader without a result. -/
def giveUp {α : Type} : Parse α := fun _ => none

/-- Fails at a given place. -/
def failAt {α : Type} (fault : SyntaxFault) (span : Span) : Parse α := fun c =>
  some (.error ⟨fault, span⟩, c)

/-- Fails at the current token. -/
def fail {α : Type} (fault : SyntaxFault) : Parse α := fun c =>
  some (.error ⟨fault, c.current.span⟩, c)

/-- A view of the cursor. -/
def look {α : Type} (view : Cursor → α) : Parse α := fun c => some (.ok (view c), c)

/-- The current token. -/
def current : Parse Token := look Cursor.current

/-- The span of the current token. -/
def here : Parse Span := look fun c => c.current.span

/-- Whether a token of the kind stands here, before the end. -/
def check (kind : TokenKind) : Parse Bool := look fun c => c.check kind

/-- Moves behind the current token and gives the token before the cursor. -/
def advance : Parse Token := fun c => some (.ok c.advance.previous, c.advance)

/-- Takes a token of the kind, or fails at the current token: with its own message if that is an
error token. -/
def expect (kind : TokenKind) : Parse Token := fun c =>
  if c.check kind then advance c
  else if c.current.kind = .error then fail (.lexical c.current.value) c
  else fail (.expected kind c.current.kind) c

/-- The mark of a finished node: the next number, and the span from `start` to the token before the
cursor. -/
def finish (start : Span) : Parse Mark := fun c =>
  some (.ok ⟨c.nextId, start.merge c.previous.span⟩, { c with nextId := c.nextId + 1 })

/-- A name. -/
def ident : Parse Ident := do
  let token ← expect .identifier
  return ⟨token.value, token.span⟩

/-- Items with commas between them, up to but without the token `close`. -/
def items {α : Type} (close : TokenKind) (item : Parse α) : Nat → Parse (List α)
  | 0 => giveUp
  | fuel + 1 => do
    if ← look fun c => c.check close || c.atEnd then
      return []
    let x ← item
    unless ← check close do
      let _ ← expect .comma
    let xs ← items close item fuel
    return x :: xs

/-- Items with commas between them, up to and with the token `close`. -/
def itemsTo {α : Type} (close : TokenKind) (item : Parse α) (fuel : Nat) : Parse (List α) := do
  let xs ← items close item fuel
  let _ ← expect close
  return xs

end Parse

end Custody
