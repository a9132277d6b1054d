import Custody.Token
import Custody.Text.Letter

/-!
# Cutting a text into tokens

A scanner first skips a gap of blanks and comments and then reads one lexeme. The gap is skipped by
a machine with three modes, so that it goes through the text one character at a time. A lexeme keeps
the characters that it covers; where it stands follows from those characters alone.

* `Lexeme.read` picks the lexeme that starts with a given character.
* `Scanner.next` gives one token and the scanner behind it; behind the last token it gives `eof`
  again and again.
* `tokenize` lists the tokens up to and with the first `eof`.
-/

set_option autoImplicit false

namespace Custody

/-! ## Gaps -/

/-- What a scanner is inside of while it skips a gap. A comment between `/*` and `*/` remembers
where it was opened. -/
inductive GapMode where
  | blanks
  | lineComment
  | blockComment (opened : Pos)
  deriving DecidableEq, Repr

/-- How a gap ends: in front of `rest`, or inside a comment that was opened and never closed. -/
inductive GapEnd where
  | clear (pos : Pos) (rest : List Char)
  | unclosed (opened stop : Pos)
  deriving Repr

/-- Skips blanks and comments. A line comment ends with its line feed; comments do not nest. -/
def skipGap : GapMode → Pos → List Char → GapEnd
  | .blanks, p, [] => .clear p []
  | .blanks, p, '/' :: '/' :: cs => skipGap .lineComment (p.pass ['/', '/']) cs
  | .blanks, p, '/' :: '*' :: cs => skipGap (.blockComment p) (p.pass ['/', '*']) cs
  | .blanks, p, c :: cs =>
    if Text.isBlank c then skipGap .blanks (p.step c) cs else .clear p (c :: cs)
  | .lineComment, p, [] => .clear p []
  | .lineComment, p, c :: cs =>
    skipGap (if c = '\n' then .blanks else .lineComment) (p.step c) cs
  | .blockComment opened, p, [] => .unclosed opened p
  | .blockComment _, p, '*' :: '/' :: cs => skipGap .blanks (p.pass ['*', '/']) cs
  | .blockComment opened, p, c :: cs => skipGap (.blockComment opened) (p.step c) cs

/-! ## Lexemes -/

/-- A lexeme at the head of a text: its kind and value, the characters that it covers, and the text
that follows. -/
structure Lexeme where
  kind : TokenKind
  value : String
  text : List Char
  rest : List Char
  deriving Repr

namespace Lexeme

/-- What stands for itself after a backslash, apart from four letters. -/
def unescape : Char → Char
  | 'n' => '\n'
  | 'r' => '\r'
  | 't' => '\t'
  | '0' => '\x00'
  | c => c

/-- The body of a string literal, behind its opening quote. -/
structure StringBody where
  closed : Bool
  value : List Char
  text : List Char
  rest : List Char

/-- Puts a character in front of a body, written as `spelling`. -/
def StringBody.push (body : StringBody) (c : Char) (spelling : List Char) : StringBody :=
  { body with value := c :: body.value, text := spelling ++ body.text }

/-- Reads the body of a string literal up to and with its closing quote. A line feed or the end of
the text leaves it open; behind a backslash every character belongs to the body. -/
def stringBody : List Char → StringBody
  | [] => ⟨false, [], [], []⟩
  | '"' :: cs => ⟨true, [], ['"'], cs⟩
  | ['\\'] => ⟨false, [], ['\\'], []⟩
  | '\\' :: c :: cs => (stringBody cs).push (unescape c) ['\\', c]
  | '\n' :: cs => ⟨false, [], [], '\n' :: cs⟩
  | c :: cs => (stringBody cs).push c [c]

/-- The string literal behind an opening quote. -/
def string (cs : List Char) : Lexeme :=
  let body := stringBody cs
  if body.closed then ⟨.string, String.ofList body.value, '"' :: body.text, body.rest⟩
  else ⟨.error, "Unterminated string literal", '"' :: body.text, body.rest⟩

/-- Digits may be grouped with underscores. -/
def isDigitOrGap (c : Char) : Bool := c.isDigit || c == '_'

/-- The fraction behind a run of digits. A dot starts one only if a digit follows, so that `0..10`
stays a range. -/
def fraction : List Char → List Char × List Char
  | '.' :: d :: cs =>
    if d.isDigit then
      ('.' :: (d :: cs).takeWhile isDigitOrGap, (d :: cs).dropWhile isDigitOrGap)
    else ([], '.' :: d :: cs)
  | cs => ([], cs)

/-- A number literal: digits, an optional fraction and an optional format such as `u8`. The value
leaves the underscores out. -/
def number (cs : List Char) : Lexeme :=
  let whole := cs.takeWhile isDigitOrGap
  let (part, afterPart) := fraction (cs.dropWhile isDigitOrGap)
  let format := afterPart.takeWhile Char.isAlphanum
  { kind := .number
    value := String.ofList ((whole ++ part).filter (· != '_') ++ format)
    text := whole ++ part ++ format
    rest := afterPart.dropWhile Char.isAlphanum }

/-- A name or a reserved word. -/
def word (cs : List Char) : Lexeme :=
  let text := cs.takeWhile Text.isWordChar
  let value := String.ofList text
  ⟨(TokenKind.keyword? value).getD .identifier, value, text, cs.dropWhile Text.isWordChar⟩

/-- An operator or delimiter with the given spelling. -/
def fixed (kind : TokenKind) (text rest : List Char) : Lexeme :=
  ⟨kind, String.ofList text, text, rest⟩

/-- The operators and delimiters of one character. -/
def single? : Char → Option TokenKind
  | '=' => some .eq
  | '!' => some .bang
  | '<' => some .lt
  | '>' => some .gt
  | '.' => some .dot
  | '+' => some .plus
  | '-' => some .minus
  | '*' => some .star
  | '/' => some .slash
  | '%' => some .percent
  | '&' => some .amp
  | '^' => some .caret
  | '~' => some .tilde
  | '(' => some .lParen
  | ')' => some .rParen
  | '\x7b' => some .lBrace
  | '\x7d' => some .rBrace
  | '[' => some .lBracket
  | ']' => some .rBracket
  | ';' => some .semicolon
  | ',' => some .comma
  | ':' => some .colon
  | _ => none

/-- The operators of two characters. -/
def double? : Char → Char → Option TokenKind
  | '=', '=' => some .eqEq
  | '!', '=' => some .bangEq
  | '<', '=' => some .ltEq
  | '>', '=' => some .gtEq
  | '.', '.' => some .dotDot
  | _, _ => none

/-- The operator of two characters that starts with `c`, if one does. -/
def doubleAt? (c : Char) : List Char → Option Lexeme
  | [] => none
  | d :: cs => (double? c d).map fun kind => fixed kind [c, d] cs

/-- The lexeme that starts with `c`. Two characters win over one; what starts no lexeme is an error
of one character. -/
def read (c : Char) (cs : List Char) : Lexeme :=
  if c = '"' then string cs
  else if c.isDigit then number (c :: cs)
  else if c.isAlpha || c == '_' then word (c :: cs)
  else
    match doubleAt? c cs with
    | some lexeme => lexeme
    | none =>
      match single? c with
      | some kind => fixed kind [c] cs
      | none =>
        if Text.isLetter c then word (c :: cs)
        else ⟨.error, "Unexpected character: " ++ c.toString, [c], cs⟩

end Lexeme

/-! ## Scanning -/

/-- The state of a scan: the number of the file, the place reached and the text ahead. -/
structure Scanner where
  file : Nat
  pos : Pos
  rest : List Char
  deriving Repr

namespace Scanner

/-- A scanner in front of a whole text. -/
def ofSource (source : String) (file : Nat) : Scanner :=
  ⟨file, .origin, source.toList⟩

/-- The next token, and the scanner behind it. -/
def next (s : Scanner) : Token × Scanner :=
  match skipGap .blanks s.pos s.rest with
  | .unclosed opened stop =>
    (⟨.error, opened.spanTo stop s.file, "Unterminated multi-line comment"⟩,
      { s with pos := stop, rest := [] })
  | .clear p [] => (⟨.eof, p.spanTo p s.file, ""⟩, { s with pos := p, rest := [] })
  | .clear p (c :: cs) =>
    let lexeme := Lexeme.read c cs
    let stop := p.pass lexeme.text
    (⟨lexeme.kind, p.spanTo stop s.file, lexeme.value⟩,
      { s with pos := stop, rest := lexeme.rest })

/-- The next `n` tokens; behind the end they are all `eof`. -/
def take : Nat → Scanner → List Token
  | 0, _ => []
  | n + 1, s => s.next.1 :: take n s.next.2

/-- The tokens up to and with the first `eof`, at most `fuel` many. -/
def untilEof : Nat → Scanner → List Token
  | 0, _ => []
  | fuel + 1, s =>
    let (token, after) := s.next
    if token.kind = .eof then [token] else token :: untilEof fuel after

end Scanner

/-- All tokens of a text. Each token but `eof` covers a character, so that one more step than there
are characters reaches the end. -/
def tokenize (source : String) (file : Nat) : List Token :=
  (Scanner.ofSource source file).untilEof (source.toList.length + 1)

end Custody
