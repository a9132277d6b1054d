import Custody.Span

/-!
# Tokens

The kinds of token, how a message names a kind, how a listing labels it, and which words are
reserved. A token of kind `error` carries in its value what is wrong with the text it covers.
-/

set_option autoImplicit false

namespace Custody

/-- The kinds of token. -/
inductive TokenKind where
  | kwFn | kwStruct | kwImport | kwLet | kwReturn | kwBreak | kwContinue | kwFor | kwIf | kwElse
  | kwNew | kwOwn | kwAnd | kwOr | kwTrue | kwFalse | kwNull | kwZero
  | number | string | identifier
  | plus | minus | star | slash | percent
  | eq | eqEq | bangEq | lt | gt | ltEq | gtEq
  | bang | amp | caret | tilde | dotDot
  | lParen | rParen | lBrace | rBrace | lBracket | rBracket
  | semicolon | comma | dot | colon
  | eof | error
  deriving DecidableEq, Repr, Inhabited

namespace TokenKind

/-- The reserved words. -/
def keyword? : String → Option TokenKind
  | "fn" => some kwFn
  | "struct" => some kwStruct
  | "import" => some kwImport
  | "let" => some kwLet
  | "return" => some kwReturn
  | "break" => some kwBreak
  | "continue" => some kwContinue
  | "for" => some kwFor
  | "if" => some kwIf
  | "else" => some kwElse
  | "new" => some kwNew
  | "own" => some kwOwn
  | "and" => some kwAnd
  | "or" => some kwOr
  | "true" => some kwTrue
  | "false" => some kwFalse
  | "null" => some kwNull
  | "zero" => some kwZero
  | _ => none

/-- How a message names a kind: fixed spellings in quotes, the others by a word. -/
def describe : TokenKind → String
  | kwFn => "'fn'"
  | kwStruct => "'struct'"
  | kwImport => "'import'"
  | kwLet => "'let'"
  | kwReturn => "'return'"
  | kwBreak => "'break'"
  | kwContinue => "'continue'"
  | kwFor => "'for'"
  | kwIf => "'if'"
  | kwElse => "'else'"
  | kwNew => "'new'"
  | kwOwn => "'own'"
  | kwAnd => "'and'"
  | kwOr => "'or'"
  | kwTrue => "'true'"
  | kwFalse => "'false'"
  | kwNull => "'null'"
  | kwZero => "'zero'"
  | number => "number"
  | string => "string"
  | identifier => "identifier"
  | plus => "'+'"
  | minus => "'-'"
  | star => "'*'"
  | slash => "'/'"
  | percent => "'%'"
  | eq => "'='"
  | eqEq => "'=='"
  | bangEq => "'!='"
  | lt => "'<'"
  | gt => "'>'"
  | ltEq => "'<='"
  | gtEq => "'>='"
  | bang => "'!'"
  | amp => "'&'"
  | caret => "'^'"
  | tilde => "'~'"
  | dotDot => "'..'"
  | lParen => "'('"
  | rParen => "')'"
  | lBrace => "'\x7b'"
  | rBrace => "'\x7d'"
  | lBracket => "'['"
  | rBracket => "']'"
  | semicolon => "';'"
  | comma => "','"
  | dot => "'.'"
  | colon => "':'"
  | eof => "end of file"
  | error => "invalid token"

/-- The label of a kind in a token listing. -/
def label : TokenKind → String
  | kwFn => "Fn"
  | kwStruct => "Struct"
  | kwImport => "Import"
  | kwLet => "Let"
  | kwReturn => "Return"
  | kwBreak => "Break"
  | kwContinue => "Continue"
  | kwFor => "For"
  | kwIf => "If"
  | kwElse => "Else"
  | kwNew => "New"
  | kwOwn => "Own"
  | kwAnd => "And"
  | kwOr => "Or"
  | kwTrue => "True"
  | kwFalse => "False"
  | kwNull => "Null"
  | kwZero => "Zero"
  | number => "NumberLiteral"
  | string => "StringLiteral"
  | identifier => "Identifier"
  | plus => "Plus"
  | minus => "Minus"
  | star => "Star"
  | slash => "Slash"
  | percent => "Percent"
  | eq => "Eq"
  | eqEq => "EqEq"
  | bangEq => "BangEq"
  | lt => "Lt"
  | gt => "Gt"
  | ltEq => "LtEq"
  | gtEq => "GtEq"
  | bang => "Bang"
  | amp => "Amp"
  | caret => "Caret"
  | tilde => "Tilde"
  | dotDot => "DotDot"
  | lParen => "LParen"
  | rParen => "RParen"
  | lBrace => "LBrace"
  | rBrace => "RBrace"
  | lBracket => "LBracket"
  | rBracket => "RBracket"
  | semicolon => "Semicolon"
  | comma => "Comma"
  | dot => "Dot"
  | colon => "Colon"
  | eof => "Eof"
  | error => "Error"

end TokenKind

/-- A token: its kind, where it stands, and its value. The value of a string is its decoded text, of
a number its text without underscores, of an `error` a message, of all others the source text. -/
structure Token where
  kind : TokenKind
  span : Span
  value : String
  deriving DecidableEq, Repr, Inhabited

end Custody
