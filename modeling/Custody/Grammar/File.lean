import Custody.Grammar.Stmt
import Custody.Token.Lexer

/-!
# Reading files

A file is a list of imports, structs and functions. After an error the reader goes on at the next
word that starts a declaration, so that one reading gives every error of the file, at most one for
each declaration.

* `parseTokens` reads any list of tokens. It has no result for the empty list, and for some lists
  that end inside an expression or a type without an `eof` token.
* `parseSource` cuts a text into tokens and reads them.
-/

set_option autoImplicit false

namespace Custody

namespace Grammar

open Parse

/-- The names in brackets behind the name of a declaration. -/
def generics (fuel : Nat) : Parse (List Ident) := do
  if ← check .lBracket then
    let _ ← advance
    let names ← itemsTo .rBracket ident fuel
    if names.isEmpty then fail .emptyGenerics
    else return names
  else return []

/-- A name with its type. -/
def typedName (fuel : Nat) : Parse TypedName := do
  let name ← ident
  let _ ← expect .colon
  let type ← typeExpr fuel
  return ⟨name, type⟩

/-- An import. -/
def importDecl : Parse Stmt := do
  let start ← here
  let _ ← expect .kwImport
  let path ← expect .string
  let localName ← ident
  let _ ← expect .semicolon
  return .importDecl (← finish start) ⟨path.value, path.span, localName⟩

/-- A struct declaration. -/
def structDecl (fuel : Nat) : Parse Stmt := do
  let start ← here
  let _ ← expect .kwStruct
  let name ← ident
  let generics ← generics fuel
  let _ ← expect .lBrace
  let members ← itemsTo .rBrace (typedName fuel) fuel
  return .structDecl (← finish start) ⟨name, generics, members⟩

/-- A function declaration. -/
def fnDecl (fuel : Nat) : Parse Stmt := do
  let start ← here
  let _ ← expect .kwFn
  let name ← ident
  let generics ← generics fuel
  let _ ← expect .lParen
  let params ← itemsTo .rParen (typedName fuel) fuel
  let returnType ←
    if ← check .lBrace then pure none
    else do
      let type ← typeExpr fuel
      pure (some type)
  let body ← block (stmt fuel) fuel
  return .fnDecl (← finish start) ⟨name, generics, params, returnType⟩ body

/-- A declaration. -/
def item (fuel : Nat) : Parse Stmt := do
  let token ← current
  match token.kind with
  | .kwImport => importDecl
  | .kwStruct => structDecl fuel
  | .kwFn => fnDecl fuel
  | .error => fail (.lexical token.value)
  | kind => fail (.expectedItem kind)

/-- Whether a declaration starts with the token. -/
def startsItem (kind : TokenKind) : Bool :=
  kind == .kwFn || kind == .kwStruct || kind == .kwImport

/-- The first place from `rest` on where a declaration may start, or the end: the token before it
and the tokens from it on. -/
def nextItem (previous : Token) : List Token → Token × List Token
  | [] => (previous, [])
  | t :: ts =>
    if t.kind == .eof || startsItem t.kind then (previous, t :: ts) else nextItem t ts

/-- Leaves the current token and goes on to where the next declaration may start. -/
def resume (c : Cursor) : Cursor :=
  let c := c.advance
  let (previous, rest) := nextItem c.previous c.rest
  { c with previous, rest }

/-- Declarations up to the end, and the errors on the way. -/
def itemsAndErrors (item : Parse Stmt) : Nat → Cursor → Option (List Stmt × List ParseError)
  | 0, _ => none
  | fuel + 1, c =>
    if c.atEnd then some ([], [])
    else
      match item c with
      | none => none
      | some (.ok s, c) =>
        (itemsAndErrors item fuel c).map fun (items, errors) => (s :: items, errors)
      | some (.error e, c) =>
        (itemsAndErrors item fuel (resume c)).map fun (items, errors) => (items, e :: errors)

end Grammar

/-- A list of tokens read as a file, with a bound on nesting and steps. -/
def parseTokensWithin (fuel : Nat) (tokens : List Token) :
    Option (Except (List ParseError) SourceFile) :=
  match tokens with
  | [] => none
  | first :: _ =>
    (Grammar.itemsAndErrors (Grammar.item fuel) fuel ⟨first, tokens, 0⟩).map
      fun (items, errors) =>
        if errors.isEmpty then
          .ok ⟨items, (items.getLast?.map fun s => first.span.merge s.span).getD first.span⟩
        else .error errors

/-- Reads a list of tokens as a file. Every nesting and every step takes a token, so that the number
of tokens bounds both. -/
def parseTokens (tokens : List Token) : Option (Except (List ParseError) SourceFile) :=
  parseTokensWithin (tokens.length + 2) tokens

/-- Reads a text as a file. -/
def parseSource (source : String) (file : Nat) : Option (Except (List ParseError) SourceFile) :=
  parseTokens (tokenize source file)

end Custody
