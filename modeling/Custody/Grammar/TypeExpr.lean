import Custody.Grammar.Cursor

/-!
# Reading type expressions

A type is a name with optional alias and arguments, a pointer, a slice or an array. The argument of
`typeExpr` bounds how deep types may nest.
-/

set_option autoImplicit false

namespace Custody.Grammar

open Parse

/-- The arguments in brackets behind a name. -/
def typeArgs (type : Parse TypeExpr) (fuel : Nat) : Parse (List TypeExpr) := do
  let _ ← expect .lBracket
  itemsTo .rBracket type fuel

/-- A named type. -/
def namedType (type : Parse TypeExpr) (fuel : Nat) : Parse TypeExpr := do
  let start ← here
  let first ← ident
  let qualified ← check .dot
  let (space, name) ←
    if qualified then do
      let _ ← advance
      let name ← ident
      pure (some first, name)
    else pure (none, first)
  let args ←
    if ← check .lBracket then typeArgs type fuel
    else pure []
  return .named (← finish start) space name args

/-- Lengths of arrays are below this number, which takes 65 bits. -/
def lengthLimit : Nat := 18446744073709551616

/-- The length of an array. -/
def arrayLength : Parse Nat := do
  let token ← expect .number
  match readBelow? lengthLimit token.value.toList with
  | some length => return length
  | none => failAt (.arrayLength token.value) token.span

/-- A slice or an array. -/
def bracketType (type : Parse TypeExpr) : Parse TypeExpr := do
  let start ← here
  let _ ← advance
  if ← check .rBracket then
    let _ ← advance
    let element ← type
    return .slice (← finish start) element
  else
    let length ← arrayLength
    let _ ← expect .rBracket
    let element ← type
    return .array (← finish start) length element

/-- A pointer. -/
def pointerType (kind : PointerKind) (type : Parse TypeExpr) : Parse TypeExpr := do
  let start ← here
  let _ ← advance
  let pointee ← type
  return .pointer (← finish start) kind pointee

/-- A type, nested at most `fuel` deep. -/
def typeExpr : Nat → Parse TypeExpr
  | 0 => giveUp
  | fuel + 1 => do
    match (← current).kind with
    | .caret => pointerType .weak (typeExpr fuel)
    | .tilde => pointerType .owned (typeExpr fuel)
    | .lBracket => bracketType (typeExpr fuel)
    | .identifier => namedType (typeExpr fuel) fuel
    | kind => fail (.expectedType kind)

end Custody.Grammar
