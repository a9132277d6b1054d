import Custody.Grammar.TypeExpr

/-!
# Reading expressions

Operators between operands have levels from 1 to 7; those in front of an operand bind at level 8.
`expr fuel level` reads an expression whose outermost operator has at least the given level. All
operators group to the left, since the right operand is read one level higher. The parts are
written over the reader of nested expressions.
-/

set_option autoImplicit false

namespace Custody.Grammar

open Parse

/-- What stands between two operands. -/
inductive InfixOp where
  | range
  | binary (op : BinaryOp)
  deriving DecidableEq, Repr

namespace InfixOp

/-- The level of an operator; higher levels bind tighter. -/
def level : InfixOp → Nat
  | range => 1
  | binary .or => 2
  | binary .and => 3
  | binary .eq | binary .ne => 4
  | binary .lt | binary .gt | binary .le | binary .ge => 5
  | binary .add | binary .sub => 6
  | binary .mul | binary .div | binary .mod => 7

/-- The operator that a token stands for. -/
def ofKind? : TokenKind → Option InfixOp
  | .dotDot => some range
  | .kwOr => some (binary .or)
  | .kwAnd => some (binary .and)
  | .eqEq => some (binary .eq)
  | .bangEq => some (binary .ne)
  | .lt => some (binary .lt)
  | .gt => some (binary .gt)
  | .ltEq => some (binary .le)
  | .gtEq => some (binary .ge)
  | .plus => some (binary .add)
  | .minus => some (binary .sub)
  | .star => some (binary .mul)
  | .slash => some (binary .div)
  | .percent => some (binary .mod)
  | _ => none

/-- The node of an operator with its operands. -/
def build (op : InfixOp) (mark : Mark) (left right : Expr) : Expr :=
  match op with
  | range => .range mark left right
  | binary op => .binary mark op left right

end InfixOp

/-- The operator in front of an operand that a token stands for. -/
def unaryOp? : TokenKind → Option UnaryOp
  | .bang => some .not
  | .minus => some .negate
  | .amp => some .addressOf
  | .star => some .deref
  | .kwOwn => some .own
  | _ => none

/-- The level of operators in front of an operand. -/
def unaryLevel : Nat := 8

/-- Splits the value of a number token at its first letter and reads the format behind it. A literal
with a fraction has no integer format. -/
def numberLiteral (value : String) : Except SyntaxFault NumberLiteral :=
  let text := String.ofList (value.toList.takeWhile fun c => !c.isAlpha)
  match value.toList.dropWhile fun c => !c.isAlpha with
  | [] => .ok ⟨text, none⟩
  | suffix =>
    match NumberFormat.parse? suffix with
    | none => .error (.numberFormat (String.ofList suffix))
    | some format =>
      let literal : NumberLiteral := ⟨text, some format⟩
      if literal.isDecimal && format.kind != .float then .error (.decimalFormat value)
      else .ok literal

/-- A number token. -/
def number : Parse NumberLiteral := do
  let token ← advance
  match numberLiteral token.value with
  | .ok literal => return literal
  | .error fault => failAt fault token.span

/-- The arguments of a call, in parentheses. -/
def arguments (nested : Parse Expr) (fuel : Nat) : Parse (List Expr) := do
  let _ ← expect .lParen
  itemsTo .rParen nested fuel

/-- A member with its value. -/
def fieldInit (nested : Parse Expr) : Parse (Ident × Expr) := do
  let name ← ident
  let _ ← expect .colon
  let value ← nested
  return (name, value)

/-- An expression in parentheses. -/
def groupExpr (nested : Parse Expr) : Parse Expr := do
  let start ← here
  let _ ← advance
  let inner ← nested
  let _ ← expect .rParen
  return .group (← finish start) inner

/-- A new value of a struct, with its members in braces. -/
def newExpr (nested : Parse Expr) (fuel : Nat) : Parse Expr := do
  let start ← here
  let _ ← advance
  let type ← typeExpr fuel
  let _ ← expect .lBrace
  let fields ← itemsTo .rBrace (fieldInit nested) fuel
  return .new (← finish start) type fields

/-- An array type with its elements in braces. -/
def arrayExpr (nested : Parse Expr) (fuel : Nat) : Parse Expr := do
  let start ← here
  let type ← typeExpr fuel
  match type with
  | .array .. =>
    let _ ← expect .lBrace
    let elements ← itemsTo .rBrace nested fuel
    return .staticArray (← finish start) type elements
  | _ => failAt .unsizedLiteral type.span

/-- An expression of a single token. -/
def leaf (node : Token → Mark → Expr) : Parse Expr := do
  let start ← here
  let token ← advance
  return node token (← finish start)

/-- An operand without operators and without anything behind it. -/
def primary (nested : Parse Expr) (fuel : Nat) : Parse Expr := do
  let token ← current
  match token.kind with
  | .number => do
    let start ← here
    let literal ← number
    return .number (← finish start) literal
  | .string => leaf fun token mark => .string mark token.value
  | .kwTrue => leaf fun _ mark => .bool mark true
  | .kwFalse => leaf fun _ mark => .bool mark false
  | .kwNull => leaf fun _ mark => .null mark
  | .kwZero => leaf fun _ mark => .zero mark
  | .identifier => do
    let start ← here
    let name ← ident
    return .ident (← finish start) name
  | .lParen => groupExpr nested
  | .kwNew => newExpr nested fuel
  | .lBracket => arrayExpr nested fuel
  | .error => fail (.lexical token.value)
  | kind => fail (.expectedExpr kind)

/-- What may stand behind an operand: arguments, type arguments with arguments, a member or an
index, again and again. -/
def suffixes (nested : Parse Expr) (start : Span) : Nat → Expr → Parse Expr
  | 0, _ => giveUp
  | fuel + 1, e => do
    let c ← look fun c => c
    match c.current.kind with
    | .lParen => do
      let args ← arguments nested fuel
      suffixes nested start fuel (.call (← finish start) e [] args)
    | .colon =>
      if c.peekIs .lBracket then do
        let _ ← advance
        let types ← typeArgs (typeExpr fuel) fuel
        let args ← arguments nested fuel
        suffixes nested start fuel (.call (← finish start) e types args)
      else return e
    | .dot => do
      let _ ← advance
      let member ← ident
      suffixes nested start fuel (.get (← finish start) e member)
    | .lBracket => do
      let _ ← advance
      let index ← nested
      let _ ← expect .rBracket
      suffixes nested start fuel (.subscript (← finish start) e index)
    | _ => return e

/-- An operand with the operators in front of it. -/
def operand (nested : Nat → Parse Expr) (fuel : Nat) : Parse Expr := do
  let start ← here
  match unaryOp? (← current).kind with
  | some op => do
    let _ ← advance
    let inner ← nested unaryLevel
    return .unary (← finish start) op inner
  | none => do
    let e ← primary (nested 1) fuel
    suffixes (nested 1) start fuel e

/-- Takes in operators of at least the given level, and their right operands. -/
def climb (nested : Nat → Parse Expr) (start : Span) (level : Nat) : Nat → Expr → Parse Expr
  | 0, _ => giveUp
  | fuel + 1, left => do
    match InfixOp.ofKind? (← current).kind with
    | none => return left
    | some op =>
      if op.level < level then return left
      else do
        let _ ← advance
        let right ← nested (op.level + 1)
        climb nested start level fuel (op.build (← finish start) left right)

/-- An expression whose outermost operator has at least the given level, nested at most `fuel`
deep. -/
def expr : Nat → Nat → Parse Expr
  | 0, _ => giveUp
  | fuel + 1, level => do
    let start ← here
    let left ← operand (expr fuel) fuel
    climb (expr fuel) start level fuel left

end Custody.Grammar
