import Custody.Span
import Custody.Number

/-!
# Trees of a source file

Type expressions, expressions and statements. Each node carries a `Mark`: its number within the
file, under which later passes keep what they find out about it, and the span that it covers.

Declarations and statements are one sort, since a tree may put either where only the other belongs;
the passes refuse such trees.
-/

set_option autoImplicit false

namespace Custody

/-- The number of a node within its file, and the text that it covers. -/
structure Mark where
  id : Nat
  span : Span
  deriving DecidableEq, Repr, Inhabited

/-- A pointer owns what it points to, or not. -/
inductive PointerKind where
  | owned | weak
  deriving DecidableEq, Repr, Inhabited

/-- The sign in front of a pointer's target. -/
def PointerKind.sign : PointerKind → String
  | .owned => "~"
  | .weak => "^"

/-! ## Type expressions -/

/-- A type as written: a name with an optional alias in front and arguments behind, a pointer, an
array with its length, or a slice. -/
inductive TypeExpr where
  | named (mark : Mark) (space : Option Ident) (name : Ident) (args : List TypeExpr)
  | pointer (mark : Mark) (kind : PointerKind) (pointee : TypeExpr)
  | array (mark : Mark) (length : Nat) (element : TypeExpr)
  | slice (mark : Mark) (element : TypeExpr)
  deriving Repr, Inhabited

namespace TypeExpr

/-- The mark of a type expression. -/
def mark : TypeExpr → Mark
  | named m _ _ _ => m
  | pointer m _ _ => m
  | array m _ _ => m
  | slice m _ => m

/-- The text that a type expression covers. -/
def span (t : TypeExpr) : Span := t.mark.span

mutual
/-- A type expression in its shortest spelling. -/
def text : TypeExpr → String
  | named _ space name [] => spaceText space ++ name.name
  | named _ space name (arg :: args) =>
    spaceText space ++ name.name ++ "[" ++ arg.text ++ tailText args ++ "]"
  | pointer _ kind pointee => kind.sign ++ pointee.text
  | array _ length element => "[" ++ toString length ++ "]" ++ element.text
  | slice _ element => "[]" ++ element.text

/-- An alias in front of a name. -/
def spaceText : Option Ident → String
  | none => ""
  | some space => space.name ++ "."

/-- The arguments behind the first one. -/
def tailText : List TypeExpr → String
  | [] => ""
  | arg :: args => ", " ++ arg.text ++ tailText args
end

end TypeExpr

/-! ## Operators -/

/-- The operators between two operands. -/
inductive BinaryOp where
  | add | sub | mul | div | mod | eq | ne | lt | gt | le | ge | and | or
  deriving DecidableEq, Repr, Inhabited

namespace BinaryOp

/-- Whether the operator computes a number. -/
def isArithmetic : BinaryOp → Bool
  | add | sub | mul | div | mod => true
  | _ => false

/-- Whether the operator compares the order of two numbers. -/
def isRelational : BinaryOp → Bool
  | lt | gt | le | ge => true
  | _ => false

/-- Whether the operator compares for equality. -/
def isEquality : BinaryOp → Bool
  | eq | ne => true
  | _ => false

/-- Whether the operator joins truth values. -/
def isLogical : BinaryOp → Bool
  | and | or => true
  | _ => false

/-- The operator as it is written. -/
def text : BinaryOp → String
  | add => "+"
  | sub => "-"
  | mul => "*"
  | div => "/"
  | mod => "%"
  | eq => "=="
  | ne => "!="
  | lt => "<"
  | gt => ">"
  | le => "<="
  | ge => ">="
  | and => "and"
  | or => "or"

end BinaryOp

/-- The operators in front of an operand. -/
inductive UnaryOp where
  | not | negate | addressOf | deref | own
  deriving DecidableEq, Repr, Inhabited

/-- The operator as it is named in a message. -/
def UnaryOp.name : UnaryOp → String
  | not => "!"
  | negate => "-"
  | addressOf => "&"
  | deref => "*"
  | own => "own"

/-- The operator as it is written in front of an operand; a word keeps a blank behind it. -/
def UnaryOp.text : UnaryOp → String
  | own => "own "
  | op => op.name

/-! ## Expressions -/

/-- A number as written, with the format that its spelling names. -/
structure NumberLiteral where
  text : String
  format : Option NumberFormat
  deriving DecidableEq, Repr, Inhabited

/-- Whether the literal has a fraction. -/
def NumberLiteral.isDecimal (literal : NumberLiteral) : Bool :=
  literal.text.toList.contains '.'

/-- Expressions. -/
inductive Expr where
  | binary (mark : Mark) (op : BinaryOp) (left right : Expr)
  | unary (mark : Mark) (op : UnaryOp) (operand : Expr)
  | number (mark : Mark) (literal : NumberLiteral)
  | string (mark : Mark) (text : String)
  | bool (mark : Mark) (value : Bool)
  | ident (mark : Mark) (name : Ident)
  | call (mark : Mark) (callee : Expr) (typeArgs : List TypeExpr) (args : List Expr)
  | get (mark : Mark) (object : Expr) (member : Ident)
  | new (mark : Mark) (type : TypeExpr) (fields : List (Ident × Expr))
  | group (mark : Mark) (inner : Expr)
  | null (mark : Mark)
  | zero (mark : Mark)
  | staticArray (mark : Mark) (type : TypeExpr) (elements : List Expr)
  | subscript (mark : Mark) (object index : Expr)
  | range (mark : Mark) (first last : Expr)
  deriving Repr, Inhabited

namespace Expr

/-- The mark of an expression. -/
def mark : Expr → Mark
  | binary m _ _ _ => m
  | unary m _ _ => m
  | number m _ => m
  | string m _ => m
  | bool m _ => m
  | ident m _ => m
  | call m _ _ _ => m
  | get m _ _ => m
  | new m _ _ => m
  | group m _ => m
  | null m => m
  | zero m => m
  | staticArray m _ _ => m
  | subscript m _ _ => m
  | range m _ _ => m

/-- The number of an expression node. -/
def id (e : Expr) : Nat := e.mark.id

/-- The text that an expression covers. -/
def span (e : Expr) : Span := e.mark.span

/-- The name that an expression is, if it is nothing but a name. -/
def ident? : Expr → Option Ident
  | ident _ name => some name
  | _ => none

end Expr

/-! ## Statements -/

/-- An import: the path as written, where it stands, and the alias for the imported file. -/
structure ImportDecl where
  path : String
  pathSpan : Span
  localName : Ident
  deriving DecidableEq, Repr, Inhabited

/-- A name with its type, in a parameter list or among the members of a struct. -/
structure TypedName where
  name : Ident
  type : TypeExpr
  deriving Repr, Inhabited

/-- A struct declaration. -/
structure StructDecl where
  name : Ident
  generics : List Ident
  members : List TypedName
  deriving Repr, Inhabited

/-- A function declaration up to its body. Without a return type it returns nothing. -/
structure FnHead where
  name : Ident
  generics : List Ident
  params : List TypedName
  returnType : Option TypeExpr
  deriving Repr, Inhabited

mutual
/-- Statements in braces. -/
inductive Block where
  | mk (span : Span) (stmts : List Stmt)

/-- Declarations and statements. -/
inductive Stmt where
  | importDecl (mark : Mark) (decl : ImportDecl)
  | structDecl (mark : Mark) (decl : StructDecl)
  | fnDecl (mark : Mark) (head : FnHead) (body : Block)
  | letDecl (mark : Mark) (name : Ident) (type : Option TypeExpr) (init : Expr)
  | scope (mark : Mark) (body : Block)
  | assign (mark : Mark) (target value : Expr)
  | returnStmt (mark : Mark) (value : Option Expr)
  | breakStmt (mark : Mark)
  | continueStmt (mark : Mark)
  | forEach (mark : Mark) (binding : Ident) (iterable : Expr) (body : Block)
  | forCounted (mark : Mark) (init : Stmt) (condition : Expr) (update : Stmt) (body : Block)
  | ifElse (mark : Mark) (condition : Expr) (thenBlock : Block) (elseBranch : Option Stmt)
  | expr (mark : Mark) (value : Expr)
end

instance : Inhabited Block := ⟨.mk default []⟩
instance : Inhabited Stmt := ⟨.breakStmt default⟩

namespace Block

/-- The text from brace to brace. -/
def span : Block → Span
  | mk s _ => s

/-- The statements of a block, in order. -/
def stmts : Block → List Stmt
  | mk _ ss => ss

end Block

namespace Stmt

/-- The mark of a statement. -/
def mark : Stmt → Mark
  | importDecl m _ => m
  | structDecl m _ => m
  | fnDecl m _ _ => m
  | letDecl m _ _ _ => m
  | scope m _ => m
  | assign m _ _ => m
  | returnStmt m _ => m
  | breakStmt m => m
  | continueStmt m => m
  | forEach m _ _ _ => m
  | forCounted m _ _ _ _ => m
  | ifElse m _ _ _ => m
  | expr m _ => m

/-- The number of a statement node. -/
def id (s : Stmt) : Nat := s.mark.id

/-- The text that a statement covers. -/
def span (s : Stmt) : Span := s.mark.span

/-- Whether the statement belongs at the top of a file. -/
def isDeclaration : Stmt → Bool
  | importDecl _ _ | structDecl _ _ | fnDecl _ _ _ => true
  | _ => false

end Stmt

/-- A parsed file. -/
structure SourceFile where
  items : List Stmt
  span : Span
  deriving Inhabited

end Custody
