import Custody.Bundle
import Custody.Grammar.Cursor

/-!
# Trees in another file

The spans of tokens and trees name the file that they are in by its number. `refile φ` gives every
file a new number and changes nothing else. `spans` lists all spans of a tree: of its nodes, names,
blocks and paths.
-/

set_option autoImplicit false

namespace Custody

/-! ## Refiling -/

section Refile

variable (φ : Nat → Nat)

/-- The span in the renumbered file. -/
def Span.refile (s : Span) : Span := { s with file := φ s.file }

/-- The name in the renumbered file. -/
def Ident.refile (i : Ident) : Ident := { i with span := i.span.refile φ }

/-- The mark in the renumbered file. -/
def Mark.refile (m : Mark) : Mark := { m with span := m.span.refile φ }

/-- The token in the renumbered file. -/
def Token.refile (t : Token) : Token := { t with span := t.span.refile φ }

mutual
/-- The type expression in the renumbered file. -/
def TypeExpr.refile : TypeExpr → TypeExpr
  | .named mark space name args =>
    .named (mark.refile φ) (space.map (Ident.refile φ)) (name.refile φ) (refileAll args)
  | .pointer mark kind pointee => .pointer (mark.refile φ) kind pointee.refile
  | .array mark length element => .array (mark.refile φ) length element.refile
  | .slice mark element => .slice (mark.refile φ) element.refile

/-- The type expressions in the renumbered file. -/
def TypeExpr.refileAll : List TypeExpr → List TypeExpr
  | [] => []
  | t :: ts => t.refile :: refileAll ts
end

mutual
/-- The expression in the renumbered file. -/
def Expr.refile : Expr → Expr
  | .binary mark op left right => .binary (mark.refile φ) op left.refile right.refile
  | .unary mark op operand => .unary (mark.refile φ) op operand.refile
  | .number mark literal => .number (mark.refile φ) literal
  | .string mark text => .string (mark.refile φ) text
  | .bool mark value => .bool (mark.refile φ) value
  | .ident mark name => .ident (mark.refile φ) (name.refile φ)
  | .call mark callee typeArgs args =>
    .call (mark.refile φ) callee.refile (TypeExpr.refileAll φ typeArgs) (refileAll args)
  | .get mark object member => .get (mark.refile φ) object.refile (member.refile φ)
  | .new mark type fields => .new (mark.refile φ) (type.refile φ) (refileFields fields)
  | .group mark inner => .group (mark.refile φ) inner.refile
  | .null mark => .null (mark.refile φ)
  | .zero mark => .zero (mark.refile φ)
  | .staticArray mark type elements =>
    .staticArray (mark.refile φ) (type.refile φ) (refileAll elements)
  | .subscript mark object index => .subscript (mark.refile φ) object.refile index.refile
  | .range mark first last => .range (mark.refile φ) first.refile last.refile

/-- The expressions in the renumbered file. -/
def Expr.refileAll : List Expr → List Expr
  | [] => []
  | e :: es => e.refile :: refileAll es

/-- The fields in the renumbered file. -/
def Expr.refileFields : List (Ident × Expr) → List (Ident × Expr)
  | [] => []
  | (name, e) :: fields => (name.refile φ, e.refile) :: refileFields fields
end

/-- The import in the renumbered file. -/
def ImportDecl.refile (d : ImportDecl) : ImportDecl :=
  { d with pathSpan := d.pathSpan.refile φ, localName := d.localName.refile φ }

/-- The typed name in the renumbered file. -/
def TypedName.refile (n : TypedName) : TypedName := ⟨n.name.refile φ, n.type.refile φ⟩

/-- The struct declaration in the renumbered file. -/
def StructDecl.refile (d : StructDecl) : StructDecl :=
  ⟨d.name.refile φ, d.generics.map (Ident.refile φ), d.members.map (TypedName.refile φ)⟩

/-- The head of a function in the renumbered file. -/
def FnHead.refile (h : FnHead) : FnHead :=
  ⟨h.name.refile φ, h.generics.map (Ident.refile φ), h.params.map (TypedName.refile φ),
    h.returnType.map (TypeExpr.refile φ)⟩

mutual
/-- The statement in the renumbered file. -/
def Stmt.refile : Stmt → Stmt
  | .importDecl mark d => .importDecl (mark.refile φ) (d.refile φ)
  | .structDecl mark d => .structDecl (mark.refile φ) (d.refile φ)
  | .fnDecl mark head body => .fnDecl (mark.refile φ) (head.refile φ) body.refile
  | .letDecl mark name type init =>
    .letDecl (mark.refile φ) (name.refile φ) (type.map (TypeExpr.refile φ)) (init.refile φ)
  | .scope mark body => .scope (mark.refile φ) body.refile
  | .assign mark target value => .assign (mark.refile φ) (target.refile φ) (value.refile φ)
  | .returnStmt mark value => .returnStmt (mark.refile φ) (value.map (Expr.refile φ))
  | .breakStmt mark => .breakStmt (mark.refile φ)
  | .continueStmt mark => .continueStmt (mark.refile φ)
  | .forEach mark name iterable body =>
    .forEach (mark.refile φ) (name.refile φ) (iterable.refile φ) body.refile
  | .forCounted mark init condition update body =>
    .forCounted (mark.refile φ) init.refile (condition.refile φ) update.refile body.refile
  | .ifElse mark condition thenBlock elseBranch =>
    .ifElse (mark.refile φ) (condition.refile φ) thenBlock.refile (Stmt.refileElse elseBranch)
  | .expr mark value => .expr (mark.refile φ) (value.refile φ)

/-- The `else` in the renumbered file, if there is one. -/
def Stmt.refileElse : Option Stmt → Option Stmt
  | none => none
  | some s => some s.refile

/-- The block in the renumbered file. -/
def Block.refile : Block → Block
  | .mk span stmts => .mk (span.refile φ) (Stmt.refileAll stmts)

/-- The statements in the renumbered file. -/
def Stmt.refileAll : List Stmt → List Stmt
  | [] => []
  | s :: ss => s.refile :: Stmt.refileAll ss
end

/-- The link in the renumbered file. Where it leads to stays. -/
def ImportLink.refile (l : ImportLink) : ImportLink := { l with span := l.span.refile φ }

end Refile

/-! ## Spans -/

mutual
/-- The spans of a type expression. -/
def TypeExpr.spans : TypeExpr → List Span
  | .named mark space name args =>
    mark.span :: ((space.toList.map Ident.span) ++ name.span :: spansAll args)
  | .pointer mark _ pointee => mark.span :: pointee.spans
  | .array mark _ element => mark.span :: element.spans
  | .slice mark element => mark.span :: element.spans

/-- The spans of type expressions. -/
def TypeExpr.spansAll : List TypeExpr → List Span
  | [] => []
  | t :: ts => t.spans ++ spansAll ts
end

mutual
/-- The spans of an expression. -/
def Expr.spans : Expr → List Span
  | .binary mark _ left right => mark.span :: (left.spans ++ right.spans)
  | .unary mark _ operand => mark.span :: operand.spans
  | .number mark _ => [mark.span]
  | .string mark _ => [mark.span]
  | .bool mark _ => [mark.span]
  | .ident mark name => [mark.span, name.span]
  | .call mark callee typeArgs args =>
    mark.span :: (callee.spans ++ (TypeExpr.spansAll typeArgs ++ spansAll args))
  | .get mark object member => mark.span :: (object.spans ++ [member.span])
  | .new mark type fields => mark.span :: (type.spans ++ spansFields fields)
  | .group mark inner => mark.span :: inner.spans
  | .null mark => [mark.span]
  | .zero mark => [mark.span]
  | .staticArray mark type elements => mark.span :: (type.spans ++ spansAll elements)
  | .subscript mark object index => mark.span :: (object.spans ++ index.spans)
  | .range mark first last => mark.span :: (first.spans ++ last.spans)

/-- The spans of expressions. -/
def Expr.spansAll : List Expr → List Span
  | [] => []
  | e :: es => e.spans ++ spansAll es

/-- The spans of fields. -/
def Expr.spansFields : List (Ident × Expr) → List Span
  | [] => []
  | (name, e) :: fields => name.span :: (e.spans ++ spansFields fields)
end

/-- The spans of an import. -/
def ImportDecl.spans (d : ImportDecl) : List Span := [d.pathSpan, d.localName.span]

/-- The spans of a typed name. -/
def TypedName.spans (n : TypedName) : List Span := n.name.span :: n.type.spans

/-- The spans of a struct declaration. -/
def StructDecl.spans (d : StructDecl) : List Span :=
  d.name.span :: (d.generics.map Ident.span ++ d.members.flatMap TypedName.spans)

/-- The spans of the head of a function. -/
def FnHead.spans (h : FnHead) : List Span :=
  h.name.span :: (h.generics.map Ident.span ++
    (h.params.flatMap TypedName.spans ++ h.returnType.toList.flatMap TypeExpr.spans))

mutual
/-- The spans of a statement. -/
def Stmt.spans : Stmt → List Span
  | .importDecl mark d => mark.span :: d.spans
  | .structDecl mark d => mark.span :: d.spans
  | .fnDecl mark head body => mark.span :: (head.spans ++ body.spans)
  | .letDecl mark name type init =>
    mark.span :: name.span :: (type.toList.flatMap TypeExpr.spans ++ init.spans)
  | .scope mark body => mark.span :: body.spans
  | .assign mark target value => mark.span :: (target.spans ++ value.spans)
  | .returnStmt mark value => mark.span :: value.toList.flatMap Expr.spans
  | .breakStmt mark => [mark.span]
  | .continueStmt mark => [mark.span]
  | .forEach mark name iterable body => mark.span :: name.span :: (iterable.spans ++ body.spans)
  | .forCounted mark init condition update body =>
    mark.span :: (init.spans ++ (condition.spans ++ (update.spans ++ body.spans)))
  | .ifElse mark condition thenBlock elseBranch =>
    mark.span :: (condition.spans ++ (thenBlock.spans ++ Stmt.spansElse elseBranch))
  | .expr mark value => mark.span :: value.spans

/-- The spans of an `else`, if there is one. -/
def Stmt.spansElse : Option Stmt → List Span
  | none => []
  | some s => s.spans

/-- The spans of a block. -/
def Block.spans : Block → List Span
  | .mk span stmts => span :: Stmt.spansAll stmts

/-- The spans of statements. -/
def Stmt.spansAll : List Stmt → List Span
  | [] => []
  | s :: ss => s.spans ++ Stmt.spansAll ss
end

/-- The spans of a file. -/
def SourceFile.spans (f : SourceFile) : List Span := f.span :: Stmt.spansAll f.items

end Custody
