import Custody.Outline
import Custody.Text.Quoted
import Custody.Tree

/-!
# Outlines of parsed files

The outline of a file names every node with its number and the text that it covers.
-/

set_option autoImplicit false

namespace Custody

open Outline

/-- A number as a leaf. -/
def Outline.nat (n : Nat) : Outline := leaf (toString n)

/-- A text as a leaf, in quotes. -/
def Outline.quoted (s : String) : Outline := leaf (Text.quoted s)

/-- A truth value as a leaf. -/
def Outline.bool (b : Bool) : Outline := leaf (if b then "true" else "false")

/-- The outline of a span. -/
def Span.outline (s : Span) : Outline :=
  record "Span"
    [("start", nat s.start), ("end", nat s.stop), ("line", nat s.line), ("column", nat s.column),
      ("file_id", nat s.file)]

/-- The outline of a name. -/
def Ident.outline (i : Ident) : Outline :=
  record "Ident" [("name", quoted i.name), ("span", i.span.outline)]

/-- The outline of a node. -/
def Mark.outline (m : Mark) (value : Outline) : Outline :=
  record "Node" [("id", tuple "NodeId" [nat m.id]), ("span", m.span.outline), ("value", value)]

/-! ## Types -/

mutual
/-- The outline of a type. -/
def TypeExpr.outline : TypeExpr → Outline
  | .named mark space name args =>
    mark.outline (record "Named"
      [("namespace", optional (space.map Ident.outline)), ("name", name.outline),
        ("args", list (TypeExpr.outlines args))])
  | .pointer mark kind pointee =>
    mark.outline (record "Pointer"
      [("pointee", pointee.outline), ("owned", bool (kind == .owned))])
  | .array mark length element =>
    mark.outline (record "Array" [("length", nat length), ("element", element.outline)])
  | .slice mark element => mark.outline (tuple "Slice" [element.outline])

/-- The outlines of types. -/
def TypeExpr.outlines : List TypeExpr → List Outline
  | [] => []
  | t :: ts => t.outline :: TypeExpr.outlines ts
end

/-! ## Expressions -/

/-- The name of an operator. -/
def BinaryOp.outline : BinaryOp → Outline
  | .add => leaf "Add"
  | .sub => leaf "Sub"
  | .mul => leaf "Mul"
  | .div => leaf "Div"
  | .mod => leaf "Mod"
  | .eq => leaf "Eq"
  | .ne => leaf "Ne"
  | .lt => leaf "Lt"
  | .gt => leaf "Gt"
  | .le => leaf "Le"
  | .ge => leaf "Ge"
  | .and => leaf "And"
  | .or => leaf "Or"

/-- The name of an operator. -/
def UnaryOp.outline : UnaryOp → Outline
  | .not => leaf "Not"
  | .negate => leaf "Negate"
  | .addressOf => leaf "AddressOf"
  | .deref => leaf "Deref"
  | .own => leaf "Own"

/-- The name of a kind of numbers. -/
def NumberKind.outline : NumberKind → Outline
  | .unsigned => leaf "Unsigned"
  | .signed => leaf "Signed"
  | .float => leaf "Float"

/-- The outline of a number format. -/
def NumberFormat.outline (f : NumberFormat) : Outline :=
  record "NumberSuffix" [("kind", f.kind.outline), ("width", nat f.width)]

/-- The outline of a number. -/
def NumberLiteral.outline (l : NumberLiteral) : Outline :=
  record "NumberLiteral"
    [("text", quoted l.text), ("suffix", optional (l.format.map NumberFormat.outline))]

mutual
/-- The outline of an expression. -/
def Expr.outline : Expr → Outline
  | .binary mark op left right =>
    mark.outline (record "Binary"
      [("left", left.outline), ("op", op.outline), ("right", right.outline)])
  | .unary mark op operand =>
    mark.outline (record "Unary" [("op", op.outline), ("operand", operand.outline)])
  | .number mark literal => mark.outline (tuple "Number" [literal.outline])
  | .string mark text => mark.outline (tuple "String" [quoted text])
  | .bool mark value => mark.outline (tuple "Bool" [Outline.bool value])
  | .ident mark name => mark.outline (tuple "Ident" [name.outline])
  | .call mark callee typeArgs args =>
    mark.outline (record "Call"
      [("callee", callee.outline), ("type_args", list (TypeExpr.outlines typeArgs)),
        ("args", list (Expr.outlines args))])
  | .get mark object member =>
    mark.outline (record "Get" [("object", object.outline), ("member", member.outline)])
  | .new mark type fields =>
    mark.outline (record "New"
      [("ty", type.outline), ("fields", list (Expr.fieldOutlines fields))])
  | .group mark inner => mark.outline (tuple "Group" [inner.outline])
  | .null mark => mark.outline (leaf "Null")
  | .zero mark => mark.outline (leaf "Zero")
  | .staticArray mark type elements =>
    mark.outline (record "StaticArray"
      [("ty", type.outline), ("elements", list (Expr.outlines elements))])
  | .subscript mark object index =>
    mark.outline (record "Subscript" [("object", object.outline), ("index", index.outline)])
  | .range mark first last =>
    mark.outline (record "Range" [("start", first.outline), ("end", last.outline)])

/-- The outlines of expressions. -/
def Expr.outlines : List Expr → List Outline
  | [] => []
  | e :: es => e.outline :: Expr.outlines es

/-- The outlines of fields with their values. -/
def Expr.fieldOutlines : List (Ident × Expr) → List Outline
  | [] => []
  | (name, e) :: fields =>
    record "FieldInit" [("name", name.outline), ("value", e.outline)] ::
      Expr.fieldOutlines fields
end

/-! ## Statements -/

/-- The outline of a name with its type. -/
def TypedName.outline (kind : String) (t : TypedName) : Outline :=
  record kind [("name", t.name.outline), ("ty", t.type.outline)]

/-- The outline of an import. -/
def ImportDecl.outline (d : ImportDecl) : Outline :=
  record "ImportDecl"
    [("path", quoted d.path), ("path_span", d.pathSpan.outline), ("alias", d.localName.outline)]

/-- The outline of a struct. -/
def StructDecl.outline (d : StructDecl) : Outline :=
  record "StructDecl"
    [("name", d.name.outline), ("generics", list (d.generics.map Ident.outline)),
      ("members", list (d.members.map (TypedName.outline "Member")))]

/-- The outline of a function. -/
def FnHead.outline (h : FnHead) (body : Outline) : Outline :=
  record "FnDecl"
    [("name", h.name.outline), ("generics", list (h.generics.map Ident.outline)),
      ("params", list (h.params.map (TypedName.outline "Param"))),
      ("return_type", optional (h.returnType.map TypeExpr.outline)), ("body", body)]

/-- The outline of a loop. -/
def loopOutline (head body : Outline) : Outline :=
  tuple "For" [record "ForStmt" [("head", head), ("body", body)]]

mutual
/-- The outline of a statement. -/
def Stmt.outline : Stmt → Outline
  | .importDecl mark decl => mark.outline (tuple "Import" [decl.outline])
  | .structDecl mark decl => mark.outline (tuple "Struct" [decl.outline])
  | .fnDecl mark head body => mark.outline (tuple "Fn" [head.outline body.outline])
  | .letDecl mark name type init =>
    mark.outline (record "Let"
      [("name", name.outline), ("ty", optional (type.map TypeExpr.outline)),
        ("init", init.outline)])
  | .scope mark block => mark.outline (tuple "Scope" [block.outline])
  | .assign mark target value =>
    mark.outline (record "Assign" [("target", target.outline), ("value", value.outline)])
  | .returnStmt mark value =>
    mark.outline (tuple "Return" [optional (value.map Expr.outline)])
  | .breakStmt mark => mark.outline (leaf "Break")
  | .continueStmt mark => mark.outline (leaf "Continue")
  | .forEach mark name iterable block =>
    mark.outline (loopOutline
      (record "Each" [("binding", name.outline), ("iterable", iterable.outline)])
      block.outline)
  | .forCounted mark init condition update block =>
    mark.outline (loopOutline
      (record "Counted"
        [("init", init.outline), ("condition", condition.outline), ("update", update.outline)])
      block.outline)
  | .ifElse mark condition thenBlock elseBranch =>
    mark.outline (tuple "If" [record "IfStmt"
      [("condition", condition.outline), ("then_block", thenBlock.outline),
        ("else_branch", optional (Stmt.elseOutline elseBranch))]])
  | .expr mark value => mark.outline (tuple "Expr" [value.outline])

/-- The outline of an `else`. -/
def Stmt.elseOutline : Option Stmt → Option Outline
  | none => none
  | some s => some s.outline

/-- The outline of a block. -/
def Block.outline : Block → Outline
  | .mk span stmts => record "Block" [("stmts", list (Stmt.outlines stmts)), ("span", span.outline)]

/-- The outlines of statements. -/
def Stmt.outlines : List Stmt → List Outline
  | [] => []
  | s :: ss => s.outline :: Stmt.outlines ss
end

/-- The outline of a file. -/
def SourceFile.outline (f : SourceFile) : Outline :=
  record "SourceFile" [("items", list (Stmt.outlines f.items)), ("span", f.span.outline)]

end Custody
