import Custody.Ownership.Table
import Custody.Report
import Custody.Tree

/-!
# Moves of owned pointers

A walk goes through a body in the order in which it is written, and keeps an ownership table. A use
of a name in a consuming place moves its value; any use of a value that was moved is a misuse.

What a nested block does to the bindings around it stays done. Of two branches one is run, so a
value is gone behind them only if both moved it. A loop may be run never, so what it does is
forgotten behind it.
-/

set_option autoImplicit false

namespace Custody.Ownership

/-- A use of a value that is gone, and the last state of the value. -/
structure Misuse where
  span : Span
  fault : Fault
  previous : Status
  deriving DecidableEq, Repr

namespace Misuse

/-- Where the value was owned, and where it went. -/
def notes (m : Misuse) : List Note :=
  ⟨m.previous.declaredAt, "value owned here"⟩ ::
    match m.previous.movedAt with
    | some span => [⟨span, "value moved here"⟩]
    | none => []

/-- The report of a misuse in a file. -/
def report (file : Path) (m : Misuse) : Report :=
  { stage := .borrowCheck, file, span := m.span, fault := m.fault, notes := m.notes }

end Misuse

/-- A walk through a part of a body: the table behind it, and the misuses on the way. -/
def Walk : Type := Table → Table × List Misuse

namespace Walk

/-- Goes nowhere. -/
def skip : Walk := fun t => (t, [])

/-- Changes the table. -/
def change (f : Table → Table) : Walk := fun t => (f t, [])

/-- One walk and then another. -/
def andThen (w w' : Walk) : Walk := fun t =>
  let (t, first) := w t
  let (t, second) := w' t
  (t, first ++ second)

/-- Walks on a copy of the table and takes over what is done to the bindings around. -/
def nested (w : Walk) : Walk := fun t =>
  let (inner, found) := w t
  (t.mergeBlock inner, found)

/-- Walks on a copy of the table that is forgotten. -/
def aside (w : Walk) : Walk := fun t => (t, (w t).2)

/-- Walks two branches from the same table, of which one is run. -/
def either (w w' : Walk) : Walk := fun t =>
  let (thenTable, first) := w t
  let (elseTable, second) := w' t
  (t.mergeBranches thenTable elseTable, first ++ second)

/-! ## Names -/

/-- Uses a name; in a consuming place the value moves. -/
def use (name : Ident) (consuming : Bool) : Walk := fun t =>
  let misuse (previous : Status) : Misuse := ⟨name.span, .useAfterMove name.name, previous⟩
  if consuming then
    match t.consume name.name name.span with
    | .ok after => (after, [])
    | .error previous => (t, [misuse previous])
  else (t, (t.moved? name.name).toList.map misuse)

/-- Reaches through a name for a member. -/
def reach (name member : Ident) : Walk := fun t =>
  (t, (t.moved? name.name).toList.map fun previous =>
    ⟨name.span, .movedMemberAccess name.name member.name, previous⟩)

/-- Binds a name to a value of a type, if the type is known. -/
def bind (name : Ident) (type : Option Ty) : Walk :=
  change fun t =>
    match type.filter Ty.isOwnedPointer with
    | some type => t.own name.name type name.span
    | none => t.release name.name name.span

/-- Binds a parameter; one that is no owned pointer leaves no trace. -/
def bindParam (name : Ident) (type : Ty) : Walk :=
  change fun t => if type.isOwnedPointer then t.own name.name type name.span else t

end Walk

/-! ## Expressions -/

/-- Whether an operator moves its operands: a comparison only looks at them. -/
def binaryConsumes : BinaryOp → Bool
  | .eq | .ne => false
  | _ => true

/-- Whether an operator moves its operand: the address and the pointee leave it where it is. -/
def unaryConsumes : UnaryOp → Bool
  | .addressOf | .deref => false
  | _ => true

mutual
/-- Walks through an expression in a consuming place or another. -/
def walkExpr (consuming : Bool) : Expr → Walk
  | .ident _ name => .use name consuming
  | .binary _ op left right =>
    (walkExpr (binaryConsumes op) left).andThen (walkExpr (binaryConsumes op) right)
  | .unary _ op operand => walkExpr (unaryConsumes op) operand
  | .call _ callee _ args => (walkExpr false callee).andThen (walkExprs args)
  | .get _ object member =>
    match object.ident? with
    | some name => .reach name member
    | none => walkExpr false object
  | .new _ _ fields => walkFields fields
  | .group _ inner => walkExpr consuming inner
  | .staticArray _ _ elements => walkExprs elements
  | .subscript _ object index => (walkExpr false object).andThen (walkExpr true index)
  | .range _ first last => (walkExpr true first).andThen (walkExpr true last)
  | .number _ _ => .skip
  | .string _ _ => .skip
  | .bool _ _ => .skip
  | .null _ => .skip
  | .zero _ => .skip

/-- Walks through expressions in consuming places. -/
def walkExprs : List Expr → Walk
  | [] => .skip
  | e :: es => (walkExpr true e).andThen (walkExprs es)

/-- Walks through the values of fields, which are moved in. -/
def walkFields : List (Ident × Expr) → Walk
  | [] => .skip
  | (_, e) :: fields => (walkExpr true e).andThen (walkFields fields)
end

/-! ## Statements -/

/-- The type of the elements of a list with the given type. -/
def listElement? : Ty → Option Ty
  | .array _ element => some element
  | .slice element => some element
  | _ => none

/-- Walks through an assignment: the value first, and then a name has a value again. -/
def walkAssign (target value : Expr) : Walk :=
  (walkExpr true value).andThen
    (match target.ident? with
    | some name => .change (·.reown name.name)
    | none => walkExpr false target)

mutual
/-- Walks through a statement; `typeOf` gives the types of nodes. -/
def walkStmt (typeOf : Nat → Option Ty) : Stmt → Walk
  | .importDecl _ _ => .skip
  | .structDecl _ _ => .skip
  | .fnDecl _ _ _ => .skip
  | .breakStmt _ => .skip
  | .continueStmt _ => .skip
  | .letDecl mark name _ init => (walkExpr true init).andThen (.bind name (typeOf mark.id))
  | .scope _ block => .nested (walkBlock typeOf block)
  | .assign _ target value => walkAssign target value
  | .returnStmt _ none => .skip
  | .returnStmt _ (some value) => walkExpr true value
  | .forEach _ name iterable block =>
    .aside ((walkExpr true iterable).andThen
      ((Walk.bind name ((typeOf iterable.id).bind listElement?)).andThen
        (walkBlock typeOf block)))
  | .forCounted _ init condition update block =>
    .aside ((walkStmt typeOf init).andThen ((walkExpr true condition).andThen
      ((walkBlock typeOf block).andThen (walkStmt typeOf update))))
  | .ifElse _ condition thenBlock elseBranch =>
    (walkExpr true condition).andThen
      (.either (walkBlock typeOf thenBlock) (walkElse typeOf elseBranch))
  | .expr _ value => walkExpr true value

/-- Walks through an `else`, if there is one. -/
def walkElse (typeOf : Nat → Option Ty) : Option Stmt → Walk
  | none => .skip
  | some s => walkStmt typeOf s

/-- Walks through the statements of a block. -/
def walkBlock (typeOf : Nat → Option Ty) : Block → Walk
  | .mk _ stmts => walkStmts typeOf stmts

/-- Walks through statements, in order. -/
def walkStmts (typeOf : Nat → Option Ty) : List Stmt → Walk
  | [] => .skip
  | s :: ss => (walkStmt typeOf s).andThen (walkStmts typeOf ss)
end

/-! ## Functions -/

/-- Binds parameters to values of the types of a signature. -/
def bindParams : List TypedName → List Ty → Walk
  | p :: ps, t :: ts => (Walk.bindParam p.name t).andThen (bindParams ps ts)
  | _, _ => .skip

/-- Walks through a function. Parameters are known once the function has a type. -/
def walkFn (typeOf : Nat → Option Ty) (mark : Mark) (head : FnHead) (body : Block) : Walk :=
  let params : Walk :=
    match typeOf mark.id with
    | some (.fn _ types _) => bindParams head.params types
    | _ => .skip
  params.andThen (walkBlock typeOf body)

/-- The misuses in an item of a file. -/
def checkItem (typeOf : Nat → Option Ty) : Stmt → List Misuse
  | .fnDecl mark head body => (walkFn typeOf mark head body .empty).2
  | _ => []

end Custody.Ownership
