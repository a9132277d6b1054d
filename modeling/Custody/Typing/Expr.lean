import Custody.Typing.Rule

/-!
# Types of expressions

`checkExpr` gives each node of an expression a type, parts before the whole, and records it under
the node's number. It never fails.
-/

set_option autoImplicit false

namespace Custody.Typing

open Checking

variable {σ : Type}

/-- Records the type of a node and gives it back. -/
def settle (mark : Mark) (type : Ty) : Checking σ Ty := do
  record mark.id type
  return type

mutual
/-- Types an expression and all its parts. -/
def checkExpr (place : Place) (builder : InstanceBuilder σ) (locals : ScopeStack) :
    Expr → Checking σ Ty
  | .binary mark op left right => do
    let l ← checkExpr place builder locals left
    let r ← checkExpr place builder locals right
    settle mark (← binaryType op ⟨left.span, l⟩ ⟨right.span, r⟩)
  | .unary mark op operand => do
    let t ← checkExpr place builder locals operand
    settle mark (← unaryType op ⟨operand.span, t⟩)
  | .number mark literal => settle mark (numberType literal)
  | .string mark _ => settle mark .string
  | .bool mark _ => settle mark .bool
  | .ident mark name => do settle mark (← identType place locals name)
  | .call mark callee typeArgs args => do
    let f ← checkExpr place builder locals callee
    let parts ← checkExprs place builder locals args
    settle mark (← callType place builder mark.span callee f typeArgs parts)
  | .get mark object member => do
    let t ← checkExpr place builder locals object
    settle mark (← getType place ⟨object.span, t⟩ member)
  | .new mark type fields => do
    let t ← place.resolve builder type
    let parts ← checkFields place builder locals fields
    settle mark (← newType place mark.span type.span t parts)
  | .group mark inner => do settle mark (← checkExpr place builder locals inner)
  | .null mark => settle mark .nullPointer
  | .zero mark => settle mark .any
  | .staticArray mark type elements => do
    let t ← place.resolve builder type
    let parts ← checkExprs place builder locals elements
    settle mark (← staticArrayType mark.span t parts)
  | .subscript mark object index => do
    let o ← checkExpr place builder locals object
    let i ← checkExpr place builder locals index
    settle mark (← subscriptType ⟨object.span, o⟩ ⟨index.span, i⟩)
  | .range mark first last => do
    let f ← checkExpr place builder locals first
    let l ← checkExpr place builder locals last
    settle mark (← rangeType ⟨first.span, f⟩ ⟨last.span, l⟩)

/-- Types expressions, in order. -/
def checkExprs (place : Place) (builder : InstanceBuilder σ) (locals : ScopeStack) :
    List Expr → Checking σ (List Typed)
  | [] => return []
  | e :: es => do
    let t ← checkExpr place builder locals e
    let ts ← checkExprs place builder locals es
    return ⟨e.span, t⟩ :: ts

/-- Types the values of fields, in order. -/
def checkFields (place : Place) (builder : InstanceBuilder σ) (locals : ScopeStack) :
    List (Ident × Expr) → Checking σ (List (Ident × Typed))
  | [] => return []
  | (name, e) :: fields => do
    let t ← checkExpr place builder locals e
    let ts ← checkFields place builder locals fields
    return (name, ⟨e.span, t⟩) :: ts
end

end Custody.Typing
