import Custody.Tree
import Mathlib.Data.List.Nodup

/-!
# The numbers of nodes

`TypeExpr.ids`, `Expr.ids` and `Stmt.ids` list the numbers of all nodes in a tree in the order in
which a reader finishes them: the parts of a node as they are written, and then the node itself.
`Expr.nodes` and `Stmt.nodes` list the numbers of expressions and statements alone, in the order in
which a check comes by; the update of a loop is then behind its body. `Expr.typeNodes` and
`Stmt.typeNodes` list the numbers of the type expressions.

`Expr.every` and `Stmt.every` lift a property of expressions to all expressions in a tree. In a
source text every array literal is sized: the type in front of its braces is the type of an array
with its length (`Expr.isSized`).
-/

set_option autoImplicit false

namespace Custody

/-! ## Numbers -/

namespace TypeExpr

mutual
/-- The numbers in a type expression. -/
def ids : TypeExpr → List Nat
  | named mark _ _ args => idsAll args ++ [mark.id]
  | pointer mark _ pointee => ids pointee ++ [mark.id]
  | array mark _ element => ids element ++ [mark.id]
  | slice mark element => ids element ++ [mark.id]

/-- The numbers in type expressions. -/
def idsAll : List TypeExpr → List Nat
  | [] => []
  | t :: ts => ids t ++ idsAll ts
end

end TypeExpr

namespace Expr

mutual
/-- The numbers in an expression. -/
def ids : Expr → List Nat
  | binary mark _ left right => ids left ++ ids right ++ [mark.id]
  | unary mark _ operand => ids operand ++ [mark.id]
  | number mark _ => [mark.id]
  | string mark _ => [mark.id]
  | bool mark _ => [mark.id]
  | ident mark _ => [mark.id]
  | call mark callee typeArgs args =>
    ids callee ++ TypeExpr.idsAll typeArgs ++ idsAll args ++ [mark.id]
  | get mark object _ => ids object ++ [mark.id]
  | new mark type fields => type.ids ++ idsFields fields ++ [mark.id]
  | group mark inner => ids inner ++ [mark.id]
  | null mark => [mark.id]
  | zero mark => [mark.id]
  | staticArray mark type elements => type.ids ++ idsAll elements ++ [mark.id]
  | subscript mark object index => ids object ++ ids index ++ [mark.id]
  | range mark first last => ids first ++ ids last ++ [mark.id]

/-- The numbers in expressions. -/
def idsAll : List Expr → List Nat
  | [] => []
  | e :: es => ids e ++ idsAll es

/-- The numbers in the values of fields. -/
def idsFields : List (Ident × Expr) → List Nat
  | [] => []
  | (_, e) :: fields => ids e ++ idsFields fields
end

end Expr

/-- The numbers in the type of each name. -/
def TypedName.idsAll (names : List TypedName) : List Nat := names.flatMap fun n => n.type.ids

/-- The numbers in a type that may be left out. -/
def typeIds (type : Option TypeExpr) : List Nat := type.elim [] TypeExpr.ids

mutual
/-- The numbers in a statement. -/
def Stmt.ids : Stmt → List Nat
  | .importDecl mark _ => [mark.id]
  | .structDecl mark decl => TypedName.idsAll decl.members ++ [mark.id]
  | .fnDecl mark head body =>
    TypedName.idsAll head.params ++ typeIds head.returnType ++ body.ids ++ [mark.id]
  | .letDecl mark _ type init => typeIds type ++ init.ids ++ [mark.id]
  | .scope mark body => body.ids ++ [mark.id]
  | .assign mark target value => target.ids ++ value.ids ++ [mark.id]
  | .returnStmt mark none => [mark.id]
  | .returnStmt mark (some value) => value.ids ++ [mark.id]
  | .breakStmt mark => [mark.id]
  | .continueStmt mark => [mark.id]
  | .forEach mark _ iterable body => iterable.ids ++ body.ids ++ [mark.id]
  | .forCounted mark init condition update body =>
    init.ids ++ condition.ids ++ update.ids ++ body.ids ++ [mark.id]
  | .ifElse mark condition thenBlock elseBranch =>
    condition.ids ++ thenBlock.ids ++ elseIds elseBranch ++ [mark.id]
  | .expr mark value => value.ids ++ [mark.id]

/-- The numbers behind an `else`, if there is one. -/
def elseIds : Option Stmt → List Nat
  | none => []
  | some s => s.ids

/-- The numbers in a block. -/
def Block.ids : Block → List Nat
  | .mk _ stmts => stmtsIds stmts

/-- The numbers in statements. -/
def stmtsIds : List Stmt → List Nat
  | [] => []
  | s :: ss => s.ids ++ stmtsIds ss
end

theorem stmtsIds_eq_flatMap (ss : List Stmt) : stmtsIds ss = ss.flatMap Stmt.ids := by
  induction ss with
  | nil => rfl
  | cons s ss ih => rw [stmtsIds, ih, List.flatMap_cons]

/-! ## Numbers of expressions and statements -/

mutual
/-- The numbers of an expression and its parts, without the types in it. -/
def Expr.nodes : Expr → List Nat
  | .binary mark _ left right => left.nodes ++ right.nodes ++ [mark.id]
  | .unary mark _ operand => operand.nodes ++ [mark.id]
  | .number mark _ => [mark.id]
  | .string mark _ => [mark.id]
  | .bool mark _ => [mark.id]
  | .ident mark _ => [mark.id]
  | .call mark callee _ args => callee.nodes ++ nodesAll args ++ [mark.id]
  | .get mark object _ => object.nodes ++ [mark.id]
  | .new mark _ fields => nodesFields fields ++ [mark.id]
  | .group mark inner => inner.nodes ++ [mark.id]
  | .null mark => [mark.id]
  | .zero mark => [mark.id]
  | .staticArray mark _ elements => nodesAll elements ++ [mark.id]
  | .subscript mark object index => object.nodes ++ index.nodes ++ [mark.id]
  | .range mark first last => first.nodes ++ last.nodes ++ [mark.id]

/-- The numbers of expressions and their parts. -/
def nodesAll : List Expr → List Nat
  | [] => []
  | e :: es => e.nodes ++ nodesAll es

/-- The numbers of the values of fields and their parts. -/
def nodesFields : List (Ident × Expr) → List Nat
  | [] => []
  | (_, e) :: fields => e.nodes ++ nodesFields fields
end

mutual
/-- The numbers of a statement and its parts, without the types in it. -/
def Stmt.nodes : Stmt → List Nat
  | .importDecl mark _ => [mark.id]
  | .structDecl mark _ => [mark.id]
  | .fnDecl mark _ body => body.nodes ++ [mark.id]
  | .letDecl mark _ _ init => init.nodes ++ [mark.id]
  | .scope mark body => body.nodes ++ [mark.id]
  | .assign mark target value => target.nodes ++ value.nodes ++ [mark.id]
  | .returnStmt mark none => [mark.id]
  | .returnStmt mark (some value) => value.nodes ++ [mark.id]
  | .breakStmt mark => [mark.id]
  | .continueStmt mark => [mark.id]
  | .forEach mark _ iterable body => iterable.nodes ++ body.nodes ++ [mark.id]
  | .forCounted mark init condition update body =>
    init.nodes ++ condition.nodes ++ body.nodes ++ update.nodes ++ [mark.id]
  | .ifElse mark condition thenBlock elseBranch =>
    condition.nodes ++ thenBlock.nodes ++ elseNodes elseBranch ++ [mark.id]
  | .expr mark value => value.nodes ++ [mark.id]

/-- The numbers behind an `else`, if there is one, without types. -/
def elseNodes : Option Stmt → List Nat
  | none => []
  | some s => s.nodes

/-- The numbers in a block, without types. -/
def Block.nodes : Block → List Nat
  | .mk _ stmts => stmtsNodes stmts

/-- The numbers in statements, without types. -/
def stmtsNodes : List Stmt → List Nat
  | [] => []
  | s :: ss => s.nodes ++ stmtsNodes ss
end

/-! ## Numbers of type expressions -/

mutual
/-- The numbers of the type expressions in an expression. -/
def Expr.typeNodes : Expr → List Nat
  | .binary _ _ left right => left.typeNodes ++ right.typeNodes
  | .unary _ _ operand => operand.typeNodes
  | .number _ _ => []
  | .string _ _ => []
  | .bool _ _ => []
  | .ident _ _ => []
  | .call _ callee typeArgs args =>
    callee.typeNodes ++ TypeExpr.idsAll typeArgs ++ typeNodesAll args
  | .get _ object _ => object.typeNodes
  | .new _ type fields => type.ids ++ typeNodesFields fields
  | .group _ inner => inner.typeNodes
  | .null _ => []
  | .zero _ => []
  | .staticArray _ type elements => type.ids ++ typeNodesAll elements
  | .subscript _ object index => object.typeNodes ++ index.typeNodes
  | .range _ first last => first.typeNodes ++ last.typeNodes

/-- The numbers of the type expressions in expressions. -/
def typeNodesAll : List Expr → List Nat
  | [] => []
  | e :: es => e.typeNodes ++ typeNodesAll es

/-- The numbers of the type expressions in the values of fields. -/
def typeNodesFields : List (Ident × Expr) → List Nat
  | [] => []
  | (_, e) :: fields => e.typeNodes ++ typeNodesFields fields
end

mutual
/-- The numbers of the type expressions in a statement. -/
def Stmt.typeNodes : Stmt → List Nat
  | .importDecl _ _ => []
  | .structDecl _ decl => TypedName.idsAll decl.members
  | .fnDecl _ head body =>
    TypedName.idsAll head.params ++ typeIds head.returnType ++ body.typeNodes
  | .letDecl _ _ type init => typeIds type ++ init.typeNodes
  | .scope _ body => body.typeNodes
  | .assign _ target value => target.typeNodes ++ value.typeNodes
  | .returnStmt _ none => []
  | .returnStmt _ (some value) => value.typeNodes
  | .breakStmt _ => []
  | .continueStmt _ => []
  | .forEach _ _ iterable body => iterable.typeNodes ++ body.typeNodes
  | .forCounted _ init condition update body =>
    init.typeNodes ++ condition.typeNodes ++ update.typeNodes ++ body.typeNodes
  | .ifElse _ condition thenBlock elseBranch =>
    condition.typeNodes ++ thenBlock.typeNodes ++ elseTypeNodes elseBranch
  | .expr _ value => value.typeNodes

/-- The numbers of the type expressions behind an `else`, if there is one. -/
def elseTypeNodes : Option Stmt → List Nat
  | none => []
  | some s => s.typeNodes

/-- The numbers of the type expressions in a block. -/
def Block.typeNodes : Block → List Nat
  | .mk _ stmts => stmtsTypeNodes stmts

/-- The numbers of the type expressions in statements. -/
def stmtsTypeNodes : List Stmt → List Nat
  | [] => []
  | s :: ss => s.typeNodes ++ stmtsTypeNodes ss
end

mutual
/-- Every number in an expression is that of an expression or of a type expression. -/
theorem Expr.count_ids (id : Nat) (e : Expr) :
    e.ids.count id = e.nodes.count id + e.typeNodes.count id := by
  cases e with
  | number | string | bool | ident | null | zero => rfl
  | _ =>
    simp only [Expr.ids, Expr.nodes, Expr.typeNodes, List.count_append, Expr.count_ids id,
      count_idsAll id, count_idsFields id]
    omega

theorem count_idsAll (id : Nat) : ∀ es : List Expr,
    (Expr.idsAll es).count id = (nodesAll es).count id + (typeNodesAll es).count id
  | [] => rfl
  | e :: es => by
    simp only [Expr.idsAll, nodesAll, typeNodesAll, List.count_append, e.count_ids id,
      count_idsAll id es]
    omega

theorem count_idsFields (id : Nat) : ∀ fields : List (Ident × Expr),
    (Expr.idsFields fields).count id =
      (nodesFields fields).count id + (typeNodesFields fields).count id
  | [] => rfl
  | (_, e) :: fields => by
    simp only [Expr.idsFields, nodesFields, typeNodesFields, List.count_append, e.count_ids id,
      count_idsFields id fields]
    omega
end

mutual
/-- Every number in a statement is that of a statement, an expression or a type expression. -/
theorem Stmt.count_ids (id : Nat) (s : Stmt) :
    s.ids.count id = s.nodes.count id + s.typeNodes.count id := by
  cases s with
  | importDecl | breakStmt | continueStmt => rfl
  | returnStmt mark value =>
    cases value with
    | none => rfl
    | some value =>
      simp only [Stmt.ids, Stmt.nodes, Stmt.typeNodes, List.count_append, value.count_ids id]
      omega
  | _ =>
    simp only [Stmt.ids, Stmt.nodes, Stmt.typeNodes, List.count_append, Expr.count_ids id,
      Stmt.count_ids id, Block.count_ids id, count_elseIds id]
    omega

theorem count_elseIds (id : Nat) : ∀ s : Option Stmt,
    (elseIds s).count id = (elseNodes s).count id + (elseTypeNodes s).count id
  | none => rfl
  | some s => Stmt.count_ids id s

theorem Block.count_ids (id : Nat) :
    ∀ b : Block, b.ids.count id = b.nodes.count id + b.typeNodes.count id
  | .mk _ stmts => count_stmtsIds id stmts

theorem count_stmtsIds (id : Nat) : ∀ ss : List Stmt,
    (stmtsIds ss).count id = (stmtsNodes ss).count id + (stmtsTypeNodes ss).count id
  | [] => rfl
  | s :: ss => by
    simp only [stmtsIds, stmtsNodes, stmtsTypeNodes, List.count_append, s.count_ids id,
      count_stmtsIds id ss]
    omega
end

theorem Stmt.nodes_subset_ids (s : Stmt) : s.nodes ⊆ s.ids := by
  intro id hid
  have hcount := s.count_ids id
  have hpos := List.count_pos_iff.2 hid
  exact List.count_pos_iff.1 (by omega)

theorem stmtsNodes_subset_stmtsIds (ss : List Stmt) : stmtsNodes ss ⊆ stmtsIds ss := by
  intro id hid
  have hcount := count_stmtsIds id ss
  have hpos := List.count_pos_iff.2 hid
  exact List.count_pos_iff.1 (by omega)

theorem Stmt.nodes_nodup {s : Stmt} (h : s.ids.Nodup) : s.nodes.Nodup := by
  refine List.nodup_iff_count_le_one.2 fun id => ?_
  have hcount := s.count_ids id
  have hone := List.nodup_iff_count_le_one.1 h id
  omega

theorem stmtsNodes_eq_flatMap (ss : List Stmt) : stmtsNodes ss = ss.flatMap Stmt.nodes := by
  induction ss with
  | nil => rfl
  | cons s ss ih => rw [stmtsNodes, ih, List.flatMap_cons]

theorem stmtsNodes_nodup {ss : List Stmt} (h : (stmtsIds ss).Nodup) : (stmtsNodes ss).Nodup := by
  refine List.nodup_iff_count_le_one.2 fun id => ?_
  have hcount := count_stmtsIds id ss
  have hone := List.nodup_iff_count_le_one.1 h id
  omega

/-- Where no two nodes have the same number, no type expression has the number of an expression or a
statement. -/
theorem not_mem_stmtsNodes_of_typeNode {ss : List Stmt} (h : (stmtsIds ss).Nodup) {id : Nat}
    (hid : id ∈ stmtsTypeNodes ss) : id ∉ stmtsNodes ss := by
  intro hnode
  have hcount := count_stmtsIds id ss
  have hone := List.nodup_iff_count_le_one.1 h id
  have htype := List.count_pos_iff.2 hid
  have hnode := List.count_pos_iff.2 hnode
  omega

/-! ## Properties of all expressions -/

mutual
/-- Whether an expression and all its parts have a property. -/
def Expr.every (p : Expr → Bool) : Expr → Bool
  | .binary mark op left right =>
    p (.binary mark op left right) && left.every p && right.every p
  | .unary mark op operand => p (.unary mark op operand) && operand.every p
  | .number mark literal => p (.number mark literal)
  | .string mark text => p (.string mark text)
  | .bool mark value => p (.bool mark value)
  | .ident mark name => p (.ident mark name)
  | .call mark callee typeArgs args =>
    p (.call mark callee typeArgs args) && callee.every p && everyOf p args
  | .get mark object member => p (.get mark object member) && object.every p
  | .new mark type fields => p (.new mark type fields) && everyField p fields
  | .group mark inner => p (.group mark inner) && inner.every p
  | .null mark => p (.null mark)
  | .zero mark => p (.zero mark)
  | .staticArray mark type elements => p (.staticArray mark type elements) && everyOf p elements
  | .subscript mark object index =>
    p (.subscript mark object index) && object.every p && index.every p
  | .range mark first last => p (.range mark first last) && first.every p && last.every p

/-- Whether expressions and all their parts have a property. -/
def everyOf (p : Expr → Bool) : List Expr → Bool
  | [] => true
  | e :: es => e.every p && everyOf p es

/-- Whether the values of fields and all their parts have a property. -/
def everyField (p : Expr → Bool) : List (Ident × Expr) → Bool
  | [] => true
  | (_, e) :: fields => e.every p && everyField p fields
end

theorem everyOf_eq_all (p : Expr → Bool) (es : List Expr) :
    everyOf p es = es.all (Expr.every p) := by
  induction es with
  | nil => rfl
  | cons e es ih => rw [everyOf, ih, List.all_cons]

theorem everyField_eq_all (p : Expr → Bool) (fields : List (Ident × Expr)) :
    everyField p fields = fields.all fun f => f.2.every p := by
  induction fields with
  | nil => rfl
  | cons f fields ih => rw [everyField, ih, List.all_cons]

mutual
/-- Whether all expressions in a statement have a property. -/
def Stmt.every (p : Expr → Bool) : Stmt → Bool
  | .importDecl _ _ => true
  | .structDecl _ _ => true
  | .fnDecl _ _ body => body.every p
  | .letDecl _ _ _ init => init.every p
  | .scope _ body => body.every p
  | .assign _ target value => target.every p && value.every p
  | .returnStmt _ none => true
  | .returnStmt _ (some value) => value.every p
  | .breakStmt _ => true
  | .continueStmt _ => true
  | .forEach _ _ iterable body => iterable.every p && body.every p
  | .forCounted _ init condition update body =>
    init.every p && condition.every p && update.every p && body.every p
  | .ifElse _ condition thenBlock elseBranch =>
    condition.every p && thenBlock.every p && elseEvery p elseBranch
  | .expr _ value => value.every p

/-- Whether all expressions behind an `else` have a property. -/
def elseEvery (p : Expr → Bool) : Option Stmt → Bool
  | none => true
  | some s => s.every p

/-- Whether all expressions in a block have a property. -/
def Block.every (p : Expr → Bool) : Block → Bool
  | .mk _ stmts => stmtsEvery p stmts

/-- Whether all expressions in statements have a property. -/
def stmtsEvery (p : Expr → Bool) : List Stmt → Bool
  | [] => true
  | s :: ss => s.every p && stmtsEvery p ss
end

mutual
theorem Expr.every_and (p q : Expr → Bool) (e : Expr) :
    e.every (fun x => p x && q x) = (e.every p && e.every q) := by
  cases e with
  | number | string | bool | ident | null | zero => rfl
  | _ =>
    simp only [Expr.every, Expr.every_and p q, everyOf_and p q, everyField_and p q]
    ac_rfl

theorem everyOf_and (p q : Expr → Bool) :
    ∀ es : List Expr, everyOf (fun x => p x && q x) es = (everyOf p es && everyOf q es)
  | [] => rfl
  | e :: es => by
    simp only [everyOf, e.every_and p q, everyOf_and p q es]
    ac_rfl

theorem everyField_and (p q : Expr → Bool) : ∀ fields : List (Ident × Expr),
    everyField (fun x => p x && q x) fields = (everyField p fields && everyField q fields)
  | [] => rfl
  | (_, e) :: fields => by
    simp only [everyField, e.every_and p q, everyField_and p q fields]
    ac_rfl
end

mutual
theorem Stmt.every_and (p q : Expr → Bool) (s : Stmt) :
    s.every (fun x => p x && q x) = (s.every p && s.every q) := by
  cases s with
  | importDecl | structDecl | breakStmt | continueStmt => rfl
  | returnStmt mark value =>
    cases value with
    | none => rfl
    | some value => exact value.every_and p q
  | fnDecl | letDecl | scope | expr => simp only [Stmt.every, Expr.every_and, Block.every_and p q]
  | _ =>
    simp only [Stmt.every, Expr.every_and, Stmt.every_and p q, Block.every_and p q,
      elseEvery_and p q]
    ac_rfl

theorem elseEvery_and (p q : Expr → Bool) : ∀ s : Option Stmt,
    elseEvery (fun x => p x && q x) s = (elseEvery p s && elseEvery q s)
  | none => rfl
  | some s => s.every_and p q

theorem Block.every_and (p q : Expr → Bool) :
    ∀ b : Block, b.every (fun x => p x && q x) = (b.every p && b.every q)
  | .mk _ stmts => stmtsEvery_and p q stmts

theorem stmtsEvery_and (p q : Expr → Bool) : ∀ ss : List Stmt,
    stmtsEvery (fun x => p x && q x) ss = (stmtsEvery p ss && stmtsEvery q ss)
  | [] => rfl
  | s :: ss => by
    simp only [stmtsEvery, s.every_and p q, stmtsEvery_and p q ss]
    ac_rfl
end

/-- The type of an array with its length. -/
def TypeExpr.isArray : TypeExpr → Bool
  | .array .. => true
  | _ => false

/-- Whether an expression, if it is an array literal, has the type of an array with its length. -/
def Expr.isSized : Expr → Bool
  | .staticArray _ type _ => type.isArray
  | _ => true

/-- Whether an expression is neither `zero` nor `null`. -/
def Expr.isDefinite : Expr → Bool
  | .zero _ | .null _ => false
  | _ => true

/-- Whether an expression has the type of its parts and of its names, and not `any` from the
start. -/
def Expr.isFirm (e : Expr) : Bool := e.isSized && e.isDefinite

end Custody
