import Custody.Proofs.Visits

/-!
# Correct typings

When the types of a function's nodes are right, said without the check. `Place.Denotes` says what a
type expression stands for. `NodeRule` is the rule of one expression node: how its type and the
types of its parts belong together. `StmtTyped` is the rule of a statement, with the scopes in front
of it and behind it, and `FnTyped` that of a function.

The relations between types (`Ty.unify`, `Ty.coerces`, `Ty.substitute`) and the members of a struct
type are those of the library. `any` is taken everywhere.
-/

set_option autoImplicit false

namespace Custody

/-! ## Type expressions -/

namespace Place

/-- The type that a name stands for in the unit of a place, or in the unit behind an alias. The
names of generic parameters hide those of the unit. -/
inductive Names (place : Place) : Option Ident → Ident → Ty → Prop
  | own {name : Ident} {t : Ty} :
      place.generics.idxOf? name.name = none → place.unit.types.get? name.name = some t →
        Names place none name t
  | imported {space name : Ident} {target : Nat} {u : SourceUnit} {t : Ty} :
      place.unit.namespaces.get? space.name = some (.unit target) →
        place.bundle.get? target = some u → u.types.get? name.name = some t →
          Names place (some space) name t

/-- The type that a type expression stands for: a struct has as many arguments as parameters. -/
inductive Denotes (place : Place) : TypeExpr → Ty → Prop
  | pointer {mark : Mark} {kind : PointerKind} {pointee : TypeExpr} {t : Ty} :
      Denotes place pointee t → Denotes place (.pointer mark kind pointee) (.pointer kind t)
  | array {mark : Mark} {length : Nat} {element : TypeExpr} {t : Ty} :
      Denotes place element t → Denotes place (.array mark length element) (.array length t)
  | slice {mark : Mark} {element : TypeExpr} {t : Ty} :
      Denotes place element t → Denotes place (.slice mark element) (.slice t)
  | generic {mark : Mark} {name : Ident} {index : Nat} :
      place.generics.idxOf? name.name = some index →
        Denotes place (.named mark none name []) (.generic index name.name)
  | named {mark : Mark} {space : Option Ident} {name : Ident} {t : Ty} :
      place.Names space name t → arityOf t = 0 → Denotes place (.named mark space name []) t
  | inst {mark : Mark} {space : Option Ident} {name : Ident} {args : List TypeExpr} {id : StructId}
      {structName : String} {types : List Ty} :
      place.Names space name (.struct id structName args.length) → args ≠ [] →
        List.Forall₂ (Denotes place) args types →
          Denotes place (.named mark space name args) (.inst id structName types)

end Place

namespace Typing

/-! ## Expression nodes -/

/-- An operand of the class, or one of which nothing is known. -/
def Takes (accepts : Ty → Bool) (t : Ty) : Prop := t = .any ∨ accepts t = true

/-- Operator, operands and result. -/
inductive BinaryRule : BinaryOp → Ty → Ty → Ty → Prop
  | arithmetic {op : BinaryOp} {left right t : Ty} :
      op.isArithmetic = true → Takes isNumber left → Takes isNumber right →
        left.unify right = some t → BinaryRule op left right t
  | relational {op : BinaryOp} {left right t : Ty} :
      op.isRelational = true → Takes isNumber left → Takes isNumber right →
        left.unify right = some t → BinaryRule op left right .bool
  | equality {op : BinaryOp} {left right t : Ty} :
      op.isEquality = true → Takes isComparable left → Takes isComparable right →
        left.unify right = some t → BinaryRule op left right .bool
  | logical {op : BinaryOp} {left right : Ty} :
      op.isLogical = true → Takes isBool left → Takes isBool right → BinaryRule op left right .bool

/-- Operator, operand and result. -/
inductive UnaryRule : UnaryOp → Ty → Ty → Prop
  | not {t : Ty} : Takes isBool t → UnaryRule .not t .bool
  | negate {t : Ty} : Takes isSigned t → UnaryRule .negate t t
  | addressOf {t : Ty} : UnaryRule .addressOf t (.pointer .weak t)
  | own {t : Ty} : UnaryRule .own t (.pointer .owned t)
  | deref {kind : PointerKind} {t : Ty} : UnaryRule .deref (.pointer kind t) t
  | derefAny : UnaryRule .deref .any .any

/-- A number has the format that it names, or else the widest one of its family. -/
inductive NumberRule : NumberLiteral → Ty → Prop
  | named {text : String} {format : NumberFormat} : NumberRule ⟨text, some format⟩ (.number format)
  | decimal {text : String} : '.' ∈ text.toList → NumberRule ⟨text, none⟩ (.number ⟨.float, 64⟩)
  | whole {text : String} : '.' ∉ text.toList → NumberRule ⟨text, none⟩ (.number ⟨.signed, 64⟩)

/-- A name is a local; if not, a function of the unit; if not, an alias. -/
inductive IdentRule (place : Place) (locals : ScopeStack) : String → Ty → Prop
  | byScope {name : String} {t : Ty} : locals.lookup name = some t → IdentRule place locals name t
  | function {name : String} {t : Ty} :
      locals.lookup name = none → place.unit.functions.get? name = some t →
        IdentRule place locals name t
  | space {name : String} {t : Ty} :
      locals.lookup name = none → place.unit.functions.get? name = none →
        place.unit.namespaces.get? name = some t → IdentRule place locals name t

/-- A value of each type may be stored where the type beside it is wanted. -/
def AllCoerce (actual expected : List Ty) : Prop :=
  List.Forall₂ (fun a e => a.coerces e = true) actual expected

/-- Callee, type arguments, arguments and result. A signature is taken with the types that its type
arguments stand for put in. -/
inductive CallRule (place : Place) : Ty → List TypeExpr → List Ty → Ty → Prop
  | fn {arity : Nat} {params args types : List Ty} {result : Ty} {typeArgs : List TypeExpr} :
      typeArgs.length = arity → List.Forall₂ place.Denotes typeArgs types →
        AllCoerce args (params.map (Ty.substitute types)) →
          CallRule place (.fn arity params result) typeArgs args (result.substitute types)
  | any {typeArgs : List TypeExpr} {args : List Ty} : CallRule place .any typeArgs args .any

/-- Object, member and result. -/
inductive GetRule (place : Place) : Ty → String → Ty → Prop
  | function {target : Nat} {u : SourceUnit} {member : String} {t : Ty} :
      place.bundle.get? target = some u → u.functions.get? member = some t →
        GetRule place (.unit target) member t
  | member {object t : Ty} {member : String} :
      place.bundle.member? object member = some t → GetRule place object member t
  | through {kind : PointerKind} {object t : Ty} {member : String} :
      place.bundle.member? object member = some t → GetRule place (.pointer kind object) member t
  | any {member : String} : GetRule place .any member .any
  | throughAny {kind : PointerKind} {member : String} :
      GetRule place (.pointer kind .any) member .any

/-- A new struct lists exactly the members, in the order of their declaration. -/
inductive NewRule (place : Place) : Ty → List String → List Ty → Prop
  | mk {t : Ty} {values : List Ty} {members : List (String × Ty)} :
      place.bundle.members? t = some members → AllCoerce values (members.map Prod.snd) →
        NewRule place t (members.map Prod.fst) values

/-- What an index picks from. -/
inductive Elements : Ty → Ty → Prop
  | array {length : Nat} {t : Ty} : Elements (.array length t) t
  | slice {t : Ty} : Elements (.slice t) t

/-- Object, index and result. -/
inductive SubscriptRule : Ty → Ty → Ty → Prop
  | element {object index t : Ty} :
      Elements object t → Takes isInteger index → SubscriptRule object index t
  | slice {object t : Ty} {format : NumberFormat} :
      Elements object t → SubscriptRule object (.range format) (.slice t)
  | any {index : Ty} : SubscriptRule .any index .any

/-- First, last and result. -/
inductive RangeRule : Ty → Ty → Ty → Prop
  | numbers {first last : Ty} {format : NumberFormat} :
      Takes isInteger first → Takes isInteger last → first.unify last = some (.number format) →
        RangeRule first last (.range format)
  | any : RangeRule .any .any (.range ⟨.signed, 64⟩)

/-- What a loop goes over, and its elements. -/
inductive EachRule : Ty → Ty → Prop
  | elements {iterable t : Ty} : Elements iterable t → EachRule iterable t
  | range {format : NumberFormat} : EachRule (.range format) (.number format)
  | any : EachRule .any .any

/-- What is written, the type of the value, and the type that the name gets. -/
inductive LetRule (place : Place) : Option TypeExpr → Ty → Ty → Prop
  | written {written : TypeExpr} {t declared : Ty} :
      place.Denotes written declared → t.coerces declared = true →
        LetRule place (some written) t declared
  | inferred {t : Ty} : t ≠ .void → LetRule place none t t

section Nodes

variable (place : Place) (type : Nat → Option Ty)

/-- The type of one expression node, from the types that `type` gives its parts. -/
inductive NodeRule (locals : ScopeStack) : Expr → Ty → Prop
  | binary {mark : Mark} {op : BinaryOp} {left right : Expr} {l r t : Ty} :
      type left.id = some l → type right.id = some r → BinaryRule op l r t →
        NodeRule locals (.binary mark op left right) t
  | unary {mark : Mark} {op : UnaryOp} {operand : Expr} {o t : Ty} :
      type operand.id = some o → UnaryRule op o t → NodeRule locals (.unary mark op operand) t
  | number {mark : Mark} {literal : NumberLiteral} {t : Ty} :
      NumberRule literal t → NodeRule locals (.number mark literal) t
  | string {mark : Mark} {text : String} : NodeRule locals (.string mark text) .string
  | bool {mark : Mark} {value : Bool} : NodeRule locals (.bool mark value) .bool
  | ident {mark : Mark} {name : Ident} {t : Ty} :
      IdentRule place locals name.name t → NodeRule locals (.ident mark name) t
  | call {mark : Mark} {callee : Expr} {typeArgs : List TypeExpr} {args : List Expr} {f t : Ty}
      {types : List Ty} :
      type callee.id = some f → List.Forall₂ (fun e t => type e.id = some t) args types →
        CallRule place f typeArgs types t → NodeRule locals (.call mark callee typeArgs args) t
  | get {mark : Mark} {object : Expr} {member : Ident} {o t : Ty} :
      type object.id = some o → GetRule place o member.name t →
        NodeRule locals (.get mark object member) t
  | new {mark : Mark} {written : TypeExpr} {fields : List (Ident × Expr)} {t : Ty}
      {types : List Ty} :
      place.Denotes written t → List.Forall₂ (fun f t => type f.2.id = some t) fields types →
        NewRule place t (fields.map (·.1.name)) types →
          NodeRule locals (.new mark written fields) (.pointer .owned t)
  | group {mark : Mark} {inner : Expr} {t : Ty} :
      type inner.id = some t → NodeRule locals (.group mark inner) t
  | null {mark : Mark} : NodeRule locals (.null mark) (.pointer .weak .any)
  | zero {mark : Mark} : NodeRule locals (.zero mark) .any
  | staticArray {mark : Mark} {written : TypeExpr} {elements : List Expr} {element : Ty}
      {types : List Ty} :
      place.Denotes written (.array elements.length element) →
        List.Forall₂ (fun e t => type e.id = some t) elements types →
          (∀ t ∈ types, t.coerces element = true) →
            NodeRule locals (.staticArray mark written elements) (.array elements.length element)
  | subscript {mark : Mark} {object index : Expr} {o i t : Ty} :
      type object.id = some o → type index.id = some i → SubscriptRule o i t →
        NodeRule locals (.subscript mark object index) t
  | range {mark : Mark} {first last : Expr} {f l t : Ty} :
      type first.id = some f → type last.id = some l → RangeRule f l t →
        NodeRule locals (.range mark first last) t

/-- A node has a type, and it is right. -/
def NodeTyped (locals : ScopeStack) (e : Expr) : Prop :=
  ∃ t, type e.id = some t ∧ NodeRule place type locals e t

/-- An expression has the type, and all its nodes have the right ones. -/
structure ExprTyped (locals : ScopeStack) (e : Expr) (t : Ty) : Prop where
  recorded : type e.id = some t
  nodes : ∀ p ∈ e.parts, NodeTyped place type locals p

/-! ## Statements -/

variable (result : Ty)

mutual
/-- A statement of a function with the given result type is typed right; `inLoop` says whether a
loop of the function stands around it. Behind it the scopes are those at the end. -/
inductive StmtTyped : Bool → ScopeStack → Stmt → ScopeStack → Prop
  | letDecl {inLoop : Bool} {locals locals' : ScopeStack} {mark : Mark} {name : Ident}
      {written : Option TypeExpr} {init : Expr} {t bound : Ty} :
      ExprTyped place type locals init t → LetRule place written t bound →
        locals.declare name.name bound = .ok locals' → type mark.id = some bound →
          StmtTyped inLoop locals (.letDecl mark name written init) locals'
  | scope {inLoop : Bool} {locals : ScopeStack} {mark : Mark} {block : Block} :
      BlockTyped inLoop locals block → type mark.id = some .void →
        StmtTyped inLoop locals (.scope mark block) locals
  | assign {inLoop : Bool} {locals : ScopeStack} {mark : Mark} {target value : Expr} {t v : Ty} :
      isAssignable target = true → ExprTyped place type locals target t →
        ExprTyped place type locals value v → v.coerces t = true → type mark.id = some .void →
          StmtTyped inLoop locals (.assign mark target value) locals
  | returnNothing {inLoop : Bool} {locals : ScopeStack} {mark : Mark} :
      Ty.void.coerces result = true → type mark.id = some .void →
        StmtTyped inLoop locals (.returnStmt mark none) locals
  | returnValue {inLoop : Bool} {locals : ScopeStack} {mark : Mark} {value : Expr} {t : Ty} :
      ExprTyped place type locals value t → t.coerces result = true → type mark.id = some .void →
        StmtTyped inLoop locals (.returnStmt mark (some value)) locals
  | breakStmt {locals : ScopeStack} {mark : Mark} :
      type mark.id = some .void → StmtTyped true locals (.breakStmt mark) locals
  | continueStmt {locals : ScopeStack} {mark : Mark} :
      type mark.id = some .void → StmtTyped true locals (.continueStmt mark) locals
  | forEach {inLoop : Bool} {locals inner : ScopeStack} {mark : Mark} {name : Ident}
      {iterable : Expr} {block : Block} {t element : Ty} :
      ExprTyped place type locals.push iterable t → EachRule t element →
        locals.push.declare name.name element = .ok inner → BlockTyped true inner block →
          type mark.id = some .void →
            StmtTyped inLoop locals (.forEach mark name iterable block) locals
  | forCounted {inLoop : Bool} {locals inner inner' : ScopeStack} {mark : Mark} {init : Stmt}
      {condition : Expr} {update : Stmt} {block : Block} {t : Ty} :
      StmtTyped inLoop locals.push init inner → ExprTyped place type inner condition t →
        t.coerces .bool = true → BlockTyped true inner block →
          StmtTyped inLoop inner update inner' →
          type mark.id = some .void →
            StmtTyped inLoop locals (.forCounted mark init condition update block) locals
  | ifThen {inLoop : Bool} {locals : ScopeStack} {mark : Mark} {condition : Expr} {block : Block}
      {t : Ty} :
      ExprTyped place type locals condition t → t.coerces .bool = true →
        BlockTyped inLoop locals block → type mark.id = some .void →
          StmtTyped inLoop locals (.ifElse mark condition block none) locals
  | ifElse {inLoop : Bool} {locals locals' : ScopeStack} {mark : Mark} {condition : Expr}
      {block : Block} {branch : Stmt} {t : Ty} :
      ExprTyped place type locals condition t → t.coerces .bool = true →
        BlockTyped inLoop locals block → StmtTyped inLoop locals branch locals' →
          type mark.id = some .void →
            StmtTyped inLoop locals (.ifElse mark condition block (some branch)) locals'
  | expr {inLoop : Bool} {locals : ScopeStack} {mark : Mark} {value : Expr} {t : Ty} :
      ExprTyped place type locals value t → type mark.id = some t →
        StmtTyped inLoop locals (.expr mark value) locals

/-- A block is typed right in a scope of its own. -/
inductive BlockTyped : Bool → ScopeStack → Block → Prop
  | mk {inLoop : Bool} {locals inner : ScopeStack} {span : Span} {stmts : List Stmt} :
      StmtsTyped inLoop locals.push stmts inner → BlockTyped inLoop locals (.mk span stmts)

/-- Statements are typed right, one behind the other. -/
inductive StmtsTyped : Bool → ScopeStack → List Stmt → ScopeStack → Prop
  | nil {inLoop : Bool} {locals : ScopeStack} : StmtsTyped inLoop locals [] locals
  | cons {inLoop : Bool} {locals locals' locals'' : ScopeStack} {s : Stmt} {ss : List Stmt} :
      StmtTyped inLoop locals s locals' → StmtsTyped inLoop locals' ss locals'' →
        StmtsTyped inLoop locals (s :: ss) locals''
end

end Nodes

section Covered

variable {place : Place} {type : Nat → Option Ty} {result : Ty}

/-- An expression node is typed right in the scopes around it. -/
def TypedSomewhere (place : Place) (type : Nat → Option Ty) (e : Expr) : Prop :=
  ∃ locals, NodeTyped place type locals e

theorem ExprTyped.covered {locals : ScopeStack} {e : Expr} {t : Ty}
    (h : ExprTyped place type locals e t) : ∀ p ∈ e.parts, TypedSomewhere place type p :=
  fun p hp => ⟨locals, h.nodes p hp⟩

mutual
/-- A statement that is typed right has no expression node that is not. -/
theorem StmtTyped.covered {inLoop : Bool} {locals locals' : ScopeStack} {s : Stmt} :
    StmtTyped place type result inLoop locals s locals' →
      ∀ e ∈ s.exprs, TypedSomewhere place type e
  | .letDecl hinit _ _ _ => hinit.covered
  | .scope hblock _ => hblock.covered
  | .assign _ htarget hvalue _ _ =>
    List.forall_mem_append.2 ⟨htarget.covered, hvalue.covered⟩
  | .returnNothing _ _ | .breakStmt _ | .continueStmt _ => fun _ he => absurd he List.not_mem_nil
  | .returnValue hvalue _ _ => hvalue.covered
  | .forEach hiterable _ _ hblock _ =>
    List.forall_mem_append.2 ⟨hiterable.covered, hblock.covered⟩
  | .forCounted hinit hcondition _ hblock hupdate _ => by
    simp only [Stmt.exprs, List.forall_mem_append]
    exact ⟨hinit.covered, hcondition.covered, hblock.covered, hupdate.covered⟩
  | .ifThen hcondition _ hblock _ => by
    simp only [Stmt.exprs, elseExprs, List.append_nil, List.forall_mem_append]
    exact ⟨hcondition.covered, hblock.covered⟩
  | .ifElse hcondition _ hblock hbranch _ => by
    simp only [Stmt.exprs, elseExprs, List.forall_mem_append]
    exact ⟨hcondition.covered, hblock.covered, hbranch.covered⟩
  | .expr hvalue _ => hvalue.covered

theorem BlockTyped.covered {inLoop : Bool} {locals : ScopeStack} {block : Block} :
    BlockTyped place type result inLoop locals block →
      ∀ e ∈ block.exprs, TypedSomewhere place type e
  | .mk hstmts => hstmts.covered

theorem StmtsTyped.covered {inLoop : Bool} {locals locals' : ScopeStack} {ss : List Stmt} :
    StmtsTyped place type result inLoop locals ss locals' →
      ∀ e ∈ stmtsExprs ss, TypedSomewhere place type e
  | .nil => fun _ he => absurd he List.not_mem_nil
  | .cons hs hss => List.forall_mem_append.2 ⟨hs.covered, hss.covered⟩
end

end Covered

/-! ## Functions -/

/-- Names are declared with their types, one behind the other. -/
inductive Declares : ScopeStack → List String → List Ty → ScopeStack → Prop
  | nil {locals : ScopeStack} : Declares locals [] [] locals
  | cons {locals locals' locals'' : ScopeStack} {name : String} {t : Ty} {names : List String}
      {ts : List Ty} :
      locals.declare name t = .ok locals' → Declares locals' names ts locals'' →
        Declares locals (name :: names) (t :: ts) locals''

/-- A function has the signature that its head stands for, and its body is typed right in the scope
of its parameters. -/
structure FnTyped (place : Place) (type : Nat → Option Ty) (mark : Mark) (head : FnHead)
    (body : Block) (s : Signature) (locals : ScopeStack) : Prop where
  recorded : type mark.id = some s.ty
  arity : s.arity = head.generics.length
  params : List.Forall₂ place.Denotes (head.params.map (·.type)) s.params
  result : ∀ written, head.returnType = some written → place.Denotes written s.result
  noResult : head.returnType = none → s.result = .void
  declares : Declares .empty (head.params.map (·.name.name)) s.params locals
  body : ∃ locals', StmtsTyped place type s.result false locals body.stmts locals'

end Typing

end Custody
