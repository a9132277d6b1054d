import Custody.Typing.Check
import Custody.Proofs.Numbers

/-!
# What a type check records

A check that does not stop at a structural fault records a type for every expression and every
statement of its tree, each once, in the order of `Stmt.nodes`. For an expression these are the
types that its runs give, one for each expression inside it (`Visit`, `Typing.types_checkExpr`).

The rules for single nodes and the resolution of type expressions record nothing themselves. They
find many faults, but none about the declaration of names: that a name is repeated, that nothing has
the name, or that a word stands outside of a loop is found elsewhere (`Checking.Ruled`).
-/

set_option autoImplicit false

namespace Custody

variable {σ α β : Type}

@[simp] theorem Log.types_append (a b : Log) : (a ++ b).types = a.types ++ b.types := rfl

@[simp] theorem Log.findings_append (a b : Log) : (a ++ b).findings = a.findings ++ b.findings :=
  rfl

theorem Log.append_empty (a : Log) : a ++ .empty = a := by
  change Log.append a .empty = a
  simp only [Log.append, Log.empty, List.append_nil]

theorem Log.append_assoc (a b c : Log) : a ++ b ++ c = a ++ (b ++ c) := by
  change Log.append (Log.append a b) c = Log.append a (Log.append b c)
  simp only [Log.append, List.append_assoc]

/-- Whether a rule may find the fault. -/
def Fault.ofRule : Fault → Bool
  | .duplicateDeclaration _ => false
  | .unknownIdentifier _ => false
  | .outsideLoop _ => false
  | _ => true

namespace Checking

theorem bind_eq (x : Checking σ α) (f : α → Checking σ β) (s : σ) :
    (x >>= f) s = ⟨(f (x s).value (x s).instances).value, (f (x s).value (x s).instances).instances,
      (x s).log ++ (f (x s).value (x s).instances).log⟩ := rfl

/-- A check that records nothing and finds only what a rule may find. -/
def Ruled (x : Checking σ α) : Prop :=
  ∀ s, (x s).log.types = [] ∧ ∀ f ∈ (x s).log.findings, f.fault.ofRule = true

namespace Ruled

theorem pure (a : α) : (Pure.pure a : Checking σ α).Ruled :=
  fun _ => ⟨rfl, fun _ hf => absurd hf List.not_mem_nil⟩

theorem bind {x : Checking σ α} {f : α → Checking σ β} (hx : x.Ruled) (hf : ∀ a, (f a).Ruled) :
    (x >>= f).Ruled := by
  intro s
  rw [bind_eq, Log.types_append, (hx s).1, (hf _ _).1]
  refine ⟨rfl, fun finding hfinding => ?_⟩
  rcases List.mem_append.1 hfinding with hfirst | hsecond
  · exact (hx s).2 finding hfirst
  · exact (hf _ _).2 finding hsecond

theorem report (span : Span) {fault : Fault} (h : fault.ofRule = true) :
    (report span fault : Checking σ Unit).Ruled := by
  refine fun s => ⟨rfl, fun f hf => ?_⟩
  rw [List.mem_singleton.1 hf]
  exact h

theorem build (make : σ → α × σ) : (build make).Ruled :=
  fun _ => ⟨rfl, fun _ hf => absurd hf List.not_mem_nil⟩

/-- A fault is reported, and the check goes on. -/
theorem reported (span : Span) {fault : Fault} (h : fault.ofRule = true) {f : Unit → Checking σ β}
    (hf : (f ()).Ruled) : (Checking.report span fault >>= f).Ruled :=
  .bind (.report span h) fun _ => hf

end Ruled

/-- The numbers under which a check records types, in order. -/
def Writes (x : Checking σ α) (ids : List Nat) : Prop :=
  ∀ s, (x s).log.types.map Prod.fst = ids

namespace Writes

variable {x : Checking σ α} {f : α → Checking σ β} {ids ids' : List Nat}

theorem pure (a : α) : (Pure.pure a : Checking σ α).Writes [] := fun _ => rfl

theorem bind (hx : x.Writes ids) (hf : ∀ a, (f a).Writes ids') :
    (x >>= f).Writes (ids ++ ids') := by
  intro s
  rw [bind_eq, Log.types_append, List.map_append, hx s, hf _ _]

/-- A first check that records nothing can be left out. -/
theorem andThen (hx : x.Writes []) (hf : ∀ a, (f a).Writes ids) : (x >>= f).Writes ids :=
  hx.bind hf

theorem report (span : Span) (fault : Fault) : (report span fault : Checking σ Unit).Writes [] :=
  fun _ => rfl

theorem record (id : Nat) (type : Ty) : (record id type : Checking σ Unit).Writes [id] :=
  fun _ => rfl

end Writes

theorem Ruled.writes {x : Checking σ α} (h : x.Ruled) : x.Writes [] :=
  fun s => by rw [(h s).1, List.map_nil]

end Checking

/-! ## The parts of an expression -/

mutual
/-- An expression and all its parts, the parts first. -/
def Expr.parts : Expr → List Expr
  | .binary mark op left right => left.parts ++ right.parts ++ [.binary mark op left right]
  | .unary mark op operand => operand.parts ++ [.unary mark op operand]
  | .number mark literal => [.number mark literal]
  | .string mark text => [.string mark text]
  | .bool mark value => [.bool mark value]
  | .ident mark name => [.ident mark name]
  | .call mark callee typeArgs args =>
    callee.parts ++ partsAll args ++ [.call mark callee typeArgs args]
  | .get mark object member => object.parts ++ [.get mark object member]
  | .new mark type fields => partsFields fields ++ [.new mark type fields]
  | .group mark inner => inner.parts ++ [.group mark inner]
  | .null mark => [.null mark]
  | .zero mark => [.zero mark]
  | .staticArray mark type elements => partsAll elements ++ [.staticArray mark type elements]
  | .subscript mark object index => object.parts ++ index.parts ++ [.subscript mark object index]
  | .range mark first last => first.parts ++ last.parts ++ [.range mark first last]

/-- Expressions and all their parts. -/
def partsAll : List Expr → List Expr
  | [] => []
  | e :: es => e.parts ++ partsAll es

/-- The values of fields and all their parts. -/
def partsFields : List (Ident × Expr) → List Expr
  | [] => []
  | (_, e) :: fields => e.parts ++ partsFields fields
end

mutual
theorem Expr.map_id_parts (e : Expr) : e.parts.map Expr.id = e.nodes := by
  cases e <;>
    simp only [Expr.parts, Expr.nodes, List.map_append, List.map_cons, List.map_nil,
      Expr.map_id_parts, map_id_partsAll, map_id_partsFields, Expr.id, Expr.mark]

theorem map_id_partsAll : ∀ es : List Expr, (partsAll es).map Expr.id = nodesAll es
  | [] => rfl
  | e :: es => by
    simp only [partsAll, nodesAll, List.map_append, e.map_id_parts, map_id_partsAll es]

theorem map_id_partsFields :
    ∀ fields : List (Ident × Expr), (partsFields fields).map Expr.id = nodesFields fields
  | [] => rfl
  | (_, e) :: fields => by
    simp only [partsFields, nodesFields, List.map_append, e.map_id_parts, map_id_partsFields fields]
end

/-! ## Type expressions -/

namespace Place

open Checking

variable (place : Place) (builder : InstanceBuilder σ)

theorem namedIn_ruled (owner : Option SourceUnit) (type : TypeExpr) (name : Ident)
    (argCount : Nat) : (namedIn owner type name argCount : Checking σ Named).Ruled := by
  unfold namedIn
  split
  · exact .reported _ rfl (.pure _)
  · next base _ =>
      have hrest : (if arityOf base = 0 then Pure.pure (.settled base)
          else Pure.pure (.template base (arityOf base)) : Checking σ Named).Ruled := by
        split
        · exact .pure _
        · exact .pure _
      dsimp only
      split
      · exact .reported _ rfl hrest
      · exact hrest

theorem named_ruled (type : TypeExpr) (space : Option Ident) (name : Ident) (argCount : Nat) :
    (place.named type space name argCount : Checking σ Named).Ruled := by
  unfold named
  split
  · split
    · exact namedIn_ruled _ _ _ _
    · exact .reported _ rfl (.pure _)
  · split
    · dsimp only
      split
      · exact .reported _ rfl (.pure _)
      · exact .pure _
    · exact namedIn_ruled _ _ _ _

theorem instanceOf_ruled (base : Ty) (arity : Nat) (args : List Ty) :
    (place.instanceOf builder base arity args).Ruled := by
  unfold instanceOf
  split
  · exact .build _
  · exact .pure _

mutual
theorem resolve_ruled : ∀ type : TypeExpr, (place.resolve builder type).Ruled
  | .pointer _ _ pointee => by
    rw [resolve]
    exact .bind (resolve_ruled pointee) fun _ => .pure _
  | .array _ _ element | .slice _ element => by
    rw [resolve]
    exact .bind (resolve_ruled element) fun _ => .pure _
  | .named _ _ _ args => by
    rw [resolve]
    refine .bind (place.named_ruled _ _ _ _) fun named => ?_
    cases named with
    | settled t => exact .pure t
    | template base arity =>
      exact .bind (resolveAll_ruled args) fun ts => place.instanceOf_ruled builder base arity ts

theorem resolveAll_ruled : ∀ types : List TypeExpr, (place.resolveAll builder types).Ruled
  | [] => by
    rw [resolveAll]
    exact .pure _
  | type :: types => by
    rw [resolveAll]
    exact .bind (resolve_ruled type) fun _ => .bind (resolveAll_ruled types) fun _ => .pure _
end

theorem params_ruled (ps : List TypedName) : (place.params builder ps).Ruled := by
  induction ps with
  | nil => exact .pure _
  | cons p ps ih =>
    rw [params]
    exact .bind (place.resolve_ruled builder p.type) fun _ => .bind ih fun _ => .pure _

theorem signature_ruled (head : FnHead) : (place.signature builder head).Ruled := by
  unfold signature
  refine .bind (place.params_ruled builder head.params) fun params => ?_
  cases head.returnType with
  | none => exact .bind (.pure _) fun _ => .pure _
  | some type => exact .bind (place.resolve_ruled builder type) fun _ => .pure _

end Place

/-! ## Rules -/

namespace Typing

open Checking

theorem expectType_ruled (part : Typed) (expected : Ty) :
    (expectType part expected : Checking σ Unit).Ruled := by
  unfold expectType
  split
  · exact .pure _
  · exact .report _ rfl

theorem expectOperand_ruled (op : String) (part : Typed) (accepts : Ty → Bool) :
    (expectOperand op part accepts : Checking σ Bool).Ruled := by
  unfold expectOperand
  split
  · exact .pure _
  · exact .reported _ rfl (.pure _)

theorem commonType_ruled (left right : Typed) : (commonType left right : Checking σ Ty).Ruled := by
  unfold commonType
  split
  · exact .pure _
  · exact .reported _ rfl (.pure _)

theorem binaryType_ruled (op : BinaryOp) (left right : Typed) :
    (binaryType op left right : Checking σ Ty).Ruled := by
  unfold binaryType
  split
  · exact .bind (expectOperand_ruled _ _ _) fun _ => .bind (expectOperand_ruled _ _ _) fun _ =>
      .pure _
  · dsimp only
    refine .bind (expectOperand_ruled _ _ _) fun leftFits =>
      .bind (expectOperand_ruled _ _ _) fun rightFits => ?_
    split
    · exact .bind (commonType_ruled _ _) fun _ => .pure _
    · exact .bind (.pure _) fun _ => .pure _

theorem unaryType_ruled (op : UnaryOp) (operand : Typed) :
    (unaryType op operand : Checking σ Ty).Ruled := by
  cases op with
  | not => exact .bind (expectOperand_ruled _ _ _) fun _ => .pure _
  | negate =>
    refine .bind (expectOperand_ruled _ _ _) fun fits => ?_
    cases fits with
    | false => exact .pure _
    | true => exact .pure _
  | addressOf => exact .pure _
  | own => exact .pure _
  | deref =>
    unfold unaryType
    dsimp only
    split
    · exact .pure _
    · exact .pure _
    · exact .reported _ rfl (.pure _)

theorem callSignature_ruled (builder : InstanceBuilder σ) (callee : Expr) (signature : Signature)
    (typeArgs : List Ty) : (callSignature builder callee signature typeArgs).Ruled := by
  unfold callSignature
  split
  · exact .reported _ rfl (.build _)
  · split
    · exact .pure _
    · exact .build _

theorem expectAll_ruled (parts : List Typed) (types : List Ty) :
    (expectAll parts types : Checking σ Unit).Ruled := by
  fun_induction expectAll (σ := σ) parts types with
  | case1 part parts expected rest ih => exact .bind (expectType_ruled _ _) fun _ => ih
  | case2 => exact .pure _

theorem callType_ruled (place : Place) (builder : InstanceBuilder σ) (span : Span) (callee : Expr)
    (calleeType : Ty) (typeArgs : List TypeExpr) (args : List Typed) :
    (callType place builder span callee calleeType typeArgs args).Ruled := by
  unfold callType
  split
  · refine .bind (place.resolveAll_ruled _ _) fun types =>
      .bind (callSignature_ruled _ _ _ _) fun signature => ?_
    split
    · exact .reported _ rfl (.bind (expectAll_ruled _ _) fun _ => .pure _)
    · exact .bind (expectAll_ruled _ _) fun _ => .pure _
  · exact .pure _
  · exact .reported _ rfl (.pure _)

theorem getType_ofValue_ruled (place : Place) (object : Typed) (member : Ident) (target : Ty) :
    (getType.ofValue place object member target : Checking σ Ty).Ruled := by
  unfold getType.ofValue
  split
  · exact .pure _
  · split
    · exact .pure _
    · exact .reported _ rfl (.pure _)
  · split
    · exact .pure _
    · exact .reported _ rfl (.pure _)
  · exact .reported _ rfl (.pure _)

theorem getType_ruled (place : Place) (object : Typed) (member : Ident) :
    (getType place object member : Checking σ Ty).Ruled := by
  unfold getType
  split
  · split
    · exact .pure _
    · exact .reported _ rfl (.pure _)
  · exact getType_ofValue_ruled _ _ _ _
  · exact getType_ofValue_ruled _ _ _ _

theorem expectFields_ruled (fields : List (Ident × Typed)) (members : List (String × Ty)) :
    (expectFields fields members : Checking σ Unit).Ruled := by
  fun_induction expectFields (σ := σ) fields members with
  | case1 name value fields expected type members next hname ih => exact .reported _ rfl ih
  | case2 name value fields expected type members next hname ih =>
    exact .bind (expectType_ruled _ _) fun _ => ih
  | case3 => exact .pure _

theorem newType_ruled (place : Place) (span typeSpan : Span) (type : Ty)
    (fields : List (Ident × Typed)) :
    (newType place span typeSpan type fields : Checking σ Ty).Ruled := by
  unfold newType
  split
  · exact .pure _
  · split
    · exact .reported _ rfl (.pure _)
    · split
      · exact .reported _ rfl (.bind (expectFields_ruled _ _) fun _ => .pure _)
      · exact .bind (expectFields_ruled _ _) fun _ => .pure _

theorem staticArrayType_ruled (span : Span) (type : Ty) (elements : List Typed) :
    (staticArrayType span type elements : Checking σ Ty).Ruled := by
  unfold staticArrayType
  split
  · split
    · exact .reported _ rfl (.bind (expectAll_ruled _ _) fun _ => .pure _)
    · exact .bind (expectAll_ruled _ _) fun _ => .pure _
  · exact .pure _

theorem subscriptType_ofElement_ruled (index : Typed) (element : Ty) :
    (subscriptType.ofElement index element : Checking σ Ty).Ruled := by
  unfold subscriptType.ofElement
  split
  · exact .pure _
  · exact .pure _
  · split
    · exact .pure _
    · exact .reported _ rfl (.pure _)

theorem subscriptType_ruled (object index : Typed) :
    (subscriptType object index : Checking σ Ty).Ruled := by
  unfold subscriptType
  split
  · exact subscriptType_ofElement_ruled _ _
  · exact subscriptType_ofElement_ruled _ _
  · exact .pure _
  · exact .reported _ rfl (.pure _)

theorem rangeType_ruled (first last : Typed) : (rangeType first last : Checking σ Ty).Ruled := by
  unfold rangeType
  refine .bind (expectOperand_ruled _ _ _) fun firstFits =>
    .bind (expectOperand_ruled _ _ _) fun lastFits => ?_
  split
  · split
    · exact .pure _
    · exact .pure _
    · exact .reported _ rfl (.pure _)
  · exact .pure _

theorem elementType_ruled (iterable : Typed) : (elementType iterable : Checking σ Ty).Ruled := by
  unfold elementType
  split
  · exact .pure _
  · exact .pure _
  · exact .pure _
  · exact .pure _
  · exact .reported _ rfl (.pure _)

theorem letType_ruled (body : Body σ) (name : Ident) (type : Option TypeExpr) (init : Typed) :
    (letType body name type init).Ruled := by
  unfold letType
  split
  · exact .bind (body.place.resolve_ruled body.builder _) fun _ =>
      .bind (expectType_ruled _ _) fun _ => .pure _
  · split
    · exact .reported _ rfl (.pure _)
    · exact .pure _

theorem identType_writes (place : Place) (locals : ScopeStack) (name : Ident) :
    (identType place locals name : Checking σ Ty).Writes [] := by
  unfold identType
  split
  · exact .pure _
  · exact .andThen (.report _ _) fun _ => .pure _

/-! ## Expressions -/

/-- A run of the check of an expression: where the expression stands, the scopes around it, and the
instances in front of the run. -/
structure Visit (σ : Type) where
  place : Place
  locals : ScopeStack
  expr : Expr
  instances : σ

/-- The type that the run gives. -/
def Visit.type (builder : InstanceBuilder σ) (v : Visit σ) : Ty :=
  (checkExpr v.place builder v.locals v.expr v.instances).value

/-- What the run owes to the table: its type under the number of the expression. -/
def Visit.entry (builder : InstanceBuilder σ) (v : Visit σ) : Nat × Ty :=
  (v.expr.id, v.type builder)

section Exprs

variable (place : Place) (builder : InstanceBuilder σ) (locals : ScopeStack)

mutual
/-- The runs inside the check of an expression. -/
def exprVisits : Expr → σ → List (Visit σ)
  | .binary mark op left right, s =>
    exprVisits left s ++ exprVisits right (checkExpr place builder locals left s).instances ++
      [⟨place, locals, .binary mark op left right, s⟩]
  | .unary mark op operand, s =>
    exprVisits operand s ++ [⟨place, locals, .unary mark op operand, s⟩]
  | .number mark literal, s => [⟨place, locals, .number mark literal, s⟩]
  | .string mark text, s => [⟨place, locals, .string mark text, s⟩]
  | .bool mark value, s => [⟨place, locals, .bool mark value, s⟩]
  | .ident mark name, s => [⟨place, locals, .ident mark name, s⟩]
  | .call mark callee typeArgs args, s =>
    exprVisits callee s ++ exprsVisits args (checkExpr place builder locals callee s).instances ++
      [⟨place, locals, .call mark callee typeArgs args, s⟩]
  | .get mark object member, s =>
    exprVisits object s ++ [⟨place, locals, .get mark object member, s⟩]
  | .new mark type fields, s =>
    fieldsVisits fields (place.resolve builder type s).instances ++
      [⟨place, locals, .new mark type fields, s⟩]
  | .group mark inner, s => exprVisits inner s ++ [⟨place, locals, .group mark inner, s⟩]
  | .null mark, s => [⟨place, locals, .null mark, s⟩]
  | .zero mark, s => [⟨place, locals, .zero mark, s⟩]
  | .staticArray mark type elements, s =>
    exprsVisits elements (place.resolve builder type s).instances ++
      [⟨place, locals, .staticArray mark type elements, s⟩]
  | .subscript mark object index, s =>
    exprVisits object s ++ exprVisits index (checkExpr place builder locals object s).instances ++
      [⟨place, locals, .subscript mark object index, s⟩]
  | .range mark first last, s =>
    exprVisits first s ++ exprVisits last (checkExpr place builder locals first s).instances ++
      [⟨place, locals, .range mark first last, s⟩]

/-- The runs inside the check of expressions. -/
def exprsVisits : List Expr → σ → List (Visit σ)
  | [], _ => []
  | e :: es, s => exprVisits e s ++ exprsVisits es (checkExpr place builder locals e s).instances

/-- The runs inside the check of fields. -/
def fieldsVisits : List (Ident × Expr) → σ → List (Visit σ)
  | [], _ => []
  | (_, e) :: fields, s =>
    exprVisits e s ++ fieldsVisits fields (checkExpr place builder locals e s).instances
end

mutual
/-- The check of an expression visits the expression and all its parts. -/
theorem map_expr_exprVisits (e : Expr) (s : σ) :
    (exprVisits place builder locals e s).map Visit.expr = e.parts := by
  cases e <;>
    simp only [exprVisits, Expr.parts, List.map_append, List.map_cons, List.map_nil,
      map_expr_exprVisits, map_expr_exprsVisits, map_expr_fieldsVisits]

theorem map_expr_exprsVisits : ∀ (es : List Expr) (s : σ),
    (exprsVisits place builder locals es s).map Visit.expr = partsAll es
  | [], _ => rfl
  | e :: es, s => by
    simp only [exprsVisits, partsAll, List.map_append, map_expr_exprVisits e,
      map_expr_exprsVisits es]

theorem map_expr_fieldsVisits : ∀ (fields : List (Ident × Expr)) (s : σ),
    (fieldsVisits place builder locals fields s).map Visit.expr = partsFields fields
  | [], _ => rfl
  | (_, e) :: fields, s => by
    simp only [fieldsVisits, partsFields, List.map_append, map_expr_exprVisits e,
      map_expr_fieldsVisits fields]
end

/-! ## What the runs record -/

theorem types_of_writes_nil {x : Checking σ α} (h : x.Writes []) (s : σ) : (x s).log.types = [] :=
  List.map_eq_nil_iff.1 (h s)

/-- A rule that records nothing and is settled leaves one record behind, of the type that it
gives. -/
theorem types_settle {x : Checking σ Ty} (h : x.Writes []) (mark : Mark) (s : σ) :
    ((x >>= settle mark) s).log.types = [(mark.id, ((x >>= settle mark) s).value)] := by
  have hnone := types_of_writes_nil h s
  rw [bind_eq, Log.types_append, hnone]
  rfl

mutual
/-- The check of an expression records the type of each run inside it, and nothing else. -/
theorem types_checkExpr : ∀ (e : Expr) (s : σ), (checkExpr place builder locals e s).log.types =
    (exprVisits place builder locals e s).map (Visit.entry builder)
  | .binary mark op left right, s => by
    rw [exprVisits, List.map_append, List.map_append, ← types_checkExpr left,
      ← types_checkExpr right, List.append_assoc]
    refine congrArg (_ ++ ·) (congrArg (_ ++ ·) ?_)
    exact types_settle (binaryType_ruled op ⟨left.span, _⟩ ⟨right.span, _⟩).writes mark _
  | .unary mark op operand, s => by
    rw [exprVisits, List.map_append, ← types_checkExpr operand]
    refine congrArg (_ ++ ·) ?_
    exact types_settle (unaryType_ruled op ⟨operand.span, _⟩).writes mark _
  | .number _ _, _ => rfl
  | .string _ _, _ => rfl
  | .bool _ _, _ => rfl
  | .ident mark name, s => types_settle (identType_writes place locals name) mark s
  | .call mark callee typeArgs args, s => by
    rw [exprVisits, List.map_append, List.map_append, ← types_checkExpr callee,
      ← types_checkExprs args, List.append_assoc]
    refine congrArg (_ ++ ·) (congrArg (_ ++ ·) ?_)
    exact types_settle (callType_ruled place builder mark.span callee _ typeArgs _).writes mark _
  | .get mark object member, s => by
    rw [exprVisits, List.map_append, ← types_checkExpr object]
    refine congrArg (_ ++ ·) ?_
    exact types_settle (getType_ruled place ⟨object.span, _⟩ member).writes mark _
  | .new mark type fields, s => by
    -- The type in front of the fields is resolved first, which records nothing.
    rw [exprVisits, List.map_append, ← types_checkFields fields, checkExpr, bind_eq,
      Log.types_append, (place.resolve_ruled builder type _).1, List.nil_append]
    refine congrArg (_ ++ ·) ?_
    exact types_settle (newType_ruled place mark.span type.span _ _).writes mark _
  | .group mark inner, s => by
    rw [exprVisits, List.map_append, ← types_checkExpr inner]
    rfl
  | .null _, _ => rfl
  | .zero _, _ => rfl
  | .staticArray mark type elements, s => by
    rw [exprVisits, List.map_append, ← types_checkExprs elements, checkExpr, bind_eq,
      Log.types_append, (place.resolve_ruled builder type _).1, List.nil_append]
    refine congrArg (_ ++ ·) ?_
    exact types_settle (staticArrayType_ruled mark.span _ _).writes mark _
  | .subscript mark object index, s => by
    rw [exprVisits, List.map_append, List.map_append, ← types_checkExpr object,
      ← types_checkExpr index, List.append_assoc]
    refine congrArg (_ ++ ·) (congrArg (_ ++ ·) ?_)
    exact types_settle (subscriptType_ruled ⟨object.span, _⟩ ⟨index.span, _⟩).writes mark _
  | .range mark first last, s => by
    rw [exprVisits, List.map_append, List.map_append, ← types_checkExpr first,
      ← types_checkExpr last, List.append_assoc]
    refine congrArg (_ ++ ·) (congrArg (_ ++ ·) ?_)
    exact types_settle (rangeType_ruled ⟨first.span, _⟩ ⟨last.span, _⟩).writes mark _

theorem types_checkExprs : ∀ (es : List Expr) (s : σ),
    (checkExprs place builder locals es s).log.types =
      (exprsVisits place builder locals es s).map (Visit.entry builder)
  | [], _ => rfl
  | e :: es, s => by
    rw [exprsVisits, List.map_append, ← types_checkExpr e, ← types_checkExprs es, checkExprs,
      bind_eq, Log.types_append, bind_eq, Log.types_append]
    exact congrArg (_ ++ ·) (List.append_nil _)

theorem types_checkFields : ∀ (fields : List (Ident × Expr)) (s : σ),
    (checkFields place builder locals fields s).log.types =
      (fieldsVisits place builder locals fields s).map (Visit.entry builder)
  | [], _ => rfl
  | (_, e) :: fields, s => by
    rw [fieldsVisits, List.map_append, ← types_checkExpr e, ← types_checkFields fields,
      checkFields, bind_eq, Log.types_append, bind_eq, Log.types_append]
    exact congrArg (_ ++ ·) (List.append_nil _)
end

end Exprs

/-- A check of an expression records every node of it. -/
theorem checkExpr_writes (place : Place) (builder : InstanceBuilder σ) (locals : ScopeStack)
    (e : Expr) : (checkExpr place builder locals e).Writes e.nodes := by
  intro s
  rw [types_checkExpr, List.map_map, ← Expr.map_id_parts,
    ← map_expr_exprVisits place builder locals e s, List.map_map]
  rfl

end Typing

/-! ## Checks that may stop -/

namespace Walking

/-- The numbers under which a check records types, in order, if it does not stop. -/
def Writes (x : Walking σ α) (ids : List Nat) : Prop :=
  ∀ s a, (x.run s).value = .ok a → (x.run s).log.types.map Prod.fst = ids

/-- A check in two parts gets through iff both parts do. -/
theorem bind_ok {x : Walking σ α} {f : α → Walking σ β} {s : σ} {b : β}
    (h : ((x >>= f).run s).value = .ok b) :
    ∃ a, (x.run s).value = .ok a ∧ ((f a).run (x.run s).instances).value = .ok b ∧
      ((x >>= f).run s).log = (x.run s).log ++ ((f a).run (x.run s).instances).log := by
  -- Behind a fault the second part is not run, so a value comes from both parts.
  have hrun : (x >>= f).run s = (x.run >>= ExceptT.bindCont f) s := rfl
  rw [hrun, Checking.bind_eq] at h ⊢
  cases hx : (x.run s).value with
  | error e =>
    rw [hx] at h
    cases h
  | ok a =>
    rw [hx] at h
    exact ⟨a, rfl, h, rfl⟩

/-- A check whose first part gets through. -/
theorem run_bind_of_ok {x : Walking σ α} {f : α → Walking σ β} {s : σ} {a : α}
    (h : (x.run s).value = .ok a) :
    ((x >>= f).run s).value = ((f a).run (x.run s).instances).value ∧
      ((x >>= f).run s).log = (x.run s).log ++ ((f a).run (x.run s).instances).log := by
  have hrun : (x >>= f).run s = (x.run >>= ExceptT.bindCont f) s := rfl
  rw [hrun, Checking.bind_eq, h]
  exact ⟨rfl, rfl⟩

theorem lift_run (x : Checking σ α) (s : σ) :
    (lift x).run s = ⟨.ok (x s).value, (x s).instances, (x s).log⟩ := by
  rw [← Log.append_empty (x s).log]
  rfl

namespace Writes

variable {x : Walking σ α} {f : α → Walking σ β} {ids ids' : List Nat}

theorem pure (a : α) : (Pure.pure a : Walking σ α).Writes [] := fun _ _ _ => rfl

theorem throw (fault : StructuralFault) : (throw fault : Walking σ α).Writes ids := by
  intro s a h
  cases h

theorem lift {x : Checking σ α} (hx : x.Writes ids) : (lift x).Writes ids := by
  intro s a _
  rw [lift_run]
  exact hx s

theorem bind (hx : x.Writes ids) (hf : ∀ a, (f a).Writes ids') :
    (x >>= f).Writes (ids ++ ids') := by
  intro s b h
  obtain ⟨a, ha, hb, hlog⟩ := bind_ok h
  rw [hlog, Log.types_append, List.map_append, hx s a ha, hf a _ b hb]

/-- A first check that records nothing can be left out. -/
theorem andThen (hx : x.Writes []) (hf : ∀ a, (f a).Writes ids) : (x >>= f).Writes ids :=
  hx.bind hf

/-- A check that only gives back a value can be left out at the end. -/
theorem andPure (hx : x.Writes ids) (g : α → β) :
    (x >>= fun a => Pure.pure (g a)).Writes ids := by
  rw [← List.append_nil ids]
  exact hx.bind fun _ => .pure _

end Writes

end Walking

/-! ## Statements -/

namespace Typing

open Checking

theorem declareName_writes (locals : ScopeStack) (name : Ident) (type : Ty) :
    (declareName locals name type : Checking σ ScopeStack).Writes [] := by
  unfold declareName
  split
  · exact .pure _
  · exact .andThen (.report _ _) fun _ => .pure _

theorem checkLet_writes (body : Body σ) (locals : ScopeStack) (mark : Mark) (name : Ident)
    (type : Option TypeExpr) (init : Expr) :
    (checkLet body locals mark name type init).Writes (init.nodes ++ [mark.id]) :=
  (checkExpr_writes body.place body.builder locals init).bind fun _ =>
    .andThen (letType_ruled _ _ _ _).writes fun _ => .andThen (declareName_writes _ _ _) fun _ =>
      (Writes.record _ _).bind fun _ => .pure _

theorem checkAssign_writes (body : Body σ) (locals : ScopeStack) (mark : Mark)
    (target value : Expr) :
    (checkAssign body locals mark target value).Writes
      (target.nodes ++ value.nodes ++ [mark.id]) := by
  have hrest : Writes (do
      let t ← body.expr locals target
      let v ← body.expr locals value
      expectType ⟨value.span, v⟩ t
      record mark.id .void) (target.nodes ++ value.nodes ++ [mark.id]) := by
    rw [List.append_assoc]
    exact (checkExpr_writes body.place body.builder locals target).bind fun _ =>
      (checkExpr_writes body.place body.builder locals value).bind fun _ =>
        .andThen (expectType_ruled _ _).writes fun _ => .record _ _
  unfold checkAssign
  split
  · exact hrest
  · exact .andThen (.report _ _) fun _ => hrest

theorem checkReturn_writes (body : Body σ) (locals : ScopeStack) (mark : Mark)
    (value : Option Expr) :
    (checkReturn body locals mark value).Writes (Stmt.returnStmt mark value).nodes := by
  cases value with
  | none => exact .andThen (expectType_ruled _ _).writes fun _ => .record _ _
  | some value =>
    exact (checkExpr_writes body.place body.builder locals value).bind fun _ =>
      .andThen (expectType_ruled _ _).writes fun _ => .record _ _

theorem checkJump_writes (body : Body σ) (mark : Mark) (word : String) :
    (checkJump body mark word).Writes [mark.id] := by
  unfold checkJump
  split
  · exact .andThen (.report _ _) fun _ => .record _ _
  · exact .record _ _

theorem checkCondition_writes (body : Body σ) (locals : ScopeStack) (condition : Expr) :
    (checkCondition body locals condition).Writes condition.nodes := by
  rw [← List.append_nil condition.nodes]
  exact (checkExpr_writes body.place body.builder locals condition).bind fun _ =>
    (expectType_ruled _ _).writes

theorem checkEachHead_writes (body : Body σ) (locals : ScopeStack) (name : Ident)
    (iterable : Expr) : (checkEachHead body locals name iterable).Writes iterable.nodes := by
  rw [← List.append_nil iterable.nodes]
  exact (checkExpr_writes body.place body.builder locals iterable).bind fun _ =>
    .andThen (elementType_ruled _).writes fun _ => declareName_writes _ _ _

theorem checkExprStmt_writes (body : Body σ) (locals : ScopeStack) (mark : Mark) (value : Expr) :
    (checkExprStmt body locals mark value).Writes (value.nodes ++ [mark.id]) :=
  (checkExpr_writes body.place body.builder locals value).bind fun _ => .record _ _

theorem done_writes (mark : Mark) (locals : ScopeStack) :
    (done mark locals : Walking σ ScopeStack).Writes [mark.id] :=
  Walking.Writes.lift ((Writes.record _ _).bind fun _ => .pure _)

mutual
/-- A check of a statement records every node of it. -/
theorem checkStmt_writes (body : Body σ) (locals : ScopeStack) :
    ∀ s : Stmt, (checkStmt body locals s).Writes s.nodes
  | .importDecl _ _ => .throw _
  | .structDecl _ _ => .throw _
  | .fnDecl _ _ _ => .throw _
  | .letDecl mark name type init => .lift (checkLet_writes body locals mark name type init)
  | .scope mark block => by
    rw [checkStmt, Stmt.nodes]
    exact (checkBlock_writes body locals block).bind fun _ => done_writes _ _
  | .assign mark target value => by
    rw [checkStmt, Stmt.nodes]
    exact (Walking.Writes.lift (checkAssign_writes body locals mark target value)).andPure _
  | .returnStmt mark value => by
    rw [checkStmt]
    exact (Walking.Writes.lift (checkReturn_writes body locals mark value)).andPure _
  | .breakStmt mark | .continueStmt mark => by
    rw [checkStmt, Stmt.nodes]
    exact (Walking.Writes.lift (checkJump_writes body mark _)).andPure _
  | .forEach mark name iterable block => by
    rw [checkStmt, Stmt.nodes, List.append_assoc]
    exact (Walking.Writes.lift (checkEachHead_writes body locals.push name iterable)).bind fun _ =>
      (checkBlock_writes _ _ block).bind fun _ => done_writes _ _
  | .forCounted mark init condition update block => by
    rw [checkStmt, Stmt.nodes, List.append_assoc, List.append_assoc, List.append_assoc]
    exact (checkStmt_writes body locals.push init).bind fun _ =>
      (Walking.Writes.lift (checkCondition_writes _ _ condition)).bind fun _ =>
        (checkBlock_writes _ _ block).bind fun _ =>
          (checkStmt_writes _ _ update).bind fun _ => done_writes _ _
  | .ifElse mark condition thenBlock elseBranch => by
    rw [checkStmt, Stmt.nodes, List.append_assoc, List.append_assoc]
    exact (Walking.Writes.lift (checkCondition_writes _ _ condition)).bind fun _ =>
      (checkBlock_writes _ _ thenBlock).bind fun _ =>
        (checkElse_writes _ _ elseBranch).bind fun _ => done_writes _ _
  | .expr mark value => by
    rw [checkStmt, Stmt.nodes]
    exact (Walking.Writes.lift (checkExprStmt_writes body locals mark value)).andPure _

theorem checkElse_writes (body : Body σ) (locals : ScopeStack) :
    ∀ s : Option Stmt, (checkElse body locals s).Writes (elseNodes s)
  | none => by
    rw [checkElse]
    exact .pure _
  | some s => by
    rw [checkElse]
    exact checkStmt_writes body locals s

theorem checkBlock_writes (body : Body σ) (locals : ScopeStack) :
    ∀ block : Block, (checkBlock body locals block).Writes block.nodes
  | .mk _ stmts => by
    rw [checkBlock]
    exact (checkStmts_writes body locals.push stmts).andPure _

theorem checkStmts_writes (body : Body σ) (locals : ScopeStack) :
    ∀ ss : List Stmt, (checkStmts body locals ss).Writes (stmtsNodes ss)
  | [] => by
    rw [checkStmts]
    exact .pure _
  | s :: ss => by
    rw [checkStmts, stmtsNodes]
    exact (checkStmt_writes body locals s).bind fun _ => checkStmts_writes body _ ss
end

/-! ## Functions and files -/

theorem declareParams_writes (locals : ScopeStack) (params : List TypedName) (types : List Ty) :
    (declareParams locals params types : Checking σ ScopeStack).Writes [] := by
  fun_induction declareParams (σ := σ) locals params types with
  | case1 locals p ps t ts ih => exact .andThen (declareName_writes _ _ _) fun _ => ih _
  | case2 => exact .pure _

theorem checkFn_writes (bundle : Bundle) (unit : SourceUnit) (builder : InstanceBuilder σ)
    (mark : Mark) (head : FnHead) (block : Block) :
    (checkFn bundle unit builder mark head block).Writes (Stmt.fnDecl mark head block).nodes := by
  unfold checkFn
  split
  · refine .andThen (.lift (declareParams_writes _ _ _)) fun locals => ?_
    cases block with
    | mk span stmts =>
      exact (checkStmts_writes _ _ stmts).bind fun _ => .lift (.record _ _)
  · exact .throw _

theorem checkItem_writes (bundle : Bundle) (unit : SourceUnit) (builder : InstanceBuilder σ)
    (s : Stmt) : (checkItem bundle unit builder s).Writes s.nodes := by
  cases s with
  | importDecl mark decl => exact .lift (.record _ _)
  | structDecl mark decl => exact .lift (.record _ _)
  | fnDecl mark head block => exact checkFn_writes bundle unit builder mark head block
  | _ => exact .throw _

end Typing

end Custody
