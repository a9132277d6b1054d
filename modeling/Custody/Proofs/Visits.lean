import Custody.Proofs.TypeTables

/-!
# Runs of the expression check

The check of a file calls the check of expressions once for every expression in it. `stmtVisits` and
`itemsVisits` list these runs in their order, as `exprVisits` does for a single expression.

A check that gets through visits exactly the expressions of its tree, and records for each of them
the type that the run gives (`checkItems_traces`).
-/

set_option autoImplicit false

namespace Custody

/-! ## The expressions of a tree -/

mutual
/-- The expressions in a statement, in the order in which a check comes by. -/
def Stmt.exprs : Stmt → List Expr
  | .importDecl _ _ => []
  | .structDecl _ _ => []
  | .fnDecl _ _ body => body.exprs
  | .letDecl _ _ _ init => init.parts
  | .scope _ body => body.exprs
  | .assign _ target value => target.parts ++ value.parts
  | .returnStmt _ none => []
  | .returnStmt _ (some value) => value.parts
  | .breakStmt _ => []
  | .continueStmt _ => []
  | .forEach _ _ iterable body => iterable.parts ++ body.exprs
  | .forCounted _ init condition update body =>
    init.exprs ++ (condition.parts ++ (body.exprs ++ update.exprs))
  | .ifElse _ condition thenBlock elseBranch =>
    condition.parts ++ (thenBlock.exprs ++ elseExprs elseBranch)
  | .expr _ value => value.parts

/-- The expressions behind an `else`, if there is one. -/
def elseExprs : Option Stmt → List Expr
  | none => []
  | some s => s.exprs

/-- The expressions in a block. -/
def Block.exprs : Block → List Expr
  | .mk _ stmts => stmtsExprs stmts

/-- The expressions in statements. -/
def stmtsExprs : List Stmt → List Expr
  | [] => []
  | s :: ss => s.exprs ++ stmtsExprs ss
end

/-! ## Runs -/

variable {σ α β : Type}

namespace Typing

open Checking

/-- The runs inside a check, and then those inside what follows it, if the check gets through. -/
def thenVisits (x : Walking σ α) (first : σ → List (Visit σ)) (next : α → σ → List (Visit σ)) :
    σ → List (Visit σ) := fun s =>
  first s ++
    match (x.run s).value with
    | .ok a => next a (x.run s).instances
    | .error _ => []

/-- The runs inside the check of an expression of a body. -/
def Body.visits (body : Body σ) (locals : ScopeStack) (e : Expr) : σ → List (Visit σ) :=
  exprVisits body.place body.builder locals e

mutual
/-- The runs inside the check of a statement. -/
def stmtVisits (body : Body σ) (locals : ScopeStack) : Stmt → σ → List (Visit σ)
  | .importDecl _ _ => fun _ => []
  | .structDecl _ _ => fun _ => []
  | .fnDecl _ _ _ => fun _ => []
  | .letDecl _ _ _ init => body.visits locals init
  | .scope _ block => blockVisits body locals block
  | .assign _ target value =>
    thenVisits (.lift (body.expr locals target)) (body.visits locals target) fun _ =>
      body.visits locals value
  | .returnStmt _ none => fun _ => []
  | .returnStmt _ (some value) => body.visits locals value
  | .breakStmt _ => fun _ => []
  | .continueStmt _ => fun _ => []
  | .forEach _ name iterable block =>
    thenVisits (.lift (checkEachHead body locals.push name iterable))
      (body.visits locals.push iterable) fun inner => blockVisits body.inLoop inner block
  | .forCounted _ init condition update block =>
    thenVisits (checkStmt body locals.push init) (stmtVisits body locals.push init) fun inner =>
      thenVisits (.lift (checkCondition body inner condition))
        (body.visits inner condition) fun _ =>
        thenVisits (checkBlock body.inLoop inner block) (blockVisits body.inLoop inner block)
          fun inner => stmtVisits body inner update
  | .ifElse _ condition thenBlock elseBranch =>
    thenVisits (.lift (checkCondition body locals condition))
      (body.visits locals condition) fun _ =>
      thenVisits (checkBlock body locals thenBlock) (blockVisits body locals thenBlock)
        fun locals => elseVisits body locals elseBranch
  | .expr _ value => body.visits locals value

/-- The runs inside the check of an `else`, if there is one. -/
def elseVisits (body : Body σ) (locals : ScopeStack) : Option Stmt → σ → List (Visit σ)
  | none => fun _ => []
  | some s => stmtVisits body locals s

/-- The runs inside the check of a block. -/
def blockVisits (body : Body σ) (locals : ScopeStack) : Block → σ → List (Visit σ)
  | .mk _ stmts => stmtsVisits body locals.push stmts

/-- The runs inside the check of statements. -/
def stmtsVisits (body : Body σ) (locals : ScopeStack) : List Stmt → σ → List (Visit σ)
  | [] => fun _ => []
  | s :: ss =>
    thenVisits (checkStmt body locals s) (stmtVisits body locals s) fun locals =>
      stmtsVisits body locals ss
end

/-- The runs inside the check of a function. -/
def fnVisits (b : Bundle) (u : SourceUnit) (builder : InstanceBuilder σ) (head : FnHead)
    (block : Block) : σ → List (Visit σ) :=
  match u.functions.get? head.name.name with
  | some (.fn _ params result) =>
    thenVisits (.lift (declareParams .empty head.params params)) (fun _ => []) fun locals =>
      stmtsVisits ⟨b.placeOf u head.generics, builder, result, 0⟩ locals block.stmts
  | _ => fun _ => []

/-- The runs inside the check of an item. -/
def itemVisits (b : Bundle) (u : SourceUnit) (builder : InstanceBuilder σ) :
    Stmt → σ → List (Visit σ)
  | .fnDecl _ head block => fnVisits b u builder head block
  | _ => fun _ => []

/-- The runs inside the check of items. -/
def itemsVisits (b : Bundle) (u : SourceUnit) (builder : InstanceBuilder σ) :
    List Stmt → σ → List (Visit σ)
  | [] => fun _ => []
  | s :: ss =>
    thenVisits (checkItem b u builder s) (itemVisits b u builder s) fun _ =>
      itemsVisits b u builder ss

/-- A check that gets through visits the given expressions and records the type of each run, in
their order. -/
def Traces (builder : InstanceBuilder σ) (x : Walking σ α) (visits : σ → List (Visit σ))
    (exprs : List Expr) : Prop :=
  ∀ s a, (x.run s).value = .ok a → (visits s).map Visit.expr = exprs ∧
    ((visits s).map (Visit.entry builder)).Sublist (x.run s).log.types

namespace Traces

variable {builder : InstanceBuilder σ} {x : Walking σ α} {f : α → Walking σ β}
  {visits : σ → List (Visit σ)} {next : α → σ → List (Visit σ)} {exprs exprs' : List Expr}

theorem none : Traces builder x (fun _ => []) [] := by
  intro s a _
  exact ⟨rfl, List.nil_sublist _⟩

theorem throw (fault : StructuralFault) :
    Traces builder (throw fault : Walking σ α) visits exprs := by
  intro s a h
  cases h

/-- What is recorded later takes nothing away. -/
theorem andThen (hx : Traces builder x visits exprs) : Traces builder (x >>= f) visits exprs := by
  intro s b h
  obtain ⟨a, ha, -, hlog⟩ := Walking.bind_ok h
  obtain ⟨hexprs, hsub⟩ := hx s a ha
  rw [hlog, Log.types_append]
  exact ⟨hexprs, hsub.trans (List.sublist_append_left _ _)⟩

theorem bind (hx : Traces builder x visits exprs)
    (hf : ∀ a, Traces builder (f a) (next a) exprs') :
    Traces builder (x >>= f) (thenVisits x visits next) (exprs ++ exprs') := by
  intro s b h
  obtain ⟨a, ha, hb, hlog⟩ := Walking.bind_ok h
  obtain ⟨hexprs, hsub⟩ := hx s a ha
  obtain ⟨hexprs', hsub'⟩ := hf a _ b hb
  have hvisits : thenVisits x visits next s = visits s ++ next a (x.run s).instances := by
    simp only [thenVisits, ha]
  rw [hvisits, hlog, List.map_append, List.map_append, hexprs, hexprs']
  exact ⟨rfl, hsub.append hsub'⟩

/-- A check that never stops is one that always gets through. -/
theorem lift {x : Checking σ α}
    (h : ∀ s, (visits s).map Visit.expr = exprs ∧
      ((visits s).map (Visit.entry builder)).Sublist (x s).log.types) :
    Traces builder (Walking.lift x) visits exprs := by
  intro s a _
  rw [Walking.lift_run]
  exact h s

end Traces

section Stmts

variable {body : Body σ} {locals : ScopeStack}

/-- The expression that a check starts with is visited, whatever the check does behind it. -/
theorem visits_first (e : Expr) (f : Ty → Checking σ α) (s : σ) :
    (body.visits locals e s).map Visit.expr = e.parts ∧
      ((body.visits locals e s).map (Visit.entry body.builder)).Sublist
        ((body.expr locals e >>= f) s).log.types := by
  refine ⟨map_expr_exprVisits _ _ _ e s, ?_⟩
  rw [bind_eq, Log.types_append, Body.expr, types_checkExpr]
  exact List.sublist_append_left _ _

theorem checkAssign_traces (mark : Mark) (target value : Expr) :
    Traces body.builder (.lift (checkAssign body locals mark target value))
      (thenVisits (.lift (body.expr locals target)) (body.visits locals target) fun _ =>
        body.visits locals value) (target.parts ++ value.parts) := by
  have hrest : ∀ s, ((body.visits locals target s ++
      body.visits locals value (body.expr locals target s).instances).map
        (Visit.entry body.builder)).Sublist
      ((body.expr locals target >>= fun t => body.expr locals value >>= fun v =>
        expectType ⟨value.span, v⟩ t >>= fun _ => record mark.id .void) s).log.types := by
    intro s
    rw [List.map_append, bind_eq, Log.types_append]
    refine List.Sublist.append ?_ (visits_first value _ _).2
    rw [Body.expr, types_checkExpr]
    exact List.Sublist.refl _
  refine .lift fun s => ⟨?_, ?_⟩
  · rw [thenVisits, Walking.lift_run, List.map_append]
    exact congrArg₂ (· ++ ·) (map_expr_exprVisits _ _ _ target s)
      (map_expr_exprVisits _ _ _ value _)
  · change (List.map _ (body.visits locals target s ++
      body.visits locals value (body.expr locals target s).instances)).Sublist _
    -- A target that cannot be assigned to is reported, and nothing is recorded for the report.
    unfold checkAssign
    split
    · exact hrest s
    · exact hrest s

mutual
/-- The check of a statement visits every expression in it. -/
theorem checkStmt_traces : ∀ (s : Stmt) (body : Body σ) (locals : ScopeStack),
    Traces body.builder (checkStmt body locals s) (stmtVisits body locals s) s.exprs
  | .importDecl _ _, _, _ => .throw _
  | .structDecl _ _, _, _ => .throw _
  | .fnDecl _ _ _, _, _ => .throw _
  | .letDecl _ _ _ init, _, _ => .lift (visits_first init _)
  | .scope _ block, body, locals => by
    rw [checkStmt, stmtVisits, Stmt.exprs]
    exact (checkBlock_traces block body locals).andThen
  | .assign mark target value, body, locals => by
    rw [checkStmt, stmtVisits, Stmt.exprs]
    exact (checkAssign_traces mark target value).andThen
  | .returnStmt _ none, _, _ => .none
  | .returnStmt _ (some value), _, _ | .expr _ value, _, _ =>
    .andThen (.lift (visits_first value _))
  | .breakStmt _, _, _ => .none
  | .continueStmt _, _, _ => .none
  | .forEach _ name iterable block, body, locals => by
    rw [checkStmt, stmtVisits, Stmt.exprs]
    refine .bind (.lift (visits_first iterable _)) fun inner => ?_
    exact (checkBlock_traces block body.inLoop inner).andThen
  | .forCounted _ init condition update block, body, locals => by
    rw [checkStmt, stmtVisits, Stmt.exprs]
    refine .bind (checkStmt_traces init body locals.push) fun inner => ?_
    refine .bind (.lift (visits_first condition _)) fun _ => ?_
    refine .bind (checkBlock_traces block body.inLoop inner) fun inner' => ?_
    exact (checkStmt_traces update body inner').andThen
  | .ifElse _ condition thenBlock elseBranch, body, locals => by
    rw [checkStmt, stmtVisits, Stmt.exprs]
    refine .bind (.lift (visits_first condition _)) fun _ => ?_
    refine .bind (checkBlock_traces thenBlock body locals) fun locals' => ?_
    exact (checkElse_traces elseBranch body locals').andThen

theorem checkElse_traces : ∀ (s : Option Stmt) (body : Body σ) (locals : ScopeStack),
    Traces body.builder (checkElse body locals s) (elseVisits body locals s) (elseExprs s)
  | none, _, _ => .none
  | some s, body, locals => checkStmt_traces s body locals

theorem checkBlock_traces : ∀ (block : Block) (body : Body σ) (locals : ScopeStack),
    Traces body.builder (checkBlock body locals block) (blockVisits body locals block) block.exprs
  | .mk _ stmts, body, locals => (checkStmts_traces stmts body locals.push).andThen

theorem checkStmts_traces : ∀ (ss : List Stmt) (body : Body σ) (locals : ScopeStack),
    Traces body.builder (checkStmts body locals ss) (stmtsVisits body locals ss) (stmtsExprs ss)
  | [], _, _ => .none
  | s :: ss, body, locals => by
    rw [checkStmts, stmtsVisits, stmtsExprs]
    exact .bind (checkStmt_traces s body locals) fun locals' => checkStmts_traces ss body locals'
end

end Stmts

/-! ## Files -/

section Items

variable (b : Bundle) (u : SourceUnit) (builder : InstanceBuilder σ)

theorem checkFn_traces (mark : Mark) (head : FnHead) (block : Block) :
    Traces builder (checkFn b u builder mark head block) (fnVisits b u builder head block)
      block.exprs := by
  unfold checkFn fnVisits
  cases u.functions.get? head.name.name with
  | none => exact .throw _
  | some type =>
    cases type with
    | fn arity params result =>
      obtain ⟨span, stmts⟩ := block
      refine Traces.none.bind fun locals => ?_
      exact (checkStmts_traces stmts ⟨b.placeOf u head.generics, builder, result, 0⟩ locals).andThen
    | _ => exact .throw _

theorem checkItem_traces (s : Stmt) :
    Traces builder (checkItem b u builder s) (itemVisits b u builder s) s.exprs := by
  cases s with
  | importDecl mark decl => exact .none
  | structDecl mark decl => exact .none
  | fnDecl mark head block => exact checkFn_traces b u builder mark head block
  | _ => exact .throw _

/-- The check of items visits every expression in them. -/
theorem checkItems_traces (items : List Stmt) :
    Traces builder (checkItems b u builder items) (itemsVisits b u builder items)
      (stmtsExprs items) := by
  induction items with
  | nil => exact .none
  | cons s ss ih =>
    rw [checkItems, itemsVisits, stmtsExprs]
    exact .bind (checkItem_traces b u builder s) fun _ => ih

end Items

end Typing

end Custody
