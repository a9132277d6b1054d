import Custody.Typing.Expr

/-!
# Types of statements

A statement may declare a name in the innermost scope; the scopes behind a statement are its result.
Blocks and loops open scopes and close them again. A declaration inside a body is a structural
fault.
-/

set_option autoImplicit false

namespace Custody.Typing

open Checking

variable {σ : Type}

/-- What holds throughout the body of a function, but for the depth of loops. -/
structure Body (σ : Type) where
  place : Place
  builder : InstanceBuilder σ
  returnType : Ty
  loopDepth : Nat

namespace Body

/-- The body inside one more loop. -/
def inLoop (body : Body σ) : Body σ := { body with loopDepth := body.loopDepth + 1 }

/-- Types an expression of the body. -/
def expr (body : Body σ) (locals : ScopeStack) (e : Expr) : Checking σ Ty :=
  checkExpr body.place body.builder locals e

end Body

/-- Declares a name in the innermost scope; one that is there already is reported. -/
def declareName (locals : ScopeStack) (name : Ident) (type : Ty) : Checking σ ScopeStack :=
  match locals.declare name.name type with
  | .ok locals => pure locals
  | .error _ => do
    report name.span (.duplicateDeclaration name.name)
    return locals

/-- The type that a `let` gives its name: the declared one, which the value has to fit, or the type
of the value, which must not be `void`. -/
def letType (body : Body σ) (name : Ident) (type : Option TypeExpr) (init : Typed) :
    Checking σ Ty := do
  match type with
  | some type =>
    let declared ← body.place.resolve body.builder type
    expectType init declared
    return declared
  | none =>
    match init.type with
    | .void =>
      report init.span (.voidBinding name.name)
      return .any
    | t => return t

/-- Ends a statement that has no value. -/
def done (mark : Mark) (locals : ScopeStack) : Walking σ ScopeStack := .lift do
  record mark.id .void
  return locals

/-- Types a `let`, and declares its name behind its value. -/
def checkLet (body : Body σ) (locals : ScopeStack) (mark : Mark) (name : Ident)
    (type : Option TypeExpr) (init : Expr) : Checking σ ScopeStack := do
  let t ← body.expr locals init
  let bound ← letType body name type ⟨init.span, t⟩
  let locals ← declareName locals name bound
  record mark.id bound
  return locals

/-- Types an assignment: the value has to fit the target. -/
def checkAssign (body : Body σ) (locals : ScopeStack) (mark : Mark) (target value : Expr) :
    Checking σ Unit := do
  unless isAssignable target do
    report target.span .invalidAssignTarget
  let t ← body.expr locals target
  let v ← body.expr locals value
  expectType ⟨value.span, v⟩ t
  record mark.id .void

/-- Types a `return`: without a value it gives `void`. -/
def checkReturn (body : Body σ) (locals : ScopeStack) (mark : Mark) (value : Option Expr) :
    Checking σ Unit := do
  match value with
  | none => expectType ⟨mark.span, .void⟩ body.returnType
  | some value =>
    let t ← body.expr locals value
    expectType ⟨value.span, t⟩ body.returnType
  record mark.id .void

/-- Types a word that only makes sense inside a loop. -/
def checkJump (body : Body σ) (mark : Mark) (word : String) : Checking σ Unit := do
  if body.loopDepth = 0 then
    report mark.span (.outsideLoop word)
  record mark.id .void

/-- Types a condition. -/
def checkCondition (body : Body σ) (locals : ScopeStack) (condition : Expr) : Checking σ Unit := do
  let t ← body.expr locals condition
  expectType ⟨condition.span, t⟩ .bool

/-- Types what a loop goes over, and declares the name of the elements. -/
def checkEachHead (body : Body σ) (locals : ScopeStack) (name : Ident) (iterable : Expr) :
    Checking σ ScopeStack := do
  let t ← body.expr locals iterable
  let element ← elementType ⟨iterable.span, t⟩
  declareName locals name element

/-- Types an expression that stands as a statement, which has the type of the expression. -/
def checkExprStmt (body : Body σ) (locals : ScopeStack) (mark : Mark) (value : Expr) :
    Checking σ Unit := do
  let t ← body.expr locals value
  record mark.id t

mutual
/-- Types a statement and all its parts; gives the scopes behind it. -/
def checkStmt (body : Body σ) (locals : ScopeStack) : Stmt → Walking σ ScopeStack
  | .importDecl mark _ => throw (.declarationInBody "import" mark.span)
  | .structDecl mark _ => throw (.declarationInBody "struct" mark.span)
  | .fnDecl mark _ _ => throw (.declarationInBody "fn" mark.span)
  | .letDecl mark name type init => .lift (checkLet body locals mark name type init)
  | .scope mark block => do
    let locals ← checkBlock body locals block
    done mark locals
  | .assign mark target value => do
    .lift (checkAssign body locals mark target value)
    return locals
  | .returnStmt mark value => do
    .lift (checkReturn body locals mark value)
    return locals
  | .breakStmt mark => do
    .lift (checkJump body mark "break")
    return locals
  | .continueStmt mark => do
    .lift (checkJump body mark "continue")
    return locals
  | .forEach mark name iterable block => do
    let inner ← .lift (checkEachHead body locals.push name iterable)
    let inner ← checkBlock body.inLoop inner block
    done mark inner.pop
  | .forCounted mark init condition update block => do
    let inner ← checkStmt body locals.push init
    .lift (checkCondition body inner condition)
    let inner ← checkBlock body.inLoop inner block
    let inner ← checkStmt body inner update
    done mark inner.pop
  | .ifElse mark condition thenBlock elseBranch => do
    .lift (checkCondition body locals condition)
    let locals ← checkBlock body locals thenBlock
    let locals ← checkElse body locals elseBranch
    done mark locals
  | .expr mark value => do
    .lift (checkExprStmt body locals mark value)
    return locals

/-- Types an `else`, if there is one. -/
def checkElse (body : Body σ) (locals : ScopeStack) : Option Stmt → Walking σ ScopeStack
  | none => return locals
  | some s => checkStmt body locals s

/-- Types a block in a scope of its own. -/
def checkBlock (body : Body σ) (locals : ScopeStack) : Block → Walking σ ScopeStack
  | .mk _ stmts => do
    let inner ← checkStmts body locals.push stmts
    return inner.pop

/-- Types statements, in order. -/
def checkStmts (body : Body σ) (locals : ScopeStack) : List Stmt → Walking σ ScopeStack
  | [] => return locals
  | s :: ss => do
    let locals ← checkStmt body locals s
    checkStmts body locals ss
end

end Custody.Typing
