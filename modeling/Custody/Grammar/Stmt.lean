import Custody.Grammar.Expr

/-!
# Reading statements

Statements stand in blocks; declarations do not. A semicolon ends a statement unless a block does.
-/

set_option autoImplicit false

namespace Custody.Grammar

open Parse

/-- Statements up to but without the closing brace. -/
def stmts (stmt : Parse Stmt) : Nat → Parse (List Stmt)
  | 0 => giveUp
  | fuel + 1 => do
    if ← look fun c => c.check .rBrace || c.atEnd then
      return []
    let s ← stmt
    let ss ← stmts stmt fuel
    return s :: ss

/-- A block. -/
def block (stmt : Parse Stmt) (fuel : Nat) : Parse Block := do
  let first ← expect .lBrace
  let body ← stmts stmt fuel
  let last ← expect .rBrace
  return .mk (first.span.merge last.span) body

/-- A `let` without its semicolon: the name, its type and its value. -/
def binding (fuel : Nat) : Parse (Ident × Option TypeExpr × Expr) := do
  let _ ← expect .kwLet
  let name ← ident
  let _ ← expect .colon
  let type ←
    if ← check .eq then pure none
    else do
      let type ← typeExpr fuel
      pure (some type)
  let _ ← expect .eq
  let init ← expr fuel 1
  return (name, type, init)

/-- An assignment or an expression, without its semicolon. -/
def effect (fuel : Nat) : Parse (Mark → Stmt) := do
  let target ← expr fuel 1
  if ← check .eq then
    let _ ← advance
    let value ← expr fuel 1
    return fun mark => .assign mark target value
  else
    return fun mark => .expr mark target

/-- An `if` with its `else` branches. What follows `else` is another `if` or a block. -/
def ifStmt (body : Parse Block) (cond : Parse Expr) : Nat → Parse Stmt
  | 0 => giveUp
  | fuel + 1 => do
    let start := (← expect .kwIf).span
    let condition ← cond
    let thenBlock ← body
    let elseBranch ←
      if ← check .kwElse then do
        let _ ← advance
        if ← check .kwIf then do
          let branch ← ifStmt body cond fuel
          pure (some branch)
        else do
          let elseStart ← here
          let elseBlock ← body
          let mark ← finish elseStart
          pure (some (Stmt.scope mark elseBlock))
      else pure none
    return .ifElse (← finish start) condition thenBlock elseBranch

/-- A loop, over a counter or over the elements of a value. -/
def forStmt (body : Parse Block) (fuel : Nat) : Parse Stmt := do
  let start ← here
  let _ ← expect .kwFor
  if ← check .kwLet then
    let initStart ← here
    let (name, type, value) ← binding fuel
    let init := Stmt.letDecl (← finish initStart) name type value
    let _ ← expect .semicolon
    let condition ← expr fuel 1
    let _ ← expect .semicolon
    let updateStart ← here
    let update ← effect fuel
    let update := update (← finish updateStart)
    let body ← body
    return .forCounted (← finish start) init condition update body
  else
    let name ← ident
    let _ ← expect .colon
    let iterable ← expr fuel 1
    let body ← body
    return .forEach (← finish start) name iterable body

/-- A `return` with an optional value. -/
def returnStmt (fuel : Nat) : Parse Stmt := do
  let start ← here
  let _ ← advance
  let value ←
    if ← check .semicolon then pure none
    else do
      let value ← expr fuel 1
      pure (some value)
  let _ ← expect .semicolon
  return .returnStmt (← finish start) value

/-- A statement of one word. -/
def wordStmt (node : Mark → Stmt) : Parse Stmt := do
  let start ← here
  let _ ← advance
  let _ ← expect .semicolon
  return node (← finish start)

/-- A `let` with its semicolon. -/
def letStmt (fuel : Nat) : Parse Stmt := do
  let start ← here
  let (name, type, init) ← binding fuel
  let _ ← expect .semicolon
  return .letDecl (← finish start) name type init

/-- A nested block. -/
def scopeStmt (body : Parse Block) : Parse Stmt := do
  let start ← here
  let body ← body
  return .scope (← finish start) body

/-- An assignment or an expression, with its semicolon. -/
def effectStmt (fuel : Nat) : Parse Stmt := do
  let start ← here
  let node ← effect fuel
  let _ ← expect .semicolon
  return node (← finish start)

/-- A statement, nested at most `fuel` deep. -/
def stmt : Nat → Parse Stmt
  | 0 => giveUp
  | fuel + 1 => do
    let body := block (stmt fuel) fuel
    match (← current).kind with
    | .kwLet => letStmt fuel
    | .lBrace => scopeStmt body
    | .kwReturn => returnStmt fuel
    | .kwBreak => wordStmt .breakStmt
    | .kwContinue => wordStmt .continueStmt
    | .kwIf => ifStmt body (expr fuel 1) fuel
    | .kwFor => forStmt body fuel
    | .kwFn => fail (.nestedDeclaration .kwFn)
    | .kwStruct => fail (.nestedDeclaration .kwStruct)
    | .kwImport => fail (.nestedDeclaration .kwImport)
    | _ => effectStmt fuel

end Custody.Grammar
