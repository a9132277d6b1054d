import Custody.Proofs.NameMap
import Custody.Proofs.Names
import Custody.Proofs.Records

/-!
# Scopes are closed as they are opened

What the check of a statement does to the scopes around it. Whatever is inside the statement, it
leaves all scopes but the innermost one alone, and the innermost one gains at most the name that the
statement itself binds (`Typing.checkStmt_gains`).

A check can also be run on a state that is changed in place: scopes are pushed and popped around
blocks and loop heads, and the depth of loops goes up and down around loop bodies
(`Typing.stepStmt`). Each form of a statement undoes what it does, so that such a run is the check
that is handed its surroundings (`Typing.stepStmt_eq`).
-/

set_option autoImplicit false

namespace Custody

variable {σ α β : Type}

instance : LawfulMonad (Checking σ) :=
  LawfulMonad.mk' _
    (fun x => by
      funext s
      change (⟨(x s).value, (x s).instances, (x s).log ++ .empty⟩ : Checked σ _) = x s
      rw [Log.append_empty])
    (fun _ _ => rfl)
    (fun x f g => by
      funext s
      simp only [Checking.bind_eq, Log.append_assoc])

/-! ## Gained names -/

namespace ScopeStack

/-- The stack has gained at most one name: the given one, if there is one, and only if it is new to
the innermost scope. -/
inductive Gains (locals : ScopeStack) (bound : Option Ident) : ScopeStack → Prop
  | nothing : Gains locals bound locals
  | name {x : Ident} (t : Ty) (hbound : bound = some x) (hnew : locals.inner.get? x.name = none) :
      Gains locals bound ⟨⟨locals.inner.entries ++ [(x.name, t)]⟩, locals.outer⟩

variable {locals locals' : ScopeStack} {bound : Option Ident}

theorem Gains.outer (h : locals.Gains bound locals') : locals'.outer = locals.outer := by
  cases h with
  | nothing => rfl
  | name t hbound hnew => rfl

theorem Gains.depth (h : locals.Gains bound locals') : locals'.depth = locals.depth := by
  rw [ScopeStack.depth, h.outer, ScopeStack.depth]

theorem gains_of_declare {x : Ident} {t : Ty} (h : locals.declare x.name t = .ok locals') :
    locals.Gains (some x) locals' := by
  obtain ⟨hinsert, houter⟩ := declare_ok h
  obtain ⟨inner', outer'⟩ := locals'
  cases houter
  unfold NameMap.insertNew at hinsert
  cases hget : locals.inner.get? x.name with
  | some existing =>
    rw [hget] at hinsert
    cases hinsert
  | none =>
    rw [hget] at hinsert
    cases hinsert
    exact .name t rfl hget

end ScopeStack

mutual
/-- The name that a statement leaves in the scope around it. Behind an `else` any statement could
stand in a tree, also a `let`. -/
def Stmt.bound? : Stmt → Option Ident
  | .letDecl _ name _ _ => some name
  | .ifElse _ _ _ elseBranch => elseBound? elseBranch
  | _ => none

/-- The name that is left behind an `else`. -/
def elseBound? : Option Stmt → Option Ident
  | none => none
  | some s => s.bound?
end

mutual
/-- Whether behind each `else` of the statement itself there is a block or another `if`. -/
def Stmt.elseShaped : Stmt → Bool
  | .ifElse _ _ _ elseBranch => elseShapedBranch elseBranch
  | _ => true

/-- Whether an `else` is followed by a block or another `if`, and so on. -/
def elseShapedBranch : Option Stmt → Bool
  | none => true
  | some s => s.isBranch && s.elseShaped
end

mutual
/-- With blocks behind `else`, an `if` binds nothing. -/
theorem Stmt.bound?_of_isBranch :
    ∀ s : Stmt, s.isBranch = true → s.elseShaped = true → s.bound? = none
  | .scope _ _, _, _ => rfl
  | .ifElse _ _ _ elseBranch, _, hshape => elseBound?_of_elseShaped elseBranch hshape

theorem elseBound?_of_elseShaped : ∀ branch : Option Stmt, elseShapedBranch branch = true →
    elseBound? branch = none
  | none, _ => rfl
  | some s, hshape => by
    obtain ⟨hbranch, hshape⟩ := Bool.and_eq_true_iff.1 hshape
    exact s.bound?_of_isBranch hbranch hshape
end

/-- With blocks behind `else`, only a `let` binds a name. -/
theorem Stmt.bound?_eq_declared (s : Stmt) (hshape : s.elseShaped = true) :
    s.bound? = s.declared.head? := by
  cases s with
  | ifElse mark condition thenBlock elseBranch => exact elseBound?_of_elseShaped elseBranch hshape
  | _ => rfl

/-! ## What checks return -/

namespace Walking

/-- Whatever a check returns has the property. -/
def Returns (P : α → Prop) (x : Walking σ α) : Prop := ∀ s a, (x.run s).value = .ok a → P a

namespace Returns

variable {P : α → Prop} {R : β → Prop} {x : Walking σ α} {f : α → Walking σ β}

theorem pure {a : α} (h : P a) : Returns P (Pure.pure a : Walking σ α) := by
  intro s a' hok
  cases hok
  exact h

theorem throw (fault : StructuralFault) : Returns P (throw fault : Walking σ α) := by
  intro s a hok
  cases hok

theorem lift {x : Checking σ α} (h : ∀ s, P (x s).value) : Returns P (lift x) := by
  intro s a hok
  rw [lift_run] at hok
  cases hok
  exact h s

theorem bind (hx : Returns P x) (hf : ∀ a, P a → Returns R (f a)) : Returns R (x >>= f) := by
  intro s b hok
  obtain ⟨a, ha, hb, -⟩ := bind_ok hok
  exact hf a (hx s a ha) _ b hb

/-- What the first part returns does not matter. -/
theorem andThen (hf : ∀ a, Returns R (f a)) : Returns R (x >>= f) := by
  intro s b hok
  obtain ⟨a, -, hb, -⟩ := bind_ok hok
  exact hf a _ b hb

end Returns

end Walking

namespace Typing

open Walking

section Gains

variable {body : Body σ} {locals : ScopeStack}

theorem declareName_gains (locals : ScopeStack) (name : Ident) (t : Ty) (s : σ) :
    locals.Gains (some name) (declareName locals name t s).value := by
  unfold declareName
  cases h : locals.declare name.name t with
  | ok locals' => exact ScopeStack.gains_of_declare h
  | error existing => exact .nothing

theorem checkLet_gains (mark : Mark) (name : Ident) (type : Option TypeExpr) (init : Expr) (s : σ) :
    locals.Gains (some name) (checkLet body locals mark name type init s).value :=
  declareName_gains locals name _ _

theorem checkEachHead_gains (name : Ident) (iterable : Expr) (s : σ) :
    locals.Gains (some name) (checkEachHead body locals name iterable s).value :=
  declareName_gains locals name _ _

theorem done_returns {mark : Mark} {locals' : ScopeStack} {P : ScopeStack → Prop} (h : P locals') :
    Returns P (done mark locals' : Walking σ ScopeStack) := .lift fun _ => h

mutual
/-- A statement that is checked leaves the outer scopes alone and adds at most its own name to the
innermost one. -/
theorem checkStmt_gains : ∀ (s : Stmt) (body : Body σ) (locals : ScopeStack),
    Returns (locals.Gains s.bound?) (checkStmt body locals s)
  | .importDecl _ _, _, _ => .throw _
  | .structDecl _ _, _, _ => .throw _
  | .fnDecl _ _ _, _, _ => .throw _
  | .letDecl mark name type init, _, _ => .lift (checkLet_gains mark name type init)
  | .scope _ block, body, locals => by
    rw [checkStmt]
    refine (checkBlock_keeps block body locals).bind fun locals' hkept => ?_
    exact done_returns (hkept ▸ .nothing)
  | .assign _ _ _, _, _ | .returnStmt _ _, _, _ | .breakStmt _, _, _ | .continueStmt _, _, _
  | .expr _ _, _, _ =>
    .andThen fun _ => .pure .nothing
  | .forEach _ name iterable block, body, locals => by
    rw [checkStmt]
    refine Returns.bind (.lift (checkEachHead_gains name iterable)) fun inner hinner => ?_
    refine (checkBlock_keeps block body.inLoop inner).bind fun inner' hkept => ?_
    -- The scope of the head is the one that is closed again.
    subst hkept
    refine done_returns ?_
    rw [ScopeStack.pop_eq hinner.outer]
    exact .nothing
  | .forCounted _ init condition update block, body, locals => by
    rw [checkStmt]
    refine (checkStmt_gains init body locals.push).bind fun inner hinner => ?_
    refine Returns.andThen fun _ => ?_
    refine (checkBlock_keeps block body.inLoop inner).bind fun inner' hkept => ?_
    subst hkept
    refine (checkStmt_gains update body inner).bind fun inner' hupdate => ?_
    refine done_returns ?_
    rw [ScopeStack.pop_eq (hupdate.outer.trans hinner.outer)]
    exact .nothing
  | .ifElse _ condition thenBlock elseBranch, body, locals => by
    rw [checkStmt]
    refine Returns.andThen fun _ => ?_
    refine (checkBlock_keeps thenBlock body locals).bind fun locals' hkept => ?_
    subst hkept
    exact (checkElse_gains elseBranch body locals).bind fun locals' helse => done_returns helse

theorem checkElse_gains : ∀ (branch : Option Stmt) (body : Body σ) (locals : ScopeStack),
    Returns (locals.Gains (elseBound? branch)) (checkElse body locals branch)
  | none, _, _ => .pure .nothing
  | some s, body, locals => checkStmt_gains s body locals

/-- A block leaves all scopes as they are. -/
theorem checkBlock_keeps : ∀ (block : Block) (body : Body σ) (locals : ScopeStack),
    Returns (locals = ·) (checkBlock body locals block)
  | .mk _ stmts, body, locals =>
    (checkStmts_outer stmts body locals.push).bind fun _ houter =>
      .pure (ScopeStack.pop_eq houter).symm

theorem checkStmts_outer : ∀ (ss : List Stmt) (body : Body σ) (locals : ScopeStack),
    Returns (fun locals' => locals'.outer = locals.outer) (checkStmts body locals ss)
  | [], _, _ => .pure rfl
  | s :: ss, body, locals => by
    rw [checkStmts]
    refine (checkStmt_gains s body locals).bind fun locals' hgains => ?_
    intro i locals'' hok
    exact (checkStmts_outer ss body locals' i locals'' hok).trans hgains.outer
end

end Gains

/-! ## Checks on a state -/

/-- What a check changes in place on its way through a function. -/
structure CheckerState where
  generics : List String
  returnType : Ty
  loopDepth : Nat
  locals : ScopeStack

/-- A check that changes such a state. -/
abbrev Stepping (σ : Type) : Type → Type := StateT CheckerState (Walking σ)

/-- What stays the same throughout a check. -/
structure Setting (σ : Type) where
  bundle : Bundle
  unit : SourceUnit
  builder : InstanceBuilder σ

section Steps

variable (setting : Setting σ)

/-- The body that a state stands for. -/
def Setting.body (st : CheckerState) : Body σ :=
  ⟨⟨setting.bundle, setting.unit, st.generics⟩, setting.builder, st.returnType, st.loopDepth⟩

/-- A check in the surroundings of the state, which puts its scopes into the state. -/
def Setting.run (x : Body σ → ScopeStack → Walking σ ScopeStack) : Stepping σ Unit := fun st => do
  let locals ← x (setting.body st) st.locals
  return ((), { st with locals })

/-- Opens a scope. -/
def pushScope : Stepping σ Unit := modify fun st => { st with locals := st.locals.push }

/-- Closes the innermost scope. -/
def popScope : Stepping σ Unit := modify fun st => { st with locals := st.locals.pop }

/-- Runs the body of a loop, one level deeper. -/
def looped (x : Stepping σ Unit) : Stepping σ Unit := do
  modify fun st => { st with loopDepth := st.loopDepth + 1 }
  x
  modify fun st => { st with loopDepth := st.loopDepth - 1 }

mutual
/-- Types a statement and all its parts. -/
def stepStmt : Stmt → Stepping σ Unit
  | .importDecl mark _ => setting.run fun _ _ => throw (.declarationInBody "import" mark.span)
  | .structDecl mark _ => setting.run fun _ _ => throw (.declarationInBody "struct" mark.span)
  | .fnDecl mark _ _ => setting.run fun _ _ => throw (.declarationInBody "fn" mark.span)
  | .letDecl mark name type init =>
    setting.run fun body locals => .lift (checkLet body locals mark name type init)
  | .scope mark block => do
    stepBlock block
    setting.run fun _ => done mark
  | .assign mark target value => setting.run fun body locals => do
    .lift (checkAssign body locals mark target value)
    return locals
  | .returnStmt mark value => setting.run fun body locals => do
    .lift (checkReturn body locals mark value)
    return locals
  | .breakStmt mark => setting.run fun body locals => do
    .lift (checkJump body mark "break")
    return locals
  | .continueStmt mark => setting.run fun body locals => do
    .lift (checkJump body mark "continue")
    return locals
  | .forEach mark name iterable block => do
    pushScope
    setting.run fun body locals => .lift (checkEachHead body locals name iterable)
    looped (stepBlock block)
    popScope
    setting.run fun _ => done mark
  | .forCounted mark init condition update block => do
    pushScope
    stepStmt init
    setting.run fun body locals => do
      .lift (checkCondition body locals condition)
      return locals
    looped (stepBlock block)
    stepStmt update
    popScope
    setting.run fun _ => done mark
  | .ifElse mark condition thenBlock elseBranch => do
    setting.run fun body locals => do
      .lift (checkCondition body locals condition)
      return locals
    stepBlock thenBlock
    stepElse elseBranch
    setting.run fun _ => done mark
  | .expr mark value => setting.run fun body locals => do
    .lift (checkExprStmt body locals mark value)
    return locals

/-- Types an `else`, if there is one. -/
def stepElse : Option Stmt → Stepping σ Unit
  | none => return ()
  | some s => stepStmt s

/-- Types a block in a scope of its own. -/
def stepBlock : Block → Stepping σ Unit
  | .mk _ stmts => do
    pushScope
    stepStmts stmts
    popScope

/-- Types statements, in order. -/
def stepStmts : List Stmt → Stepping σ Unit
  | [] => return ()
  | s :: ss => do
    stepStmt s
    stepStmts ss
end

/-! ### What a run amounts to -/

variable (x y : Body σ → ScopeStack → Walking σ ScopeStack) (k : Unit → Stepping σ Unit)

/-- One check after another, in the same surroundings. -/
theorem run_bind : (setting.run x >>= fun _ => setting.run y) =
    setting.run fun body locals => x body locals >>= fun locals => y body locals := by
  funext st
  change (setting.run x st >>= fun r => setting.run y r.2) = _
  simp only [Setting.run, bind_assoc, pure_bind]
  rfl

theorem run_run : (setting.run x >>= fun _ => setting.run y >>= k) =
    setting.run (fun body locals => x body locals >>= fun locals => y body locals) >>= k := by
  rw [← run_bind, bind_assoc]

/-- Between the opening of a scope and its closing, a check runs in that scope. -/
theorem push_run_pop : (pushScope >>= fun _ => setting.run x >>= fun _ => popScope >>= k) =
    setting.run (fun body locals => x body locals.push >>= fun inner => pure inner.pop) >>= k := by
  funext st
  change (setting.run x { st with locals := st.locals.push } >>= fun r =>
    k () { r.2 with locals := r.2.locals.pop }) =
      (setting.run (fun body locals => x body locals.push >>= fun inner => pure inner.pop)
        st >>= fun r =>
        k () r.2)
  simp only [Setting.run, bind_assoc, pure_bind]
  rfl

/-- The body of a loop runs one level deeper, and behind it the depth is what it was. -/
theorem looped_run :
    looped (setting.run x) = setting.run fun body locals => x body.inLoop locals := by
  funext st
  change (setting.run x { st with loopDepth := st.loopDepth + 1 } >>= fun r =>
    pure ((), { r.2 with loopDepth := r.2.loopDepth - 1 })) = _
  simp only [Setting.run, bind_assoc, pure_bind]
  rfl

mutual
/-- A statement that is typed on a state is typed in the surroundings that the state stands for, and
only the scopes of the state are new behind it. -/
theorem stepStmt_eq : ∀ s : Stmt,
    stepStmt setting s = setting.run fun body locals => checkStmt body locals s
  | .importDecl _ _ | .structDecl _ _ | .fnDecl _ _ _ | .letDecl _ _ _ _ | .assign _ _ _
  | .returnStmt _ _
  | .breakStmt _ | .continueStmt _ | .expr _ _ => rfl
  | .scope mark block => by rw [stepStmt, stepBlock_eq block, run_bind]; rfl
  | .forEach mark name iterable block => by
    rw [stepStmt, stepBlock_eq block, looped_run, run_run, push_run_pop, run_bind]
    simp only [checkStmt, bind_assoc, pure_bind]
  | .forCounted mark init condition update block => by
    rw [stepStmt, stepBlock_eq block, stepStmt_eq init, stepStmt_eq update, looped_run,
      run_run, run_run, run_run, push_run_pop, run_bind]
    simp only [checkStmt, bind_assoc, pure_bind]
  | .ifElse mark condition thenBlock elseBranch => by
    rw [stepStmt, stepBlock_eq thenBlock, stepElse_eq elseBranch, run_run, run_run, run_bind]
    simp only [checkStmt, bind_assoc, pure_bind]

theorem stepElse_eq : ∀ branch : Option Stmt,
    stepElse setting branch = setting.run fun body locals => checkElse body locals branch
  | none => rfl
  | some s => stepStmt_eq s

theorem stepBlock_eq : ∀ block : Block,
    stepBlock setting block = setting.run fun body locals => checkBlock body locals block
  | .mk _ stmts => by
    rw [stepBlock, stepStmts_eq stmts, ← bind_pure popScope, push_run_pop, bind_pure]
    rfl

theorem stepStmts_eq : ∀ ss : List Stmt,
    stepStmts setting ss = setting.run fun body locals => checkStmts body locals ss
  | [] => rfl
  | s :: ss => by
    rw [stepStmts, stepStmt_eq s, stepStmts_eq ss, run_bind]
    rfl
end

/-- A statement that is typed on a state leaves all of it as it is but for the innermost scope,
which gains at most the name that the statement binds. -/
structure CheckerState.Keeps (st : CheckerState) (s : Stmt) (st' : CheckerState) : Prop where
  generics : st'.generics = st.generics
  returnType : st'.returnType = st.returnType
  loopDepth : st'.loopDepth = st.loopDepth
  depth : st'.locals.depth = st.locals.depth
  outer : st'.locals.outer = st.locals.outer
  inner : st.locals.Gains s.bound? st'.locals

theorem stepStmt_keeps {s : Stmt} {st st' : CheckerState} {i : σ}
    (h : ((stepStmt setting s st).run i).value = .ok ((), st')) : st.Keeps s st' := by
  rw [stepStmt_eq] at h
  obtain ⟨locals, hlocals, hstate, -⟩ := Walking.bind_ok h
  cases hstate
  have hgains := checkStmt_gains s (setting.body st) st.locals i locals hlocals
  exact ⟨rfl, rfl, rfl, hgains.depth, hgains.outer, hgains⟩

end Steps

end Typing

end Custody
