import Custody.Proofs.Accepted

/-!
# Items

The type check gets through every item of a file that was read (`SourceFile.Parsed.items`) whose
name is declared (`Typing.checkItem_succeeds`), with whatever findings.
-/

set_option autoImplicit false

namespace Custody

namespace Walking

variable {σ α β : Type} {x : Walking σ α} {f : α → Walking σ β}

/-- The check has a value, whatever the instances made before. -/
def Succeeds (x : Walking σ α) : Prop := ∀ s, ∃ a, (x.run s).value = .ok a

namespace Succeeds

theorem pure (a : α) : (Pure.pure a : Walking σ α).Succeeds := fun _ => ⟨a, rfl⟩

theorem lift (x : Checking σ α) : (lift x).Succeeds := by
  intro s
  rw [lift_run]
  exact ⟨(x s).value, rfl⟩

theorem bind (hx : x.Succeeds) (hf : ∀ a, (f a).Succeeds) : (x >>= f).Succeeds := by
  intro s
  obtain ⟨a, ha⟩ := hx s
  obtain ⟨b, hb⟩ := hf a (x.run s).instances
  exact ⟨b, (run_bind_of_ok ha).1.trans hb⟩

end Succeeds

end Walking

namespace Typing

variable {σ : Type}

open Walking

mutual
theorem checkStmt_succeeds (body : Body σ) (locals : ScopeStack) :
    ∀ s : Stmt, s.localOnly = true → (checkStmt body locals s).Succeeds
  | .importDecl _ _, h => by cases h
  | .structDecl _ _, h => by cases h
  | .fnDecl _ _ _, h => by cases h
  | .letDecl _ _ _ _, _ => .lift _
  | .scope _ block, h => by
    rw [checkStmt]
    exact (checkBlock_succeeds body locals block h).bind fun _ => .lift _
  | .assign _ _ _, _ | .returnStmt _ _, _ | .breakStmt _, _ | .continueStmt _, _
  | .expr _ _, _ => by
    rw [checkStmt]
    exact (Succeeds.lift _).bind fun _ => .pure _
  | .forEach _ _ _ block, h => by
    rw [checkStmt]
    exact (Succeeds.lift _).bind fun inner =>
      (checkBlock_succeeds body.inLoop inner block h).bind fun _ => .lift _
  | .forCounted _ init _ update block, h => by
    rw [Stmt.localOnly, Bool.and_eq_true, Bool.and_eq_true] at h
    obtain ⟨⟨hinit, hupdate⟩, hblock⟩ := h
    rw [checkStmt]
    refine (checkStmt_succeeds body locals.push init hinit).bind fun inner => ?_
    refine (Succeeds.lift _).bind fun _ => ?_
    refine (checkBlock_succeeds body.inLoop inner block hblock).bind fun inner' => ?_
    exact (checkStmt_succeeds body inner' update hupdate).bind fun _ => .lift _
  | .ifElse _ _ thenBlock elseBranch, h => by
    rw [Stmt.localOnly, Bool.and_eq_true] at h
    rw [checkStmt]
    refine (Succeeds.lift _).bind fun _ => ?_
    refine (checkBlock_succeeds body locals thenBlock h.1).bind fun locals' => ?_
    exact (checkElse_succeeds body locals' elseBranch h.2).bind fun _ => .lift _

theorem checkElse_succeeds (body : Body σ) (locals : ScopeStack) :
    ∀ s : Option Stmt, elseLocalOnly s = true → (checkElse body locals s).Succeeds
  | none, _ => .pure _
  | some s, h => checkStmt_succeeds body locals s h

theorem checkBlock_succeeds (body : Body σ) (locals : ScopeStack) :
    ∀ block : Block, block.localOnly = true → (checkBlock body locals block).Succeeds
  | .mk _ stmts, h => by
    rw [checkBlock]
    exact (checkStmts_succeeds body locals.push stmts h).bind fun _ => .pure _

theorem checkStmts_succeeds (body : Body σ) (locals : ScopeStack) :
    ∀ ss : List Stmt, stmtsLocalOnly ss = true → (checkStmts body locals ss).Succeeds
  | [], _ => .pure _
  | s :: ss, h => by
    rw [stmtsLocalOnly, Bool.and_eq_true] at h
    rw [checkStmts]
    exact (checkStmt_succeeds body locals s h.1).bind fun locals' =>
      checkStmts_succeeds body locals' ss h.2
end

/-- The check gets through an item if the scope of functions has the name of each function. -/
theorem checkItem_succeeds (bundle : Bundle) (unit : SourceUnit) (builder : InstanceBuilder σ)
    (s : Stmt) (hitem : s.isItem = true) (hfn : ∀ mark head block, s = .fnDecl mark head block →
      ∃ signature : Signature, unit.functions.get? head.name.name = some signature.ty) :
    (checkItem bundle unit builder s).Succeeds := by
  cases s with
  | importDecl mark d => exact .lift _
  | structDecl mark d => exact .lift _
  | fnDecl mark head block =>
    obtain ⟨signature, hsignature⟩ := hfn mark head block rfl
    obtain ⟨span, stmts⟩ := block
    rw [checkItem, checkFn, hsignature]
    refine (Succeeds.lift _).bind fun locals => ?_
    exact (checkStmts_succeeds _ locals stmts hitem).bind fun _ => .lift _
  | _ => cases hitem

end Typing

end Custody
