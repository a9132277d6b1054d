import Custody.Ownership.Check
import Custody.Proofs.Ledger

/-!
# Places of misuses

Where a flow can find misuses: the places that the flow of a tree examines are names of the tree,
each at most once, in the order of the tree (`subjects_flowStmt`).
-/

set_option autoImplicit false

namespace Custody.Ownership

theorem names_sublist_stmtsNames {s : Stmt} {ss : List Stmt} (h : s ∈ ss) :
    s.names.Sublist (stmtsNames ss) := by
  induction ss with
  | nil => exact absurd h List.not_mem_nil
  | cons s' ss ih =>
    rw [stmtsNames]
    rcases List.mem_cons.1 h with rfl | h
    · exact List.sublist_append_left _ _
    · exact (ih h).trans (List.sublist_append_right _ _)

/-- The names that a flow examines, in order. -/
def Flow.subjects (f : Flow) : List Ident := f.examined.map fun e => e.1.name

namespace Flow

@[simp] theorem subjects_idle : idle.subjects = [] := rfl

@[simp] theorem subjects_seq (f g : Flow) : (seq f g).subjects = f.subjects ++ g.subjects :=
  List.map_append

@[simp] theorem subjects_either (f g : Flow) :
    (either f g).subjects = f.subjects ++ g.subjects :=
  List.map_append

@[simp] theorem subjects_loop (head body again : Flow) :
    (loop head body again).subjects = head.subjects ++ body.subjects :=
  List.map_append

@[simp] theorem subjects_declare (b : Binding) : (event (.declare b)).subjects = [] := rfl

@[simp] theorem subjects_assign (b : Binding) : (event (.assign b)).subjects = [] := rfl

@[simp] theorem subjects_declares (bs : List Binding) : (declares bs).subjects = [] := by
  induction bs with
  | nil => rfl
  | cons b bs ih => rw [declares, subjects_seq, ih, subjects_declare, List.append_nil]

theorem sites_eq_map_subjects (f : Flow) : f.sites = f.subjects.map Ident.span := by
  rw [sites, subjects, List.map_map]
  rfl

end Flow

mutual
/-- The flow of an expression examines every name that the expression uses. -/
theorem subjects_flowExpr (sight : Sight) (consuming : Bool) (e : Expr) :
    (flowExpr sight consuming e).subjects = e.uses := by
  cases e with
  | ident | number | string | bool | null | zero => rfl
  | get mark object member =>
    rw [flowExpr, Expr.uses]
    cases hname : object.ident? with
    | none => exact subjects_flowExpr sight false object
    | some name =>
      rw [Expr.uses_of_ident? hname]
      rfl
  | _ =>
    simp only [flowExpr, Flow.subjects_seq, Expr.uses, subjects_flowExpr sight,
      subjects_flowExprs sight, subjects_flowFields sight]

theorem subjects_flowExprs (sight : Sight) :
    ∀ es : List Expr, (flowExprs sight es).subjects = Expr.usesAll es
  | [] => rfl
  | e :: es => by
    rw [flowExprs, Flow.subjects_seq, subjects_flowExpr sight _ e, subjects_flowExprs sight es,
      Expr.usesAll]

theorem subjects_flowFields (sight : Sight) :
    ∀ fields : List (Ident × Expr), (flowFields sight fields).subjects = Expr.usesFields fields
  | [] => rfl
  | (_, e) :: fields => by
    rw [flowFields, Flow.subjects_seq, subjects_flowExpr sight _ e,
      subjects_flowFields sight fields, Expr.usesFields]
end

theorem subjects_flowTarget (sight : Sight) (target : Expr) :
    (flowTarget sight target).subjects.Sublist target.uses := by
  unfold flowTarget
  split
  · split
    · exact List.nil_sublist _
    · exact List.nil_sublist _
  · rw [subjects_flowExpr]

variable {leaks : Bool}

mutual
/-- The flow of a statement examines names of the statement, each at most once, in order. -/
theorem subjects_flowStmt (typeOf : Nat → Option Ty) (sight : Sight) :
    ∀ s : Stmt, (flowStmt typeOf leaks sight s).subjects.Sublist s.names
  | .importDecl _ _ | .structDecl _ _ | .fnDecl _ _ _ | .breakStmt _ | .continueStmt _
  | .returnStmt _ none =>
    List.nil_sublist _
  | .letDecl _ _ _ init => by
    rw [flowStmt, Flow.subjects_seq, subjects_flowExpr, Stmt.names]
    exact (List.nil_sublist _).append_left _
  | .scope _ block => subjects_flowBlock typeOf sight block
  | .assign _ target value => by
    rw [flowStmt, Flow.subjects_seq, subjects_flowExpr, Stmt.names]
    exact (subjects_flowTarget sight target).append_left _
  | .returnStmt _ (some value) => by
    rw [flowStmt, subjects_flowExpr, Stmt.names]
  | .forEach _ name iterable block => by
    rw [flowStmt, Flow.subjects_loop, subjects_flowExpr, Flow.subjects_seq, Stmt.names]
    exact ((subjects_flowBlock typeOf _ block).cons name).append_left _
  | .forCounted _ init condition update block => by
    rw [flowStmt, Flow.subjects_loop, Flow.subjects_seq, Flow.subjects_seq, subjects_flowExpr,
      Stmt.names, List.append_assoc _ block.names]
    exact ((subjects_flowStmt typeOf sight init).append_right _).append
      ((subjects_flowBlock typeOf _ block).append (subjects_flowStmt typeOf _ update))
  | .ifElse _ condition thenBlock elseBranch => by
    rw [flowStmt, Flow.subjects_seq, Flow.subjects_either, subjects_flowExpr, Stmt.names,
      List.append_assoc]
    exact ((subjects_flowBlock typeOf sight thenBlock).append
      (subjects_flowElse typeOf sight elseBranch)).append_left _
  | .expr _ value => by rw [flowStmt, subjects_flowExpr, Stmt.names]

theorem subjects_flowElse (typeOf : Nat → Option Ty) (sight : Sight) :
    ∀ s : Option Stmt, (flowElse typeOf leaks sight s).subjects.Sublist (elseNames s)
  | none => List.nil_sublist _
  | some s => subjects_flowStmt typeOf sight s

theorem subjects_flowBlock (typeOf : Nat → Option Ty) (sight : Sight) :
    ∀ b : Block, (flowBlock typeOf leaks sight b).subjects.Sublist b.names
  | .mk _ stmts => subjects_flowStmts typeOf sight stmts

theorem subjects_flowStmts (typeOf : Nat → Option Ty) (sight : Sight) :
    ∀ ss : List Stmt, (flowStmts typeOf leaks sight ss).subjects.Sublist (stmtsNames ss)
  | [] => List.nil_sublist _
  | s :: ss => by
    rw [flowStmts, Flow.subjects_seq, stmtsNames]
    exact (subjects_flowStmt typeOf sight s).append (subjects_flowStmts typeOf _ ss)
end

theorem subjects_fnFlow (typeOf : Nat → Option Ty) (mark : Mark) (head : FnHead) (body : Block) :
    (fnFlow typeOf leaks mark head body).subjects.Sublist (Stmt.fnDecl mark head body).names := by
  rw [fnFlow, Flow.subjects_seq, Flow.subjects_declares, List.nil_append, Stmt.names]
  exact (subjects_flowBlock typeOf _ body).trans (List.sublist_append_right _ _)

end Custody.Ownership
