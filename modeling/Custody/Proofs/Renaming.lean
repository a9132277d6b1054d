import Custody.Proofs.Names
import Mathlib.Data.List.Nodup

/-!
# Renaming a local

A `Renaming` gives the local declared at a place a new name. The declaration and the names that
stand for the local take the new name; all places and node numbers stay. Which names stand for the
local is lexical: a name is the latest local of that name in sight, and the locals in sight are
those of the blocks around, of the loop heads around, and the parameters.

Renaming keeps the places of names (`span_names_stmt` and its companions) and the shapes of trees
(`regular_stmt`). With a new name that nothing in sight has, a renamed name finds among renamed
locals exactly the local that it stood for before (`find?_use`).
-/

set_option autoImplicit false

namespace Custody

/-- A new name for the local that is declared at a place. -/
structure Renaming where
  place : Span
  name : String

namespace Renaming

/-- Renames the name in a declaration. -/
def decl (ρ : Renaming) (x : Ident) : Ident := if x.span = ρ.place then ⟨ρ.name, x.span⟩ else x

/-- Renames a name that stands for the latest local of that name in sight. -/
def use (ρ : Renaming) (sight : List Ident) (x : Ident) : Ident :=
  if (sight.find? fun y => y.name == x.name).any fun y => y.span == ρ.place then ⟨ρ.name, x.span⟩
  else x

mutual
/-- Renames the local in an expression. -/
def expr (ρ : Renaming) (sight : List Ident) : Expr → Expr
  | .binary mark op left right => .binary mark op (ρ.expr sight left) (ρ.expr sight right)
  | .unary mark op operand => .unary mark op (ρ.expr sight operand)
  | .number mark literal => .number mark literal
  | .string mark text => .string mark text
  | .bool mark value => .bool mark value
  | .ident mark name => .ident mark (ρ.use sight name)
  | .call mark callee typeArgs args =>
    .call mark (ρ.expr sight callee) typeArgs (ρ.exprs sight args)
  | .get mark object member => .get mark (ρ.expr sight object) member
  | .new mark type fields => .new mark type (ρ.fields sight fields)
  | .group mark inner => .group mark (ρ.expr sight inner)
  | .null mark => .null mark
  | .zero mark => .zero mark
  | .staticArray mark type elements => .staticArray mark type (ρ.exprs sight elements)
  | .subscript mark object index => .subscript mark (ρ.expr sight object) (ρ.expr sight index)
  | .range mark first last => .range mark (ρ.expr sight first) (ρ.expr sight last)

/-- Renames the local in expressions. -/
def exprs (ρ : Renaming) (sight : List Ident) : List Expr → List Expr
  | [] => []
  | e :: es => ρ.expr sight e :: ρ.exprs sight es

/-- Renames the local in the values of fields. -/
def fields (ρ : Renaming) (sight : List Ident) : List (Ident × Expr) → List (Ident × Expr)
  | [] => []
  | (name, e) :: rest => (name, ρ.expr sight e) :: ρ.fields sight rest
end

mutual
/-- Renames the local in a statement. A declaration inside a body has no part in the body. -/
def stmt (ρ : Renaming) (sight : List Ident) : Stmt → Stmt
  | .importDecl mark decl => .importDecl mark decl
  | .structDecl mark decl => .structDecl mark decl
  | .fnDecl mark head body => .fnDecl mark head body
  | .letDecl mark name type init => .letDecl mark (ρ.decl name) type (ρ.expr sight init)
  | .scope mark body => .scope mark (ρ.block sight body)
  | .assign mark target value => .assign mark (ρ.expr sight target) (ρ.expr sight value)
  | .returnStmt mark none => .returnStmt mark none
  | .returnStmt mark (some value) => .returnStmt mark (some (ρ.expr sight value))
  | .breakStmt mark => .breakStmt mark
  | .continueStmt mark => .continueStmt mark
  | .forEach mark name iterable body =>
    .forEach mark (ρ.decl name) (ρ.expr sight iterable) (ρ.block (name :: sight) body)
  | .forCounted mark init condition update body =>
    let inner := init.declared ++ sight
    .forCounted mark (ρ.stmt sight init) (ρ.expr inner condition) (ρ.stmt inner update)
      (ρ.block inner body)
  | .ifElse mark condition thenBlock elseBranch =>
    .ifElse mark (ρ.expr sight condition) (ρ.block sight thenBlock)
      (ρ.elseBranch sight elseBranch)
  | .expr mark value => .expr mark (ρ.expr sight value)

/-- Renames the local behind an `else`. -/
def elseBranch (ρ : Renaming) (sight : List Ident) : Option Stmt → Option Stmt
  | none => none
  | some s => some (ρ.stmt sight s)

/-- Renames the local in a block. -/
def block (ρ : Renaming) (sight : List Ident) : Block → Block
  | .mk span stmts => .mk span (ρ.stmts sight stmts)

/-- Renames the local in statements: each one sees the locals declared before it. -/
def stmts (ρ : Renaming) (sight : List Ident) : List Stmt → List Stmt
  | [] => []
  | s :: ss => ρ.stmt sight s :: ρ.stmts (s.declared ++ sight) ss
end

/-- Renames the local among the parameters of a function. -/
def head (ρ : Renaming) (head : FnHead) : FnHead :=
  { head with params := head.params.map fun p => { p with name := ρ.decl p.name } }

/-- Renames the local in the body of a function. -/
def body (ρ : Renaming) (head : FnHead) (body : Block) : Block :=
  ρ.block (head.params.map (·.name)).reverse body

/-! ## Names -/

variable (ρ : Renaming)

@[simp] theorem span_decl (x : Ident) : (ρ.decl x).span = x.span := by
  unfold decl
  split <;> rfl

@[simp] theorem span_use (sight : List Ident) (x : Ident) : (ρ.use sight x).span = x.span := by
  unfold use
  split <;> rfl

theorem name_decl_of_ne {x : Ident} (h : x.span ≠ ρ.place) : ρ.decl x = x := if_neg h

theorem name_decl_of_eq {x : Ident} (h : x.span = ρ.place) : (ρ.decl x).name = ρ.name :=
  congrArg Ident.name (if_pos h)

/-- The name in a declaration is the old one, or the new one at the place of the renaming. -/
theorem name_decl_cases (x : Ident) :
    (ρ.decl x).name = x.name ∨ (ρ.decl x).name = ρ.name ∧ x.span = ρ.place := by
  by_cases h : x.span = ρ.place
  · exact .inr ⟨ρ.name_decl_of_eq h, h⟩
  · exact .inl (congrArg Ident.name (ρ.name_decl_of_ne h))

section Find

variable {α : Type} (ident : α → Ident) {sight : List α}

/-- A name stands for the local at the place of the renaming, or its new name is the old one. -/
theorem use_eq (x : Ident) :
    (ρ.use (sight.map ident) x) =
      match sight.find? fun a => (ident a).name == x.name with
      | some a => if (ident a).span = ρ.place then ⟨ρ.name, x.span⟩ else x
      | none => x := by
  have hfind : (sight.map ident).find? (fun y => y.name == x.name) =
      (sight.find? fun a => (ident a).name == x.name).map ident := List.find?_map ..
  unfold use
  rw [hfind]
  cases sight.find? fun a => (ident a).name == x.name with
  | none => rfl
  | some a => simp

/-- Locals of different names have different names after a renaming to a new name. -/
theorem nodup_decl (hnames : (sight.map fun a => (ident a).name).Nodup)
    (hplaces : ∀ a ∈ sight, ∀ c ∈ sight, (ident a).span = (ident c).span → a = c)
    (hsight : ∀ a ∈ sight, (ident a).name ≠ ρ.name) :
    (sight.map fun a => (ρ.decl (ident a)).name).Nodup := by
  refine List.Nodup.map_on (fun a ha c hc heq => ?_) hnames.of_map
  rcases ρ.name_decl_cases (ident a) with han | ⟨han, haspan⟩ <;>
    rcases ρ.name_decl_cases (ident c) with hcn | ⟨hcn, hcspan⟩ <;>
    rw [han, hcn] at heq
  · exact List.inj_on_of_nodup_map hnames ha hc heq
  · exact (hsight a ha heq).elim
  · exact (hsight c hc heq.symm).elim
  · exact hplaces a ha c hc (haspan.trans hcspan.symm)

/-- With a new name that nothing in sight has, a renamed name finds among renamed locals the local
that it stood for before. -/
theorem find?_use (hplaces : (sight.map fun a => (ident a).span).Nodup)
    (hsight : ∀ a ∈ sight, (ident a).name ≠ ρ.name) {x : Ident} (hx : x.name ≠ ρ.name) :
    sight.find? (fun a => (ρ.decl (ident a)).name == (ρ.use (sight.map ident) x).name) =
      sight.find? fun a => (ident a).name == x.name := by
  rw [use_eq ρ ident]
  cases hfound : sight.find? fun a => (ident a).name == x.name with
  | none =>
    -- No local had the name, and the one that is renamed now has the new name.
    refine List.find?_eq_none.2 fun a ha => ?_
    rcases ρ.name_decl_cases (ident a) with hname | ⟨hname, -⟩
    · rw [hname]
      exact List.find?_eq_none.1 hfound a ha
    · rw [hname]
      simpa using Ne.symm hx
  | some a =>
    obtain ⟨hname, before, after, rfl, hbefore⟩ := List.find?_eq_some_iff_append.1 hfound
    have hname' : (ident a).name = x.name := by simpa using hname
    have hne : ∀ c ∈ before, (ident c).name ≠ x.name := fun c hc heq => by
      have hnot := hbefore c hc
      simp [heq] at hnot
    -- Either the found local is renamed, and then the name looks for the new name, or it is not.
    by_cases hspan : (ident a).span = ρ.place
    · simp only [if_pos hspan]
      refine List.find?_eq_some_iff_append.2
        ⟨by simp [ρ.name_decl_of_eq hspan], before, after, rfl, fun c hc => ?_⟩
      -- Another local in front has another place, and keeps its name.
      rw [List.map_append, List.map_cons] at hplaces
      have hc' : (ident c).span ≠ ρ.place := fun heq =>
        List.disjoint_of_nodup_append hplaces (List.mem_map_of_mem hc)
          (by rw [heq, ← hspan]; exact List.mem_cons_self)
      rw [ρ.name_decl_of_ne hc']
      simpa using hsight c (List.mem_append_left _ hc)
    · simp only [if_neg hspan]
      refine List.find?_eq_some_iff_append.2
        ⟨by simpa [ρ.name_decl_of_ne hspan] using hname', before, after, rfl, fun c hc => ?_⟩
      rcases ρ.name_decl_cases (ident c) with hc' | ⟨hc', -⟩
      · rw [hc']
        simpa using hne c hc
      · rw [hc']
        simpa using Ne.symm hx

end Find

/-! ## Shapes -/

variable (sight : List Ident)

@[simp] theorem mark_expr (e : Expr) : (ρ.expr sight e).mark = e.mark := by
  cases e <;> rfl

@[simp] theorem id_expr (e : Expr) : (ρ.expr sight e).id = e.id :=
  congrArg Mark.id (ρ.mark_expr sight e)

@[simp] theorem span_expr (e : Expr) : (ρ.expr sight e).span = e.span :=
  congrArg Mark.span (ρ.mark_expr sight e)

@[simp] theorem ident?_expr (e : Expr) : (ρ.expr sight e).ident? = e.ident?.map (ρ.use sight) := by
  cases e <;> rfl

theorem isLet_stmt (s : Stmt) : (ρ.stmt sight s).isLet = s.isLet := by
  cases s with
  | returnStmt mark value => cases value <;> rfl
  | _ => rfl

theorem isEffect_stmt (s : Stmt) : (ρ.stmt sight s).isEffect = s.isEffect := by
  cases s with
  | returnStmt mark value => cases value <;> rfl
  | _ => rfl

theorem isBranch_stmt (s : Stmt) : (ρ.stmt sight s).isBranch = s.isBranch := by
  cases s with
  | returnStmt mark value => cases value <;> rfl
  | _ => rfl

theorem declared_stmt (s : Stmt) : (ρ.stmt sight s).declared = s.declared.map ρ.decl := by
  cases s with
  | returnStmt mark value => cases value <;> rfl
  | _ => rfl

theorem declared_stmts : ∀ (ss : List Stmt) (sight : List Ident),
    (ρ.stmts sight ss).flatMap Stmt.declared = (ss.flatMap Stmt.declared).map ρ.decl
  | [], _ => rfl
  | s :: ss, sight => by
    rw [stmts, List.flatMap_cons, List.flatMap_cons, List.map_append, declared_stmt,
      declared_stmts ss]

mutual
/-- The shapes of branches and loop heads stay. -/
theorem regular_stmt (s : Stmt) (sight : List Ident) : (ρ.stmt sight s).regular = s.regular := by
  cases s with
  | returnStmt mark value => cases value <;> rfl
  | scope | forEach | forCounted | ifElse =>
    simp only [stmt, Stmt.regular, isLet_stmt, isEffect_stmt, regular_block, regular_elseBranch]
  | _ => rfl

theorem regular_elseBranch : ∀ (s : Option Stmt) (sight : List Ident),
    elseRegular (ρ.elseBranch sight s) = elseRegular s
  | none, _ => rfl
  | some s, sight => by
    simp only [elseBranch, elseRegular, isBranch_stmt, regular_stmt s sight]

theorem regular_block : ∀ (b : Block) (sight : List Ident), (ρ.block sight b).regular = b.regular
  | .mk _ ss, sight => regular_stmts ss sight

theorem regular_stmts : ∀ (ss : List Stmt) (sight : List Ident),
    stmtsRegular (ρ.stmts sight ss) = stmtsRegular ss
  | [], _ => rfl
  | s :: ss, sight => by
    simp only [stmts, stmtsRegular, regular_stmt s sight,
      regular_stmts ss (s.declared ++ sight)]
end

/-! ## Places -/

mutual
/-- The names that stand for values are renamed one by one. -/
theorem uses_expr (e : Expr) : (ρ.expr sight e).uses = e.uses.map (ρ.use sight) := by
  cases e with
  | number | string | bool | ident | null | zero => rfl
  | _ => simp only [expr, Expr.uses, List.map_append, uses_expr, uses_exprs, uses_fields]

theorem uses_exprs : ∀ es : List Expr,
    Expr.usesAll (ρ.exprs sight es) = (Expr.usesAll es).map (ρ.use sight)
  | [] => rfl
  | e :: es => by simp only [exprs, Expr.usesAll, uses_expr e, uses_exprs es, List.map_append]

theorem uses_fields : ∀ fs : List (Ident × Expr),
    Expr.usesFields (ρ.fields sight fs) = (Expr.usesFields fs).map (ρ.use sight)
  | [] => rfl
  | (_, e) :: fs => by
    simp only [fields, Expr.usesFields, uses_expr e, uses_fields fs, List.map_append]
end

theorem span_uses_expr (e : Expr) :
    (ρ.expr sight e).uses.map Ident.span = e.uses.map Ident.span := by
  rw [uses_expr, List.map_map]
  exact List.map_congr_left fun x _ => ρ.span_use sight x

mutual
/-- The places of names stay. -/
theorem span_names_stmt (s : Stmt) (sight : List Ident) :
    (ρ.stmt sight s).names.map Ident.span = s.names.map Ident.span := by
  cases s with
  | importDecl | structDecl | fnDecl | breakStmt | continueStmt => rfl
  | returnStmt mark value =>
    cases value with
    | none => rfl
    | some value => exact ρ.span_uses_expr sight value
  | _ =>
    simp only [stmt, Stmt.names, List.map_append, List.map_cons, List.map_nil, span_decl,
      span_uses_expr, span_names_stmt, span_names_block, span_names_elseBranch]

theorem span_names_elseBranch : ∀ (s : Option Stmt) (sight : List Ident),
    (elseNames (ρ.elseBranch sight s)).map Ident.span = (elseNames s).map Ident.span
  | none, _ => rfl
  | some s, sight => span_names_stmt s sight

theorem span_names_block : ∀ (b : Block) (sight : List Ident),
    (ρ.block sight b).names.map Ident.span = b.names.map Ident.span
  | .mk _ ss, sight => span_names_stmts ss sight

theorem span_names_stmts : ∀ (ss : List Stmt) (sight : List Ident),
    (stmtsNames (ρ.stmts sight ss)).map Ident.span = (stmtsNames ss).map Ident.span
  | [], _ => rfl
  | s :: ss, sight => by
    simp only [stmts, stmtsNames, List.map_append, span_names_stmt s sight,
      span_names_stmts ss (s.declared ++ sight)]
end

theorem span_params (h : FnHead) :
    ((ρ.head h).params.map (·.name)).map Ident.span = (h.params.map (·.name)).map Ident.span := by
  simp only [head, List.map_map]
  exact List.map_congr_left fun p _ => ρ.span_decl p.name

/-! ## Names that a renaming does not touch -/

/-- The names of a part of a tree and the locals in sight all have places of their own, and none is
the new name. -/
structure Clear (names sight : List Ident) : Prop where
  nodup : (names.map Ident.span).Nodup
  disjoint : List.Disjoint (names.map Ident.span) (sight.map Ident.span)
  distinct : (sight.map Ident.span).Nodup
  unused : ∀ x ∈ names, x.name ≠ ρ.name
  unseen : ∀ x ∈ sight, x.name ≠ ρ.name

namespace Clear

variable {ρ} {names names' sight : List Ident}

theorem left (h : ρ.Clear (names ++ names') sight) : ρ.Clear names sight := by
  obtain ⟨hnodup, hdisjoint, hdistinct, hunused, hunseen⟩ := h
  rw [List.map_append] at hnodup hdisjoint
  exact ⟨hnodup.of_append_left, (List.disjoint_append_left.1 hdisjoint).1, hdistinct,
    fun x hx => hunused x (List.mem_append_left _ hx), hunseen⟩

theorem right (h : ρ.Clear (names ++ names') sight) : ρ.Clear names' sight := by
  obtain ⟨hnodup, hdisjoint, hdistinct, hunused, hunseen⟩ := h
  rw [List.map_append] at hnodup hdisjoint
  exact ⟨hnodup.of_append_right, (List.disjoint_append_left.1 hdisjoint).2, hdistinct,
    fun x hx => hunused x (List.mem_append_right _ hx), hunseen⟩

/-- Later names stay clear when earlier ones come into sight. -/
theorem extend (h : ρ.Clear (names ++ names') sight) {front : List Ident}
    (hfront : front.Sublist names) : ρ.Clear names' (front ++ sight) := by
  have hspans := hfront.map Ident.span
  refine ⟨h.right.nodup, ?_, ?_, h.right.unused, fun x hx => ?_⟩
  · rw [List.map_append]
    refine List.disjoint_append_right.2 ⟨fun p hp hp' => ?_, h.right.disjoint⟩
    have hnodup := h.nodup
    rw [List.map_append] at hnodup
    exact List.disjoint_of_nodup_append hnodup (hspans.subset hp') hp
  · rw [List.map_append]
    exact (hspans.nodup h.left.nodup).append h.distinct fun p hp hp' =>
      h.left.disjoint (hspans.subset hp) hp'
  · rcases List.mem_append.1 hx with hx | hx
    · exact h.left.unused x (hfront.subset hx)
    · exact h.unseen x hx

/-- The order in which locals come into sight does not matter. -/
theorem perm (h : ρ.Clear names sight) {sight' : List Ident} (hperm : sight.Perm sight') :
    ρ.Clear names sight' := by
  have hspans := hperm.map Ident.span
  exact ⟨h.nodup, fun p hp hp' => h.disjoint hp (hspans.mem_iff.2 hp'),
    hspans.nodup_iff.1 h.distinct, h.unused, fun x hx => h.unseen x (hperm.mem_iff.2 hx)⟩

/-- The body of a function stays clear when the parameters come into sight. -/
theorem body (h : ρ.Clear (names ++ names') []) : ρ.Clear names' names.reverse := by
  have hextend := h.extend (List.Sublist.refl names)
  rw [List.append_nil] at hextend
  exact hextend.perm (List.reverse_perm _).symm

end Clear

theorem declared_sublist_names (s : Stmt) : s.declared.Sublist s.names := by
  cases s with
  | letDecl mark name type init => exact List.sublist_append_right _ _
  | _ => exact List.nil_sublist _

theorem declared_sublist_stmtsNames (ss : List Stmt) :
    (ss.flatMap Stmt.declared).Sublist (stmtsNames ss) := by
  induction ss with
  | nil => exact .slnil
  | cons s ss ih => exact (declared_sublist_names s).append ih

end Renaming

end Custody
