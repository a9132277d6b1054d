import Custody.Tree

/-!
# The names in a tree

Which names of a tree stand for values: `Expr.uses` lists them for an expression, `Stmt.names` for a
statement together with the names that the statement declares. Both list every place once, in the
order in which a walk through a body comes by.

`Stmt.regular` describes the trees that a source text gives: behind `else` stands a block or another
`if`, and the head of a counted loop has a `let` in front and an assignment or an expression at its
end. `Stmt.isItem` describes its declarations, which have none inside, and `Stmt.loopFree` the trees
without loops.
-/

set_option autoImplicit false

namespace Custody

namespace Expr

mutual
/-- The names that stand for values in an expression. -/
def uses : Expr → List Ident
  | binary _ _ left right => uses left ++ uses right
  | unary _ _ operand => uses operand
  | number _ _ => []
  | string _ _ => []
  | bool _ _ => []
  | ident _ name => [name]
  | call _ callee _ args => uses callee ++ usesAll args
  | get _ object _ => uses object
  | new _ _ fields => usesFields fields
  | group _ inner => uses inner
  | null _ => []
  | zero _ => []
  | staticArray _ _ elements => usesAll elements
  | subscript _ object index => uses object ++ uses index
  | range _ first last => uses first ++ uses last

/-- The names that stand for values in expressions. -/
def usesAll : List Expr → List Ident
  | [] => []
  | e :: es => uses e ++ usesAll es

/-- The names that stand for values in the values of fields. -/
def usesFields : List (Ident × Expr) → List Ident
  | [] => []
  | (_, e) :: fields => uses e ++ usesFields fields
end

/-- An expression that is nothing but a name uses that name. -/
theorem uses_of_ident? {e : Expr} {name : Ident} (h : e.ident? = some name) : e.uses = [name] := by
  cases e with
  | ident mark n =>
    simp only [ident?, Option.some.injEq] at h
    simp only [uses, h]
  | _ => simp [ident?] at h

end Expr

/-! ## Statements -/

/-- The name that a statement declares in the block around it. -/
def Stmt.declared : Stmt → List Ident
  | .letDecl _ name _ _ => [name]
  | _ => []

/-- The names that a block declares for its own statements. -/
def Block.declared (block : Block) : List Ident := block.stmts.flatMap Stmt.declared

mutual
/-- The names that a statement declares or uses, at any depth. -/
def Stmt.names : Stmt → List Ident
  | .importDecl _ _ => []
  | .structDecl _ _ => []
  | .fnDecl _ head body => head.params.map (·.name) ++ body.names
  | .letDecl _ name _ init => init.uses ++ [name]
  | .scope _ body => body.names
  | .assign _ target value => value.uses ++ target.uses
  | .returnStmt _ none => []
  | .returnStmt _ (some value) => value.uses
  | .breakStmt _ => []
  | .continueStmt _ => []
  | .forEach _ binding iterable body => iterable.uses ++ binding :: body.names
  | .forCounted _ init condition update body =>
    init.names ++ condition.uses ++ body.names ++ update.names
  | .ifElse _ condition thenBlock elseBranch =>
    condition.uses ++ thenBlock.names ++ elseNames elseBranch
  | .expr _ value => value.uses

/-- The names behind an `else`, if there is one. -/
def elseNames : Option Stmt → List Ident
  | none => []
  | some s => s.names

/-- The names in a block. -/
def Block.names : Block → List Ident
  | .mk _ stmts => stmtsNames stmts

/-- The names in statements. -/
def stmtsNames : List Stmt → List Ident
  | [] => []
  | s :: ss => s.names ++ stmtsNames ss
end

theorem Stmt.declared_subset_names (s : Stmt) : s.declared ⊆ s.names := by
  cases s with
  | letDecl mark name type init =>
    rw [Stmt.names]
    exact List.subset_append_right _ _
  | _ => exact List.nil_subset _

theorem declared_subset_stmtsNames (ss : List Stmt) : ss.flatMap Stmt.declared ⊆ stmtsNames ss := by
  induction ss with
  | nil => exact List.nil_subset _
  | cons s ss ih =>
    rw [List.flatMap_cons, stmtsNames]
    exact List.append_subset.2 ⟨List.subset_append_of_subset_left _ (Stmt.declared_subset_names s),
      List.subset_append_of_subset_right _ ih⟩

theorem Block.declared_subset_names (block : Block) : block.declared ⊆ block.names := by
  cases block with
  | mk span stmts => exact declared_subset_stmtsNames stmts

/-! ## Shapes -/

namespace Stmt

/-- A `let`. -/
def isLet : Stmt → Bool
  | .letDecl .. => true
  | _ => false

/-- An assignment or an expression. -/
def isEffect : Stmt → Bool
  | .assign .. | .expr .. => true
  | _ => false

/-- What may follow `else`. -/
def isBranch : Stmt → Bool
  | .scope .. | .ifElse .. => true
  | _ => false

end Stmt

mutual
/-- Whether all branches and loop heads in a statement have the shapes that a text gives them. -/
def Stmt.regular : Stmt → Bool
  | .fnDecl _ _ body => body.regular
  | .scope _ body => body.regular
  | .forEach _ _ _ body => body.regular
  | .forCounted _ init _ update body => init.isLet && update.isEffect && body.regular
  | .ifElse _ _ thenBlock elseBranch => thenBlock.regular && elseRegular elseBranch
  | _ => true

/-- Whether what follows `else` has the right shape. -/
def elseRegular : Option Stmt → Bool
  | none => true
  | some s => s.isBranch && s.regular

/-- Whether the statements of a block have the right shapes. -/
def Block.regular : Block → Bool
  | .mk _ stmts => stmtsRegular stmts

/-- Whether statements have the right shapes. -/
def stmtsRegular : List Stmt → Bool
  | [] => true
  | s :: ss => s.regular && stmtsRegular ss
end

mutual
/-- Whether a statement is no declaration and has none inside. -/
def Stmt.localOnly : Stmt → Bool
  | .importDecl _ _ => false
  | .structDecl _ _ => false
  | .fnDecl _ _ _ => false
  | .scope _ body => body.localOnly
  | .forEach _ _ _ body => body.localOnly
  | .forCounted _ init _ update body => init.localOnly && update.localOnly && body.localOnly
  | .ifElse _ _ thenBlock elseBranch => thenBlock.localOnly && elseLocalOnly elseBranch
  | _ => true

/-- Whether an `else` has no declaration inside. -/
def elseLocalOnly : Option Stmt → Bool
  | none => true
  | some s => s.localOnly

/-- Whether a block has no declaration inside. -/
def Block.localOnly : Block → Bool
  | .mk _ stmts => stmtsLocalOnly stmts

/-- Whether there is no declaration among statements or inside them. -/
def stmtsLocalOnly : List Stmt → Bool
  | [] => true
  | s :: ss => s.localOnly && stmtsLocalOnly ss
end

/-- Whether a statement is a declaration without declarations inside. -/
def Stmt.isItem : Stmt → Bool
  | .importDecl _ _ => true
  | .structDecl _ _ => true
  | .fnDecl _ _ body => body.localOnly
  | _ => false

/-! ## Loops -/

mutual
/-- Whether there is no loop in a statement. -/
def Stmt.loopFree : Stmt → Bool
  | .fnDecl _ _ body => body.loopFree
  | .scope _ body => body.loopFree
  | .forEach .. => false
  | .forCounted .. => false
  | .ifElse _ _ thenBlock elseBranch => thenBlock.loopFree && elseLoopFree elseBranch
  | _ => true

/-- Whether there is no loop behind an `else`. -/
def elseLoopFree : Option Stmt → Bool
  | none => true
  | some s => s.loopFree

/-- Whether there is no loop in a block. -/
def Block.loopFree : Block → Bool
  | .mk _ stmts => stmtsLoopFree stmts

/-- Whether there is no loop in statements. -/
def stmtsLoopFree : List Stmt → Bool
  | [] => true
  | s :: ss => s.loopFree && stmtsLoopFree ss
end

namespace Stmt

variable {s : Stmt}

theorem regular_of_isLet (h : s.isLet = true) : s.regular = true := by
  cases s with
  | letDecl => rfl
  | _ => cases h

theorem regular_of_isEffect (h : s.isEffect = true) : s.regular = true := by
  cases s with
  | assign => rfl
  | expr => rfl
  | _ => cases h

end Stmt

end Custody
