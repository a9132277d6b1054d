import Custody.Proofs.NameMap
import Custody.Proofs.Names
import Custody.Proofs.Visits

/-!
# Lexical scopes

Which declaration a name in a body stands for, told by the tree alone: no types, no reports and no
state.

`Lexical.Scopes` are the declarations in front of a place, scope by scope, and
`Lexical.Scopes.resolve` picks the first declaration of a name in the innermost scope that has one.
A block opens a scope, and so does the head of a loop. The parameters of a function and the
statements of its body share one scope.

`Stmt.sites` lists the names in a statement with what they stand for, and the words that ask for a
loop with whether they are in the body of one. It leaves no name out (`Stmt.sites_names`).

A stack of scopes with types agrees with lexical scopes if each name has in it the type of the
declaration that it stands for (`Lexical.View.Agrees`). Opening and closing scopes and declaring
names keep this up.
-/

set_option autoImplicit false

namespace Custody

namespace Lexical

/-! ## Declarations in front of a place -/

/-- How a local comes about: as a parameter, by a `let`, or as the element of what a loop goes
over. -/
inductive Origin where
  | param (index : Nat)
  | letDecl (mark : Mark)
  | each (iterable : Expr)

/-- A declaration of a local. -/
structure Binding where
  name : Ident
  origin : Origin

/-- The declarations in front of a place, in order, for each scope around it. -/
structure Scopes where
  inner : List Binding
  outer : List (List Binding)

namespace Scopes

/-- A scope inside the innermost one. -/
def push (scopes : Scopes) : Scopes := ⟨[], scopes.inner :: scopes.outer⟩

/-- The scopes behind some declarations. -/
def add (scopes : Scopes) (new : List Binding) : Scopes :=
  { scopes with inner := scopes.inner ++ new }

/-- The declaration that a name stands for: the first one in the innermost scope that has one. -/
def resolve (scopes : Scopes) (name : String) : Option Binding :=
  (scopes.inner :: scopes.outer).findSome? fun scope => scope.find? (·.name.name == name)

@[simp] theorem add_nil (scopes : Scopes) : scopes.add [] = scopes := by
  rw [add, List.append_nil]

theorem add_add (scopes : Scopes) (new new' : List Binding) :
    (scopes.add new).add new' = scopes.add (new ++ new') := by
  rw [add, add, add, List.append_assoc]

end Scopes

/-- A place where scopes matter: a name with the declaration that it stands for, if it is a local,
or a word that asks for a loop. -/
inductive Site where
  | name (target : Option Binding) (mark : Mark) (name : Ident)
  | jump (inLoop : Bool) (mark : Mark) (word : String)

namespace Site

/-- The name as an expression. -/
def expr? : Site → Option Expr
  | name _ mark x => some (.ident mark x)
  | jump _ _ _ => none

end Site

end Lexical

open Lexical

/-! ## Sites of a tree -/

/-- Whether the expression is a name. -/
def Expr.isName : Expr → Bool
  | .ident _ _ => true
  | _ => false

/-- What a single node has to do with scopes. -/
def Expr.site? (scopes : Scopes) : Expr → Option Site
  | .ident mark name => some (.name (scopes.resolve name.name) mark name)
  | _ => none

/-- The names in an expression. -/
def Expr.sites (scopes : Scopes) (e : Expr) : List Site := e.parts.filterMap (Expr.site? scopes)

/-- What a statement declares for the statements behind it. -/
def Stmt.bindings : Stmt → List Binding
  | .letDecl mark name _ _ => [⟨name, .letDecl mark⟩]
  | _ => []

/-- What the parameters of a function declare. -/
def FnHead.bindings (head : FnHead) : List Binding :=
  head.params.mapIdx fun i p => ⟨p.name, .param i⟩

mutual
/-- The names in a statement and the words that ask for a loop, in the order in which a check comes
by. -/
def Stmt.sites (inLoop : Bool) (scopes : Scopes) : Stmt → List Site
  | .importDecl _ _ => []
  | .structDecl _ _ => []
  | .fnDecl _ head body => body.sites false ⟨head.bindings, []⟩
  | .letDecl _ _ _ init => init.sites scopes
  | .scope _ body => body.sites inLoop scopes.push
  | .assign _ target value => target.sites scopes ++ value.sites scopes
  | .returnStmt _ none => []
  | .returnStmt _ (some value) => value.sites scopes
  | .breakStmt mark => [.jump inLoop mark "break"]
  | .continueStmt mark => [.jump inLoop mark "continue"]
  | .forEach _ name iterable body =>
    iterable.sites scopes ++ body.sites true (scopes.push.add [⟨name, .each iterable⟩]).push
  | .forCounted _ init condition update body =>
    init.sites inLoop scopes.push ++ (condition.sites (scopes.push.add init.bindings) ++
      (body.sites true (scopes.push.add init.bindings).push ++
        update.sites inLoop (scopes.push.add init.bindings)))
  | .ifElse _ condition thenBlock elseBranch =>
    condition.sites scopes ++
    (thenBlock.sites inLoop scopes.push ++ elseSites inLoop scopes elseBranch)
  | .expr _ value => value.sites scopes

/-- The sites behind an `else`, if there is one. -/
def elseSites (inLoop : Bool) (scopes : Scopes) : Option Stmt → List Site
  | none => []
  | some s => s.sites inLoop scopes

/-- The sites of a block whose scope is the innermost one. -/
def Block.sites (inLoop : Bool) (scopes : Scopes) : Block → List Site
  | .mk _ stmts => stmtsSites inLoop scopes stmts

/-- The sites of statements; each of them sees what the ones before it declare. -/
def stmtsSites (inLoop : Bool) (scopes : Scopes) : List Stmt → List Site
  | [] => []
  | s :: ss => s.sites inLoop scopes ++ stmtsSites inLoop (scopes.add s.bindings) ss
end

/-- A node that is no name adds nothing to the sites of its parts. -/
theorem Expr.sites_of_parts {e : Expr} {es : List Expr} {scopes : Scopes}
    (hparts : e.parts = es ++ [e])
    (hsite : e.site? scopes = none) : e.sites scopes = es.filterMap (Expr.site? scopes) := by
  rw [Expr.sites, hparts, List.filterMap_append, List.filterMap_cons_none hsite, List.filterMap_nil,
    List.append_nil]

theorem Expr.sites_push (scopes : Scopes) (e : Expr) : e.sites scopes.push = e.sites scopes := rfl

/-! ## All names are sites -/

/-- The names in an expression are its sites. -/
theorem Expr.sites_names (scopes : Scopes) (e : Expr) :
    (e.sites scopes).filterMap Site.expr? = e.parts.filter Expr.isName := by
  rw [Expr.sites, List.filterMap_filterMap, ← List.filterMap_eq_filter]
  congr 1
  funext x
  cases x <;> rfl

mutual
/-- The names in a statement are its sites. -/
theorem Stmt.sites_names : ∀ (s : Stmt) (inLoop : Bool) (scopes : Scopes),
    (s.sites inLoop scopes).filterMap Site.expr? = s.exprs.filter Expr.isName
  | .importDecl _ _, _, _ => rfl
  | .structDecl _ _, _, _ => rfl
  | .fnDecl _ head body, _, _ => body.sites_names false ⟨head.bindings, []⟩
  | .letDecl _ _ _ init, _, scopes => init.sites_names scopes
  | .scope _ body, inLoop, scopes => body.sites_names inLoop scopes.push
  | .assign _ target value, _, scopes => by
    rw [Stmt.sites, Stmt.exprs, List.filterMap_append, List.filter_append, target.sites_names,
      value.sites_names]
  | .returnStmt _ none, _, _ => rfl
  | .returnStmt _ (some value), _, scopes => value.sites_names scopes
  | .breakStmt _, _, _ => rfl
  | .continueStmt _, _, _ => rfl
  | .forEach _ name iterable body, inLoop, scopes => by
    rw [Stmt.sites, Stmt.exprs, List.filterMap_append, List.filter_append, iterable.sites_names,
      body.sites_names]
  | .forCounted _ init condition update body, inLoop, scopes => by
    simp only [Stmt.sites, Stmt.exprs, List.filterMap_append, List.filter_append, init.sites_names,
      condition.sites_names, body.sites_names, update.sites_names]
  | .ifElse _ condition thenBlock elseBranch, inLoop, scopes => by
    simp only [Stmt.sites, Stmt.exprs, List.filterMap_append, List.filter_append,
      condition.sites_names, thenBlock.sites_names, elseSites_names elseBranch]
  | .expr _ value, _, scopes => value.sites_names scopes

theorem elseSites_names : ∀ (branch : Option Stmt) (inLoop : Bool) (scopes : Scopes),
    (elseSites inLoop scopes branch).filterMap Site.expr? = (elseExprs branch).filter Expr.isName
  | none, _, _ => rfl
  | some s, inLoop, scopes => s.sites_names inLoop scopes

theorem Block.sites_names : ∀ (block : Block) (inLoop : Bool) (scopes : Scopes),
    (block.sites inLoop scopes).filterMap Site.expr? = block.exprs.filter Expr.isName
  | .mk _ stmts, inLoop, scopes => stmtsSites_names stmts inLoop scopes

theorem stmtsSites_names : ∀ (ss : List Stmt) (inLoop : Bool) (scopes : Scopes),
    (stmtsSites inLoop scopes ss).filterMap Site.expr? = (stmtsExprs ss).filter Expr.isName
  | [], _, _ => rfl
  | s :: ss, inLoop, scopes => by
    rw [stmtsSites, stmtsExprs, List.filterMap_append, List.filter_append, s.sites_names,
      stmtsSites_names ss]
end

/-- The type of the elements of what a loop goes over. -/
def Ty.elementOf : Ty → Ty
  | .array _ element => element
  | .slice element => element
  | .range format => .number format
  | _ => .any

namespace Lexical

/-! ## Types of declarations -/

/-- What gives declarations their types: the unit, the signature of the function around them, and
the types of nodes. -/
structure View where
  unit : SourceUnit
  params : List Ty
  types : Nat → Option Ty

namespace View

variable (v : View)

/-- The type of a declaration: that in the signature, that of the `let`, or that of the elements. -/
def typeOf (b : Binding) : Option Ty :=
  match b.origin with
  | .param index => v.params[index]?
  | .letDecl mark => v.types mark.id
  | .each iterable => (v.types iterable.id).map Ty.elementOf

/-- What a name that is no local stands for in a unit: a function, or else an alias. -/
def global? (unit : SourceUnit) (name : String) : Option Ty :=
  (unit.functions.get? name).or (unit.namespaces.get? name)

/-- The type of a name that stands for the given declaration, or for no local. -/
def nameType (target : Option Binding) (name : String) : Option Ty :=
  match target with
  | some b => v.typeOf b
  | none => some ((global? v.unit name).getD .any)

end View

namespace Site

/-- The name has the type of what it stands for. -/
def Typed (v : View) : Site → Prop
  | name target mark x => ∃ t, v.types mark.id = some t ∧ v.nameType target x.name = some t
  | jump _ _ _ => True

/-- What is wrong at a site: the name stands for nothing, or the word is not in a loop. -/
def complaint? (unit : SourceUnit) : Site → Option Finding
  | name (some _) _ _ => none
  | name none _ x =>
    if (View.global? unit x.name).isNone then some ⟨x.span, .unknownIdentifier x.name⟩ else none
  | jump true _ _ => none
  | jump false mark word => some ⟨mark.span, .outsideLoop word⟩

end Site

/-! ## Agreement -/

namespace View

variable {v : View}

/-- Each name has in the scope the type of its first declaration. -/
def Matches (v : View) (scope : Scope) (bindings : List Binding) : Prop :=
  ∀ name, (scope.get? name).map some = (bindings.find? (·.name.name == name)).map v.typeOf

/-- The scopes agree one by one. -/
structure Agrees (v : View) (locals : ScopeStack) (scopes : Scopes) : Prop where
  inner : v.Matches locals.inner scopes.inner
  outer : List.Forall₂ v.Matches locals.outer scopes.outer

theorem matches_empty (v : View) : v.Matches .empty [] := fun _ => rfl

theorem agrees_empty (v : View) : v.Agrees .empty ⟨[], []⟩ := ⟨v.matches_empty, .nil⟩

variable {locals : ScopeStack} {scopes : Scopes}

theorem Agrees.add_nil (h : v.Agrees locals scopes) : v.Agrees locals (scopes.add []) := by
  rw [Scopes.add_nil]
  exact h

theorem Agrees.push (h : v.Agrees locals scopes) : v.Agrees locals.push scopes.push :=
  ⟨v.matches_empty, .cons h.inner h.outer⟩

theorem Agrees.pop {new : List Binding} (h : v.Agrees locals (scopes.push.add new)) :
    v.Agrees locals.pop scopes := by
  obtain ⟨inner, outer⟩ := locals
  cases h.outer with
  | cons hinner houter => exact ⟨hinner, houter⟩

theorem lookup_of_forall₂ {stack : List Scope} {bindings : List (List Binding)}
    (h : List.Forall₂ v.Matches stack bindings) (name : String) :
    (stack.findSome? fun scope => scope.get? name).map some =
      (bindings.findSome? fun scope => scope.find? (·.name.name == name)).map v.typeOf := by
  induction h with
  | nil => rfl
  | @cons scope bs stack bindings hscope _ ih =>
    rw [List.findSome?_cons, List.findSome?_cons]
    have hname := hscope name
    cases hfind : bs.find? (·.name.name == name) with
    | none =>
      rw [hfind, Option.map_none, Option.map_eq_none_iff] at hname
      rw [hname]
      exact ih
    | some b =>
      rw [hfind] at hname
      obtain ⟨t, ht, htype⟩ := Option.map_eq_some_iff.1 hname
      rw [ht]
      exact congrArg some htype

/-- A name is looked up to the type of the declaration that it stands for. -/
theorem Agrees.lookup (h : v.Agrees locals scopes) (name : String) :
    (locals.lookup name).map some = (scopes.resolve name).map v.typeOf :=
  lookup_of_forall₂ (.cons h.inner h.outer) name

/-- A further declaration of a name is not seen. -/
theorem Matches.add_of_isSome {scope : Scope} {bindings : List Binding}
    (h : v.Matches scope bindings)
    {b : Binding} (hold : (scope.get? b.name.name).isSome) : v.Matches scope (bindings ++ [b]) := by
  intro name
  rw [h name, List.find?_append]
  cases hfind : bindings.find? (·.name.name == name) with
  | some b' => rfl
  | none =>
    have hne : b.name.name ≠ name := by
      rintro rfl
      have hnone := h b.name.name
      rw [hfind, Option.map_none, Option.map_eq_none_iff] at hnone
      rw [hnone] at hold
      cases hold
    simp [hne]

/-- The first declaration of a name gives it its type. -/
theorem Matches.add_of_insertNew {scope scope' : Scope} {bindings : List Binding}
    (h : v.Matches scope bindings) {b : Binding} {t : Ty} (htype : v.typeOf b = some t)
    (hnew : scope.insertNew b.name.name t = .ok scope') : v.Matches scope' (bindings ++ [b]) := by
  obtain ⟨hnone, hget⟩ := NameMap.get?_of_insertNew hnew
  intro name
  rw [hget, List.find?_append]
  by_cases hname : name = b.name.name
  · subst hname
    have hfind := h b.name.name
    rw [hnone, Option.map_none, eq_comm, Option.map_eq_none_iff] at hfind
    simp [hfind, htype]
  · simp [hname, h name, Ne.symm hname]

end View

end Lexical

end Custody
