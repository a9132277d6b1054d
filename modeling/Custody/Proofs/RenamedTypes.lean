import Custody.Proofs.NameMap
import Custody.Proofs.Records
import Custody.Proofs.Renaming

/-!
# Types of a renamed function

`Frames` are scopes that remember where their names are declared. Scopes before and after a renaming
are two images of the same frames (`Frames.stack`), and in both a name finds the same local.

`Checking.Alike` compares two checks: where the first one finds nothing, both give related values
and write the same log. A check of a renamed expression, statement or function is alike to the check
of the original one; so a function without findings has the same types after a renaming
(`checkFn_alike`).
-/

set_option autoImplicit false

namespace Custody

variable {σ α β α' β' : Type}

/-! ## Frames -/

/-- The locals of one scope with the places of their declarations, in order. -/
abbrev Frame : Type := List (Ident × Ty)

/-- Scopes that remember the places of declarations. -/
structure Frames where
  inner : Frame
  outer : List Frame

namespace Frames

/-- The scope of a frame, with names by `key`. -/
def scope (key : Ident → String) (frame : Frame) : Scope := ⟨frame.map fun e => (key e.1, e.2)⟩

/-- The scopes of frames, with names by `key`. -/
def stack (key : Ident → String) (f : Frames) : ScopeStack :=
  ⟨scope key f.inner, f.outer.map (scope key)⟩

/-- Opens a frame. -/
def push (f : Frames) : Frames := ⟨[], f.inner :: f.outer⟩

/-- Declares a local in the innermost frame. -/
def add (f : Frames) (name : Ident) (type : Ty) : Frames :=
  { f with inner := f.inner ++ [(name, type)] }

/-- All locals, the latest first. -/
def sight (f : Frames) : List (Ident × Ty) := (f.inner :: f.outer).flatMap List.reverse

/-- The names of all locals, the latest first. -/
def idents (f : Frames) : List Ident := f.sight.map (·.1)

/-- No frame has two locals of one name. -/
def Distinct (key : Ident → String) (f : Frames) : Prop :=
  ∀ frame ∈ f.inner :: f.outer, (frame.map fun e => key e.1).Nodup

theorem idents_add (f : Frames) (name : Ident) (type : Ty) :
    (f.add name type).idents = name :: f.idents := by
  simp [idents, sight, add]

variable {key : Ident → String} {f : Frames}

theorem Distinct.push (h : f.Distinct key) : f.push.Distinct key := by
  intro frame hframe
  rcases List.mem_cons.1 hframe with rfl | hframe
  · exact List.nodup_nil
  · exact h frame hframe

/-- The scope of a frame without repeated names finds the latest local of a name. -/
theorem get?_scope {frame : Frame} (h : (frame.map fun e => key e.1).Nodup) (x : String) :
    (scope key frame).get? x = (frame.reverse.find? fun e => key e.1 == x).map (·.2) := by
  unfold scope NameMap.get?
  induction frame with
  | nil => rfl
  | cons e frame ih =>
    obtain ⟨hnew, hrest⟩ := List.nodup_cons.1 h
    rw [List.map_cons, List.reverse_cons, List.find?_append]
    -- The scope looks from the front and the list from the back; with one local of a name that is
    -- the same.
    by_cases hx : x = key e.1
    · have hnone : frame.reverse.find? (fun e => key e.1 == x) = none := by
        refine List.find?_eq_none.2 fun c hc hcx => hnew ?_
        exact List.mem_map.2 ⟨c, List.mem_reverse.1 hc, (beq_iff_eq.1 hcx).trans hx⟩
      rw [hnone]
      simp [hx]
    · have hne : (key e.1 == x) = false := by simpa using Ne.symm hx
      rw [NameMap.lookup_cons_of_ne hx, ih hrest]
      simp [hne]

/-- A name is looked up among all locals, the latest first. -/
theorem lookup_stack (h : f.Distinct key) (x : String) :
    (f.stack key).lookup x = (f.sight.find? fun e => key e.1 == x).map (·.2) := by
  have hframes : ∀ frames : List Frame, (∀ frame ∈ frames, (frame.map fun e => key e.1).Nodup) →
      (frames.map (scope key)).findSome? (fun scope => scope.get? x) =
        ((frames.flatMap List.reverse).find? fun e => key e.1 == x).map (·.2) := by
    intro frames
    induction frames with
    | nil => exact fun _ => rfl
    | cons frame frames ih =>
      intro hdistinct
      rw [List.map_cons, List.findSome?_cons, List.flatMap_cons, List.find?_append,
        get?_scope (hdistinct frame List.mem_cons_self),
        ih fun frame' hframe => hdistinct frame' (List.mem_cons_of_mem _ hframe)]
      cases frame.reverse.find? fun e => key e.1 == x <;> rfl
  exact hframes (f.inner :: f.outer) h

/-- A local whose name is new in the innermost frame can be declared there. -/
theorem declare_stack_of_not_mem (key : Ident → String) {name : Ident} (type : Ty)
    (hnew : key name ∉ f.inner.map fun e => key e.1) :
    (f.stack key).declare (key name) type = .ok ((f.add name type).stack key) := by
  have hnone : (scope key f.inner).get? (key name) = none := by
    unfold scope NameMap.get?
    rw [List.lookup_eq_none_iff]
    intro e he
    obtain ⟨c, hc, rfl⟩ := List.mem_map.1 he
    have hne : key name ≠ key c.1 := fun heq => hnew (heq ▸ List.mem_map_of_mem hc)
    simpa using hne
  unfold ScopeStack.declare stack NameMap.insertNew
  simp only [hnone]
  simp [add, scope]

/-- A declaration that succeeds adds a local with a name that is new in its frame. -/
theorem declare_stack {name : Ident} {type : Ty} {locals : ScopeStack}
    (h : (f.stack key).declare (key name) type = .ok locals) :
    locals = (f.add name type).stack key ∧ key name ∉ f.inner.map fun e => key e.1 := by
  have hnew : key name ∉ f.inner.map fun e => key e.1 := by
    intro hmem
    obtain ⟨hinsert, -⟩ := ScopeStack.declare_ok h
    have hnone := (NameMap.get?_of_insertNew hinsert).1
    obtain ⟨c, hc, hkey⟩ := List.mem_map.1 hmem
    have hall := List.lookup_eq_none_iff.1 hnone (key c.1, c.2) (List.mem_map_of_mem hc)
    simp [hkey] at hall
  rw [declare_stack_of_not_mem key type hnew] at h
  exact ⟨(Except.ok.inj h).symm, hnew⟩

theorem Distinct.add (h : f.Distinct key) {name : Ident}
    (hnew : key name ∉ f.inner.map fun e => key e.1) (type : Ty) :
    (f.add name type).Distinct key := by
  intro frame hframe
  rcases List.mem_cons.1 hframe with rfl | hframe
  · rw [Frames.add, List.map_append]
    refine (h f.inner List.mem_cons_self).append (List.nodup_singleton _) fun x hx hx' => ?_
    rw [List.map_singleton, List.mem_singleton] at hx'
    exact hnew (hx' ▸ hx)
  · exact h frame (List.mem_cons_of_mem _ hframe)

end Frames

/-! ## Checks that are alike -/

namespace Checking

/-- Where the first check finds nothing, both checks give related values and write the same. -/
def Alike (R : α → α' → Prop) (x : Checking σ α) (y : Checking σ α') : Prop :=
  ∀ s, (x s).log.findings = [] →
    R (x s).value (y s).value ∧ (y s).instances = (x s).instances ∧ (y s).log = (x s).log

namespace Alike

variable {R : α → α' → Prop} {Q : β → β' → Prop} {x : Checking σ α} {y : Checking σ α'}
  {f : α → Checking σ β} {g : α' → Checking σ β'}

theorem refl (x : Checking σ α) : Alike Eq x x := fun _ _ => ⟨rfl, rfl, rfl⟩

theorem pure {a : α} {a' : α'} (h : R a a') :
    Alike R (Pure.pure a : Checking σ α) (Pure.pure a') :=
  fun _ _ => ⟨h, rfl, rfl⟩

theorem bind (hx : Alike R x y) (hf : ∀ a a', R a a' → Alike Q (f a) (g a')) :
    Alike Q (x >>= f) (y >>= g) := by
  intro s hclean
  rw [bind_eq, Log.findings_append, List.append_eq_nil_iff] at hclean
  obtain ⟨hvalue, hinstances, hlog⟩ := hx s hclean.1
  obtain ⟨hvalue', hinstances', hlog'⟩ := hf _ _ hvalue _ hclean.2
  rw [bind_eq, bind_eq, hinstances, hlog, hlog']
  exact ⟨hvalue', hinstances', rfl⟩

theorem bindEq {y : Checking σ α} {g : α → Checking σ β'} (hx : Alike Eq x y)
    (hf : ∀ a, Alike Q (f a) (g a)) : Alike Q (x >>= f) (y >>= g) :=
  hx.bind fun a _ h => h ▸ hf a

/-- A check that reports something is alike to any other. -/
theorem ofReport (span : Span) (fault : Fault) (k : Unit → Checking σ α) (y : Checking σ α') :
    Alike R (report span fault >>= k) y := by
  intro s hclean
  rw [bind_eq, Log.findings_append, List.append_eq_nil_iff] at hclean
  cases hclean.1

end Alike

end Checking

/-! ## Expressions -/

namespace Typing

open Checking

variable (place : Place) (builder : InstanceBuilder σ)

theorem callSignature_alike {callee callee' : Expr} (signature : Signature) (typeArgs : List Ty) :
    Alike Eq (callSignature builder callee signature typeArgs)
      (callSignature builder callee' signature typeArgs) := by
  unfold callSignature
  split
  · exact .ofReport _ _ _ _
  · exact .refl _

theorem callType_alike {callee callee' : Expr} (span : Span) (type : Ty) (typeArgs : List TypeExpr)
    (args : List Typed) :
    Alike Eq (callType place builder span callee type typeArgs args)
      (callType place builder span callee' type typeArgs args) := by
  unfold callType
  split
  · exact .bindEq (.refl _) fun types =>
      .bindEq (callSignature_alike builder _ types) fun _ => .refl _
  · exact .refl _
  · exact .ofReport _ _ _ _

/-- Renamed names find what the names found before, and names of no local stay. -/
def Finds (ρ : Renaming) (sight : List Ident) (locals locals' : ScopeStack) (names : List Ident) :
    Prop :=
  ∀ x ∈ names, locals'.lookup (ρ.use sight x).name = locals.lookup x.name ∧
    (locals.lookup x.name = none → ρ.use sight x = x)

variable {ρ : Renaming} {sight : List Ident} {locals locals' : ScopeStack}

theorem Finds.left {names names' : List Ident}
    (h : Finds ρ sight locals locals' (names ++ names')) : Finds ρ sight locals locals' names :=
  fun x hx => h x (List.mem_append_left _ hx)

theorem Finds.right {names names' : List Ident}
    (h : Finds ρ sight locals locals' (names ++ names')) : Finds ρ sight locals locals' names' :=
  fun x hx => h x (List.mem_append_right _ hx)

theorem identType_alike (name : Ident) (h : Finds ρ sight locals locals' [name]) :
    Alike Eq (identType place locals name : Checking σ Ty)
      (identType place locals' (ρ.use sight name)) := by
  obtain ⟨hlookup, hnone⟩ := h name (List.mem_singleton.2 rfl)
  unfold identType
  rw [hlookup]
  cases hfound : locals.lookup name.name with
  | some type => exact .refl _
  | none =>
    rw [hnone hfound]
    exact .refl _

mutual
/-- The check of a renamed expression is alike to the check of the expression. -/
theorem checkExpr_alike : ∀ e : Expr, Finds ρ sight locals locals' e.uses →
    Alike Eq (checkExpr place builder locals e) (checkExpr place builder locals' (ρ.expr sight e))
  | .binary _ _ left right, h | .subscript _ left right, h | .range _ left right, h => by
    simp only [Renaming.expr, checkExpr, Renaming.span_expr]
    exact .bindEq (checkExpr_alike left h.left) fun _ =>
      .bindEq (checkExpr_alike right h.right) fun _ => .refl _
  | .unary _ _ operand, h | .get _ operand _, h | .group _ operand, h => by
    simp only [Renaming.expr, checkExpr, Renaming.span_expr]
    exact .bindEq (checkExpr_alike operand h) fun _ => .refl _
  | .number _ _, _ | .string _ _, _ | .bool _ _, _ | .null _, _ | .zero _, _ => .refl _
  | .ident _ name, h => by
    simp only [Renaming.expr, checkExpr]
    exact .bindEq (identType_alike place name h) fun _ => .refl _
  | .call _ callee _ args, h => by
    simp only [Renaming.expr, checkExpr]
    exact .bindEq (checkExpr_alike callee h.left) fun _ =>
      .bindEq (checkExprs_alike args h.right) fun _ =>
        .bindEq (callType_alike place builder _ _ _ _) fun _ => .refl _
  | .new _ _ fields, h => by
    simp only [Renaming.expr, checkExpr]
    exact .bindEq (.refl _) fun _ => .bindEq (checkFields_alike fields h) fun _ => .refl _
  | .staticArray _ _ elements, h => by
    simp only [Renaming.expr, checkExpr]
    exact .bindEq (.refl _) fun _ => .bindEq (checkExprs_alike elements h) fun _ => .refl _

theorem checkExprs_alike : ∀ es : List Expr, Finds ρ sight locals locals' (Expr.usesAll es) →
    Alike Eq (checkExprs place builder locals es)
      (checkExprs place builder locals' (ρ.exprs sight es))
  | [], _ => .refl _
  | e :: es, h => by
    simp only [Renaming.exprs, checkExprs, Renaming.span_expr]
    exact .bindEq (checkExpr_alike e h.left) fun _ =>
      .bindEq (checkExprs_alike es h.right) fun _ => .refl _

theorem checkFields_alike : ∀ fields : List (Ident × Expr),
    Finds ρ sight locals locals' (Expr.usesFields fields) →
      Alike Eq (checkFields place builder locals fields)
        (checkFields place builder locals' (ρ.fields sight fields))
  | [], _ => .refl _
  | (_, e) :: fields, h => by
    simp only [Renaming.fields, checkFields, Renaming.span_expr]
    exact .bindEq (checkExpr_alike e h.left) fun _ =>
      .bindEq (checkFields_alike fields h.right) fun _ => .refl _
end

/-! ## Scopes before and after -/

/-- Scopes before and after a renaming, of the same frames. -/
def Images (ρ : Renaming) (f : Frames) (locals locals' : ScopeStack) : Prop :=
  locals = f.stack Ident.name ∧ locals' = f.stack fun x => (ρ.decl x).name

section Scopes

variable {f : Frames} {names : List Ident}

/-- Frames without repeated names have none after a renaming. -/
theorem distinct_decl (hclear : ρ.Clear names f.idents) (h : f.Distinct Ident.name) :
    f.Distinct fun x => (ρ.decl x).name := by
  intro frame hframe
  have hsub : ∀ e ∈ frame, e ∈ f.sight := fun e he =>
    List.mem_flatMap.2 ⟨frame, hframe, List.mem_reverse.2 he⟩
  have hplaces := hclear.distinct
  rw [Frames.idents, List.map_map] at hplaces
  exact ρ.nodup_decl Prod.fst (h frame hframe)
    (fun c hc d hd => List.inj_on_of_nodup_map hplaces (hsub c hc) (hsub d hd))
    fun e he => hclear.unseen e.1 (List.mem_map_of_mem (hsub e he))

theorem finds_of_clear (hclear : ρ.Clear names f.idents) (h : f.Distinct Ident.name) :
    Finds ρ f.idents (f.stack Ident.name) (f.stack fun x => (ρ.decl x).name) names := by
  intro x hx
  have hplaces := hclear.distinct
  rw [Frames.idents, List.map_map] at hplaces
  constructor
  · rw [Frames.lookup_stack (distinct_decl hclear h), Frames.lookup_stack h]
    exact congrArg (Option.map (·.2)) (ρ.find?_use Prod.fst hplaces
      (fun e he => hclear.unseen e.1 (List.mem_map_of_mem he)) (hclear.unused x hx))
  · intro hnone
    rw [Frames.lookup_stack h, Option.map_eq_none_iff] at hnone
    rw [Frames.idents, ρ.use_eq Prod.fst, hnone]

/-- A declaration adds the same local to both scopes. -/
theorem declareName_alike {name : Ident} (hclear : ρ.Clear [name] f.idents)
    (h : f.Distinct Ident.name) (type : Ty) {locals locals' : ScopeStack}
    (himages : Images ρ f locals locals') :
    Alike (fun S S' => Images ρ (f.add name type) S S' ∧ (f.add name type).Distinct Ident.name)
      (declareName locals name type : Checking σ ScopeStack)
      (declareName locals' (ρ.decl name) type) := by
  obtain ⟨rfl, rfl⟩ := himages
  unfold declareName
  cases hdeclare : (f.stack Ident.name).declare name.name type with
  -- A name that is taken is reported, and then there is nothing to show.
  | error existing => exact .ofReport _ _ _ _
  | ok locals =>
    obtain ⟨rfl, hnew⟩ := Frames.declare_stack hdeclare
    have hdistinct := h.add hnew type
    have hclear' : ρ.Clear [] (f.add name type).idents := by
      rw [Frames.idents_add]
      have hclear : ρ.Clear ([name] ++ []) f.idents := hclear
      exact hclear.extend (List.Sublist.refl [name])
    -- The renamed frame with the local has no repeated names, so the new name was not in it.
    have hnew' : (ρ.decl name).name ∉ f.inner.map fun e => (ρ.decl e.1).name := by
      have hnodup := distinct_decl hclear' hdistinct _ List.mem_cons_self
      rw [Frames.add, List.map_append] at hnodup
      exact fun hmem => List.disjoint_of_nodup_append hnodup hmem (List.mem_singleton.2 rfl)
    rw [Frames.declare_stack_of_not_mem (fun x => (ρ.decl x).name) type hnew']
    exact .pure ⟨⟨rfl, rfl⟩, hdistinct⟩

end Scopes

end Typing

/-! ## Statements -/

namespace Walking

/-- Two checks stop at the same fault, or give related values. -/
def Outcome (R : α → α' → Prop) : Except StructuralFault α → Except StructuralFault α' → Prop
  | .ok a, .ok a' => R a a'
  | .error e, .error e' => e = e'
  | _, _ => False

/-- Where the first check finds nothing, both checks stop at the same fault or give related values,
and write the same. -/
def Alike (R : α → α' → Prop) (x : Walking σ α) (y : Walking σ α') : Prop :=
  Checking.Alike (Outcome R) x.run y.run

namespace Alike

variable {R : α → α' → Prop} {Q : β → β' → Prop} {x : Walking σ α} {y : Walking σ α'}
  {f : α → Walking σ β} {g : α' → Walking σ β'}

theorem throw (fault : StructuralFault) :
    Alike R (throw fault : Walking σ α) (throw fault : Walking σ α') :=
  fun _ _ => ⟨rfl, rfl, rfl⟩

theorem pure {a : α} {a' : α'} (h : R a a') :
    Alike R (Pure.pure a : Walking σ α) (Pure.pure a') :=
  fun _ _ => ⟨h, rfl, rfl⟩

theorem lift {x : Checking σ α} {y : Checking σ α'} (h : x.Alike R y) :
    Alike R (lift x) (lift y) := by
  intro s hclean
  rw [lift_run] at hclean ⊢
  rw [lift_run]
  exact h s hclean

theorem bind (hx : Alike R x y) (hf : ∀ a a', R a a' → Alike Q (f a) (g a')) :
    Alike Q (x >>= f) (y >>= g) := by
  refine Checking.Alike.bind hx fun r r' hr => ?_
  match r, r', hr with
  | .ok a, .ok a', h => exact hf a a' h
  | .error e, .error _, rfl => exact .pure rfl

/-- Alike checks with equal values give the same result where the first one finds nothing. -/
theorem run_eq {x y : Walking σ α} (h : Alike Eq x y) {s : σ}
    (hclean : (x.run s).log.findings = []) : y.run s = x.run s := by
  obtain ⟨hvalue, hinstances, hlog⟩ := h s hclean
  generalize x.run s = r, y.run s = r' at hvalue hinstances hlog
  match r, r', hvalue, hinstances, hlog with
  | ⟨.ok _, _, _⟩, ⟨.ok _, _, _⟩, rfl, rfl, rfl => rfl
  | ⟨.error _, _, _⟩, ⟨.error _, _, _⟩, rfl, rfl, rfl => rfl

end Alike

end Walking

namespace Typing

open Checking

section Statements

variable {ρ : Renaming} {body : Body σ} {f : Frames} {locals locals' : ScopeStack}

theorem letType_alike (name : Ident) (type : Option TypeExpr) (init : Typed) :
    Alike Eq (letType body name type init) (letType body (ρ.decl name) type init) := by
  unfold letType
  split
  · exact .refl _
  · split
    · exact .ofReport _ _ _ _
    · exact .refl _

/-- The scopes behind a statement: it adds what it declares to the innermost frame. -/
def Behind (ρ : Renaming) (f : Frames) (declared : List Ident) (locals locals' : ScopeStack) :
    Prop :=
  ∃ f' : Frames, Images ρ f' locals locals' ∧ f'.outer = f.outer ∧
    f'.idents = declared ++ f.idents ∧ f'.Distinct Ident.name

theorem Behind.same (himages : Images ρ f locals locals') (h : f.Distinct Ident.name) :
    Behind ρ f [] locals locals' :=
  ⟨f, himages, rfl, rfl, h⟩

theorem expr_alike {e : Expr} (hclear : ρ.Clear e.uses f.idents) (h : f.Distinct Ident.name)
    (himages : Images ρ f locals locals') :
    Alike Eq (body.expr locals e) (body.expr locals' (ρ.expr f.idents e)) := by
  obtain ⟨rfl, rfl⟩ := himages
  exact checkExpr_alike _ _ e (finds_of_clear hclear h)

theorem checkLet_alike {mark : Mark} {name : Ident} {type : Option TypeExpr} {init : Expr}
    (hclear : ρ.Clear (init.uses ++ [name]) f.idents) (h : f.Distinct Ident.name)
    (himages : Images ρ f locals locals') :
    Alike (Behind ρ f [name]) (checkLet body locals mark name type init)
      (checkLet body locals' mark (ρ.decl name) type (ρ.expr f.idents init)) := by
  unfold checkLet
  rw [Renaming.span_expr]
  refine .bindEq (expr_alike hclear.left h himages) fun t =>
    .bindEq (letType_alike name type _) fun bound =>
      .bind (declareName_alike hclear.right h bound himages) fun S S' hS => ?_
  refine .bindEq (.refl _) fun _ => .pure ⟨_, hS.1, rfl, Frames.idents_add _ _ _, hS.2⟩

theorem isAssignable_expr (sight : List Ident) (e : Expr) :
    isAssignable (ρ.expr sight e) = isAssignable e := by
  cases e with
  | unary mark op operand => cases op <;> rfl
  | _ => rfl

theorem checkAssign_alike {mark : Mark} {target value : Expr}
    (hclear : ρ.Clear (value.uses ++ target.uses) f.idents) (h : f.Distinct Ident.name)
    (himages : Images ρ f locals locals') :
    Alike Eq (checkAssign body locals mark target value)
      (checkAssign body locals' mark (ρ.expr f.idents target) (ρ.expr f.idents value)) := by
  unfold checkAssign
  rw [isAssignable_expr, Renaming.span_expr, Renaming.span_expr]
  dsimp only
  split
  · exact .bindEq (expr_alike hclear.right h himages) fun _ =>
      .bindEq (expr_alike hclear.left h himages) fun _ => .refl _
  · exact .ofReport _ _ _ _

theorem checkReturn_alike {mark : Mark} {value : Expr} (hclear : ρ.Clear value.uses f.idents)
    (h : f.Distinct Ident.name) (himages : Images ρ f locals locals') :
    Alike Eq (checkReturn body locals mark (some value))
      (checkReturn body locals' mark (some (ρ.expr f.idents value))) := by
  simp only [checkReturn, Renaming.span_expr]
  exact .bindEq (expr_alike hclear h himages) fun _ => .refl _

theorem checkCondition_alike {condition : Expr} (hclear : ρ.Clear condition.uses f.idents)
    (h : f.Distinct Ident.name) (himages : Images ρ f locals locals') :
    Alike Eq (checkCondition body locals condition)
      (checkCondition body locals' (ρ.expr f.idents condition)) := by
  simp only [checkCondition, Renaming.span_expr]
  exact .bindEq (expr_alike hclear h himages) fun _ => .refl _

theorem checkEachHead_alike {name : Ident} {iterable : Expr}
    (hclear : ρ.Clear (iterable.uses ++ [name]) f.idents) (h : f.Distinct Ident.name)
    (himages : Images ρ f locals locals') :
    Alike (Behind ρ f [name]) (checkEachHead body locals name iterable)
      (checkEachHead body locals' (ρ.decl name) (ρ.expr f.idents iterable)) := by
  simp only [checkEachHead, Renaming.span_expr]
  refine .bindEq (expr_alike hclear.left h himages) fun _ => .bindEq (.refl _) fun element => ?_
  intro s hclean
  obtain ⟨hvalue, hrest⟩ := declareName_alike hclear.right h element himages s hclean
  exact ⟨⟨_, hvalue.1, rfl, Frames.idents_add _ _ _, hvalue.2⟩, hrest⟩

theorem checkExprStmt_alike {mark : Mark} {value : Expr} (hclear : ρ.Clear value.uses f.idents)
    (h : f.Distinct Ident.name) (himages : Images ρ f locals locals') :
    Alike Eq (checkExprStmt body locals mark value)
      (checkExprStmt body locals' mark (ρ.expr f.idents value)) := by
  simp only [checkExprStmt]
  exact .bindEq (expr_alike hclear h himages) fun _ => .refl _

theorem done_alike {R : ScopeStack → ScopeStack → Prop} (mark : Mark) (h : R locals locals') :
    Walking.Alike (σ := σ) R (done mark locals) (done mark locals') :=
  .lift (.bindEq (.refl _) fun _ => .pure h)

/-- The end of a scope gives back the scopes around it. -/
theorem pop_images {g : Frames} (himages : Images ρ g locals locals')
    (houter : g.outer = f.inner :: f.outer) : Images ρ f locals.pop locals'.pop := by
  obtain ⟨rfl, rfl⟩ := himages
  simp only [Images, Frames.stack, ScopeStack.pop, houter, List.map_cons, and_self]

mutual
/-- The check of a renamed statement is alike to the check of the statement. -/
theorem checkStmt_alike : ∀ (s : Stmt) (body : Body σ) (f : Frames) (locals locals' : ScopeStack),
    s.regular = true → ρ.Clear s.names f.idents → f.Distinct Ident.name →
      Images ρ f locals locals' →
        Walking.Alike (Behind ρ f s.declared) (checkStmt body locals s)
          (checkStmt body locals' (ρ.stmt f.idents s))
  | .importDecl _ _, _, _, _, _, _, _, _, _ => .throw _
  | .structDecl _ _, _, _, _, _, _, _, _, _ => .throw _
  | .fnDecl _ _ _, _, _, _, _, _, _, _, _ => .throw _
  | .letDecl _ _ _ _, _, _, _, _, _, hclear, h, himages =>
    .lift (checkLet_alike hclear h himages)
  | .scope mark block, body, f, locals, locals', hregular, hclear, h, himages => by
    simp only [Renaming.stmt, checkStmt]
    exact .bind (checkBlock_alike block body f locals locals' hregular hclear h himages)
      fun _ _ hS => done_alike mark (.same hS h)
  | .assign _ _ _, _, _, _, _, _, hclear, h, himages =>
    .bind (.lift (checkAssign_alike hclear h himages)) fun _ _ _ => .pure (.same himages h)
  | .returnStmt _ none, _, _, _, _, _, _, h, himages | .breakStmt _, _, _, _, _, _, _, h, himages
  | .continueStmt _, _, _, _, _, _, _, h, himages =>
    .bind (.lift (.refl _)) fun _ _ _ => .pure (.same himages h)
  | .returnStmt _ (some _), _, _, _, _, _, hclear, h, himages =>
    .bind (.lift (checkReturn_alike hclear h himages)) fun _ _ _ => .pure (.same himages h)
  | .forEach mark name iterable block, body, f, locals, locals', hregular, hclear, h, himages => by
    have hpush : Images ρ f.push locals.push locals'.push := by
      obtain ⟨rfl, rfl⟩ := himages
      exact ⟨rfl, rfl⟩
    have hclear' : ρ.Clear ((iterable.uses ++ [name]) ++ block.names) f.push.idents := by
      rw [List.append_assoc]
      exact hclear
    have hblock : ρ.Clear block.names (name :: f.idents) :=
      hclear'.extend (List.sublist_append_right iterable.uses [name])
    simp only [Renaming.stmt, checkStmt]
    refine .bind (.lift (checkEachHead_alike (f := f.push) hclear'.left h.push hpush))
      fun S S' hS => ?_
    -- The loop has a frame of its own, with the element in it.
    obtain ⟨g, hg, houter, hidents, hdistinct⟩ := hS
    have hidents : g.idents = name :: f.idents := hidents
    rw [← hidents] at hblock ⊢
    refine .bind (checkBlock_alike block body.inLoop g S S' hregular hblock hdistinct hg)
      fun T T' hT => done_alike mark (.same (pop_images hT houter) h)
  | .forCounted mark init condition update block, body, f, locals, locals', hregular, hclear, h,
      himages => by
      have hpush : Images ρ f.push locals.push locals'.push := by
        obtain ⟨rfl, rfl⟩ := himages
        exact ⟨rfl, rfl⟩
      simp only [Stmt.regular, Bool.and_eq_true] at hregular
      obtain ⟨⟨hlet, heffect⟩, hregular⟩ := hregular
      have hsub := Renaming.declared_sublist_names init
      have hcondition := hclear.left.left.extend hsub
      have hblock := hclear.left.extend (hsub.trans (List.sublist_append_left _ _))
      have hupdate := hclear.extend
        (hsub.trans ((List.sublist_append_left _ _).trans (List.sublist_append_left _ _)))
      simp only [Renaming.stmt, checkStmt]
      refine .bind (checkStmt_alike init body f.push _ _ (Stmt.regular_of_isLet hlet)
        hclear.left.left.left h.push hpush) fun S S' hS => ?_
      -- The condition, the body and the update are all checked in the frame of the loop's head.
      obtain ⟨g, hg, houter, hidents, hdistinct⟩ := hS
      have hidents : g.idents = init.declared ++ f.idents := hidents
      rw [← hidents] at hcondition hblock hupdate ⊢
      refine .bind (.lift (checkCondition_alike hcondition hdistinct hg)) fun _ _ _ => ?_
      refine .bind (checkBlock_alike block body.inLoop g S S' hregular hblock hdistinct hg)
        fun T T' hT => ?_
      refine .bind (checkStmt_alike update body g T T' (Stmt.regular_of_isEffect heffect) hupdate
        hdistinct hT) fun U U' hU => ?_
      obtain ⟨k, hk, houter', -, -⟩ := hU
      exact done_alike mark (.same (pop_images hk (houter'.trans houter)) h)
  | .ifElse mark condition thenBlock elseBranch, body, f, locals, locals', hregular, hclear, h,
      himages => by
      simp only [Stmt.regular, Bool.and_eq_true] at hregular
      simp only [Renaming.stmt, checkStmt]
      refine .bind (.lift (checkCondition_alike hclear.left.left h himages)) fun _ _ _ => ?_
      refine .bind (checkBlock_alike thenBlock body f locals locals' hregular.1 hclear.left.right h
        himages) fun S S' hS => ?_
      exact .bind (checkElse_alike elseBranch body f S S' hregular.2 hclear.right h hS)
        fun _ _ hT => done_alike mark hT
  | .expr _ _, _, _, _, _, _, hclear, h, himages =>
    .bind (.lift (checkExprStmt_alike hclear h himages)) fun _ _ _ => .pure (.same himages h)

theorem checkElse_alike :
    ∀ (s : Option Stmt) (body : Body σ) (f : Frames) (locals locals' : ScopeStack),
      elseRegular s = true → ρ.Clear (elseNames s) f.idents → f.Distinct Ident.name →
        Images ρ f locals locals' →
          Walking.Alike (Behind ρ f []) (checkElse body locals s)
            (checkElse body locals' (ρ.elseBranch f.idents s))
  | none, _, _, _, _, _, _, h, himages => .pure (.same himages h)
  | some s, body, f, locals, locals', hregular, hclear, h, himages => by
    obtain ⟨hbranch, hregular⟩ := Bool.and_eq_true_iff.1 hregular
    have hnone : s.declared = [] := by
      cases s with
      | letDecl => cases hbranch
      | _ => rfl
    have hs := checkStmt_alike s body f locals locals' hregular hclear h himages
    rw [hnone] at hs
    exact hs

theorem checkBlock_alike :
    ∀ (b : Block) (body : Body σ) (f : Frames) (locals locals' : ScopeStack),
      b.regular = true → ρ.Clear b.names f.idents → f.Distinct Ident.name →
        Images ρ f locals locals' →
          Walking.Alike (Images ρ f) (checkBlock body locals b)
            (checkBlock body locals' (ρ.block f.idents b))
  | .mk _ ss, body, f, locals, locals', hregular, hclear, h, himages => by
    have hpush : Images ρ f.push locals.push locals'.push := by
      obtain ⟨rfl, rfl⟩ := himages
      exact ⟨rfl, rfl⟩
    simp only [Renaming.block, checkBlock]
    refine .bind (checkStmts_alike ss body f.push _ _ hregular hclear h.push hpush)
      fun S S' hS => ?_
    obtain ⟨g, hg, houter⟩ := hS
    exact .pure (pop_images hg houter)

theorem checkStmts_alike :
    ∀ (ss : List Stmt) (body : Body σ) (f : Frames) (locals locals' : ScopeStack),
      stmtsRegular ss = true → ρ.Clear (stmtsNames ss) f.idents → f.Distinct Ident.name →
        Images ρ f locals locals' →
          Walking.Alike (fun S S' => ∃ g : Frames, Images ρ g S S' ∧ g.outer = f.outer)
            (checkStmts body locals ss) (checkStmts body locals' (ρ.stmts f.idents ss))
  | [], _, f, _, _, _, _, _, himages => .pure ⟨f, himages, rfl⟩
  | s :: ss, body, f, locals, locals', hregular, hclear, h, himages => by
    simp only [stmtsRegular, Bool.and_eq_true] at hregular
    have hrest := hclear.extend (Renaming.declared_sublist_names s)
    simp only [Renaming.stmts, checkStmts]
    refine .bind (checkStmt_alike s body f locals locals' hregular.1 hclear.left h himages)
      fun S S' hS => ?_
    obtain ⟨g, hg, houter, hidents, hdistinct⟩ := hS
    rw [← hidents] at hrest ⊢
    have hss := checkStmts_alike ss body g S S' hregular.2 hrest hdistinct hg
    rw [houter] at hss
    exact hss
end

/-! ## Functions -/

theorem declareParams_alike : ∀ (ps : List TypedName) (ts : List Ty) (f : Frames)
    (locals locals' : ScopeStack), ts.length = ps.length →
      ρ.Clear (ps.map (·.name)) f.idents → f.Distinct Ident.name → Images ρ f locals locals' →
        Alike (fun S S' => ∃ g : Frames, Images ρ g S S' ∧
            g.idents = (ps.map (·.name)).reverse ++ f.idents ∧ g.Distinct Ident.name)
          (declareParams locals ps ts : Checking σ ScopeStack)
          (declareParams locals' (ps.map fun p => { p with name := ρ.decl p.name }) ts)
  | [], [], f, _, _, _, _, h, himages => .pure ⟨f, himages, rfl, h⟩
  | p :: ps, t :: ts, f, locals, locals', hlength, hclear, h, himages => by
    have hclear : ρ.Clear ([p.name] ++ ps.map (·.name)) f.idents := hclear
    have hrest := hclear.extend (List.Sublist.refl [p.name])
    simp only [List.map_cons, declareParams]
    refine .bind (declareName_alike hclear.left h t himages) fun S S' hS => ?_
    have hidents : (f.add p.name t).idents = [p.name] ++ f.idents := Frames.idents_add _ _ _
    rw [← hidents] at hrest
    have hps := declareParams_alike ps ts (f.add p.name t) S S' (Nat.succ.inj hlength) hrest hS.2
      hS.1
    simp only [hidents, List.reverse_cons, List.append_assoc] at hps ⊢
    exact hps

/-- The check of a renamed function whose signature has a type for each parameter is alike to the
check of the function. -/
theorem checkFn_alike {b : Bundle} {u : SourceUnit} {builder : InstanceBuilder σ} {mark : Mark}
    {head : FnHead} {block : Block} (hregular : block.regular = true)
    (hclear : ρ.Clear (head.params.map (·.name) ++ block.names) [])
    (hsignature : ∀ arity params result,
      u.functions.get? head.name.name = some (.fn arity params result) →
        params.length = head.params.length) :
    Walking.Alike Eq (checkFn b u builder mark head block)
      (checkFn b u builder mark (ρ.head head) (ρ.body head block)) := by
  unfold checkFn Renaming.head Renaming.body
  dsimp only
  split
  · next arity params result hfunction =>
      have himages : Images ρ ⟨[], []⟩ .empty .empty := ⟨rfl, rfl⟩
      have hempty : Frames.Distinct Ident.name ⟨[], []⟩ := fun frame hframe => by
        rw [List.mem_singleton.1 hframe]
        exact List.nodup_nil
      refine .bind (.lift (declareParams_alike head.params params ⟨[], []⟩ _ _
        (hsignature arity params result hfunction) hclear.left hempty himages)) fun S S' hS => ?_
      obtain ⟨g, hg, hidents, hdistinct⟩ := hS
      have hidents : (head.params.map (·.name)).reverse = g.idents := by
        rw [hidents]
        exact (List.append_nil _).symm
      have hbody : ρ.Clear block.names g.idents := hidents ▸ hclear.body
      -- The statements of the body stand in the same frame as the parameters.
      have hstmts : (ρ.block (head.params.map (·.name)).reverse block).stmts =
          ρ.stmts g.idents block.stmts := by
        rw [hidents]
        cases block
        rfl
      rw [hstmts]
      cases block with
      | mk span ss =>
        exact .bind (checkStmts_alike ss _ g S S' hregular hbody hdistinct hg)
          fun _ _ _ => .lift (.refl _)
  · exact .throw _

end Statements

end Typing

end Custody
