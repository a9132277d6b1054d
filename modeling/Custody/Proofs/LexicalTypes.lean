import Custody.Proofs.DeclarationOrder
import Custody.Proofs.LexicalScopes
import Custody.Proofs.ScopeDiscipline
import Custody.Proofs.StructuralFaults
import Custody.Proofs.TypingSound

/-!
# Names have the types of their declarations

The check carries types from declarations to names in a stack of scopes that it changes as it goes.
Lexical scopes are fixed by the tree. The check of a statement keeps the two in agreement.

`Walking.Surveys` says what a check that starts so does at its sites: every name gets the type of
its declaration, and what is found about scopes is what the sites give rise to. The result for
bundles is `lexical_scoping`.
-/

set_option autoImplicit false

namespace Custody

variable {σ α β : Type}

/-- Whether a fault is about the scope of a name or of a word. -/
def Fault.isScoping : Fault → Bool
  | .unknownIdentifier _ => true
  | .outsideLoop _ => true
  | _ => false

theorem Fault.isScoping_of_ofRule {fault : Fault} (h : fault.ofRule = true) :
    fault.isScoping = false := by
  cases fault with
  | unknownIdentifier name => cases h
  | outsideLoop word => cases h
  | _ => rfl

open Lexical

/-! ## Surveys -/

/-- The types that a check writes down are those of the view. -/
def Lexical.View.Records (v : View) (log : Log) : Prop := ∀ r ∈ log.types, v.types r.1 = some r.2

/-- What is written at the sites: types of names, and what is wrong with the scopes. -/
structure Log.Surveyed (v : View) (sites : List Site) (log : Log) : Prop where
  typed : ∀ site ∈ sites, site.Typed v
  found : log.findings.filter (·.fault.isScoping) = sites.filterMap (Site.complaint? v.unit)

namespace Log.Surveyed

variable {v : View} {sites sites' : List Site} {log log' : Log}

theorem append (h : log.Surveyed v sites) (h' : log'.Surveyed v sites') :
    (log ++ log').Surveyed v (sites ++ sites') := by
  constructor
  · exact List.forall_mem_append.2 ⟨h.typed, h'.typed⟩
  · rw [Log.findings_append, List.filter_append, h.found, h'.found, List.filterMap_append]

/-- Where nothing is found about scopes, no sites are needed. -/
theorem nil (h : ∀ f ∈ log.findings, f.fault.isScoping = false) : log.Surveyed v [] := by
  constructor
  · exact fun site hsite => absurd hsite List.not_mem_nil
  · exact List.filter_eq_nil_iff.2 fun f hf hscoping =>
      Bool.false_ne_true ((h f hf).symm.trans hscoping)

end Log.Surveyed

namespace Checking

/-- If the check writes the types of the view, then its value has the property and the sites are
right. -/
def Surveys (v : View) (sites : List Site) (P : α → Prop) (x : Checking σ α) : Prop :=
  ∀ s, v.Records (x s).log → P (x s).value ∧ (x s).log.Surveyed v sites

namespace Surveys

variable {v : View} {sites sites' : List Site} {P : α → Prop} {R : β → Prop} {x : Checking σ α}
  {f : α → Checking σ β}

theorem pure {a : α} (h : P a) : Surveys v [] P (Pure.pure a : Checking σ α) :=
  fun _ _ => ⟨h, .nil fun _ hf => absurd hf List.not_mem_nil⟩

theorem ruled (h : x.Ruled) : Surveys v [] (fun _ => True) x :=
  fun s _ => ⟨trivial, .nil fun f hf => Fault.isScoping_of_ofRule ((h s).2 f hf)⟩

theorem record (id : Nat) (t : Ty) :
    Surveys v [] (fun _ => v.types id = some t) (record id t : Checking σ Unit) :=
  fun _ hrecords =>
    ⟨hrecords (id, t) List.mem_cons_self, .nil fun _ hf => absurd hf List.not_mem_nil⟩

theorem bind (hx : Surveys v sites P x) (hf : ∀ a, P a → Surveys v sites' R (f a)) :
    Surveys v (sites ++ sites') R (x >>= f) := by
  intro s hrecords
  rw [bind_eq] at hrecords ⊢
  obtain ⟨hrecords, hrecords'⟩ := List.forall_mem_append.1 hrecords
  obtain ⟨ha, hlog⟩ := hx s hrecords
  obtain ⟨hb, hlog'⟩ := hf _ ha _ hrecords'
  exact ⟨hb, hlog.append hlog'⟩

/-- A second part without sites. -/
theorem andThen (hx : Surveys v sites P x) (hf : ∀ a, P a → Surveys v [] R (f a)) :
    Surveys v sites R (x >>= f) :=
  List.append_nil sites ▸ hx.bind hf

/-- A rule has no sites. -/
theorem afterRule (hx : x.Ruled) (hf : ∀ a, Surveys v sites R (f a)) :
    Surveys v sites R (x >>= f) :=
  (Surveys.ruled hx).bind fun a _ => hf a

theorem mono {P' : α → Prop} (h : Surveys v sites P x) (hP : ∀ a, P a → P' a) :
    Surveys v sites P' x := by
  intro s hrecords
  obtain ⟨ha, hlog⟩ := h s hrecords
  exact ⟨hP _ ha, hlog⟩

end Surveys

end Checking

namespace Walking

/-- If the check gets through and writes the types of the view, then its value has the property and
the sites are right. -/
def Surveys (v : View) (sites : List Site) (P : α → Prop) (x : Walking σ α) : Prop :=
  ∀ s a, (x.run s).value = .ok a → v.Records (x.run s).log → P a ∧ (x.run s).log.Surveyed v sites

namespace Surveys

variable {v : View} {sites sites' : List Site} {P : α → Prop} {R : β → Prop} {x : Walking σ α}
  {f : α → Walking σ β}

theorem throw (fault : StructuralFault) : Surveys v sites P (throw fault : Walking σ α) := by
  intro s a hok
  cases hok

theorem lift {x : Checking σ α} (h : x.Surveys v sites P) : Surveys v sites P (lift x) := by
  intro s a hok hrecords
  rw [lift_run] at hok hrecords ⊢
  cases hok
  exact h s hrecords

theorem pure {a : α} (h : P a) : Surveys v [] P (Pure.pure a : Walking σ α) := by
  intro s a' hok _
  cases hok
  exact ⟨h, .nil fun _ hf => absurd hf List.not_mem_nil⟩

theorem bind (hx : Surveys v sites P x) (hf : ∀ a, P a → Surveys v sites' R (f a)) :
    Surveys v (sites ++ sites') R (x >>= f) := by
  intro s b hok hrecords
  obtain ⟨a, ha, hb, hlog⟩ := bind_ok hok
  rw [hlog] at hrecords ⊢
  obtain ⟨hrecords, hrecords'⟩ := List.forall_mem_append.1 hrecords
  obtain ⟨hPa, hfirst⟩ := hx s a ha hrecords
  obtain ⟨hRb, hsecond⟩ := hf a hPa _ b hb hrecords'
  exact ⟨hRb, hfirst.append hsecond⟩

/-- A second part without sites. -/
theorem andThen (hx : Surveys v sites P x) (hf : ∀ a, P a → Surveys v [] R (f a)) :
    Surveys v sites R (x >>= f) :=
  List.append_nil sites ▸ hx.bind hf

end Surveys

end Walking

namespace Typing

open Checking

/-! ## Expressions -/

section Exprs

variable {v : View} {place : Place} {builder : InstanceBuilder σ} {locals : ScopeStack}
  {scopes : Scopes}

theorem settle_surveys (mark : Mark) (t : Ty) :
    Surveys v [] (fun t => v.types mark.id = some t) (settle mark t : Checking σ Ty) :=
  (Surveys.record mark.id t).andThen fun _ h => .pure h

/-- A rule gives the node its type. -/
theorem ruled_surveys {x : Checking σ Ty} (h : x.Ruled) (mark : Mark) :
    Surveys v [] (fun t => v.types mark.id = some t) (x >>= settle mark) :=
  .afterRule h fun t => settle_surveys mark t

/-- A name is typed right if its type and what is found about it are what the site asks for. -/
theorem named_surveys {x : Checking σ Ty} {t : Ty} {findings : List Finding}
    {target : Option Binding} {name : Ident} (mark : Mark)
    (hrun : ∀ s, x s = ⟨t, s, ⟨[], findings⟩⟩) (htype : v.nameType target name.name = some t)
    (hfound : findings.filter (·.fault.isScoping) =
      ((Site.name target mark name).complaint? v.unit).toList) :
    Surveys v [.name target mark name] (fun t => v.types mark.id = some t) (x >>= settle mark) := by
  intro s hrecords
  rw [bind_eq, hrun] at hrecords ⊢
  have hrecorded : v.types mark.id = some t := hrecords (mark.id, t) List.mem_cons_self
  refine ⟨hrecorded, List.forall_mem_singleton.2 ⟨t, hrecorded, htype⟩, ?_⟩
  rw [List.filterMap_cons, List.filterMap_nil]
  calc (findings ++ []).filter (·.fault.isScoping)
      = ((Site.name target mark name).complaint? v.unit).toList := by rw [List.append_nil, hfound]
    _ = _ := by cases (Site.name target mark name).complaint? v.unit <;> rfl

/-- A name gets the type of what it stands for: a local, or else a function, an alias, or
nothing. -/
theorem ident_surveys (hunit : place.unit = v.unit) (hlocals : v.Agrees locals scopes) (mark : Mark)
    (name : Ident) :
    Surveys v [.name (scopes.resolve name.name) mark name] (fun t => v.types mark.id = some t)
      (identType place locals name >>= settle mark : Checking σ Ty) := by
  have hlookup := hlocals.lookup name.name
  cases hresolve : scopes.resolve name.name with
  | some b =>
    rw [hresolve] at hlookup
    obtain ⟨t, ht, htype⟩ := Option.map_eq_some_iff.1 hlookup
    have hrun : ∀ s : σ, identType place locals name s = ⟨t, s, ⟨[], []⟩⟩ := by
      intro s
      rw [identType, ht]
      rfl
    exact named_surveys mark hrun htype.symm rfl
  | none =>
    rw [hresolve, Option.map_none, Option.map_eq_none_iff] at hlookup
    cases hglobal : View.global? v.unit name.name with
    | some t =>
      have hrun : ∀ s : σ, identType place locals name s = ⟨t, s, ⟨[], []⟩⟩ := by
        intro s
        rw [identType, hlookup, hunit, Option.none_or, ← View.global?, hglobal]
        rfl
      refine named_surveys mark hrun ?_ ?_
      · rw [View.nameType, hglobal]
        rfl
      · rw [Site.complaint?, hglobal]
        rfl
    | none =>
      have hrun : ∀ s : σ, identType place locals name s =
          ⟨.any, s, ⟨[], [⟨name.span, .unknownIdentifier name.name⟩]⟩⟩ := by
        intro s
        rw [identType, hlookup, hunit, Option.none_or, ← View.global?, hglobal]
        rfl
      refine named_surveys mark hrun ?_ ?_
      · rw [View.nameType, hglobal]
        rfl
      · rw [Site.complaint?, hglobal]
        rfl

mutual
/-- Each name in an expression gets the type of what it stands for, and nothing else is found about
scopes. -/
theorem checkExpr_surveys (h : place.unit = v.unit ∧ v.Agrees locals scopes) : ∀ e : Expr,
    Surveys v (e.sites scopes) (fun t => v.types e.id = some t) (checkExpr place builder locals e)
  | .binary mark op left right => by
    rw [Expr.sites_of_parts rfl rfl, List.filterMap_append, checkExpr]
    exact (checkExpr_surveys h left).bind fun _ _ => (checkExpr_surveys h right).andThen fun _ _ =>
      ruled_surveys (binaryType_ruled op _ _) mark
  | .unary mark op operand => by
    rw [Expr.sites_of_parts rfl rfl, checkExpr]
    exact (checkExpr_surveys h operand).andThen fun _ _ => ruled_surveys (unaryType_ruled op _) mark
  | .number mark literal | .string mark _ | .bool mark _ | .null mark | .zero mark =>
    settle_surveys mark _
  | .ident mark name => ident_surveys h.1 h.2 mark name
  | .call mark callee typeArgs args => by
    rw [Expr.sites_of_parts rfl rfl, List.filterMap_append, checkExpr]
    exact (checkExpr_surveys h callee).bind fun _ _ =>
      (checkExprs_surveys h args).andThen fun _ _ =>
      ruled_surveys (callType_ruled place builder _ _ _ _ _) mark
  | .get mark object member => by
    rw [Expr.sites_of_parts rfl rfl, checkExpr]
    exact (checkExpr_surveys h object).andThen fun _ _ =>
      ruled_surveys (getType_ruled place _ member) mark
  | .new mark type fields => by
    rw [Expr.sites_of_parts rfl rfl, checkExpr]
    exact .afterRule (place.resolve_ruled builder type) fun _ =>
      (checkFields_surveys h fields).andThen fun _ _ =>
        ruled_surveys (newType_ruled place _ _ _ _) mark
  | .group mark inner => by
    rw [Expr.sites_of_parts rfl rfl, checkExpr]
    exact (checkExpr_surveys h inner).andThen fun _ _ => settle_surveys mark _
  | .staticArray mark type elements => by
    rw [Expr.sites_of_parts rfl rfl, checkExpr]
    exact .afterRule (place.resolve_ruled builder type) fun _ =>
      (checkExprs_surveys h elements).andThen fun _ _ =>
        ruled_surveys (staticArrayType_ruled _ _ _) mark
  | .subscript mark object index => by
    rw [Expr.sites_of_parts rfl rfl, List.filterMap_append, checkExpr]
    exact (checkExpr_surveys h object).bind fun _ _ =>
      (checkExpr_surveys h index).andThen fun _ _ =>
      ruled_surveys (subscriptType_ruled _ _) mark
  | .range mark first last => by
    rw [Expr.sites_of_parts rfl rfl, List.filterMap_append, checkExpr]
    exact (checkExpr_surveys h first).bind fun _ _ => (checkExpr_surveys h last).andThen fun _ _ =>
      ruled_surveys (rangeType_ruled _ _) mark

theorem checkExprs_surveys (h : place.unit = v.unit ∧ v.Agrees locals scopes) :
    ∀ es : List Expr,
    Surveys v ((partsAll es).filterMap (Expr.site? scopes)) (fun _ => True)
      (checkExprs place builder locals es)
  | [] => .pure trivial
  | e :: es => by
    rw [partsAll, List.filterMap_append, checkExprs]
    exact (checkExpr_surveys h e).bind fun _ _ => (checkExprs_surveys h es).andThen fun _ _ =>
      .pure trivial

theorem checkFields_surveys (h : place.unit = v.unit ∧ v.Agrees locals scopes) :
    ∀ fields : List (Ident × Expr),
    Surveys v ((partsFields fields).filterMap (Expr.site? scopes)) (fun _ => True)
      (checkFields place builder locals fields)
  | [] => .pure trivial
  | (_, e) :: fields => by
    rw [partsFields, List.filterMap_append, checkFields]
    exact (checkExpr_surveys h e).bind fun _ _ => (checkFields_surveys h fields).andThen fun _ _ =>
      .pure trivial
end

end Exprs

/-! ## Statements -/

section Stmts

variable {v : View} {body : Body σ} {locals : ScopeStack} {scopes : Scopes} {inLoop : Bool}

/-- The body is one of the unit of the view, and counts loops as they are. -/
structure Body.Within (body : Body σ) (v : View) (inLoop : Bool) : Prop where
  unit : body.place.unit = v.unit
  loop : body.loopDepth = 0 ↔ inLoop = false

theorem Body.Within.looped (h : body.Within v inLoop) : body.inLoop.Within v true :=
  ⟨h.unit, by simp [Body.inLoop]⟩

theorem Body.Within.expr (h : body.Within v inLoop) (hlocals : v.Agrees locals scopes) (e : Expr) :
    Surveys v (e.sites scopes) (fun t => v.types e.id = some t) (body.expr locals e) :=
  checkExpr_surveys ⟨h.unit, hlocals⟩ e

/-- A declaration is in front of what follows, whether or not its name is new. -/
theorem declareName_surveys (hlocals : v.Agrees locals scopes) (name : Ident) (t : Ty) :
    Surveys v [] (fun locals' => ∀ origin, v.typeOf ⟨name, origin⟩ = some t →
        v.Agrees locals' (scopes.add [⟨name, origin⟩]))
      (declareName locals name t : Checking σ ScopeStack) := by
  unfold declareName
  cases h : locals.declare name.name t with
  | ok locals' =>
    refine .pure fun origin htype => ?_
    obtain ⟨hinsert, houter⟩ := ScopeStack.declare_ok h
    exact ⟨hlocals.inner.add_of_insertNew htype hinsert, houter ▸ hlocals.outer⟩
  | error existing =>
    have hold := NameMap.isSome_of_insertNew (ScopeStack.declare_error h)
    intro s _
    refine ⟨fun origin _ => ⟨hlocals.inner.add_of_isSome hold, hlocals.outer⟩, .nil fun f hf => ?_⟩
    rw [List.mem_singleton.1 hf]
    rfl

theorem elementType_surveys (iterable : Typed) :
    Surveys v [] (· = iterable.type.elementOf) (elementType iterable : Checking σ Ty) := by
  have hvalue : ∀ s : σ, (elementType iterable s).value = iterable.type.elementOf := by
    intro s
    obtain ⟨span, t⟩ := iterable
    cases t with
    | _ => rfl
  intro s hrecords
  obtain ⟨-, hlog⟩ := Surveys.ruled (elementType_ruled iterable) s hrecords
  exact ⟨hvalue s, hlog⟩

theorem checkLet_surveys (h : body.Within v inLoop) (hlocals : v.Agrees locals scopes) (mark : Mark)
    (name : Ident) (type : Option TypeExpr) (init : Expr) :
    Surveys v (init.sites scopes)
      (fun locals' => v.Agrees locals' (scopes.add [⟨name, .letDecl mark⟩]))
      (checkLet body locals mark name type init) := by
  refine (h.expr hlocals init).andThen fun t _ => ?_
  refine .afterRule (letType_ruled body name type _) fun bound => ?_
  refine (declareName_surveys hlocals name bound).andThen fun locals' hagrees => ?_
  exact (Surveys.record mark.id bound).andThen fun _ hrecorded =>
    .pure (hagrees (.letDecl mark) hrecorded)

theorem checkEachHead_surveys (h : body.Within v inLoop) (hlocals : v.Agrees locals scopes)
    (name : Ident) (iterable : Expr) :
    Surveys v (iterable.sites scopes)
      (fun locals' => v.Agrees locals' (scopes.add [⟨name, .each iterable⟩]))
      (checkEachHead body locals name iterable) := by
  refine (h.expr hlocals iterable).andThen fun t ht => ?_
  refine (elementType_surveys ⟨iterable.span, t⟩).andThen fun element helement => ?_
  refine (declareName_surveys hlocals name element).mono fun locals' hagrees => ?_
  refine hagrees (.each iterable) ?_
  change (v.types iterable.id).map Ty.elementOf = some element
  rw [ht, helement]
  rfl

theorem checkAssign_surveys (h : body.Within v inLoop) (hlocals : v.Agrees locals scopes)
    (mark : Mark) (target value : Expr) :
    Surveys v (target.sites scopes ++ value.sites scopes) (fun _ => True)
      (checkAssign body locals mark target value) := by
  have hrest : Surveys v (target.sites scopes ++ value.sites scopes) (fun _ => True)
      (do let t ← body.expr locals target
          let v ← body.expr locals value
          expectType ⟨value.span, v⟩ t
          record mark.id .void) :=
    (h.expr hlocals target).bind fun _ _ => (h.expr hlocals value).andThen fun _ _ =>
      .afterRule (expectType_ruled _ _) fun _ => (Surveys.record mark.id .void).mono fun _ _ =>
        trivial
  unfold checkAssign
  cases isAssignable target with
  | true => exact hrest
  | false => exact .afterRule (.report _ rfl) fun _ => hrest

theorem checkReturn_surveys (h : body.Within v inLoop) (hlocals : v.Agrees locals scopes)
    (mark : Mark) (value : Option Expr) :
    Surveys v ((Stmt.returnStmt mark value).sites inLoop scopes) (fun _ => True)
      (checkReturn body locals mark value) := by
  cases value with
  | none =>
    exact .afterRule (expectType_ruled _ _) fun _ =>
      (Surveys.record mark.id .void).mono fun _ _ => trivial
  | some value =>
    exact (h.expr hlocals value).andThen fun _ _ => .afterRule (expectType_ruled _ _) fun _ =>
      (Surveys.record mark.id .void).mono fun _ _ => trivial

/-- A word is reported iff it is not in a loop. -/
theorem checkJump_surveys (h : body.Within v inLoop) (mark : Mark) (word : String) :
    Surveys v [.jump inLoop mark word] (fun _ => True) (checkJump body mark word) := by
  intro s _
  refine ⟨trivial, List.forall_mem_singleton.2 trivial, ?_⟩
  unfold checkJump
  cases inLoop with
  | true =>
    have hdepth : ¬ body.loopDepth = 0 := fun hzero => by cases h.loop.1 hzero
    rw [if_neg hdepth]
    rfl
  | false =>
    rw [if_pos (h.loop.2 rfl)]
    rfl

theorem checkCondition_surveys (h : body.Within v inLoop) (hlocals : v.Agrees locals scopes)
    (condition : Expr) :
    Surveys v (condition.sites scopes) (fun _ => True) (checkCondition body locals condition) :=
  (h.expr hlocals condition).andThen fun _ _ => .ruled (expectType_ruled _ _)

theorem checkExprStmt_surveys (h : body.Within v inLoop) (hlocals : v.Agrees locals scopes)
    (mark : Mark) (value : Expr) :
    Surveys v (value.sites scopes) (fun _ => True) (checkExprStmt body locals mark value) :=
  (h.expr hlocals value).andThen fun t _ => (Surveys.record mark.id t).mono fun _ _ => trivial

theorem done_surveys (mark : Mark) {P : ScopeStack → Prop} (h : P locals) :
    Walking.Surveys v [] P (done mark locals : Walking σ ScopeStack) :=
  .lift ((Surveys.record mark.id .void).andThen fun _ _ => .pure h)

theorem bindings_of_isBranch {s : Stmt} (h : s.isBranch = true) : s.bindings = [] := by
  cases s with
  | letDecl mark name type init => cases h
  | _ => rfl

theorem bindings_of_isEffect {s : Stmt} (h : s.isEffect = true) : s.bindings = [] := by
  cases s with
  | letDecl mark name type init => cases h
  | _ => rfl

mutual
/-- The check of a statement keeps the scopes in agreement, and does at its sites what lexical
scopes say. -/
theorem checkStmt_surveys : ∀ (s : Stmt) (body : Body σ) (locals : ScopeStack) (scopes : Scopes)
    (inLoop : Bool), s.regular = true → body.Within v inLoop → v.Agrees locals scopes →
      Walking.Surveys v (s.sites inLoop scopes)
        (fun locals' => v.Agrees locals' (scopes.add s.bindings)) (checkStmt body locals s)
  | .importDecl _ _, _, _, _, _, _, _, _ => .throw _
  | .structDecl _ _, _, _, _, _, _, _, _ => .throw _
  | .fnDecl _ _ _, _, _, _, _, _, _, _ => .throw _
  | .letDecl mark name type init, _, _, _, _, _, h, hlocals =>
    .lift (checkLet_surveys h hlocals mark name type init)
  | .scope mark block, body, locals, scopes, inLoop, hregular, h, hlocals => by
    rw [checkStmt]
    refine (checkBlock_surveys block body locals scopes inLoop hregular h hlocals).andThen
      fun locals' hlocals' => done_surveys mark ?_
    exact hlocals'.add_nil
  | .assign mark target value, body, locals, scopes, _, _, h, hlocals => by
    rw [checkStmt]
    exact (Walking.Surveys.lift
      (checkAssign_surveys h hlocals mark target value)).andThen fun _ _ =>
      .pure hlocals.add_nil
  | .returnStmt mark value, body, locals, scopes, inLoop, _, h, hlocals => by
    rw [checkStmt]
    exact (Walking.Surveys.lift (checkReturn_surveys h hlocals mark value)).andThen fun _ _ =>
      .pure hlocals.add_nil
  | .breakStmt mark, body, locals, scopes, inLoop, _, h, hlocals => by
    rw [checkStmt]
    exact (Walking.Surveys.lift (checkJump_surveys h mark "break")).andThen fun _ _ =>
      .pure hlocals.add_nil
  | .continueStmt mark, body, locals, scopes, inLoop, _, h, hlocals => by
    rw [checkStmt]
    exact (Walking.Surveys.lift (checkJump_surveys h mark "continue")).andThen fun _ _ =>
      .pure hlocals.add_nil
  | .forEach mark name iterable block, body, locals, scopes, inLoop, hregular, h, hlocals => by
    -- What the loop goes over is checked in the scope of the head, which is still empty.
    rw [checkStmt, Stmt.sites, ← Expr.sites_push]
    refine (Walking.Surveys.lift (checkEachHead_surveys h hlocals.push name iterable)).bind
      fun inner hinner => ?_
    refine (checkBlock_surveys block body.inLoop inner _ true hregular h.looped hinner).andThen
      fun inner' hinner' => done_surveys mark ?_
    exact hinner'.pop.add_nil
  | .forCounted mark init condition update block, body, locals, scopes, inLoop, hregular,
      h, hlocals => by
    rw [Stmt.regular, Bool.and_eq_true, Bool.and_eq_true] at hregular
    obtain ⟨⟨hinit, hupdate⟩, hblock⟩ := hregular
    rw [checkStmt, Stmt.sites]
    refine (checkStmt_surveys init body locals.push scopes.push inLoop
      (Stmt.regular_of_isLet hinit) h hlocals.push).bind fun inner hinner => ?_
    refine (Walking.Surveys.lift (checkCondition_surveys h hinner condition)).bind fun _ _ => ?_
    refine (checkBlock_surveys block body.inLoop inner _ true hblock h.looped hinner).bind
      fun inner' hinner' => ?_
    refine (checkStmt_surveys update body inner' _ inLoop (Stmt.regular_of_isEffect hupdate) h
      hinner').andThen fun last hlast => done_surveys mark ?_
    -- Neither the body nor the last part of the head adds to the scope of the head.
    rw [bindings_of_isEffect hupdate, Scopes.add_nil] at hlast
    exact hlast.pop.add_nil
  | .ifElse mark condition thenBlock elseBranch, body, locals, scopes, inLoop, hregular,
      h, hlocals => by
    rw [Stmt.regular, Bool.and_eq_true] at hregular
    obtain ⟨hthen, helse⟩ := hregular
    rw [checkStmt, Stmt.sites]
    refine (Walking.Surveys.lift (checkCondition_surveys h hlocals condition)).bind fun _ _ => ?_
    refine (checkBlock_surveys thenBlock body locals scopes inLoop hthen h hlocals).bind
      fun locals' hlocals' => ?_
    refine (checkElse_surveys elseBranch body locals' scopes inLoop helse h hlocals').andThen
      fun last hlast => done_surveys mark ?_
    exact hlast.add_nil
  | .expr mark value, body, locals, scopes, _, _, h, hlocals => by
    rw [checkStmt]
    exact (Walking.Surveys.lift (checkExprStmt_surveys h hlocals mark value)).andThen fun _ _ =>
      .pure hlocals.add_nil

theorem checkElse_surveys : ∀ (branch : Option Stmt) (body : Body σ) (locals : ScopeStack)
    (scopes : Scopes) (inLoop : Bool), elseRegular branch = true → body.Within v inLoop →
      v.Agrees locals scopes →
      Walking.Surveys v (elseSites inLoop scopes branch) (fun locals' => v.Agrees locals' scopes)
        (checkElse body locals branch)
  | none, _, _, _, _, _, _, hlocals => .pure hlocals
  | some s, body, locals, scopes, inLoop, hregular, h, hlocals => by
    obtain ⟨hbranch, hs⟩ := Bool.and_eq_true_iff.1 hregular
    have hsurveys := checkStmt_surveys s body locals scopes inLoop hs h hlocals
    rw [bindings_of_isBranch hbranch, Scopes.add_nil] at hsurveys
    exact hsurveys

theorem checkBlock_surveys :
    ∀ (block : Block) (body : Body σ) (locals : ScopeStack) (scopes : Scopes)
    (inLoop : Bool), block.regular = true → body.Within v inLoop → v.Agrees locals scopes →
      Walking.Surveys v (block.sites inLoop scopes.push) (fun locals' => v.Agrees locals' scopes)
        (checkBlock body locals block)
  | .mk _ ss, body, locals, scopes, inLoop, hregular, h, hlocals => by
    rw [checkBlock]
    exact (checkStmts_surveys ss body locals.push scopes.push inLoop hregular h
      hlocals.push).andThen
      fun _ hinner => .pure hinner.pop

theorem checkStmts_surveys :
    ∀ (ss : List Stmt) (body : Body σ) (locals : ScopeStack) (scopes : Scopes)
    (inLoop : Bool), stmtsRegular ss = true → body.Within v inLoop → v.Agrees locals scopes →
      Walking.Surveys v (stmtsSites inLoop scopes ss)
        (fun locals' => v.Agrees locals' (scopes.add (ss.flatMap Stmt.bindings)))
        (checkStmts body locals ss)
  | [], _, _, scopes, _, _, _, hlocals => .pure hlocals.add_nil
  | s :: ss, body, locals, scopes, inLoop, hregular, h, hlocals => by
    obtain ⟨hs, hss⟩ := Bool.and_eq_true_iff.1 hregular
    rw [checkStmts, stmtsSites, List.flatMap_cons, ← Scopes.add_add]
    exact (checkStmt_surveys s body locals scopes inLoop hs h hlocals).bind fun locals' hlocals' =>
      checkStmts_surveys ss body locals' _ inLoop hss h hlocals'
end

end Stmts

/-! ## Functions -/

/-- Parameters are declared with the types of the signature. -/
theorem declareParams_surveys {v : View} : ∀ (ps : List TypedName) (ts : List Ty) (k : Nat)
    (locals : ScopeStack) (scopes : Scopes), ps.length = ts.length → v.params.drop k = ts →
      v.Agrees locals scopes →
      Surveys v [] (fun locals' => v.Agrees locals'
          (scopes.add (ps.mapIdx fun i p => ⟨p.name, .param (k + i)⟩)))
        (declareParams locals ps ts : Checking σ ScopeStack)
  | [], [], _, _, scopes, _, _, hlocals => .pure hlocals.add_nil
  | [], _ :: _, _, _, _, hlength, _, _ => by cases hlength
  | _ :: _, [], _, _, _, hlength, _, _ => by cases hlength
  | p :: ps, t :: ts, k, locals, scopes, hlength, hdrop, hlocals => by
    rw [declareParams]
    refine (declareName_surveys hlocals p.name t).andThen fun locals' hagrees => ?_
    have hparam : v.params[k]? = some t := by
      rw [← List.head?_drop, hdrop]
      rfl
    have hrest : v.params.drop (k + 1) = ts := by
      rw [← List.tail_drop, hdrop]
      rfl
    refine (declareParams_surveys ps ts (k + 1) locals' _ (Nat.succ.inj hlength) hrest
      (hagrees (.param k) hparam)).mono fun last hlast => ?_
    rw [Scopes.add_add] at hlast
    simp only [Nat.add_assoc, Nat.add_comm 1] at hlast
    rw [List.mapIdx_cons, Nat.add_zero]
    exact hlast

/-- In a function that has a signature for its parameters, scopes are lexical. -/
theorem checkFn_surveys {v : View} {b : Bundle} {builder : InstanceBuilder σ} {head : FnHead}
    {block : Block} {arity : Nat} {result : Ty}
    (hsignature : v.unit.functions.get? head.name.name = some (.fn arity v.params result))
    (hlength : head.params.length = v.params.length) (hregular : block.regular = true)
    (mark : Mark) : Walking.Surveys v (block.sites false ⟨head.bindings, []⟩) (fun _ => True)
      (checkFn b v.unit builder mark head block) := by
  obtain ⟨span, ss⟩ := block
  unfold checkFn
  rw [hsignature]
  refine (Walking.Surveys.lift
    (declareParams_surveys head.params v.params 0 .empty ⟨[], []⟩ hlength rfl
    v.agrees_empty)).bind fun locals hlocals => ?_
  have hscopes : (⟨[], []⟩ : Scopes).add (head.params.mapIdx fun i p => ⟨p.name, .param (0 + i)⟩) =
      ⟨head.bindings, []⟩ := by
    simp only [Nat.zero_add]
    rfl
  rw [hscopes] at hlocals
  refine (checkStmts_surveys ss ⟨b.placeOf v.unit head.generics, builder, result, 0⟩
    locals _ false hregular ⟨rfl, iff_of_true rfl rfl⟩ hlocals).andThen fun _ _ => ?_
  exact .lift ((Surveys.record mark.id _).mono fun _ _ => trivial)

end Typing

/-! ## Units -/

namespace Lexical

/-- What is written about items of a unit: in each function names have the types of what they stand
for, and what is wrong with scopes is found, in order. -/
structure Covers (u : SourceUnit) (types : Nat → Option Ty) (items : List Stmt) (log : Log) :
    Prop where
  typed : ∀ mark head block, .fnDecl mark head block ∈ items →
    ∀ s : Signature, u.functions.get? head.name.name = some s.ty →
      ∀ site ∈ block.sites false ⟨head.bindings, []⟩, site.Typed ⟨u, s.params, types⟩
  found : log.findings.filter (·.fault.isScoping) =
    (items.flatMap (Stmt.sites false ⟨[], []⟩)).filterMap (Site.complaint? u)

variable {u : SourceUnit} {types : Nat → Option Ty} {items items' : List Stmt} {log log' : Log}

theorem Covers.append (h : Covers u types items log) (h' : Covers u types items' log') :
    Covers u types (items ++ items') (log ++ log') := by
  constructor
  · intro mark head block hmem
    rcases List.mem_append.1 hmem with hmem | hmem
    · exact h.typed mark head block hmem
    · exact h'.typed mark head block hmem
  · rw [Log.findings_append, List.filter_append, h.found, h'.found, List.flatMap_append,
      List.filterMap_append]

end Lexical

namespace Typing

variable {b : Bundle} {u : SourceUnit} {builder : InstanceBuilder σ} {types : Nat → Option Ty}
  {i : σ} {strict : Bool} {shape : Shape}

theorem checkItem_covers (hsigned : Bundle.Signed strict shape u) {item : Stmt}
    (hitem : item ∈ u.file.items) (hregular : item.regular = true)
    (hok : ((checkItem b u builder item).run i).value = .ok ())
    (hrecords : ∀ r ∈ ((checkItem b u builder item).run i).log.types, types r.1 = some r.2) :
    Covers u types [item] ((checkItem b u builder item).run i).log := by
  cases item with
  | importDecl mark d | structDecl mark d => exact ⟨fun _ _ _ hmem => by simp at hmem, rfl⟩
  | fnDecl mark head block =>
    obtain ⟨s, hs, hsigns⟩ := hsigned head (List.mem_filterMap.2 ⟨_, hitem, rfl⟩)
    have hsurveys : Walking.Surveys ⟨u, s.params, types⟩ (block.sites false ⟨head.bindings, []⟩)
        (fun _ => True) (checkFn b u builder mark head block) :=
      checkFn_surveys (v := ⟨u, s.params, types⟩) hs hsigns.length.symm hregular mark
    obtain ⟨-, hlog⟩ := hsurveys i () hok hrecords
    constructor
    · intro mark' head' block' hmem s' hs'
      cases List.mem_singleton.1 hmem
      -- The unit has one function of the name, so this is the signature that was checked against.
      have hty : s.ty = s'.ty := Option.some.inj (hs.symm.trans hs')
      rw [Signature.ty, Signature.ty, Ty.fn.injEq] at hty
      rw [← hty.2.1]
      exact hlog.typed
    · rw [List.flatMap_singleton]
      exact hlog.found
  | _ => cases hok

/-- In the items of a unit, scopes are lexical. -/
theorem checkItems_covers (hsigned : Bundle.Signed strict shape u) {items : List Stmt}
    (hsub : items ⊆ u.file.items) (hregular : stmtsRegular items = true)
    (hok : ((checkItems b u builder items).run i).value = .ok ())
    (hrecords : ∀ r ∈ ((checkItems b u builder items).run i).log.types, types r.1 = some r.2) :
    Covers u types items ((checkItems b u builder items).run i).log := by
  induction items generalizing i with
  | nil => exact ⟨fun _ _ _ hmem => absurd hmem List.not_mem_nil, rfl⟩
  | cons item items ih =>
    obtain ⟨hitem, hsub⟩ := List.cons_subset.1 hsub
    obtain ⟨hregularItem, hregular⟩ := Bool.and_eq_true_iff.1 hregular
    obtain ⟨_, hfirst, hrest, hlog⟩ := Walking.bind_ok hok
    have hlog' : ((checkItems b u builder (item :: items)).run i).log = _ := hlog
    rw [hlog'] at hrecords ⊢
    obtain ⟨hrecords, hrecords'⟩ := List.forall_mem_append.1 hrecords
    exact (checkItem_covers hsigned hitem hregularItem hfirst hrecords).append
      (ih hsub hregular hrest hrecords')

end Typing

/-! ## Bundles -/

namespace Lexical

/-- What lexical scoping says about a function of a checked unit: its names, one by one and in
order, have the types of what they stand for, parameters being typed by the head of the function. -/
structure FnScoped (b : Bundle) (u : SourceUnit) (head : FnHead) (block : Block) (s : Signature) :
    Prop where
  signature : u.functions.get? head.name.name = some s.ty
  signs : (b.placeOf u head.generics).Signs head s
  names : (block.sites false ⟨head.bindings, []⟩).filterMap Site.expr? =
    block.exprs.filter Expr.isName
  typed : ∀ site ∈ block.sites false ⟨head.bindings, []⟩, site.Typed ⟨u, s.params, u.table.get?⟩

end Lexical

/-- What lexical scoping says about the check of a declared bundle. The reports about scopes are, in
order, one for each name that stands for nothing and one for each word that is not in a loop. -/
structure Bundle.LexicallyScoped (b : Bundle) : Prop where
  fault : b.check.fault = none
  functions : ∀ i u, b.check.bundle.get? i = some u →
    ∀ mark head block, .fnDecl mark head block ∈ u.file.items → ∃ s, FnScoped b u head block s
  reports : b.check.reports.filter (·.fault.isScoping) = b.units.flatMap fun u =>
    ((u.file.items.flatMap (Stmt.sites false ⟨[], []⟩)).filterMap (Site.complaint? u)).map
      (.ofFinding .typeCheck u.path)

namespace Bundle

variable {b : Bundle}

/-- The check of declared files gets through. -/
theorem Parsed.fault_check (h : b.Parsed) : b.declare.1.check.fault = none := by
  refine fault_of_ok _ fun i u hu => ?_
  have hfile : u.file ∈ b.files := by
    rw [← files_declare b]
    exact List.mem_map_of_mem (mem_units_of_get? hu)
  obtain ⟨value, hok⟩ := Typing.checkItems_succeeds b.declare.1 .direct
    (h.undeclared.declareWith_signed .direct () hu) (List.Subset.refl _) (h.files _ hfile).items ()
  exact hok

/-- The check of a unit covers its items. -/
theorem Parsed.unitRun_covers (h : b.Parsed) (hdeclare : b.declare.2 = []) {i : Nat}
    {u : SourceUnit} (hu : b.declare.1.get? i = some u) :
    Covers u (TypeTable.ofRecords (b.declare.1.unitRun .direct () i u).log.types).get? u.file.items
      (b.declare.1.unitRun .direct () i u).log := by
  have hfile : u.file.Parsed := by
    refine h.files _ ?_
    rw [← files_declare b]
    exact List.mem_map_of_mem (mem_units_of_get? hu)
  obtain ⟨-, hsigned⟩ : b.declare.1.Sound true ∧ _ := h.undeclared.declare_sound fun _ => hdeclare
  obtain ⟨hok, -⟩ :=
    (checkedUpTo_of_ok h.fault_check).checked i (List.getElem?_eq_some_iff.1 hu).1 u hu
  have hwrites := Typing.checkItems_writes b.declare.1 u .direct u.file.items _ () hok
  refine Typing.checkItems_covers (hsigned hdeclare i u hu) (List.Subset.refl _) hfile.regular hok
    fun r hr => ?_
  exact TypeTable.get?_ofRecords_of_mem (hwrites ▸ stmtsNodes_nodup hfile.ids_nodup) hr

theorem Parsed.lexicallyScoped (h : b.Parsed) (hdeclare : b.declare.2 = []) :
    b.declare.1.LexicallyScoped := by
  refine ⟨h.fault_check, fun i u hu mark head block hfn => ?_, ?_⟩
  · obtain ⟨hsound, -⟩ : b.declare.1.Sound true ∧ _ := h.undeclared.declare_sound fun _ => hdeclare
    obtain ⟨s, hs, hsigns⟩ :=
      signs_of_no_reports hdeclare hsound hu (List.mem_filterMap.2 ⟨_, hfn, rfl⟩)
    obtain ⟨u₀, hu₀, -⟩ := get?_of_check hu
    cases hu.symm.trans (get?_check_of_ok h.fault_check hu₀)
    exact ⟨s, hs, hsigns, block.sites_names _ _,
      (h.unitRun_covers hdeclare hu₀).typed mark head block hfn s hs⟩
  · have hreports : b.declare.1.check.reports = _ := reports_of_ok h.fault_check
    rw [hreports, flatMap_units, List.filter_flatMap]
    refine List.flatMap_congr fun i _ => ?_
    cases hu : b.declare.1.get? i with
    | none => rfl
    | some u =>
      have hfound := (h.unitRun_covers hdeclare hu).found
      rw [Option.elim_some, Option.elim_some, List.filter_map, ← hfound]
      rfl

end Bundle

/-- Scopes are lexical. A statement that is checked, in any state, leaves the state as it was, but
that the innermost scope may gain a name: the one that the statement binds, if it is new there.
Where an `if` or a block stands behind every `else`, only a `let` binds one. For parsed files that
are declared without reports it follows that every name in a function has the type of what it stands
for lexically, with the parameters and the body of the function in one scope, and that exactly the
names that stand for nothing and the words that are not in the body of a loop are reported. -/
theorem lexical_scoping :
    (∀ (σ : Type) (setting : Typing.Setting σ) (s : Stmt),
      Typing.stepStmt setting s = setting.run (fun body locals => Typing.checkStmt body locals s) ∧
      ∀ (st st' : Typing.CheckerState) (i : σ),
        ((Typing.stepStmt setting s st).run i).value = .ok ((), st') →
          st.Keeps s st' ∧ (s.elseShaped = true → st.locals.Gains s.declared.head? st'.locals)) ∧
    ∀ b : Bundle, b.Parsed → b.declare.2 = [] → b.declare.1.LexicallyScoped := by
  refine ⟨fun σ setting s => ⟨Typing.stepStmt_eq setting s, fun st st' i hok => ?_⟩,
    fun b hparsed hdeclare => hparsed.lexicallyScoped hdeclare⟩
  have hkeeps := Typing.stepStmt_keeps setting hok
  refine ⟨hkeeps, fun hshape => ?_⟩
  rw [← s.bound?_eq_declared hshape]
  exact hkeeps.inner

section Texts

-- The characters of a text make a deep list.
set_option maxRecDepth 2000

/-- A function that declares one name twice and others in several scopes. -/
def shadows : List (String × String) :=
  [("main", "fn f(a: u8) { let b := a; let b := f; { let a := true; a; } for a : 0..3 { a; break; }
for let i := b; i < 3; i = a { let i := f; i; } break; c; }")]

/-- The types of the names in it, in the order of the text but for the loop, whose last part comes
behind its body. -/
def shadowTypes : List (Option Ty) :=
  [.number ⟨.unsigned, 8⟩, .fn 0 [.number ⟨.unsigned, 8⟩] .void, .bool, .number ⟨.signed, 64⟩,
    .number ⟨.unsigned, 8⟩, .number ⟨.unsigned, 8⟩, .fn 0 [.number ⟨.unsigned, 8⟩] .void,
    .fn 0 [.number ⟨.unsigned, 8⟩] .void, .number ⟨.unsigned, 8⟩,
    .number ⟨.unsigned, 8⟩, .any].map some

/-- A declaration of `x`. -/
def shadowingLet : Stmt := .letDecl ⟨0, default⟩ ⟨"x", default⟩ none (.bool ⟨1, default⟩ true)

/-- A state in a loop, with an `x` in the outer one of two scopes. -/
def shadowedState (inner : Scope) : Typing.CheckerState :=
  ⟨["T"], .void, 1, ⟨inner, [⟨[("x", .string)]⟩]⟩⟩

/-- A `let` adds its name to the innermost scope, also where an outer one has it. In the function
the second `b` is not seen, each `a` and each `i` is seen in its own scope, and the last `break` and
the name `c` are reported. -/
theorem lexical_scoping_shadows :
    ∃ (b : Bundle) (u : SourceUnit), b.Parsed ∧ b.declare.2 = [] ∧
      b.declare.1.check.bundle.get? 0 = some u ∧
      ((Typing.stepStmt (⟨b, u, .direct⟩ : Typing.Setting Unit) shadowingLet
        (shadowedState .empty)).run ()).value = .ok ((), shadowedState ⟨[("x", .bool)]⟩) ∧
      (shadowedState .empty).Keeps shadowingLet (shadowedState ⟨[("x", .bool)]⟩) ∧
      b.declare.1.LexicallyScoped ∧
      ((stmtsExprs u.file.items).filter Expr.isName).map
        (fun e => u.table.get? e.id) = shadowTypes ∧
      (b.declare.1.check.reports.filter (·.fault.isScoping)).map Report.fault =
        [.outsideLoop "break", .unknownIdentifier "c"] := by
  have htexts : ((Bundle.ofTexts shadows).any fun b =>
      b.declare.2.isEmpty &&
        ((b.declare.1.check.bundle.get? 0).any fun u =>
          ((stmtsExprs u.file.items).filter Expr.isName).map (fun e => u.table.get? e.id) ==
          shadowTypes) &&
        (b.declare.1.check.reports.filter (·.fault.isScoping)).map Report.fault ==
          [.outsideLoop "break", .unknownIdentifier "c"]) = true :=
    Bundle.any_ofTexts (.cons rfl .nil) (by decide +kernel)
  simp only [Option.any_eq_true, Bool.and_eq_true, beq_iff_eq, List.isEmpty_iff] at htexts
  obtain ⟨b, hb, ⟨hdeclare, u, hu, htypes⟩, hfaults⟩ := htexts
  have hparsed := Bundle.parsed_of_ofTexts hb
  have hrun : ((Typing.stepStmt (⟨b, u, .direct⟩ : Typing.Setting Unit) shadowingLet
      (shadowedState .empty)).run ()).value = .ok ((), shadowedState ⟨[("x", .bool)]⟩) := rfl
  obtain ⟨hstep, hbundle⟩ := lexical_scoping
  exact ⟨b, u, hparsed, hdeclare, hu, hrun,
    ((hstep Unit ⟨b, u, .direct⟩ shadowingLet).2 _ _ () hrun).1,
    hbundle b hparsed hdeclare, htypes, hfaults⟩

/-- A `let` right behind an `else`. A reader puts an `if` or a block there. -/
def elseLet : Stmt :=
  .ifElse ⟨2, default⟩ (.bool ⟨3, default⟩ true) (.mk default []) (some shadowingLet)

/-- A function that declares the name of its parameter again. -/
def parameterAgain : List (String × String) := [("main", "fn f(a: u8) { let a := true; a; }")]

/-- The numbers of a `let` and of the name behind it, in a file of one function. -/
def letAndName? : List Stmt → Option (Nat × Nat)
  | [.fnDecl _ _ (.mk _ [.letDecl mark x _ _, .expr _ (.ident mark' x')])] =>
    if x.name == x'.name then some (mark.id, mark'.id) else none
  | _ => none

/-- Not every pair of braces or branch is a scope of its own. A `let` right behind an `else` adds
its name to the scope around the `if`, which is no `let`. The body of a function is in the scope of
its parameters: a `let` there that repeats the name of one is not seen by the names behind it. -/
theorem shared_scopes :
    (∀ setting : Typing.Setting Unit,
      ((Typing.stepStmt setting elseLet (shadowedState .empty)).run ()).value =
        .ok ((), shadowedState ⟨[("x", .bool)]⟩)) ∧
    elseLet.declared = [] ∧
    ¬ (shadowedState .empty).locals.Gains none (shadowedState ⟨[("x", .bool)]⟩).locals ∧
    ∃ (b : Bundle) (u : SourceUnit) (letId nameId : Nat), b.Parsed ∧ b.declare.2 = [] ∧
      b.declare.1.check.bundle.get? 0 = some u ∧
      letAndName? u.file.items = some (letId, nameId) ∧
      u.table.get? letId = some .bool ∧ u.table.get? nameId = some (.number ⟨.unsigned, 8⟩) := by
  refine ⟨fun _ => rfl, rfl, fun hgains => ?_, ?_⟩
  · generalize hlocals : (shadowedState ⟨[("x", .bool)]⟩).locals = locals at hgains
    cases hgains with
    | nothing => cases hlocals
    | name t hbound hnew => cases hbound
  have htexts : ((Bundle.ofTexts parameterAgain).any fun b =>
      b.declare.2.isEmpty && (b.declare.1.check.bundle.get? 0).any fun u =>
        (letAndName? u.file.items).any fun ids =>
          u.table.get? ids.1 == some .bool &&
            u.table.get? ids.2 == some (.number ⟨.unsigned, 8⟩)) = true :=
    Bundle.any_ofTexts (.cons rfl .nil) (by decide +kernel)
  simp only [Option.any_eq_true, Bool.and_eq_true, beq_iff_eq, List.isEmpty_iff] at htexts
  obtain ⟨b, hb, hdeclare, u, hu, ⟨letId, nameId⟩, hids, hlet, hname⟩ := htexts
  exact ⟨b, u, letId, nameId, Bundle.parsed_of_ofTexts hb, hdeclare, hu, hids, hlet, hname⟩

end Texts

end Custody
