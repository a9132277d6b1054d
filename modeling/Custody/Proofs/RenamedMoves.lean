import Custody.Proofs.Accepted
import Custody.Proofs.RenamedTypes

/-!
# Moves of a renamed local

The flow of a renamed tree is the renamed flow of the tree (`flowStmt_rename`, `flowFn_rename`), and
following it keeps the same ledger and finds the same misuses, with the new name
(`Flow.follow_rename`). So renaming a local of an accepted function only changes the name in what
the move check finds (`misuses_rename`), unless the update of a loop mentions the name of the local
while the loop's body declares it; then a renaming can make a misuse go away (`misuse_of_namesake`).
-/

set_option autoImplicit false
set_option maxRecDepth 2000

namespace Custody

/-- A fault about a moved value, with another name for the value. -/
def Fault.renameTo (name : String) : Fault → Fault
  | .useAfterMove _ => .useAfterMove name
  | .movedMemberAccess _ member => .movedMemberAccess name member
  | fault => fault

/-- A unit with other items in its file, and with the types of its nodes as they were. -/
def SourceUnit.withItems (u : SourceUnit) (items : List Stmt) : SourceUnit :=
  { u with file := { u.file with items := items } }

namespace Ownership

/-! ## Renamed flows -/

/-- A local with the name that a renaming gives it. -/
def Binding.rename (ρ : Renaming) (b : Binding) : Binding := { b with name := ρ.decl b.name }

/-- A misuse with the name that a renaming gives to its local. -/
def Misuse.rename (ρ : Renaming) (x : Misuse) : Misuse :=
  if x.previous.declaredAt = ρ.place then { x with fault := x.fault.renameTo ρ.name } else x

/-- A place with the name that a renaming gives to the local that it names. -/
def Occurrence.rename (ρ : Renaming) (target : Option Binding) (o : Occurrence) : Occurrence :=
  if target.any fun b => b.place == ρ.place then ⟨⟨ρ.name, o.name.span⟩, o.manner⟩ else o

/-- An event with the names that a renaming gives to locals. -/
def Event.rename (ρ : Renaming) : Event → Event
  | .declare b => .declare (b.rename ρ)
  | .assign b => .assign (b.rename ρ)
  | .examine o target => .examine (o.rename ρ target) (target.map (Binding.rename ρ))

/-- A flow with the names that a renaming gives to locals. -/
def Flow.rename (ρ : Renaming) : Flow → Flow
  | .idle => .idle
  | .event e => .event (e.rename ρ)
  | .seq f g => .seq (f.rename ρ) (g.rename ρ)
  | .either f g => .either (f.rename ρ) (g.rename ρ)
  | .loop head body again => .loop (head.rename ρ) (body.rename ρ) (again.rename ρ)

variable (ρ : Renaming)

@[simp] theorem Binding.place_rename (b : Binding) : (b.rename ρ).place = b.place :=
  ρ.span_decl b.name

@[simp] theorem Binding.owned_rename (b : Binding) : (b.rename ρ).owned = b.owned := rfl

@[simp] theorem Occurrence.place_rename (o : Occurrence) (target : Option Binding) :
    (o.rename ρ target).place = o.place := by
  unfold rename
  split <;> rfl

@[simp] theorem Occurrence.manner_rename (o : Occurrence) (target : Option Binding) :
    (o.rename ρ target).manner = o.manner := by
  unfold rename
  split <;> rfl

/-- The misuse at a renamed place is the renamed misuse at the place. -/
theorem Occurrence.misuse_rename (o : Occurrence) (b : Binding) {s : Status}
    (hs : s.declaredAt = b.place) :
    (⟨o.place, (o.rename ρ (some b)).fault, s⟩ : Misuse) =
      Misuse.rename ρ ⟨o.place, o.fault, s⟩ := by
  unfold rename Misuse.rename
  by_cases h : b.place = ρ.place
  · simp only [Option.any_some, h, beq_self_eq_true, if_true, hs]
    cases hm : o.manner <;> simp [fault, hm, Fault.renameTo]
  · simp [h, hs]

theorem Event.apply_rename (e : Event) {m : Ledger} (hm : m.Sound) :
    (e.rename ρ).apply m = ((e.apply m).1, (e.apply m).2.map (Misuse.rename ρ)) := by
  cases e with
  | declare b =>
    simp only [rename, apply, Binding.place_rename, List.map_nil]
    rfl
  | assign b => simp only [rename, apply, Binding.place_rename, List.map_nil]
  | examine o target =>
    cases target with
    | none => rfl
    | some b =>
      simp only [rename, apply, Option.map_some, Binding.place_rename, Binding.owned_rename,
        Occurrence.place_rename, Occurrence.manner_rename,
        Occurrence.misuse_rename ρ o b (hm.placed b.place)]
      by_cases hmoved : (m b.place).isMoved = true
      · simp only [if_pos hmoved]
        split <;> rfl
      · simp only [if_neg hmoved]
        split <;> rfl

/-- Following a renamed flow gives the same ledger, and the misuses with the new name. -/
theorem Flow.follow_rename (f : Flow) {m : Ledger} (hm : m.Sound) :
    (f.rename ρ).follow m = ((f.follow m).1, (f.follow m).2.map (Misuse.rename ρ)) := by
  induction f generalizing m with
  | idle => rfl
  | event e => exact e.apply_rename ρ hm
  | seq f g ihf ihg =>
    simp only [rename, follow, ihf hm, ihg (f.sound_follow hm), List.map_append]
  | either f g ihf ihg => simp only [rename, follow, ihf hm, ihg hm, List.map_append]
  | loop head body again ihhead ihbody _ =>
    simp only [rename, follow, ihhead hm, ihbody (head.sound_follow hm), List.map_append]

/-! ## Flows of renamed trees -/

section Trees

variable {ρ} {sight inner : Sight} {names : List Ident}

/-- A renamed name stands for the renamed local. -/
theorem resolve_use (h : ρ.Clear names (sight.map (·.name))) {x : Ident} (hx : x ∈ names) :
    Sight.resolve (sight.map (Binding.rename ρ)) (ρ.use (sight.map (·.name)) x).name =
      (sight.resolve x.name).map (Binding.rename ρ) := by
  have hplaces := h.distinct
  rw [List.map_map] at hplaces
  have hfind := ρ.find?_use Binding.name hplaces
    (fun b hb => h.unseen b.name (List.mem_map_of_mem hb)) (h.unused x hx)
  unfold Sight.resolve
  rw [List.find?_map]
  exact congrArg (Option.map (Binding.rename ρ)) hfind

/-- A name that means the same to the local in two sights is renamed alike. -/
theorem use_of_any {x : Ident} (h : (sight.resolve x.name).any (·.place == ρ.place) =
      (inner.resolve x.name).any (·.place == ρ.place)) :
    ρ.use (inner.map (·.name)) x = ρ.use (sight.map (·.name)) x := by
  have hany (sight : Sight) :
      ((sight.map (·.name)).find? fun y => y.name == x.name).any (·.span == ρ.place) =
        (sight.resolve x.name).any (·.place == ρ.place) := by
    rw [List.find?_map, Option.any_map]
    rfl
  rw [Renaming.use, Renaming.use, hany, hany, h]

/-- A name is renamed as it stands in `inner`. If it means the same to the local in `sight`, its use
there is the renamed one. -/
theorem flowUse_rename (h : ρ.Clear names (sight.map (·.name))) {x : Ident} (hx : x ∈ names)
    {manner : Manner}
    (hsame : (flowUse sight x manner).only ρ.place = (flowUse inner x manner).only ρ.place) :
    flowUse (sight.map (Binding.rename ρ)) (ρ.use (inner.map (·.name)) x) manner =
      (flowUse sight x manner).rename ρ := by
  have hany : (sight.resolve x.name).any (·.place == ρ.place) =
      (inner.resolve x.name).any (·.place == ρ.place) := by
    by_cases hs : (sight.resolve x.name).any (·.place == ρ.place) = true <;>
      by_cases hi : (inner.resolve x.name).any (·.place == ρ.place) = true <;>
      simp_all [flowUse, Flow.only, Event.concerns]
  rw [use_of_any hany]
  simp only [flowUse, Flow.rename, Event.rename, resolve_use h hx]
  refine congrArg (fun o => Flow.event (.examine o _)) ?_
  -- Both sides ask for the place of the local that the name stands for.
  rw [ρ.use_eq Binding.name]
  unfold Occurrence.rename Sight.resolve
  cases sight.find? fun b => b.name.name == x.name with
  | none => rfl
  | some b =>
    by_cases hb : b.name.span = ρ.place
    · simp [Binding.place, hb]
    · simp [Binding.place, hb]

mutual
/-- An expression is renamed as it stands in `inner`. If its names mean the same to the local in
`sight`, its flow there is the renamed one. -/
theorem flowExpr_rename (consuming : Bool) : ∀ e : Expr, ρ.Clear e.uses (sight.map (·.name)) →
    (flowExpr sight consuming e).only ρ.place = (flowExpr inner consuming e).only ρ.place →
      flowExpr (sight.map (Binding.rename ρ)) consuming (ρ.expr (inner.map (·.name)) e) =
        (flowExpr sight consuming e).rename ρ
  | .ident _ name, h, hsame => flowUse_rename h (List.mem_singleton.2 rfl) hsame
  | .binary _ op left right, h, hsame => by
    obtain ⟨hleft, hright⟩ := Flow.seq.inj hsame
    simp only [Renaming.expr, flowExpr, Flow.rename,
      flowExpr_rename (binaryConsumes op) left h.left hleft,
      flowExpr_rename (binaryConsumes op) right h.right hright]
  | .unary _ op operand, h, hsame => flowExpr_rename (unaryConsumes op) operand h hsame
  | .call _ callee _ args, h, hsame => by
    obtain ⟨hcallee, hargs⟩ := Flow.seq.inj hsame
    simp only [Renaming.expr, flowExpr, Flow.rename, flowExpr_rename false callee h.left hcallee,
      flowExprs_rename args h.right hargs]
  | .get _ object member, h, hsame => by
    simp only [flowExpr] at hsame
    simp only [Renaming.expr, flowExpr, Renaming.ident?_expr]
    cases hname : object.ident? with
    | some name =>
      rw [hname] at hsame
      rw [Expr.uses, Expr.uses_of_ident? hname] at h
      exact flowUse_rename h (List.mem_singleton.2 rfl) hsame
    | none =>
      rw [hname] at hsame
      exact flowExpr_rename false object h hsame
  | .new _ _ fields, h, hsame => flowFields_rename fields h hsame
  | .group _ inner, h, hsame => flowExpr_rename consuming inner h hsame
  | .staticArray _ _ elements, h, hsame => flowExprs_rename elements h hsame
  | .subscript _ object index, h, hsame => by
    obtain ⟨hobject, hindex⟩ := Flow.seq.inj hsame
    simp only [Renaming.expr, flowExpr, Flow.rename, flowExpr_rename false object h.left hobject,
      flowExpr_rename true index h.right hindex]
  | .range _ first last, h, hsame => by
    obtain ⟨hfirst, hlast⟩ := Flow.seq.inj hsame
    simp only [Renaming.expr, flowExpr, Flow.rename, flowExpr_rename true first h.left hfirst,
      flowExpr_rename true last h.right hlast]
  | .number _ _, _, _ => rfl
  | .string _ _, _, _ => rfl
  | .bool _ _, _, _ => rfl
  | .null _, _, _ => rfl
  | .zero _, _, _ => rfl

theorem flowExprs_rename : ∀ es : List Expr, ρ.Clear (Expr.usesAll es) (sight.map (·.name)) →
    (flowExprs sight es).only ρ.place = (flowExprs inner es).only ρ.place →
      flowExprs (sight.map (Binding.rename ρ)) (ρ.exprs (inner.map (·.name)) es) =
        (flowExprs sight es).rename ρ
  | [], _, _ => rfl
  | e :: es, h, hsame => by
    obtain ⟨he, hes⟩ := Flow.seq.inj hsame
    simp only [Renaming.exprs, flowExprs, Flow.rename, flowExpr_rename true e h.left he,
      flowExprs_rename es h.right hes]

theorem flowFields_rename : ∀ fields : List (Ident × Expr),
    ρ.Clear (Expr.usesFields fields) (sight.map (·.name)) →
    (flowFields sight fields).only ρ.place = (flowFields inner fields).only ρ.place →
      flowFields (sight.map (Binding.rename ρ)) (ρ.fields (inner.map (·.name)) fields) =
        (flowFields sight fields).rename ρ
  | [], _, _ => rfl
  | (_, e) :: fields, h, hsame => by
    obtain ⟨he, hfields⟩ := Flow.seq.inj hsame
    simp only [Renaming.fields, flowFields, Flow.rename, flowExpr_rename true e h.left he,
      flowFields_rename fields h.right hfields]
end

theorem flowTarget_rename (target : Expr) (h : ρ.Clear target.uses (sight.map (·.name)))
    (hsame : (flowTarget sight target).only ρ.place = (flowTarget inner target).only ρ.place) :
    flowTarget (sight.map (Binding.rename ρ)) (ρ.expr (inner.map (·.name)) target) =
      (flowTarget sight target).rename ρ := by
  simp only [flowTarget] at hsame
  simp only [flowTarget, Renaming.ident?_expr]
  cases hname : target.ident? with
  | some name =>
    rw [Expr.uses_of_ident? hname] at h
    have hany : (sight.resolve name.name).any (·.place == ρ.place) =
        (inner.resolve name.name).any (·.place == ρ.place) := by
      rw [hname] at hsame
      simp only at hsame
      cases hsight : sight.resolve name.name <;> cases hinner : inner.resolve name.name <;>
        simp only [hsight, hinner, Flow.only, Event.concerns] at hsame <;> grind
    simp only [Option.map_some, use_of_any hany, resolve_use h (List.mem_singleton.2 rfl)]
    cases sight.resolve name.name <;> rfl
  | none =>
    rw [hname] at hsame
    exact flowExpr_rename false target h hsame

variable (typeOf : Nat → Option Ty)

theorem letBinding_rename (s : Stmt) (idents : List Ident) :
    letBinding typeOf (ρ.stmt idents s) = (letBinding typeOf s).map (Binding.rename ρ) := by
  cases s with
  | returnStmt mark value => cases value <;> rfl
  | _ => rfl

theorem eachBinding_rename (name : Ident) (iterable : Expr) (idents : List Ident) :
    eachBinding typeOf (ρ.decl name) (ρ.expr idents iterable) =
      (eachBinding typeOf name iterable).rename ρ := by
  simp only [eachBinding, Renaming.id_expr, Binding.rename]

theorem map_name_letBinding (s : Stmt) : (letBinding typeOf s).map (·.name) = s.declared := by
  cases s <;> rfl

theorem letBindings_rename (ss : List Stmt) (idents : List Ident) :
    letBindings typeOf (ρ.stmts idents ss) = (letBindings typeOf ss).map (Binding.rename ρ) := by
  induction ss generalizing idents with
  | nil => rfl
  | cons s ss ih =>
    simp only [Renaming.stmts, letBindings, letBinding_rename, ih, List.map_append]

theorem map_name_letBindings (ss : List Stmt) :
    (letBindings typeOf ss).map (·.name) = (ss.flatMap Stmt.declared).reverse := by
  induction ss with
  | nil => rfl
  | cons s ss ih =>
    rw [letBindings, List.map_append, ih, map_name_letBinding, List.flatMap_cons,
      List.reverse_append]
    cases s <;> rfl

/-- The update of a loop is renamed as it stands outside the loop's body. If its names mean the same
to the local in sight of what the body declares, its flow there is the renamed one. -/
theorem flowStmt_rename_of_isEffect {s : Stmt} (heffect : s.isEffect = true)
    (h : ρ.Clear s.names (sight.map (·.name)))
    (hsame : (flowStmt typeOf true sight s).only ρ.place =
      (flowStmt typeOf false inner s).only ρ.place) :
    flowStmt typeOf true (sight.map (Binding.rename ρ)) (ρ.stmt (inner.map (·.name)) s) =
      (flowStmt typeOf true sight s).rename ρ := by
  cases s with
  | assign mark target value =>
    obtain ⟨hvalue, htarget⟩ := Flow.seq.inj hsame
    simp only [Renaming.stmt, flowStmt, Flow.rename, flowExpr_rename true value h.left hvalue,
      flowTarget_rename target h.right htarget]
  | expr mark value => exact flowExpr_rename true value h hsame
  | _ => cases heffect

/-- The names in the update of a loop and what its body declares are clear of the new name. -/
theorem clear_update {mark : Mark} {init update : Stmt} {condition : Expr} {block : Block}
    (h : ρ.Clear (Stmt.forCounted mark init condition update block).names (sight.map (·.name))) :
    ρ.Clear update.names
      ((letBindings typeOf block.stmts ++ (letBinding typeOf init ++ sight)).map (·.name)) := by
  have hfront : (init.declared ++ block.declared).Sublist
      (init.names ++ condition.uses ++ block.names) := by
    refine .append ((Renaming.declared_sublist_names init).trans (List.sublist_append_left _ _)) ?_
    obtain ⟨span, stmts⟩ := block
    exact Renaming.declared_sublist_stmtsNames stmts
  rw [List.map_append, List.map_append, map_name_letBindings, map_name_letBinding]
  refine (h.extend hfront).perm ?_
  rw [← List.append_assoc]
  exact (List.perm_append_comm.trans ((List.reverse_perm _).symm.append_right _)).append_right _

mutual
/-- The flow of a renamed statement is the renamed flow, if the updates of loops agree about the
local. -/
theorem flowStmt_rename : ∀ (s : Stmt) (sight : Sight), s.regular = true →
    (flowStmt typeOf true sight s).only ρ.place = (flowStmt typeOf false sight s).only ρ.place →
    ρ.Clear s.names (sight.map (·.name)) →
      flowStmt typeOf true (sight.map (Binding.rename ρ)) (ρ.stmt (sight.map (·.name)) s) =
        (flowStmt typeOf true sight s).rename ρ
  | .importDecl _ _, _, _, _, _ | .structDecl _ _, _, _, _, _ | .fnDecl _ _ _, _, _, _, _
  | .breakStmt _, _, _, _, _ | .continueStmt _, _, _, _, _ | .returnStmt _ none, _, _, _, _ => rfl
  | .letDecl mark name _ init, _, _, _, h => by
    simp only [Renaming.stmt, flowStmt, Flow.rename, flowExpr_rename true init h.left rfl]
    rfl
  | .scope _ block, sight, hregular, hsame, h => flowBlock_rename block sight hregular hsame h
  | .assign _ target value, _, _, _, h => by
    simp only [Renaming.stmt, flowStmt, Flow.rename, flowExpr_rename true value h.left rfl,
      flowTarget_rename target h.right rfl]
  | .returnStmt _ (some value), _, _, _, h | .expr _ value, _, _, _, h =>
    flowExpr_rename true value h rfl
  | .forEach _ name iterable block, sight, hregular, hsame, h => by
    obtain ⟨-, hbody, -⟩ := Flow.loop.inj hsame
    have hinner : ρ.Clear ([name] ++ block.names) (sight.map (·.name)) := h.right
    have hblock := flowBlock_rename block ([eachBinding typeOf name iterable] ++ sight) hregular
      (Flow.seq.inj hbody).2 (hinner.extend (List.Sublist.refl [name]))
    simp only [Renaming.stmt, flowStmt, Flow.rename, flowExpr_rename true iterable h.left rfl,
      eachBinding_rename]
    exact congrArg (fun f => Flow.loop _ (.seq _ f) _) hblock
  | .forCounted _ init condition update block, sight, hregular, hsame, h => by
    simp only [Stmt.regular, Bool.and_eq_true] at hregular
    obtain ⟨⟨hlet, heffect⟩, hregular⟩ := hregular
    simp only [flowStmt, Flow.only, Flow.loop.injEq, Flow.seq.injEq] at hsame
    obtain ⟨-, ⟨hsameBlock, hsameUpdate⟩, -⟩ := hsame
    -- What `init` declares is in sight of the other three parts.
    have hcondition : ρ.Clear condition.uses
        ((letBinding typeOf init ++ sight).map (·.name)) := by
      rw [List.map_append, map_name_letBinding]
      exact h.left.left.extend (Renaming.declared_sublist_names init)
    have hblock : ρ.Clear block.names ((letBinding typeOf init ++ sight).map (·.name)) := by
      rw [List.map_append, map_name_letBinding]
      exact h.left.extend
        ((Renaming.declared_sublist_names init).trans (List.sublist_append_left _ _))
    have hinit : flowStmt typeOf true (sight.map (Binding.rename ρ))
        (ρ.stmt (sight.map (·.name)) init) = (flowStmt typeOf true sight init).rename ρ := by
      cases init with
      | letDecl mark name type value =>
        exact flowStmt_rename (.letDecl mark name type value) sight rfl rfl h.left.left.left
      | _ => cases hlet
    have hcondition' := flowExpr_rename true condition hcondition rfl
    have hblock' := flowBlock_rename block _ hregular hsameBlock hblock
    have hupdate' := flowStmt_rename_of_isEffect typeOf heffect (clear_update typeOf h) hsameUpdate
    have hlets : letBindings typeOf (ρ.block (init.declared ++ sight.map (·.name)) block).stmts =
        (letBindings typeOf block.stmts).map (Binding.rename ρ) := by
      obtain ⟨span, stmts⟩ := block
      exact letBindings_rename typeOf stmts _
    simp only [updateSight, Bool.false_eq_true, if_false, List.map_append, map_name_letBinding]
      at hcondition' hblock' hupdate'
    simp only [Renaming.stmt, flowStmt, updateSight, if_true, Flow.rename, letBinding_rename, hlets,
      hinit, hcondition', hblock', hupdate']
  | .ifElse _ condition thenBlock elseBranch, sight, hregular, hsame, h => by
    obtain ⟨hthen, helse⟩ := Bool.and_eq_true_iff.1 hregular
    obtain ⟨hsameThen, hsameElse⟩ := Flow.either.inj (Flow.seq.inj hsame).2
    simp only [Renaming.stmt, flowStmt, Flow.rename,
      flowExpr_rename true condition h.left.left rfl,
      flowBlock_rename thenBlock sight hthen hsameThen h.left.right,
      flowElse_rename elseBranch sight helse hsameElse h.right]

theorem flowElse_rename : ∀ (s : Option Stmt) (sight : Sight), elseRegular s = true →
    (flowElse typeOf true sight s).only ρ.place = (flowElse typeOf false sight s).only ρ.place →
    ρ.Clear (elseNames s) (sight.map (·.name)) →
      flowElse typeOf true (sight.map (Binding.rename ρ)) (ρ.elseBranch (sight.map (·.name)) s) =
        (flowElse typeOf true sight s).rename ρ
  | none, _, _, _, _ => rfl
  | some s, sight, hregular, hsame, h =>
    flowStmt_rename s sight (Bool.and_eq_true_iff.1 hregular).2 hsame h

theorem flowBlock_rename : ∀ (b : Block) (sight : Sight), b.regular = true →
    (flowBlock typeOf true sight b).only ρ.place = (flowBlock typeOf false sight b).only ρ.place →
    ρ.Clear b.names (sight.map (·.name)) →
      flowBlock typeOf true (sight.map (Binding.rename ρ)) (ρ.block (sight.map (·.name)) b) =
        (flowBlock typeOf true sight b).rename ρ
  | .mk _ ss, sight, hregular, hsame, h => flowStmts_rename ss sight hregular hsame h

theorem flowStmts_rename : ∀ (ss : List Stmt) (sight : Sight), stmtsRegular ss = true →
    (flowStmts typeOf true sight ss).only ρ.place =
      (flowStmts typeOf false sight ss).only ρ.place →
    ρ.Clear (stmtsNames ss) (sight.map (·.name)) →
      flowStmts typeOf true (sight.map (Binding.rename ρ)) (ρ.stmts (sight.map (·.name)) ss) =
        (flowStmts typeOf true sight ss).rename ρ
  | [], _, _, _, _ => rfl
  | s :: ss, sight, hregular, hsame, h => by
    obtain ⟨hs, hss⟩ := Bool.and_eq_true_iff.1 hregular
    obtain ⟨hs', hss'⟩ := Flow.seq.inj hsame
    have hrest : ρ.Clear (stmtsNames ss) ((letBinding typeOf s ++ sight).map (·.name)) := by
      rw [List.map_append, map_name_letBinding]
      exact h.extend (Renaming.declared_sublist_names s)
    have hrest' := flowStmts_rename ss _ hss hss' hrest
    simp only [List.map_append, map_name_letBinding] at hrest'
    simp only [Renaming.stmts, flowStmts, Flow.rename, letBinding_rename,
      flowStmt_rename s sight hs hs' h.left, hrest']
end

/-! ## Functions -/

theorem paramBindings_rename (params : List TypedName) (types : List Ty) :
    paramBindings (params.map fun p => { p with name := ρ.decl p.name }) types =
      (paramBindings params types).map (Binding.rename ρ) := by
  induction params generalizing types with
  | nil => rfl
  | cons p ps ih =>
    cases types with
    | nil => rfl
    | cons t ts =>
      simp only [List.map_cons, paramBindings, ih]
      rfl

theorem fnParams_rename (mark : Mark) (head : FnHead) :
    fnParams typeOf mark (ρ.head head) = (fnParams typeOf mark head).map (Binding.rename ρ) := by
  unfold fnParams
  split
  · exact paramBindings_rename head.params _
  · rfl

theorem declares_rename (params : List Binding) :
    Flow.declares (params.map (Binding.rename ρ)) = (Flow.declares params).rename ρ := by
  induction params with
  | nil => rfl
  | cons b bs ih =>
    simp only [List.map_cons, Flow.declares, Flow.rename, ih]
    rfl

/-- The flow of a renamed function is the renamed flow, if every parameter has a type and the
updates of loops agree about the local. -/
theorem fnFlow_rename {mark : Mark} {head : FnHead} {body : Block} (hregular : body.regular = true)
    (hagree : updatesAgree typeOf mark head body ρ.place = true)
    (hclear : ρ.Clear (head.params.map (·.name) ++ body.names) [])
    (hparams : (fnParams typeOf mark head).map (·.name) = head.params.map (·.name)) :
    fnFlow typeOf true mark (ρ.head head) (ρ.body head body) =
      (fnFlow typeOf true mark head body).rename ρ := by
  -- The renaming knows the parameters by their declarations, the flow by their types.
  have hsight : (fnParams typeOf mark head).reverse.map (·.name) =
      (head.params.map (·.name)).reverse := by
    rw [List.map_reverse, hparams]
  have hbody := flowBlock_rename typeOf body (fnParams typeOf mark head).reverse hregular
    (Flow.seq.inj (eq_of_beq hagree)).2 (hsight ▸ hclear.body)
  rw [hsight] at hbody
  simp only [fnFlow, Flow.rename, fnParams_rename, declares_rename, ← List.map_reverse]
  exact congrArg (Flow.seq _) hbody

theorem map_name_paramBindings {params : List TypedName} {types : List Ty}
    (h : types.length = params.length) :
    (paramBindings params types).map (·.name) = params.map (·.name) := by
  induction params generalizing types with
  | nil => rfl
  | cons p ps ih =>
    cases types with
    | nil => cases h
    | cons t ts => simp only [paramBindings, List.map_cons, ih (Nat.succ.inj h)]

end Trees

namespace Accepted

variable {ρ} {b : Bundle} {i : Nat} {u : SourceUnit} {mark : Mark} {head : FnHead} {body : Block}

/-- A name that an accepted function does not mention is a clear one to rename with. -/
theorem clear (h : Accepted b i u mark head body)
    (hfresh : ∀ x ∈ (Stmt.fnDecl mark head body).names, x.name ≠ ρ.name) :
    ρ.Clear (head.params.map (·.name) ++ body.names) [] :=
  ⟨h.fn_names_nodup, List.disjoint_nil_right _, List.nodup_nil, hfresh, fun x hx => by cases hx⟩

/-- Renamed parameters have different names, too. -/
theorem params_nodup_rename (h : Accepted b i u mark head body)
    (hclear : ρ.Clear (head.params.map (·.name) ++ body.names) []) :
    ((fnParams u.table.get? mark (ρ.head head)).map (·.name.name)).Nodup := by
  have hmem : ∀ d ∈ fnParams u.table.get? mark head,
      d.name ∈ head.params.map (·.name) ++ body.names :=
    fun d hd => List.mem_append_left _ (name_mem_of_fnParams hd)
  rw [fnParams_rename, List.map_map]
  refine ρ.nodup_decl Binding.name h.params_nodup (fun d hd d' hd' hspan => ?_)
    fun d hd => hclear.unused d.name (hmem d hd)
  -- Parameters at one place have one name, and parameters of one name are the same.
  have hname := List.inj_on_of_nodup_map hclear.nodup (hmem d hd) (hmem d' hd') hspan
  exact List.inj_on_of_nodup_map h.params_nodup hd hd' (congrArg Ident.name hname)

/-- What the move check finds in a renamed function, by following its flow. -/
theorem checkItem_rename_eq_follow (h : Accepted b i u mark head body)
    (hclear : ρ.Clear (head.params.map (·.name) ++ body.names) []) :
    checkItem u.table.get? (.fnDecl mark (ρ.head head) (ρ.body head body)) =
      ((fnFlow u.table.get? true mark (ρ.head head) (ρ.body head body)).follow .start).2 := by
  have hnodup := hclear.nodup
  rw [List.map_append, ← ρ.span_params, ← ρ.span_names_block body, ← List.map_append] at hnodup
  exact walkFn_eq_follow ((ρ.regular_block body _).trans h.regular)
    ⟨hnodup, List.disjoint_nil_right _⟩ (h.params_nodup_rename hclear)

/-- In a bundle that was declared without a report, the signature of an accepted function has a type
for each parameter. -/
theorem length_params {b : Bundle} (hparsed : b.Parsed) (hdeclare : b.declare.2 = [])
    (h : Accepted b.declare.1 i u mark head body) {arity : Nat} {params : List Ty} {result : Ty}
    (hfunction : u.functions.get? head.name.name = some (.fn arity params result)) :
    params.length = head.params.length := by
  obtain ⟨-, hsigned⟩ := hparsed.undeclared.declare_sound (fun _ : false = true => hdeclare)
  obtain ⟨s, hs, hsigns⟩ := Bundle.signed_of_check (hsigned hdeclare) h.unit head
    (List.mem_filterMap.2 ⟨_, h.declared, rfl⟩)
  have hty : Ty.fn arity params result = s.ty := Option.some.inj (hfunction.symm.trans hs)
  rw [Signature.ty, Ty.fn.injEq] at hty
  rw [hty.2.1, hsigns.length]

/-- Renaming a local changes nothing for the type check. -/
theorem checkFn_rename {b : Bundle} (hparsed : b.Parsed) (hdeclare : b.declare.2 = [])
    (h : Accepted b.declare.1 i u mark head body)
    (hclear : ρ.Clear (head.params.map (·.name) ++ body.names) []) :
    (Typing.checkFn b.declare.1 u .direct mark (ρ.head head) (ρ.body head body)).run () =
      (Typing.checkFn b.declare.1 u .direct mark head body).run () :=
  (Typing.checkFn_alike h.regular hclear fun _ _ _ =>
    h.length_params hparsed hdeclare).run_eq h.clean

/-- Renaming a local changes nothing for the move check of the function but the name in what is
found about the local. -/
theorem checkItem_rename {b : Bundle} (hparsed : b.Parsed) (hdeclare : b.declare.2 = [])
    (h : Accepted b.declare.1 i u mark head body)
    (hagree : updatesAgree u.table.get? mark head body ρ.place = true)
    (hfresh : ∀ x ∈ (Stmt.fnDecl mark head body).names, x.name ≠ ρ.name) :
    checkItem u.table.get? (.fnDecl mark (ρ.head head) (ρ.body head body)) =
      (checkItem u.table.get? (.fnDecl mark head body)).map (Misuse.rename ρ) := by
  have hparams : (fnParams u.table.get? mark head).map (·.name) = head.params.map (·.name) := by
    obtain ⟨arity, params, result, hfunction, hparams, -⟩ := h.signature
    rw [hparams]
    exact map_name_paramBindings (h.length_params hparsed hdeclare hfunction)
  have hclear := h.clear hfresh
  rw [h.checkItem_rename_eq_follow hclear, h.checkItem_eq_follow,
    fnFlow_rename _ h.regular hagree hclear hparams,
    Flow.follow_rename ρ _ Ledger.sound_start]

end Accepted

/-! ## Renaming a local -/

/-- Renaming a local of an accepted function to a name that the function does not mention changes
nothing for the type check, and the move check of the unit finds the same misuses in the same order,
those of the function with the new name. That is so as long as the updates of loops agree with
lexical scoping about the local. -/
theorem misuses_rename {b : Bundle} {i : Nat} {u : SourceUnit} {mark : Mark} {head : FnHead}
    {body : Block} {before after : List Stmt} (hparsed : b.Parsed) (hdeclare : b.declare.2 = [])
    (h : Accepted b.declare.1 i u mark head body)
    (hagree : updatesAgree u.table.get? mark head body ρ.place = true)
    (hfresh : ∀ x ∈ (Stmt.fnDecl mark head body).names, x.name ≠ ρ.name)
    (hitems : u.file.items = before ++ .fnDecl mark head body :: after) :
    (Typing.checkFn b.declare.1 u .direct mark (ρ.head head) (ρ.body head body)).run () =
        (Typing.checkFn b.declare.1 u .direct mark head body).run () ∧
      ∃ found found' : List Misuse, u.misuses =
          found ++ checkItem u.table.get? (.fnDecl mark head body) ++ found' ∧
        (u.withItems (before ++ .fnDecl mark (ρ.head head) (ρ.body head body) :: after)).misuses =
          found ++ (checkItem u.table.get? (.fnDecl mark head body)).map (Misuse.rename ρ) ++
            found' := by
  refine ⟨h.checkFn_rename hparsed hdeclare (h.clear hfresh),
    before.flatMap (checkItem u.table.get?), after.flatMap (checkItem u.table.get?), ?_, ?_⟩
  · rw [SourceUnit.misuses, hitems, List.flatMap_append, List.flatMap_cons, List.append_assoc]
  · rw [← h.checkItem_rename hparsed hdeclare hagree hfresh]
    simp only [SourceUnit.misuses, SourceUnit.withItems, List.flatMap_append, List.flatMap_cons,
      List.append_assoc]

/-- A pointer that a loop moves into another one of the same name, which is then moved twice. The
update of the loop mentions another name that the loop's body declares. -/
def movesInLoop : String :=
  "struct T { v: u64 }
fn f(t: ~T) { }
fn g(t: ~T) {
for let i := 0u64; i < 3u64; i = i + 1u64 { let i := 1u64; let t := t; f(t); f(t); }
f(t);
}"

/-- The second move of the inner `t` is reported, and under another name if the inner `t` has
one. -/
theorem misuses_rename_movesInLoop :
    ∃ (b : Bundle) (u : SourceUnit) (mark : Mark) (head : FnHead) (body : Block)
      (before after : List Stmt) (ρ : Renaming),
      b.Parsed ∧ b.declare.2 = [] ∧ Accepted b.declare.1 0 u mark head body ∧
      updatesAgree u.table.get? mark head body ρ.place = true ∧
      (∀ x ∈ (Stmt.fnDecl mark head body).names, x.name ≠ ρ.name) ∧
      u.file.items = before ++ .fnDecl mark head body :: after ∧
      (∃ x ∈ checkItem u.table.get? (.fnDecl mark head body), x.rename ρ ≠ x) ∧
      (Typing.checkFn b.declare.1 u .direct mark (ρ.head head) (ρ.body head body)).run () =
        (Typing.checkFn b.declare.1 u .direct mark head body).run () ∧
      ∃ found found' : List Misuse, u.misuses =
          found ++ checkItem u.table.get? (.fnDecl mark head body) ++ found' ∧
        (u.withItems (before ++ .fnDecl mark (ρ.head head) (ρ.body head body) :: after)).misuses =
          found ++ (checkItem u.table.get? (.fnDecl mark head body)).map (Misuse.rename ρ) ++
            found' := by
  have haccepts : acceptsFn movesInLoop (fun u mark head body =>
      (Stmt.fnDecl mark head body).names.all (fun x => x.name != "s") &&
      (checkItem u.table.get? (.fnDecl mark head body)).any fun x =>
        updatesAgree u.table.get? mark head body x.previous.declaredAt &&
        Misuse.rename ⟨x.previous.declaredAt, "s"⟩ x != x) = true :=
    Bundle.acceptsTexts_of_chars (.cons rfl .nil) (by decide +kernel)
  obtain ⟨b, u, mark, head, body, hparsed, hdeclare, haccepted, h⟩ := exists_accepted haccepts
  simp only [Bool.and_eq_true, List.all_eq_true, List.any_eq_true, bne_iff_ne] at h
  obtain ⟨hfresh, x, hx, hagree, hne⟩ := h
  obtain ⟨before, after, hitems⟩ := List.append_of_mem haccepted.declared
  exact ⟨b, u, mark, head, body, before, after, ⟨x.previous.declaredAt, "s"⟩, hparsed, hdeclare,
    haccepted, hagree, hfresh, hitems, ⟨x, hx, hne⟩,
    misuses_rename _ hparsed hdeclare haccepted hagree hfresh hitems⟩

/-- A pointer that the update of a loop reads, while the loop's body moves another one of the same
name. -/
def moveOfNamesake : String :=
  "struct T { v: u64 }
fn foo(t: ~T) u64 { return 0u64; }
fn main() {
let a := new T{ v: 1u64 };
for let i := 0u64; i < 3u64; i = i + a.v {
let a := new T{ v: 2u64 };
foo(a);
}
}"

/-- In the update of a loop a name stands for what the loop's body declares. So a use of an outer
local is reported because an inner one of the same name was moved, and the report goes away when the
inner one is renamed. -/
theorem misuse_of_namesake :
    ∃ (b : Bundle) (u : SourceUnit) (mark : Mark) (head : FnHead) (body : Block) (ρ : Renaming),
      b.Parsed ∧ b.declare.2 = [] ∧ Accepted b.declare.1 0 u mark head body ∧
      (∃ x ∈ body.names, x.span = ρ.place) ∧
      updatesAgree u.table.get? mark head body ρ.place = false ∧
      (∀ x ∈ (Stmt.fnDecl mark head body).names, x.name ≠ ρ.name) ∧
      (Typing.checkFn b.declare.1 u .direct mark (ρ.head head) (ρ.body head body)).run () =
        (Typing.checkFn b.declare.1 u .direct mark head body).run () ∧
      checkItem u.table.get? (.fnDecl mark head body) ≠ [] ∧
      checkItem u.table.get? (.fnDecl mark (ρ.head head) (ρ.body head body)) = [] := by
  have haccepts : acceptsFn moveOfNamesake (fun u mark head body =>
      (Stmt.fnDecl mark head body).names.all (fun x => x.name != "b") &&
      !(checkItem u.table.get? (.fnDecl mark head body)).isEmpty &&
      body.names.any fun x => !updatesAgree u.table.get? mark head body x.span &&
        let ρ : Renaming := ⟨x.span, "b"⟩
        (checkItem u.table.get?
          (.fnDecl mark (ρ.head head) (ρ.body head body))).isEmpty) = true :=
    Bundle.acceptsTexts_of_chars (.cons rfl .nil) (by decide +kernel)
  obtain ⟨b, u, mark, head, body, hparsed, hdeclare, haccepted, h⟩ := exists_accepted haccepts
  simp only [Bool.and_eq_true, Bool.not_eq_true', List.all_eq_true, List.any_eq_true, bne_iff_ne,
    List.isEmpty_iff, List.isEmpty_eq_false_iff] at h
  obtain ⟨⟨hfresh, hreported⟩, x, hx, hagree, hnone⟩ := h
  exact ⟨b, u, mark, head, body, ⟨x.span, "b"⟩, hparsed, hdeclare, haccepted, ⟨x, hx, rfl⟩, hagree,
    hfresh, haccepted.checkFn_rename hparsed hdeclare (haccepted.clear hfresh), hreported, hnone⟩

end Ownership

end Custody
