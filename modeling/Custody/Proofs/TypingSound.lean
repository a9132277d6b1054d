import Custody.Proofs.AnyFree
import Custody.Proofs.Outlines
import Custody.Proofs.TypedExprs

/-!
# A check without findings gives a correct typing

The check of a statement that finds nothing yields `StmtTyped`, and that of a function `FnTyped`. If
the stages report nothing about a bundle of parsed files, the table of each unit is a correct typing
(`typing_of_no_reports`).
-/

set_option autoImplicit false
set_option maxRecDepth 2000

namespace Custody

variable {σ α β : Type} {type : Nat → Option Ty} {good : Ty → Prop}

/-! ## Statements -/

namespace Walking

/-- The value of a check that gets through has the property `P` if the check finds nothing and the
types that it records are good and are those that `type` gives. -/
def Yields (type : Nat → Option Ty) (good : Ty → Prop) (P : α → Prop) (x : Walking σ α) : Prop :=
  ∀ s a, (x.run s).value = .ok a → (x.run s).log.findings = [] →
    (∀ r ∈ (x.run s).log.types, type r.1 = some r.2 ∧ good r.2) → P a

namespace Yields

variable {P : α → Prop} {R : β → Prop} {x : Walking σ α} {f : α → Walking σ β}

theorem pure {a : α} (h : P a) : Yields type good P (Pure.pure a : Walking σ α) := by
  intro s a' hok _ _
  cases hok
  exact h

theorem throw (fault : StructuralFault) : Yields type good P (throw fault : Walking σ α) := by
  intro s a hok
  cases hok

theorem lift {x : Checking σ α} (hx : x.Yields type good P) : Yields type good P (lift x) := by
  intro s a hok hclean htypes
  rw [lift_run] at hok hclean htypes
  cases hok
  exact hx s hclean htypes

theorem bind (hx : Yields type good P x) (hf : ∀ a, P a → Yields type good R (f a)) :
    Yields type good R (x >>= f) := by
  intro s b hok hclean htypes
  obtain ⟨a, ha, hb, hlog⟩ := bind_ok hok
  rw [hlog] at hclean htypes
  obtain ⟨hclean, hclean'⟩ := List.append_eq_nil_iff.1 hclean
  obtain ⟨htypes, htypes'⟩ := List.forall_mem_append.1 htypes
  exact hf a (hx s a ha hclean htypes) _ b hb hclean' htypes'

end Yields

end Walking

namespace Typing

open Checking

variable {body : Body Unit} {locals : ScopeStack}

theorem declareName_yields (locals : ScopeStack) (name : Ident) (t : Ty) :
    Yields type good (fun locals' => locals.declare name.name t = .ok locals')
      (declareName locals name t : Checking σ ScopeStack) := by
  unfold declareName
  split
  · next h => exact .pure h
  · exact .report _ _

theorem Body.expr_yields (h : body.Sound true) {e : Expr} (hsized : e.every Expr.isSized = true) :
    Yields type (body.place.Fits false) (Right body.place type locals e) (body.expr locals e) := by
  unfold Body.expr
  rw [h.direct]
  exact checkExpr_yields h.place e hsized

/-- A statement that is typed right and leaves the outer scopes alone. -/
structure Steps (body : Body Unit) (type : Nat → Option Ty) (locals : ScopeStack) (s : Stmt)
    (locals' : ScopeStack) : Prop where
  typed : StmtTyped body.place type body.returnType (body.loopDepth != 0) locals s locals'
  outer : locals'.outer = locals.outer

theorem letType_yields (h : body.Sound true) (name : Ident) (written : Option TypeExpr)
    (init : Typed) :
    Yields type good (LetRule body.place written init.type) (letType body name written init) := by
  unfold letType
  split
  · rw [h.direct]
    exact .bind (Place.resolve_yields h.place _) fun declared hdeclared =>
      .bind (expectType_yields _ _) fun _ hfits => .pure (.written hdeclared hfits)
  · split
    · exact .report _ _
    · next hvoid => exact .pure (.inferred hvoid)

theorem checkLet_yields (h : body.Sound true) (mark : Mark) (name : Ident)
    (written : Option TypeExpr) {init : Expr} (hsized : init.every Expr.isSized = true) :
    Yields type (body.place.Fits false) (Steps body type locals (.letDecl mark name written init))
      (checkLet body locals mark name written init) :=
  .bind (body.expr_yields h hsized) fun _ ht =>
    .bind (letType_yields h name written _) fun bound hbound =>
      .bind (declareName_yields locals name bound) fun _ hdeclare =>
        .bind (.record mark.id bound) fun _ hrecord =>
          .pure ⟨.letDecl ht.typed hbound hdeclare hrecord.1, (ScopeStack.declare_ok hdeclare).2⟩

theorem checkAssign_yields (h : body.Sound true) (mark : Mark) {target value : Expr}
    (hsized : target.every Expr.isSized = true) (hsized' : value.every Expr.isSized = true) :
    Yields type (body.place.Fits false)
      (fun _ => Steps body type locals (.assign mark target value) locals)
      (checkAssign body locals mark target value) := by
  unfold checkAssign
  dsimp only
  split
  · next hassignable =>
      exact .bind (body.expr_yields h hsized) fun _ ht =>
        .bind (body.expr_yields h hsized') fun _ hv =>
          .bind (expectType_yields _ _) fun _ hfits => (Yields.record _ _).mono fun _ hrecord =>
            ⟨.assign hassignable ht.typed hv.typed hfits hrecord.1, rfl⟩
  · exact .report _ _

theorem checkReturn_yields (h : body.Sound true) (mark : Mark) {value : Expr}
    (hsized : value.every Expr.isSized = true) :
    Yields type (body.place.Fits false)
      (fun _ => Steps body type locals (.returnStmt mark (some value)) locals)
      (checkReturn body locals mark (some value)) :=
  .bind (body.expr_yields h hsized) fun _ ht =>
    .bind (expectType_yields _ _) fun _ hfits => (Yields.record _ _).mono fun _ hrecord =>
      ⟨.returnValue ht.typed hfits hrecord.1, rfl⟩

theorem checkReturn_none_yields (mark : Mark) :
    Yields type (body.place.Fits false)
      (fun _ => Steps body type locals (.returnStmt mark none) locals)
      (checkReturn body locals mark none) :=
  .bind (expectType_yields _ _) fun _ hfits => (Yields.record _ _).mono fun _ hrecord =>
    ⟨.returnNothing hfits hrecord.1, rfl⟩

/-- A word that only makes sense inside a loop. -/
theorem checkJump_yields (mark : Mark) (word : String) :
    Yields type good (fun _ => (body.loopDepth != 0) = true ∧ type mark.id = some .void)
      (checkJump body mark word) := by
  unfold checkJump
  dsimp only
  split
  · exact .report _ _
  · next hdepth =>
      exact (Yields.record _ _).mono fun _ hrecord => ⟨bne_iff_ne.2 hdepth, hrecord.1⟩

theorem checkCondition_yields (h : body.Sound true) {condition : Expr}
    (hsized : condition.every Expr.isSized = true) :
    Yields type (body.place.Fits false)
      (fun _ => ∃ t, ExprTyped body.place type locals condition t ∧ t.coerces .bool = true)
      (checkCondition body locals condition) :=
  .bind (body.expr_yields h hsized) fun t ht =>
    (expectType_yields _ _).mono fun _ hfits => ⟨t, ht.typed, hfits⟩

theorem checkEachHead_yields (h : body.Sound true) (name : Ident) {iterable : Expr}
    (hsized : iterable.every Expr.isSized = true) :
    Yields type (body.place.Fits false)
      (fun inner => ∃ t element, ExprTyped body.place type locals iterable t ∧ EachRule t element ∧
        locals.declare name.name element = .ok inner)
      (checkEachHead body locals name iterable) :=
  .bind (body.expr_yields h hsized) fun t ht =>
    .bind (elementType_yields _) fun element helement =>
      (declareName_yields locals name element).mono fun _ hdeclare =>
        ⟨t, element, ht.typed, helement, hdeclare⟩

theorem checkExprStmt_yields (h : body.Sound true) (mark : Mark) {value : Expr}
    (hsized : value.every Expr.isSized = true) :
    Yields type (body.place.Fits false) (fun _ => Steps body type locals (.expr mark value) locals)
      (checkExprStmt body locals mark value) :=
  .bind (body.expr_yields h hsized) fun _ ht => (Yields.record _ _).mono fun _ hrecord =>
    ⟨.expr ht.typed hrecord.1, rfl⟩

theorem done_yields (mark : Mark) {locals : ScopeStack} {P : ScopeStack → Prop}
    (h : type mark.id = some .void → P locals) :
    Walking.Yields type good P (done mark locals : Walking σ ScopeStack) :=
  .lift (.bind (.record _ _) fun _ hrecord => .pure (h hrecord.1))

mutual
/-- The check of a statement without findings types it right and leaves the outer scopes alone. -/
theorem checkStmt_yields : ∀ (s : Stmt) (body : Body Unit) (locals : ScopeStack),
    body.Sound true → s.every Expr.isSized = true →
      Walking.Yields type (body.place.Fits false) (Steps body type locals s)
        (checkStmt body locals s)
  | .importDecl _ _, _, _, _, _ => .throw _
  | .structDecl _ _, _, _, _, _ => .throw _
  | .fnDecl _ _ _, _, _, _, _ => .throw _
  | .letDecl mark name written _, _, _, h, hsized =>
    .lift (checkLet_yields h mark name written hsized)
  | .scope mark block, body, locals, h, hsized => by
    rw [checkStmt]
    refine .bind (checkBlock_yields block body locals h hsized) fun locals' hblock => ?_
    obtain ⟨rfl, hblock⟩ := hblock
    exact done_yields mark fun hrecord => ⟨.scope hblock hrecord, rfl⟩
  | .assign mark _ _, body, locals, h, hsized => by
    simp only [Stmt.every, Bool.and_eq_true] at hsized
    exact .bind (.lift (checkAssign_yields h mark hsized.1 hsized.2)) fun _ hs => .pure hs
  | .returnStmt mark none, _, _, _, _ =>
    .bind (.lift (checkReturn_none_yields mark)) fun _ hs => .pure hs
  | .returnStmt mark (some _), _, _, h, hsized =>
    .bind (.lift (checkReturn_yields h mark hsized)) fun _ hs => .pure hs
  | .breakStmt mark, body, locals, _, _ => by
    refine .bind (.lift (checkJump_yields mark _)) fun _ hjump => .pure ⟨?_, rfl⟩
    rw [hjump.1]
    exact .breakStmt hjump.2
  | .continueStmt mark, body, locals, _, _ => by
    refine .bind (.lift (checkJump_yields mark _)) fun _ hjump => .pure ⟨?_, rfl⟩
    rw [hjump.1]
    exact .continueStmt hjump.2
  | .forEach mark name _ block, body, locals, h, hsized => by
    simp only [Stmt.every, Bool.and_eq_true] at hsized
    rw [checkStmt]
    refine .bind (.lift (checkEachHead_yields h name hsized.1)) fun inner hhead =>
      .bind (checkBlock_yields block body.inLoop inner h.inLoop hsized.2) fun inner' hblock => ?_
    obtain ⟨t, element, hiterable, helement, hdeclare⟩ := hhead
    obtain ⟨rfl, hblock⟩ := hblock
    rw [ScopeStack.pop_eq (ScopeStack.declare_ok hdeclare).2]
    exact done_yields mark fun hrecord => ⟨.forEach hiterable helement hdeclare hblock hrecord, rfl⟩
  | .forCounted mark init _ update block, body, locals, h, hsized => by
    simp only [Stmt.every, Bool.and_eq_true] at hsized
    obtain ⟨⟨⟨hinit, hcondition⟩, hupdate⟩, hblock⟩ := hsized
    rw [checkStmt]
    refine .bind (checkStmt_yields init body locals.push h hinit) fun inner hinit => ?_
    refine .bind (.lift (checkCondition_yields h hcondition)) fun _ hcondition => ?_
    refine .bind (checkBlock_yields block body.inLoop inner h.inLoop hblock) fun inner' hblock => ?_
    obtain ⟨rfl, hblock⟩ := hblock
    refine .bind (checkStmt_yields update body inner h hupdate) fun inner' hupdate => ?_
    obtain ⟨t, hcondition, hbool⟩ := hcondition
    -- What the clauses declare goes away with the scope of the head.
    rw [ScopeStack.pop_eq (hupdate.outer.trans hinit.outer)]
    exact done_yields mark fun hrecord =>
      ⟨.forCounted hinit.typed hcondition hbool hblock hupdate.typed hrecord, rfl⟩
  | .ifElse mark _ thenBlock none, body, locals, h, hsized => by
    simp only [Stmt.every, Bool.and_eq_true] at hsized
    rw [checkStmt]
    refine .bind (.lift (checkCondition_yields h hsized.1.1)) fun _ hcondition => ?_
    refine .bind (checkBlock_yields thenBlock body locals h hsized.1.2) fun locals' hblock => ?_
    obtain ⟨t, hcondition, hbool⟩ := hcondition
    obtain ⟨rfl, hblock⟩ := hblock
    exact done_yields mark fun hrecord => ⟨.ifThen hcondition hbool hblock hrecord, rfl⟩
  | .ifElse mark _ thenBlock (some branch), body, locals, h, hsized => by
    simp only [Stmt.every, elseEvery, Bool.and_eq_true] at hsized
    rw [checkStmt]
    refine .bind (.lift (checkCondition_yields h hsized.1.1)) fun _ hcondition => ?_
    refine .bind (checkBlock_yields thenBlock body locals h hsized.1.2) fun locals' hblock => ?_
    obtain ⟨t, hcondition, hbool⟩ := hcondition
    obtain ⟨rfl, hblock⟩ := hblock
    refine .bind (checkStmt_yields branch body locals h hsized.2) fun locals' hbranch => ?_
    exact done_yields mark fun hrecord =>
      ⟨.ifElse hcondition hbool hblock hbranch.typed hrecord, hbranch.outer⟩
  | .expr mark _, _, _, h, hsized =>
    .bind (.lift (checkExprStmt_yields h mark hsized)) fun _ hs => .pure hs

theorem checkBlock_yields : ∀ (block : Block) (body : Body Unit) (locals : ScopeStack),
    body.Sound true → block.every Expr.isSized = true →
      Walking.Yields type (body.place.Fits false)
        (fun locals' => locals = locals' ∧
          BlockTyped body.place type body.returnType (body.loopDepth != 0) locals block)
        (checkBlock body locals block)
  | .mk _ ss, body, locals, h, hsized => by
    rw [checkBlock]
    refine .bind (checkStmts_yields ss body locals.push h hsized) fun inner hinner => .pure ⟨?_, ?_⟩
    · exact (ScopeStack.pop_eq hinner.2).symm
    · exact .mk hinner.1

theorem checkStmts_yields : ∀ (ss : List Stmt) (body : Body Unit) (locals : ScopeStack),
    body.Sound true → stmtsEvery Expr.isSized ss = true →
      Walking.Yields type (body.place.Fits false)
        (fun locals' =>
          StmtsTyped body.place type body.returnType (body.loopDepth != 0) locals ss locals' ∧
            locals'.outer = locals.outer)
        (checkStmts body locals ss)
  | [], _, _, _, _ => .pure ⟨.nil, rfl⟩
  | s :: ss, body, locals, h, hsized => by
    simp only [stmtsEvery, Bool.and_eq_true] at hsized
    rw [checkStmts]
    refine .bind (checkStmt_yields s body locals h hsized.1) fun locals' hs => ?_
    intro state locals'' hok hclean htypes
    obtain ⟨hss, houter⟩ :=
      checkStmts_yields ss body locals' h hsized.2 state locals'' hok hclean htypes
    exact ⟨.cons hs.typed hss, houter.trans hs.outer⟩
end

/-! ## Functions -/

theorem declareParams_yields : ∀ (params : List TypedName) (types : List Ty) (locals : ScopeStack),
    params.length = types.length →
      Yields type good (Declares locals (params.map (·.name.name)) types)
        (declareParams locals params types : Checking σ ScopeStack)
  | [], [], _, _ => .pure .nil
  | [], _ :: _, _, hlength => by cases hlength
  | _ :: _, [], _, hlength => by cases hlength
  | p :: ps, t :: ts, locals, hlength => by
    rw [declareParams]
    exact .bind (declareName_yields locals p.name t) fun locals' hdeclare =>
      (declareParams_yields ps ts locals' (Nat.succ.inj hlength)).mono fun _ hrest =>
        .cons hdeclare hrest

/-- The check of a function with a signature of its own types its body right in the scope of its
parameters, and records the signature. -/
theorem checkFn_yields {b : Bundle} {u : SourceUnit} (hb : b.Sound true) (hu : u.Sound true b.shape)
    (mark : Mark) {head : FnHead} {block : Block} (hsized : block.every Expr.isSized = true)
    {s : Signature} (hs : u.functions.get? head.name.name = some s.ty)
    (hlength : head.params.length = s.params.length) :
    Walking.Yields type ((b.placeOf u head.generics).Fits false)
      (fun _ => type mark.id = some s.ty ∧
        ∃ locals locals', Declares .empty (head.params.map (·.name.name)) s.params locals ∧
          StmtsTyped (b.placeOf u head.generics) type s.result false locals block.stmts locals')
      (checkFn b u .direct mark head block) := by
  unfold checkFn
  rw [hs]
  cases block with
  | mk span ss =>
    refine .bind (.lift (declareParams_yields head.params s.params .empty hlength))
      fun locals hlocals => ?_
    refine .bind (checkStmts_yields ss ⟨b.placeOf u head.generics, .direct, s.result, 0⟩ locals
      ⟨⟨hb, hu⟩, rfl⟩ hsized) fun locals' hbody => ?_
    exact .lift ((Yields.record _ _).mono fun _ hrecord =>
      ⟨hrecord.1, locals, locals', hlocals, hbody.1⟩)

end Typing

namespace Place

open Checking

variable {place : Place}

theorem params_yields (h : place.Sound true) : ∀ ps : List TypedName,
    Yields type good (List.Forall₂ place.Denotes (ps.map (·.type))) (place.params .direct ps)
  | [] => .pure .nil
  | p :: ps => by
    rw [params]
    exact .bind (resolve_yields h p.type) fun _ ht =>
      .bind (params_yields h ps) fun _ hts => .pure (.cons ht hts)

/-- A signature for a function: its types are what is written in the head. -/
structure Signs (place : Place) (head : FnHead) (s : Signature) : Prop where
  arity : s.arity = head.generics.length
  params : List.Forall₂ place.Denotes (head.params.map (·.type)) s.params
  result : ∀ written, head.returnType = some written → place.Denotes written s.result
  noResult : head.returnType = none → s.result = .void

theorem signature_yields (h : place.Sound true) (head : FnHead) :
    Yields type good (place.Signs head) (place.signature .direct head) := by
  unfold signature
  refine .bind (params_yields h head.params) fun params hparams => ?_
  dsimp only
  split
  · next written hwritten =>
      refine .bind (resolve_yields h written) fun result hresult =>
        .pure ⟨rfl, hparams, fun written' hwritten' => ?_, fun hnone => ?_⟩
      · rw [hwritten] at hwritten'
        exact Option.some.inj hwritten' ▸ hresult
      · rw [hwritten] at hnone
        cases hnone
  · next hnone =>
      refine .bind (P := (· = .void)) (.pure rfl) fun result hresult =>
        .pure ⟨rfl, hparams, fun written hwritten => ?_, fun _ => hresult⟩
      rw [hnone] at hwritten
      cases hwritten

end Place

variable {b : Bundle} {i : Nat} {u : SourceUnit} {mark : Mark} {head : FnHead} {body : Block}

/-- In a unit of a declared bundle without reports, the scope has for a function the signature that
its head stands for. -/
theorem signs_of_no_reports (hdeclare : b.declare.2 = []) (hsound : b.declare.1.Sound true)
    (hu : b.declare.1.check.bundle.get? i = some u) (hhead : head ∈ u.fnHeads) :
    ∃ s : Signature, u.functions.get? head.name.name = some s.ty ∧
      (b.declare.1.placeOf u head.generics).Signs head s := by
  obtain ⟨u₀, hu₀, hsame⟩ := Bundle.get?_of_check hu
  have hheads : u₀.fnHeads = u.fnHeads :=
    (congrArg SourceUnit.fnHeads hsame : u₀.untyped.fnHeads = _)
  have hfunctions : u₀.functions = u.functions :=
    (congrArg SourceUnit.functions hsame : u₀.untyped.functions = _)
  have hskeleton : u₀.skeleton = u.skeleton :=
    (congrArg SourceUnit.skeleton hsame : u₀.untyped.skeleton = _)
  obtain ⟨hclean, hget⟩ := Bundle.signature_of_declare hdeclare hu₀ (hheads ▸ hhead)
  have hplace : (b.declare.1.placeOf u₀ head.generics).skeleton =
      (b.declare.1.placeOf u head.generics).skeleton := by
    simp only [Place.skeleton, Bundle.placeOf, hskeleton]
  rw [← Place.signature_skeleton, hplace, Place.signature_skeleton] at hclean hget
  refine ⟨_, hfunctions ▸ hget, ?_⟩
  have hyields : Checking.Yields (fun _ => none) (fun _ => True)
      ((b.declare.1.placeOf u head.generics).Signs head)
      ((b.declare.1.placeOf u head.generics).signature .direct head) :=
    Place.signature_yields ⟨hsound, hsound.unit_of_check hu⟩ head
  refine hyields () hclean fun r hr => ?_
  rw [(Place.signature_ruled _ _ head ()).1] at hr
  cases hr

/-- What the check of a function records is in the table of its unit, and fits. -/
theorem recorded_of_checked (hparsed : b.Parsed) (hdeclare : b.declare.2 = [])
    (hfault : b.declare.1.check.fault = none) (hu : b.declare.1.check.bundle.get? i = some u)
    (hfn : .fnDecl mark head body ∈ u.file.items) :
    ∀ r ∈ ((Typing.checkFn b.declare.1 u .direct mark head body).run ()).log.types,
      u.table.get? r.1 = some r.2 ∧ (b.declare.1.placeOf u head.generics).Fits false r.2 := by
  have hfile := hparsed.file_of_check hu
  obtain ⟨hok, htable, -⟩ := Bundle.table_of_check hfault hu hfile.ids_nodup hfn
  have hwrites := Typing.checkFn_writes b.declare.1 u .direct mark head body () () hok
  have hids : (Stmt.fnDecl mark head body).ids.Nodup := by
    have hall := hfile.ids_nodup
    rw [stmtsIds_eq_flatMap, List.nodup_flatMap] at hall
    exact hall.1 _ hfn
  obtain ⟨hsound, hsigned⟩ : b.declare.1.Sound false ∧ _ :=
    hparsed.undeclared.declare_sound fun hs => by cases hs
  intro r hr
  have hnode : r.1 ∈ (Stmt.fnDecl mark head body).nodes := hwrites ▸ List.mem_map_of_mem hr
  have hget : u.table.get? r.1 = some r.2 := by
    rw [htable r.1 (Stmt.nodes_subset_ids _ hnode)]
    exact TypeTable.get?_ofRecords_of_mem (hwrites ▸ Stmt.nodes_nodup hids) hr
  obtain ⟨t, ht, hfits⟩ := fits_of_checked hsound (hsigned hdeclare) hfile hfault hu hfn
    (fun hs => by cases hs) r.1 hnode
  rw [hget] at ht
  exact ⟨hget, Option.some.inj ht ▸ hfits⟩

/-- If the stages report nothing about a bundle of parsed files, then the recorded types are a
correct typing of every function of every unit: every statement follows its rule in its scopes, and
so does every expression node. -/
theorem typing_of_no_reports (hparsed : b.Parsed) (hdeclare : b.declare.2 = [])
    (hfault : b.declare.1.check.fault = none) (hcheck : b.declare.1.check.reports = [])
    (hu : b.declare.1.check.bundle.get? i = some u) (hfn : .fnDecl mark head body ∈ u.file.items) :
    (∃ s locals, u.functions.get? head.name.name = some s.ty ∧
      Typing.FnTyped (b.declare.1.placeOf u head.generics) u.table.get? mark head body s locals) ∧
      ∀ e ∈ body.exprs, ∃ locals t, u.table.get? e.id = some t ∧
        Typing.NodeRule (b.declare.1.placeOf u head.generics) u.table.get? locals e t := by
  have hfile := hparsed.file_of_check hu
  obtain ⟨hsound, -⟩ : b.declare.1.Sound true ∧ _ :=
    hparsed.undeclared.declare_sound fun _ => hdeclare
  obtain ⟨hok, -, -⟩ := Bundle.table_of_check hfault hu hfile.ids_nodup hfn
  have hclean := Bundle.findings_of_check hfault hcheck hu hfile.ids_nodup hfn
  have hhead : head ∈ u.fnHeads := List.mem_filterMap.2 ⟨_, hfn, rfl⟩
  obtain ⟨s, hs, hsigns⟩ := signs_of_no_reports hdeclare hsound hu hhead
  have hlength : head.params.length = s.params.length := by
    rw [← hsigns.params.length_eq, List.length_map]
  obtain ⟨hrecorded, locals, locals', hdeclares, hbody⟩ :=
    Typing.checkFn_yields hsound (hsound.unit_of_check hu) mark (hfile.shapes hfn).2.2 hs
      hlength () () hok hclean (recorded_of_checked hparsed hdeclare hfault hu hfn)
  refine ⟨⟨s, locals, hs, hrecorded, hsigns.arity, hsigns.params, hsigns.result, hsigns.noResult,
    hdeclares, locals', hbody⟩, fun e he => ?_⟩
  cases body with
  | mk span ss => exact hbody.covered e he

/-- Two files, of which the first one calls a generic function of the other, goes through an array
and decides. -/
def ledgers : List (String × String) :=
  [("main.liam", "import \"box.liam\" b;
fn main(xs: [2]u64) u64 {
let p := b.make:[u64](xs[0u64]);
for x : xs { p.v = x + 1u64; }
if p.v > 3u64 and !false { return *&p.v; }
return 0u64;
}"),
    ("box.liam", "struct Box[T] { v: T }
fn make[T](v: T) ~Box[T] { return new Box[T]{ v: v }; }")]

/-- The recorded types of `main` are a correct typing. -/
theorem typing_of_no_reports_ledgers :
    ∃ b u, Bundle.Parsed b ∧ b.declare.2 = [] ∧ b.declare.1.check.fault = none ∧
      b.declare.1.check.reports = [] ∧ b.declare.1.check.bundle.get? 0 = some u ∧
      ∃ mark head body, .fnDecl mark head body ∈ u.file.items ∧ body.exprs ≠ [] ∧
        (∃ s locals, u.functions.get? head.name.name = some s.ty ∧
          Typing.FnTyped (b.declare.1.placeOf u head.generics)
            u.table.get? mark head body s locals) ∧
        ∀ e ∈ body.exprs, ∃ locals t, u.table.get? e.id = some t ∧
          Typing.NodeRule (b.declare.1.placeOf u head.generics) u.table.get? locals e t := by
  have haccepts : Bundle.acceptsTexts ledgers 0
      (fun u => u.anyFn fun _ _ body => !body.exprs.isEmpty) = true :=
    Bundle.acceptsTexts_of_chars (.cons rfl (.cons rfl .nil)) (by decide +kernel)
  obtain ⟨b, u, hparsed, hdeclare, hfault, hreports, hu, h⟩ :=
    Bundle.exists_of_acceptsTexts haccepts
  obtain ⟨mark, head, body, hitem, h⟩ := SourceUnit.exists_of_anyFn h
  have hexprs : body.exprs ≠ [] := by
    intro hnil
    rw [hnil] at h
    cases h
  exact ⟨b, u, hparsed, hdeclare, hfault, hreports, hu, mark, head, body, hitem, hexprs,
    typing_of_no_reports hparsed hdeclare hfault hreports hu hitem⟩

end Custody
