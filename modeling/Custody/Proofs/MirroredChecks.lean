import Custody.Proofs.MirroredTypes
import Custody.Typing.Check

/-!
# Checks side by side

The typing rules, expressions and statements in mirrored bundles, one lemma for each step of a
check. They end in `Typing.checkItem_mirrors`: resembling items of mirrored units are checked with
the same outcome, with new labels and at places that answer to each other.
-/

set_option autoImplicit false

namespace Custody

/-! ## Classes of types, and scopes -/

namespace Relabelling

variable (τ : Relabelling)

/-- Which operands an operator accepts does not depend on labels. -/
theorem isBool_ty (t : Ty) : Typing.isBool (τ.ty t) = Typing.isBool t := by
  cases t <;> rfl

theorem isNumber_ty (t : Ty) : Typing.isNumber (τ.ty t) = Typing.isNumber t := by
  cases t <;> rfl

theorem isInteger_ty (t : Ty) : Typing.isInteger (τ.ty t) = Typing.isInteger t := by
  cases t <;> rfl

theorem isSigned_ty (t : Ty) : Typing.isSigned (τ.ty t) = Typing.isSigned t := by
  cases t <;> rfl

theorem isComparable_ty (t : Ty) : Typing.isComparable (τ.ty t) = Typing.isComparable t := by
  cases t <;> rfl

theorem ty_numberType (literal : NumberLiteral) :
    τ.ty (Typing.numberType literal) = Typing.numberType literal := by
  rw [Typing.numberType]
  split
  · rfl
  · split <;> rfl

/-- A name stands for the relabelled type. -/
theorem lookup_scopes (s : ScopeStack) (name : String) :
    (τ.scopes s).lookup name = (s.lookup name).map τ.ty := by
  have houter : ∀ scopes : List Scope,
      (scopes.map τ.scope).findSome? (fun scope => scope.get? name) =
      (scopes.findSome? fun scope => scope.get? name).map τ.ty := by
    intro scopes
    induction scopes with
    | nil => rfl
    | cons scope scopes ih =>
      rw [List.map_cons, List.findSome?_cons, List.findSome?_cons, τ.get?_scope, ih]
      cases scope.get? name <;> rfl
  exact houter (s.inner :: s.outer)

/-- A name can be declared in both or clashes in both. -/
theorem declare_scopes (s : ScopeStack) (name : String) (type : Ty) :
    (τ.scopes s).declare name (τ.ty type) = ((s.declare name type).map τ.scopes).mapError τ.ty := by
  have hfound : (τ.scopes s).inner.get? name = (s.inner.get? name).map τ.ty :=
    τ.get?_scope s.inner name
  rw [ScopeStack.declare, ScopeStack.declare, NameMap.insertNew, NameMap.insertNew, hfound]
  cases s.inner.get? name with
  | some existing => rfl
  | none =>
    have hentries : (τ.scope s.inner).entries ++ [(name, τ.ty type)] =
        (s.inner.entries ++ [(name, type)]).map fun e => (e.1, τ.ty e.2) := by
      rw [List.map_append]
      rfl
    exact congrArg
      (fun entries => Except.ok (ScopeStack.mk ⟨entries⟩ (s.outer.map τ.scope))) hentries

theorem pop_scopes (s : ScopeStack) : (τ.scopes s).pop = τ.scopes s.pop := by
  obtain ⟨inner, outer⟩ := s
  cases outer <;> rfl

end Relabelling

/-! ## Members of struct types -/

namespace Bundle

variable {τ : Relabelling} {b b' : Bundle}

theorem structArgs?_ty (t : Ty) :
    structArgs? (τ.ty t) = (structArgs? t).map fun s => (τ.struct s.1, τ.tys s.2) := by
  cases t <;> rfl

/-- A relabelled type has the relabelled members. -/
theorem NamesMirror.members? (h : b.NamesMirror τ b') (t : Ty) :
    b'.members? (τ.ty t) = (b.members? t).map (Place.relabelMembers τ) := by
  rw [Bundle.members?, Bundle.members?, structArgs?_ty]
  cases structArgs? t with
  | none => rfl
  | some s =>
    obtain ⟨id, args⟩ := s
    simp only [Option.map_some, Option.bind_eq_bind, Option.bind_some]
    have hstruct := h.structs id
    revert hstruct
    generalize b.struct? id = found
    generalize b'.struct? (τ.struct id) = found'
    rintro (hstruct | _)
    · simp only [Option.bind_some, Option.map_some, hstruct.members, Place.relabelMembers,
        Option.pure_def, List.map_map, Function.comp_def, τ.substitute_ty]
    · rfl

theorem NamesMirror.member? (h : b.NamesMirror τ b') (t : Ty) (name : String) :
    b'.member? (τ.ty t) name = (b.member? t name).map τ.ty := by
  rw [Bundle.member?, Bundle.member?, structArgs?_ty]
  cases structArgs? t with
  | none => rfl
  | some s =>
    obtain ⟨id, args⟩ := s
    simp only [Option.map_some, Option.bind_eq_bind, Option.bind_some]
    have hstruct := h.structs id
    revert hstruct
    generalize b.struct? id = found
    generalize b'.struct? (τ.struct id) = found'
    rintro (@⟨d, d', hstruct⟩ | _)
    · have hmember : d'.member? name = (d.member? name).map τ.ty := by
        rw [StructDef.member?, StructDef.member?, hstruct.members]
        exact τ.get?_scope ⟨d.members⟩ name
      simp only [Option.bind_some, hmember]
      cases d.member? name with
      | none => rfl
      | some type => exact congrArg some (τ.substitute_ty args type).symm
    · rfl

end Bundle

/-! ## Typing rules -/

/-- The same part with new labels, at a place that answers to the first one. -/
structure Typed.Resembles (τ : Relabelling) (ρ : Correspondence) (part part' : Typed) : Prop where
  span : ρ.node part.span part'.span
  type : part'.type = τ.ty part.type

namespace Typing

open Checking

variable {σ σ' : Type} {κ : Coupling σ σ'} {builder : InstanceBuilder σ}
  {builder' : InstanceBuilder σ'} {p p' : Place} {span span' : Span}

/-- A type fits in both checks or is reported in both. -/
theorem expectType_mirrors (hspan : κ.spans.node span span') (type expected : Ty) :
    Mirrors κ Eq (expectType ⟨span, type⟩ expected)
      (expectType ⟨span', κ.labels.ty type⟩ (κ.labels.ty expected)) := by
  rw [expectType, expectType]
  dsimp only
  rw [κ.labels.coerces_ty]
  exact mirrors_ite (mirrors_pure rfl) (mirrors_report hspan _)

theorem expectOperand_mirrors (op : String) (hspan : κ.spans.node span span') (type : Ty)
    {accepts : Ty → Bool} (h : ∀ t, accepts (κ.labels.ty t) = accepts t) :
    Mirrors κ Eq (expectOperand op ⟨span, type⟩ accepts)
      (expectOperand op ⟨span', κ.labels.ty type⟩ accepts) := by
  rw [expectOperand, expectOperand]
  dsimp only
  rw [κ.labels.isAny_ty, h]
  exact mirrors_ite (mirrors_pure rfl) (report_then hspan _ (mirrors_pure rfl))

/-- A name has the relabelled type. -/
theorem identType_mirrors (h : p.Mirrors κ builder builder' p') (locals : ScopeStack)
    {name name' : Ident} (hname : name.Resembles κ.spans name') :
    MirrorsTo κ κ.labels.ty (identType p locals name)
      (identType p' (κ.labels.scopes locals) name') := by
  rw [identType, identType, hname.name, κ.labels.lookup_scopes, h.unit.functions, h.unit.namespaces,
    ← Option.map_or, ← Option.map_or]
  cases (locals.lookup name.name).or
      ((p.unit.functions.get? name.name).or (p.unit.namespaces.get? name.name)) with
  | some type => exact mirrors_pure rfl
  | none => exact report_then (κ.spans.node_of_name hname.span) _ (mirrors_pure rfl)

section Operators

variable {left left' right right' : Span} (hleft : κ.spans.node left left')
  (hright : κ.spans.node right right') (l r : Ty)

include hright in
/-- Two operands have the relabelled common type, or none in both checks. -/
theorem commonType_mirrors :
    MirrorsTo κ κ.labels.ty (commonType ⟨left, l⟩ ⟨right, r⟩)
      (commonType ⟨left', κ.labels.ty l⟩ ⟨right', κ.labels.ty r⟩) := by
  rw [commonType, commonType]
  dsimp only
  rw [κ.labels.unify_ty]
  cases l.unify r with
  | some type => exact mirrors_pure rfl
  | none => exact report_then hright _ (mirrors_pure rfl)

include hleft hright in
/-- An operator between operands has the relabelled type. -/
theorem binaryType_mirrors (op : BinaryOp) :
    MirrorsTo κ κ.labels.ty (binaryType op ⟨left, l⟩ ⟨right, r⟩)
      (binaryType op ⟨left', κ.labels.ty l⟩ ⟨right', κ.labels.ty r⟩) := by
  have haccepts (t : Ty) : (if op.isEquality then isComparable else isNumber) (κ.labels.ty t) =
      (if op.isEquality then isComparable else isNumber) t := by
    split
    · exact κ.labels.isComparable_ty t
    · exact κ.labels.isNumber_ty t
  have hresult (common : Ty) : MirrorsTo κ κ.labels.ty
      (pure (if op.isArithmetic then common else .bool))
      (pure (if op.isArithmetic then κ.labels.ty common else .bool)) := by
    refine mirrors_pure ?_
    split <;> rfl
  rw [binaryType, binaryType]
  refine mirrors_ite ?_ ?_
  · exact (expectOperand_mirrors op.text hleft l κ.labels.isBool_ty).thenSame fun _ =>
      (expectOperand_mirrors op.text hright r κ.labels.isBool_ty).thenSame fun _ => mirrors_pure rfl
  · refine (expectOperand_mirrors op.text hleft l haccepts).thenSame fun leftFits =>
      (expectOperand_mirrors op.text hright r haccepts).thenSame fun rightFits => mirrors_ite ?_ ?_
    · exact (commonType_mirrors hright l r).then hresult
    · exact hresult .any

include hleft hright in
theorem rangeType_mirrors :
    MirrorsTo κ κ.labels.ty (rangeType ⟨left, l⟩ ⟨right, r⟩)
      (rangeType ⟨left', κ.labels.ty l⟩ ⟨right', κ.labels.ty r⟩) := by
  rw [rangeType, rangeType]
  refine (expectOperand_mirrors ".." hleft l κ.labels.isInteger_ty).thenSame fun firstFits =>
    (expectOperand_mirrors ".." hright r κ.labels.isInteger_ty).thenSame fun lastFits =>
      mirrors_ite ?_ (mirrors_pure rfl)
  dsimp only
  rw [κ.labels.unify_ty]
  cases l.unify r with
  | none => exact report_then hright _ (mirrors_pure rfl)
  | some type => cases type <;> exact mirrors_pure rfl

end Operators

/-- An operator in front of an operand has the relabelled type. -/
theorem unaryType_mirrors (op : UnaryOp) (hspan : κ.spans.node span span') (type : Ty) :
    MirrorsTo κ κ.labels.ty (unaryType op ⟨span, type⟩)
      (unaryType op ⟨span', κ.labels.ty type⟩) := by
  cases op with
  | not =>
    exact (expectOperand_mirrors _ hspan type κ.labels.isBool_ty).thenSame fun _ => mirrors_pure rfl
  | negate =>
    exact (expectOperand_mirrors _ hspan type κ.labels.isSigned_ty).thenSame fun _ =>
      mirrors_ite (mirrors_pure rfl) (mirrors_pure rfl)
  | addressOf => exact mirrors_pure rfl
  | own => exact mirrors_pure rfl
  | deref =>
    cases type with
    | pointer kind pointee => exact mirrors_pure rfl
    | any => exact mirrors_pure rfl
    | _ => exact report_then hspan _ (mirrors_pure rfl)

theorem calleeName_of_resembles {ρ : Correspondence} {callee callee' : Expr}
    (h : callee.Resembles ρ callee') : calleeName callee' = calleeName callee := by
  cases h with
  | ident _ hname => exact hname.name
  | get _ _ hmember => exact hmember.name
  | _ => rfl

/-- A call has the relabelled signature, with its type arguments put in. -/
theorem callSignature_mirrors (h : p.Mirrors κ builder builder' p') {callee callee' : Expr}
    (hcallee : callee.Resembles κ.spans callee') (signature : Signature) (typeArgs : List Ty) :
    MirrorsTo κ κ.labels.signature (callSignature builder callee signature typeArgs)
      (callSignature builder' callee' (κ.labels.signature signature) (κ.labels.tys typeArgs)) := by
  have harity : (κ.labels.signature signature).arity = signature.arity := rfl
  rw [callSignature, callSignature, κ.labels.length_tys, calleeName_of_resembles hcallee, harity,
    ← κ.labels.fitArgs_tys]
  refine mirrors_ite (report_then hcallee.span _ (h.instances.fn signature _)) ?_
  exact mirrors_ite (mirrors_pure rfl) (h.instances.fn signature _)

theorem expectAll_mirrors {parts parts' : List Typed}
    (hparts : List.Forall₂ (Typed.Resembles κ.labels κ.spans) parts parts') (types : List Ty) :
    Mirrors κ Eq (expectAll parts types) (expectAll parts' (κ.labels.tys types)) := by
  induction hparts generalizing types with
  | nil => exact mirrors_pure rfl
  | @cons part part' parts parts' hpart _ ih =>
    cases types with
    | nil => exact mirrors_pure rfl
    | cons expected types =>
      obtain ⟨span', type'⟩ := part'
      obtain ⟨hspan, rfl⟩ := hpart
      rw [Relabelling.tys, expectAll, expectAll]
      exact (expectType_mirrors hspan part.type expected).thenSame fun _ => ih types

/-- A call has the relabelled type. -/
theorem callType_mirrors (h : p.Mirrors κ builder builder' p') (hspan : κ.spans.node span span')
    {callee callee' : Expr} (hcallee : callee.Resembles κ.spans callee') (type : Ty)
    {typeArgs typeArgs' : List TypeExpr}
    (htypeArgs : List.Forall₂ (TypeExpr.Resembles κ.spans) typeArgs typeArgs')
    {args args' : List Typed} (hargs : List.Forall₂ (Typed.Resembles κ.labels κ.spans) args args') :
    MirrorsTo κ κ.labels.ty (callType p builder span callee type typeArgs args)
      (callType p' builder' span' callee' (κ.labels.ty type) typeArgs' args') := by
  have hother (other : Ty) : MirrorsTo κ κ.labels.ty
      (report callee.span (.notCallable other) >>= fun _ => pure .any)
      (report callee'.span (.notCallable (κ.labels.ty other)) >>= fun _ => pure .any) :=
    report_then hcallee.span (.notCallable other) (mirrors_pure rfl)
  cases type with
  | fn arity params result =>
    rw [Relabelling.ty, callType, callType, ← hargs.length_eq]
    refine (Place.resolveAll_mirrors h htypeArgs).then fun types =>
      (callSignature_mirrors h hcallee ⟨arity, params, result⟩ types).then fun signature => ?_
    have hparams : (κ.labels.signature signature).params.length = signature.params.length :=
      κ.labels.length_tys signature.params
    have hrest : MirrorsTo κ κ.labels.ty
        (expectAll args signature.params >>= fun _ => pure signature.result)
        (expectAll args' (κ.labels.signature signature).params >>= fun _ =>
          pure (κ.labels.signature signature).result) :=
      (expectAll_mirrors hargs signature.params).thenSame fun _ => mirrors_pure rfl
    rw [hparams]
    exact mirrors_ite (report_then hspan _ hrest) hrest
  | any => exact mirrors_pure rfl
  | _ => exact hother _

theorem getType_ofValue_mirrors (h : p.Mirrors κ builder builder' p')
    (hspan : κ.spans.node span span') (type : Ty) {member member' : Ident}
    (hmember : member.Resembles κ.spans member')
    (target : Ty) : MirrorsTo κ κ.labels.ty (getType.ofValue p ⟨span, type⟩ member target)
      (getType.ofValue p' ⟨span', κ.labels.ty type⟩ member' (κ.labels.ty target)) := by
  have hfound := h.bundle.member? target member.name
  have hnode := κ.spans.node_of_name hmember.span
  cases target with
  | any => exact mirrors_pure rfl
  | struct id name arity =>
    rw [Relabelling.ty] at hfound ⊢
    rw [getType.ofValue, getType.ofValue, hmember.name, hfound]
    cases p.bundle.member? (.struct id name arity) member.name with
    | some type => exact mirrors_pure rfl
    | none => exact report_then hnode _ (mirrors_pure rfl)
  | inst id name args =>
    rw [Relabelling.ty] at hfound ⊢
    rw [getType.ofValue, getType.ofValue, hmember.name, hfound]
    cases p.bundle.member? (.inst id name args) member.name with
    | some type => exact mirrors_pure rfl
    | none => exact report_then hnode _ (mirrors_pure rfl)
  | _ => exact report_then hspan _ (mirrors_pure rfl)

/-- A member has the relabelled type. -/
theorem getType_mirrors (h : p.Mirrors κ builder builder' p') (hspan : κ.spans.node span span')
    (type : Ty) {member member' : Ident} (hmember : member.Resembles κ.spans member') :
    MirrorsTo κ κ.labels.ty (getType p ⟨span, type⟩ member)
      (getType p' ⟨span', κ.labels.ty type⟩ member') := by
  have hvalue := getType_ofValue_mirrors h hspan type hmember type
  cases type with
  | unit target =>
    have hfound : ((p'.bundle.get? (κ.labels.unit target)).bind fun u =>
        u.functions.get? member.name) =
          ((p.bundle.get? target).bind fun u => u.functions.get? member.name).map κ.labels.ty := by
      have hunit := h.bundle.units target
      revert hunit
      generalize p.bundle.get? target = owner
      generalize p'.bundle.get? (κ.labels.unit target) = owner'
      rintro (h | _)
      · exact h.functions member.name
      · rfl
    change MirrorsTo κ κ.labels.ty _ (getType p' ⟨span', .unit (κ.labels.unit target)⟩ _)
    rw [getType, getType, hmember.name]
    dsimp only
    rw [hfound]
    cases (p.bundle.get? target).bind fun u => u.functions.get? member.name with
    | some type => exact mirrors_pure rfl
    | none => exact report_then (κ.spans.node_of_name hmember.span) _ (mirrors_pure rfl)
  | pointer kind pointee =>
    exact getType_ofValue_mirrors h hspan (.pointer kind pointee) hmember pointee
  | _ => exact hvalue

/-- The same fields with new labels, at places that answer to each other. -/
def FieldResembles (τ : Relabelling) (ρ : Correspondence) (f f' : Ident × Typed) : Prop :=
  f.1.Resembles ρ f'.1 ∧ f.2.Resembles τ ρ f'.2

theorem expectFields_mirrors {fields fields' : List (Ident × Typed)}
    (hfields : List.Forall₂ (FieldResembles κ.labels κ.spans) fields fields')
    (members : List (String × Ty)) :
    Mirrors κ Eq (expectFields fields members)
      (expectFields fields' (Place.relabelMembers κ.labels members)) := by
  induction hfields generalizing members with
  | nil => exact mirrors_pure rfl
  | @cons field field' fields fields' hfield _ ih =>
    cases members with
    | nil => exact mirrors_pure rfl
    | cons member members =>
      obtain ⟨name, value⟩ := field
      obtain ⟨name', span', type'⟩ := field'
      obtain ⟨expected, type⟩ := member
      obtain ⟨hname, hspan, rfl⟩ := hfield
      dsimp only at hname
      rw [Place.relabelMembers, List.map_cons, expectFields, expectFields, hname.name]
      refine mirrors_ite ?_ ?_
      · exact report_then (κ.spans.node_of_name hname.span) _ (ih members)
      · exact (expectType_mirrors hspan value.type type).thenSame fun _ => ih members

/-- A new value has the relabelled type. Reports show its text, so labels must not change it. -/
theorem newType_mirrors (h : p.Mirrors κ builder builder' p') (hspan : κ.spans.node span span')
    {typeSpan typeSpan' : Span} (htypeSpan : κ.spans.node typeSpan typeSpan') {type : Ty}
    (htext : (κ.labels.ty type).text = type.text) {fields fields' : List (Ident × Typed)}
    (hfields : List.Forall₂ (FieldResembles κ.labels κ.spans) fields fields') :
    MirrorsTo κ κ.labels.ty (newType p span typeSpan type fields)
      (newType p' span' typeSpan' (κ.labels.ty type) fields') := by
  rw [newType, newType, κ.labels.isAny_ty, h.bundle.members? type, htext, ← hfields.length_eq]
  refine mirrors_ite (mirrors_pure rfl) ?_
  cases p.bundle.members? type with
  | none => exact report_then htypeSpan _ (mirrors_pure rfl)
  | some members =>
    have hcount : (Place.relabelMembers κ.labels members).length = members.length :=
      List.length_map _
    have hrest : MirrorsTo κ κ.labels.ty
        (expectFields fields members >>= fun _ => pure (.pointer .owned type))
        (expectFields fields' (Place.relabelMembers κ.labels members) >>= fun _ =>
          pure (.pointer .owned (κ.labels.ty type))) :=
      (expectFields_mirrors hfields members).thenSame fun _ => mirrors_pure rfl
    dsimp only [Option.map_some]
    rw [hcount]
    exact mirrors_ite (report_then hspan _ hrest) hrest

/-- An array has the relabelled type. -/
theorem staticArrayType_mirrors (hspan : κ.spans.node span span') (type : Ty)
    {elements elements' : List Typed}
    (helements : List.Forall₂ (Typed.Resembles κ.labels κ.spans) elements elements') :
    MirrorsTo κ κ.labels.ty (staticArrayType span type elements)
      (staticArrayType span' (κ.labels.ty type) elements') := by
  cases type with
  | array length element =>
    have htypes : (elements'.map fun _ => κ.labels.ty element) =
        κ.labels.tys (elements.map fun _ => element) := by
      rw [κ.labels.tys_eq_map, List.map_map, List.map_const', Function.comp_def, List.map_const',
        helements.length_eq]
    have hrest : MirrorsTo κ κ.labels.ty
        (expectAll elements (elements.map fun _ => element) >>=
          fun _ => pure (.array length element))
        (expectAll elements' (κ.labels.tys (elements.map fun _ => element)) >>= fun _ =>
          pure (.array length (κ.labels.ty element))) :=
      (expectAll_mirrors helements _).thenSame fun _ => mirrors_pure rfl
    rw [Relabelling.ty, staticArrayType, staticArrayType, ← helements.length_eq, htypes]
    exact mirrors_ite (report_then hspan _ hrest) hrest
  | _ => exact mirrors_pure rfl

theorem subscriptType_ofElement_mirrors (hspan : κ.spans.node span span') (type element : Ty) :
    MirrorsTo κ κ.labels.ty (subscriptType.ofElement ⟨span, type⟩ element)
      (subscriptType.ofElement ⟨span', κ.labels.ty type⟩ (κ.labels.ty element)) := by
  cases type with
  | range format => exact mirrors_pure rfl
  | any => exact mirrors_pure rfl
  | number format =>
    exact mirrors_ite (mirrors_pure rfl) (report_then hspan _ (mirrors_pure rfl))
  | _ => exact report_then hspan _ (mirrors_pure rfl)

/-- An element has the relabelled type. -/
theorem subscriptType_mirrors {object object' : Span} (hobject : κ.spans.node object object')
    (hspan : κ.spans.node span span') (type indexType : Ty) :
    MirrorsTo κ κ.labels.ty (subscriptType ⟨object, type⟩ ⟨span, indexType⟩)
      (subscriptType ⟨object', κ.labels.ty type⟩ ⟨span', κ.labels.ty indexType⟩) := by
  cases type with
  | array length element | slice element =>
    exact subscriptType_ofElement_mirrors hspan indexType element
  | any => exact mirrors_pure rfl
  | _ => exact report_then hobject _ (mirrors_pure rfl)

/-- What a loop goes through has the relabelled type. -/
theorem elementType_mirrors (hspan : κ.spans.node span span') (type : Ty) :
    MirrorsTo κ κ.labels.ty (elementType ⟨span, type⟩) (elementType ⟨span', κ.labels.ty type⟩) := by
  cases type with
  | array length element | slice element | range format | any => exact mirrors_pure rfl
  | _ => exact report_then hspan _ (mirrors_pure rfl)

theorem isAssignable_of_resembles {ρ : Correspondence} {e e' : Expr} (h : e.Resembles ρ e') :
    isAssignable e' = isAssignable e := by
  cases h with
  | unary _ op _ => cases op <;> rfl
  | _ => rfl

/-! ## Expressions -/

theorem settle_mirrors {mark mark' : Mark} (hmark : mark.Resembles κ.spans mark') (type : Ty) :
    MirrorsTo κ κ.labels.ty (settle mark type) (settle mark' (κ.labels.ty type)) :=
  (mirrors_record hmark type).thenSame fun _ => mirrors_pure rfl

mutual
/-- Resembling expressions are checked alike and have the relabelled type. -/
theorem checkExpr_mirrors (h : p.Mirrors κ builder builder' p')
    (hlegible : p.Legible κ.labels builder) (locals : ScopeStack) :
    ∀ {e e' : Expr}, e.Resembles κ.spans e' → MirrorsTo κ κ.labels.ty (checkExpr p builder locals e)
      (checkExpr p' builder' (κ.labels.scopes locals) e')
  | .binary mark op left right, _, he => by
    cases he with
    | binary hmark _ hleft hright =>
      rw [checkExpr, checkExpr]
      exact (checkExpr_mirrors h hlegible locals hleft).then fun l =>
        (checkExpr_mirrors h hlegible locals hright).then fun r =>
          (binaryType_mirrors hleft.span hright.span l r op).then fun t => settle_mirrors hmark t
  | .unary mark op operand, _, he => by
    cases he with
    | unary hmark _ hoperand =>
      rw [checkExpr, checkExpr]
      exact (checkExpr_mirrors h hlegible locals hoperand).then fun t =>
        (unaryType_mirrors op hoperand.span t).then fun t => settle_mirrors hmark t
  | .number mark literal, _, he => by
    cases he with
    | number hmark _ =>
      have hsettle := settle_mirrors hmark (numberType literal)
      rw [κ.labels.ty_numberType] at hsettle
      exact hsettle
  | .string mark text, _, he => by
    cases he with
    | string hmark _ => exact settle_mirrors hmark .string
  | .bool mark value, _, he => by
    cases he with
    | bool hmark _ => exact settle_mirrors hmark .bool
  | .ident mark name, _, he => by
    cases he with
    | ident hmark hname =>
      rw [checkExpr, checkExpr]
      exact (identType_mirrors h locals hname).then fun t => settle_mirrors hmark t
  | .call mark callee typeArgs args, _, he => by
    cases he with
    | call hmark hcallee htypeArgs hargs =>
      rw [checkExpr, checkExpr]
      exact (checkExpr_mirrors h hlegible locals hcallee).then fun f =>
        (checkExprs_mirrors h hlegible locals hargs).bind fun _ _ hparts =>
          (callType_mirrors h hmark.span hcallee f htypeArgs hparts).then fun t =>
            settle_mirrors hmark t
  | .get mark object member, _, he => by
    cases he with
    | get hmark hobject hmember =>
      rw [checkExpr, checkExpr]
      exact (checkExpr_mirrors h hlegible locals hobject).then fun t =>
        (getType_mirrors h hobject.span t hmember).then fun t => settle_mirrors hmark t
  | .new mark type fields, _, he => by
    cases he with
    | new hmark htype hfields =>
      rw [checkExpr, checkExpr]
      -- A complaint about fields spells the type, so its text has to be the same in both bundles.
      refine ((Place.resolve_mirrors h htype).and (P := fun t => (κ.labels.ty t).text = t.text)
        (hlegible type)).bind ?_
      rintro t _ ⟨rfl, htext⟩
      exact (checkFields_mirrors h hlegible locals hfields).bind fun _ _ hparts =>
        (newType_mirrors h hmark.span htype.span htext hparts).then fun t => settle_mirrors hmark t
  | .group mark inner, _, he => by
    cases he with
    | group hmark hinner =>
      rw [checkExpr, checkExpr]
      exact (checkExpr_mirrors h hlegible locals hinner).then fun t => settle_mirrors hmark t
  | .null mark, _, he => by
    cases he with
    | null hmark => exact settle_mirrors hmark .nullPointer
  | .zero mark, _, he => by
    cases he with
    | zero hmark => exact settle_mirrors hmark .any
  | .staticArray mark type elements, _, he => by
    cases he with
    | staticArray hmark htype helements =>
      rw [checkExpr, checkExpr]
      exact (Place.resolve_mirrors h htype).then fun t =>
        (checkExprs_mirrors h hlegible locals helements).bind fun _ _ hparts =>
          (staticArrayType_mirrors hmark.span t hparts).then fun t => settle_mirrors hmark t
  | .subscript mark object index, _, he => by
    cases he with
    | subscript hmark hobject hindex =>
      rw [checkExpr, checkExpr]
      exact (checkExpr_mirrors h hlegible locals hobject).then fun o =>
        (checkExpr_mirrors h hlegible locals hindex).then fun i =>
          (subscriptType_mirrors hobject.span hindex.span o i).then fun t => settle_mirrors hmark t
  | .range mark first last, _, he => by
    cases he with
    | range hmark hfirst hlast =>
      rw [checkExpr, checkExpr]
      exact (checkExpr_mirrors h hlegible locals hfirst).then fun f =>
        (checkExpr_mirrors h hlegible locals hlast).then fun l =>
          (rangeType_mirrors hfirst.span hlast.span f l).then fun t => settle_mirrors hmark t

theorem checkExprs_mirrors (h : p.Mirrors κ builder builder' p')
    (hlegible : p.Legible κ.labels builder) (locals : ScopeStack) :
    ∀ {es es' : List Expr}, List.Forall₂ (Expr.Resembles κ.spans) es es' →
      Mirrors κ (List.Forall₂ (Typed.Resembles κ.labels κ.spans)) (checkExprs p builder locals es)
        (checkExprs p' builder' (κ.labels.scopes locals) es')
  | [], _, hes => by
    cases hes
    exact mirrors_pure .nil
  | e :: es, _, hes => by
    cases hes with
    | cons he hes =>
      rw [checkExprs, checkExprs]
      exact (checkExpr_mirrors h hlegible locals he).then fun _ =>
        (checkExprs_mirrors h hlegible locals hes).bind fun _ _ hparts =>
          mirrors_pure (.cons ⟨he.span, rfl⟩ hparts)

theorem checkFields_mirrors (h : p.Mirrors κ builder builder' p')
    (hlegible : p.Legible κ.labels builder) (locals : ScopeStack) :
    ∀ {fields fields' : List (Ident × Expr)}, Expr.ResembleFields κ.spans fields fields' →
      Mirrors κ (List.Forall₂ (FieldResembles κ.labels κ.spans))
        (checkFields p builder locals fields)
        (checkFields p' builder' (κ.labels.scopes locals) fields')
  | [], _, hfields => by
    cases hfields
    exact mirrors_pure .nil
  | (name, e) :: fields, _, hfields => by
    cases hfields with
    | cons hname he hfields =>
      rw [checkFields, checkFields]
      exact (checkExpr_mirrors h hlegible locals he).then fun _ =>
        (checkFields_mirrors h hlegible locals hfields).bind fun _ _ hparts =>
          mirrors_pure (.cons ⟨hname, he.span, rfl⟩ hparts)
end

end Typing

/-! ## Statements -/

/-- The same fault, at a place that answers to the first one. -/
inductive StructuralFault.Resembles (ρ : Correspondence) : StructuralFault → StructuralFault → Prop
  | declarationInBody (what : String) {span span' : Span} (h : ρ.node span span') :
      StructuralFault.Resembles ρ (.declarationInBody what span) (.declarationInBody what span')
  | statementAtTopLevel {span span' : Span} (h : ρ.node span span') :
      StructuralFault.Resembles ρ (.statementAtTopLevel span) (.statementAtTopLevel span')
  | missingDeclaration (name : String) {span span' : Span} (h : ρ.node span span') :
      StructuralFault.Resembles ρ (.missingDeclaration name span) (.missingDeclaration name span')

namespace Walking

variable {σ σ' α β γ δ : Type} {κ : Coupling σ σ'}

/-- Two checks that stop alike, or both get through and do the same. -/
def Mirrors (κ : Coupling σ σ') (R : α → β → Prop) (x : Walking σ α) (y : Walking σ' β) : Prop :=
  Checking.Mirrors κ (ExceptRel (StructuralFault.Resembles κ.spans) R) x.run y.run

namespace Mirrors

variable {R : α → β → Prop} {S : γ → δ → Prop} {x : Walking σ α} {y : Walking σ' β}
  {f : α → Walking σ γ} {f' : β → Walking σ' δ}

theorem pure {a : α} {b : β} (h : R a b) : Mirrors κ R (Pure.pure a) (Pure.pure b) :=
  Checking.mirrors_pure (.ok h)

theorem throw {fault fault' : StructuralFault} (h : fault.Resembles κ.spans fault') :
    Mirrors κ R (throw fault) (throw fault') :=
  Checking.mirrors_pure (.error h)

theorem lift {x : Checking σ α} {y : Checking σ' β} (h : Checking.Mirrors κ R x y) :
    Mirrors κ R (.lift x) (.lift y) := by
  intro s s' hs
  obtain ⟨hvalue, hinstances, hlog⟩ := h s s' hs
  rw [lift_run, lift_run]
  exact ⟨.ok hvalue, hinstances, hlog⟩

/-- Steps that follow each other are mirrored one by one. -/
theorem bind (hx : Mirrors κ R x y) (hf : ∀ a b, R a b → Mirrors κ S (f a) (f' b)) :
    Mirrors κ S (x >>= f) (y >>= f') := by
  have hcont : ∀ r r', ExceptRel (StructuralFault.Resembles κ.spans) R r r' →
      Checking.Mirrors κ (ExceptRel (StructuralFault.Resembles κ.spans) S) (ExceptT.bindCont f r)
        (ExceptT.bindCont f' r') := by
    rintro _ _ (h | h)
    · exact hf _ _ h
    · exact Checking.mirrors_pure (.error h)
  exact Checking.Mirrors.bind hx hcont

/-- For checks of which `g` tells what becomes of the value of the first. -/
theorem «then» {g : α → β} (hx : Mirrors κ (fun a b => b = g a) x y)
    (hf : ∀ a, Mirrors κ S (f a) (f' (g a))) : Mirrors κ S (x >>= f) (y >>= f') := by
  refine hx.bind ?_
  rintro a b rfl
  exact hf a

end Mirrors

end Walking

namespace Typing

open Checking

variable {σ σ' : Type} {κ : Coupling σ σ'} {builder : InstanceBuilder σ}
  {builder' : InstanceBuilder σ'} {p p' : Place}

/-- A local is declared in both checks or clashes in both. -/
theorem declareName_mirrors (locals : ScopeStack) {name name' : Ident}
    (hname : name.Resembles κ.spans name') (type : Ty) :
    MirrorsTo κ κ.labels.scopes (declareName locals name type)
      (declareName (κ.labels.scopes locals) name' (κ.labels.ty type)) := by
  rw [declareName, declareName, hname.name, κ.labels.declare_scopes]
  cases locals.declare name.name type with
  | ok locals' => exact mirrors_pure rfl
  | error existing => exact report_then (κ.spans.node_of_name hname.span) _ (mirrors_pure rfl)

/-- Two bodies at mirrored places with the same result. -/
structure Body.Mirrors (κ : Coupling σ σ') (body : Body σ) (body' : Body σ') : Prop where
  place : body.place.Mirrors κ body.builder body'.builder body'.place
  legible : body.place.Legible κ.labels body.builder
  returnType : body'.returnType = κ.labels.ty body.returnType
  loopDepth : body'.loopDepth = body.loopDepth

section Body

variable {body : Body σ} {body' : Body σ'} (h : body.Mirrors κ body') (locals : ScopeStack)

include h in
theorem Body.Mirrors.inLoop : body.inLoop.Mirrors κ body'.inLoop :=
  ⟨h.place, h.legible, h.returnType, congrArg (· + 1) h.loopDepth⟩

include h in
/-- A `let` has the relabelled type. -/
theorem letType_mirrors {name name' : Ident} (hname : name.Resembles κ.spans name')
    {type type' : Option TypeExpr} (htype : Option.Rel (TypeExpr.Resembles κ.spans) type type')
    {span span' : Span} (hspan : κ.spans.node span span') (init : Ty) :
    MirrorsTo κ κ.labels.ty (letType body name type ⟨span, init⟩)
      (letType body' name' type' ⟨span', κ.labels.ty init⟩) := by
  cases htype with
  | some htype =>
    exact (Place.resolve_mirrors h.place htype).then fun declared =>
      (expectType_mirrors hspan init declared).thenSame fun _ => mirrors_pure rfl
  | none =>
    cases init with
    | void =>
      rw [letType, letType, hname.name]
      exact report_then hspan _ (mirrors_pure rfl)
    | _ => exact mirrors_pure rfl

include h in
/-- A `let` leaves the relabelled locals. -/
theorem checkLet_mirrors {mark mark' : Mark} (hmark : mark.Resembles κ.spans mark')
    {name name' : Ident} (hname : name.Resembles κ.spans name') {type type' : Option TypeExpr}
    (htype : Option.Rel (TypeExpr.Resembles κ.spans) type type') {init init' : Expr}
    (hinit : init.Resembles κ.spans init') :
    MirrorsTo κ κ.labels.scopes (checkLet body locals mark name type init)
      (checkLet body' (κ.labels.scopes locals) mark' name' type' init') := by
  rw [checkLet, checkLet]
  exact (checkExpr_mirrors h.place h.legible locals hinit).then fun t =>
    (letType_mirrors h hname htype hinit.span t).then fun bound =>
      (declareName_mirrors locals hname bound).then fun locals' =>
        (mirrors_record hmark bound).thenSame fun _ => mirrors_pure rfl

include h in
theorem checkAssign_mirrors {mark mark' : Mark} (hmark : mark.Resembles κ.spans mark')
    {target target' value value' : Expr} (htarget : target.Resembles κ.spans target')
    (hvalue : value.Resembles κ.spans value') :
    Mirrors κ Eq (checkAssign body locals mark target value)
      (checkAssign body' (κ.labels.scopes locals) mark' target' value') := by
  rw [checkAssign, checkAssign, isAssignable_of_resembles htarget]
  refine mirrors_ite ?_ (report_then htarget.span .invalidAssignTarget ?_)
  all_goals
    exact (checkExpr_mirrors h.place h.legible locals htarget).then fun t =>
      (checkExpr_mirrors h.place h.legible locals hvalue).then fun v =>
        (expectType_mirrors hvalue.span v t).thenSame fun _ => mirrors_record hmark .void

include h in
theorem checkReturn_mirrors {mark mark' : Mark} (hmark : mark.Resembles κ.spans mark')
    {value value' : Option Expr} (hvalue : Option.Rel (Expr.Resembles κ.spans) value value') :
    Mirrors κ Eq (checkReturn body locals mark value)
      (checkReturn body' (κ.labels.scopes locals) mark' value') := by
  cases hvalue with
  | none =>
    rw [checkReturn, checkReturn, h.returnType]
    exact (expectType_mirrors hmark.span .void body.returnType).thenSame fun _ =>
      mirrors_record hmark .void
  | some hvalue =>
    rw [checkReturn, checkReturn, h.returnType]
    exact (checkExpr_mirrors h.place h.legible locals hvalue).then fun t =>
      (expectType_mirrors hvalue.span t body.returnType).thenSame fun _ =>
        mirrors_record hmark .void

include h in
theorem checkJump_mirrors {mark mark' : Mark} (hmark : mark.Resembles κ.spans mark')
    (word : String) : Mirrors κ Eq (checkJump body mark word) (checkJump body' mark' word) := by
  rw [checkJump, checkJump, h.loopDepth]
  exact mirrors_ite (report_then hmark.span (.outsideLoop word) (mirrors_record hmark .void))
    (mirrors_record hmark .void)

include h in
theorem checkCondition_mirrors {condition condition' : Expr}
    (hcondition : condition.Resembles κ.spans condition') :
    Mirrors κ Eq (checkCondition body locals condition)
      (checkCondition body' (κ.labels.scopes locals) condition') := by
  rw [checkCondition, checkCondition]
  exact (checkExpr_mirrors h.place h.legible locals hcondition).then fun t =>
    expectType_mirrors hcondition.span t .bool

include h in
/-- The head of a loop leaves the relabelled locals. -/
theorem checkEachHead_mirrors {name name' : Ident} (hname : name.Resembles κ.spans name')
    {iterable iterable' : Expr} (hiterable : iterable.Resembles κ.spans iterable') :
    MirrorsTo κ κ.labels.scopes (checkEachHead body locals name iterable)
      (checkEachHead body' (κ.labels.scopes locals) name' iterable') := by
  rw [checkEachHead, checkEachHead]
  exact (checkExpr_mirrors h.place h.legible locals hiterable).then fun t =>
    (elementType_mirrors hiterable.span t).then fun element =>
      declareName_mirrors locals hname element

include h in
theorem checkExprStmt_mirrors {mark mark' : Mark} (hmark : mark.Resembles κ.spans mark')
    {value value' : Expr} (hvalue : value.Resembles κ.spans value') :
    Mirrors κ Eq (checkExprStmt body locals mark value)
      (checkExprStmt body' (κ.labels.scopes locals) mark' value') :=
  (checkExpr_mirrors h.place h.legible locals hvalue).then fun t => mirrors_record hmark t

theorem done_mirrors {mark mark' : Mark} (hmark : mark.Resembles κ.spans mark') :
    Walking.Mirrors κ (fun a b => b = κ.labels.scopes a) (done mark locals)
      (done mark' (κ.labels.scopes locals)) :=
  .lift ((mirrors_record hmark .void).thenSame fun _ => mirrors_pure rfl)

end Body

mutual
/-- Resembling statements are checked alike and leave the relabelled locals. -/
theorem checkStmt_mirrors {body : Body σ} {body' : Body σ'} (h : body.Mirrors κ body')
    (locals : ScopeStack) : ∀ {s s' : Stmt}, s.Resembles κ.spans s' →
      Walking.Mirrors κ (fun a b => b = κ.labels.scopes a) (checkStmt body locals s)
        (checkStmt body' (κ.labels.scopes locals) s')
  | .importDecl mark d, _, hs => by
    cases hs with
    | importDecl hmark _ => exact .throw (.declarationInBody "import" hmark.span)
  | .structDecl mark d, _, hs => by
    cases hs with
    | structDecl hmark _ => exact .throw (.declarationInBody "struct" hmark.span)
  | .fnDecl mark head block, _, hs => by
    cases hs with
    | fnDecl hmark _ _ => exact .throw (.declarationInBody "fn" hmark.span)
  | .letDecl mark name type init, _, hs => by
    cases hs with
    | letDecl hmark hname htype hinit =>
      rw [checkStmt, checkStmt]
      exact .lift (checkLet_mirrors h locals hmark hname htype hinit)
  | .scope mark block, _, hs => by
    cases hs with
    | scope hmark hblock =>
      rw [checkStmt, checkStmt]
      exact (checkBlock_mirrors h locals hblock).then fun locals' => done_mirrors locals' hmark
  | .assign mark target value, _, hs => by
    cases hs with
    | assign hmark htarget hvalue =>
      rw [checkStmt, checkStmt]
      exact (Walking.Mirrors.lift (checkAssign_mirrors h locals hmark htarget hvalue)).bind
        fun _ _ _ => .pure rfl
  | .returnStmt mark value, _, hs => by
    cases hs with
    | returnStmt hmark hvalue =>
      rw [checkStmt, checkStmt]
      exact (Walking.Mirrors.lift (checkReturn_mirrors h locals hmark hvalue)).bind
        fun _ _ _ => .pure rfl
  | .breakStmt mark, _, hs => by
    cases hs with
    | breakStmt hmark =>
      rw [checkStmt, checkStmt]
      exact (Walking.Mirrors.lift (checkJump_mirrors h hmark "break")).bind fun _ _ _ => .pure rfl
  | .continueStmt mark, _, hs => by
    cases hs with
    | continueStmt hmark =>
      rw [checkStmt, checkStmt]
      exact (Walking.Mirrors.lift (checkJump_mirrors h hmark "continue")).bind fun _ _ _ =>
        .pure rfl
  | .forEach mark name iterable block, _, hs => by
    cases hs with
    | forEach hmark hname hiterable hblock =>
      rw [checkStmt, checkStmt]
      refine (Walking.Mirrors.lift
        (checkEachHead_mirrors h locals.push hname hiterable)).then fun inner => ?_
      refine (checkBlock_mirrors h.inLoop inner hblock).then fun inner' => ?_
      rw [κ.labels.pop_scopes]
      exact done_mirrors inner'.pop hmark
  | .forCounted mark init condition update block, _, hs => by
    cases hs with
    | forCounted hmark hinit hcondition hupdate hblock =>
      rw [checkStmt, checkStmt]
      refine (checkStmt_mirrors h locals.push hinit).then fun inner => ?_
      refine (Walking.Mirrors.lift (checkCondition_mirrors h inner hcondition)).bind fun _ _ _ => ?_
      refine (checkBlock_mirrors h.inLoop inner hblock).then fun inner' => ?_
      refine (checkStmt_mirrors h inner' hupdate).then fun inner'' => ?_
      rw [κ.labels.pop_scopes]
      exact done_mirrors inner''.pop hmark
  | .ifElse mark condition thenBlock elseBranch, _, hs => by
    cases hs with
    | ifElse hmark hcondition hthen helse =>
      rw [checkStmt, checkStmt]
      refine (Walking.Mirrors.lift (checkCondition_mirrors h locals hcondition)).bind
        fun _ _ _ => ?_
      exact (checkBlock_mirrors h locals hthen).then fun locals' =>
        (checkElse_mirrors h locals' helse).then fun locals'' => done_mirrors locals'' hmark
  | .expr mark value, _, hs => by
    cases hs with
    | expr hmark hvalue =>
      rw [checkStmt, checkStmt]
      exact (Walking.Mirrors.lift (checkExprStmt_mirrors h locals hmark hvalue)).bind
        fun _ _ _ => .pure rfl

theorem checkElse_mirrors {body : Body σ} {body' : Body σ'} (h : body.Mirrors κ body')
    (locals : ScopeStack) : ∀ {s s' : Option Stmt}, Option.Rel (Stmt.Resembles κ.spans) s s' →
      Walking.Mirrors κ (fun a b => b = κ.labels.scopes a) (checkElse body locals s)
        (checkElse body' (κ.labels.scopes locals) s')
  | none, _, hs => by
    cases hs
    exact .pure rfl
  | some s, _, hs => by
    cases hs with
    | some hs => exact checkStmt_mirrors h locals hs

theorem checkBlock_mirrors {body : Body σ} {body' : Body σ'} (h : body.Mirrors κ body')
    (locals : ScopeStack) : ∀ {block block' : Block}, block.Resembles κ.spans block' →
      Walking.Mirrors κ (fun a b => b = κ.labels.scopes a) (checkBlock body locals block)
        (checkBlock body' (κ.labels.scopes locals) block')
  | .mk _ stmts, _, hblock => by
    cases hblock with
    | mk _ hstmts =>
      rw [checkBlock, checkBlock]
      exact (checkStmts_mirrors h locals.push hstmts).then fun inner =>
        .pure (κ.labels.pop_scopes inner)

theorem checkStmts_mirrors {body : Body σ} {body' : Body σ'} (h : body.Mirrors κ body')
    (locals : ScopeStack) : ∀ {ss ss' : List Stmt}, List.Forall₂ (Stmt.Resembles κ.spans) ss ss' →
      Walking.Mirrors κ (fun a b => b = κ.labels.scopes a) (checkStmts body locals ss)
        (checkStmts body' (κ.labels.scopes locals) ss')
  | [], _, hss => by
    cases hss
    exact .pure rfl
  | s :: ss, _, hss => by
    cases hss with
    | cons hs hss =>
      rw [checkStmts, checkStmts]
      exact (checkStmt_mirrors h locals hs).then fun locals' => checkStmts_mirrors h locals' hss
end

/-! ## Items -/

/-- Parameters are declared with the relabelled types. -/
theorem declareParams_mirrors (locals : ScopeStack) {ps ps' : List TypedName}
    (hps : List.Forall₂ (TypedName.Resembles κ.spans) ps ps') (ts : List Ty) :
    MirrorsTo κ κ.labels.scopes (declareParams locals ps ts)
      (declareParams (κ.labels.scopes locals) ps' (κ.labels.tys ts)) := by
  induction hps generalizing locals ts with
  | nil => exact mirrors_pure rfl
  | cons hparam _ ih =>
    cases ts with
    | nil => exact mirrors_pure rfl
    | cons type ts =>
      exact (declareName_mirrors locals hparam.name type).then fun locals' => ih locals' ts

section Items

variable {b b' : Bundle} {u u' : SourceUnit}

/-- Every declaration of two units stands at mirrored places, where types are legible. -/
def PlacesMirror (κ : Coupling σ σ') (builder : InstanceBuilder σ) (builder' : InstanceBuilder σ')
    (b b' : Bundle) (u u' : SourceUnit) : Prop :=
  ∀ generics generics', List.Forall₂ (Ident.Resembles κ.spans) generics generics' →
    (b.placeOf u generics).Mirrors κ builder builder' (b'.placeOf u' generics') ∧
      (b.placeOf u generics).Legible κ.labels builder

/-- Units of bundles with the same names see the same from each function. -/
theorem placesMirror_of_names (hb : b.NamesMirror κ.labels b') (hu : u.Mirrors κ.labels u')
    (hbuilder : builder.Mirrors κ b b' builder')
    (hlegible : ∀ generics, (b.placeOf u generics).Legible κ.labels builder) :
    PlacesMirror κ builder builder' b b' u u' :=
  fun _ _ hgenerics => ⟨⟨hb, hu, Ident.names_of_resembles hgenerics, hbuilder⟩, hlegible _⟩

/-- Resembling functions are checked alike. -/
theorem checkFn_mirrors (hplace : PlacesMirror κ builder builder' b b' u u')
    (hu : u.Mirrors κ.labels u') {mark mark' : Mark} (hmark : mark.Resembles κ.spans mark')
    {head head' : FnHead} (hhead : head.Resembles κ.spans head') {block block' : Block}
    (hblock : block.Resembles κ.spans block') :
    Walking.Mirrors κ Eq (checkFn b u builder mark head block)
      (checkFn b' u' builder' mark' head' block') := by
  have hmissing := StructuralFault.Resembles.missingDeclaration (ρ := κ.spans) head.name.name
    (κ.spans.node_of_name hhead.name.span)
  rw [checkFn, checkFn, hhead.name.name, hu.functions]
  cases u.functions.get? head.name.name with
  | none => exact .throw hmissing
  | some type =>
    cases type with
    | fn arity params result =>
      cases hblock with
      | mk _ hstmts =>
        have hbody : Body.Mirrors κ ⟨b.placeOf u head.generics, builder, result, 0⟩
            ⟨b'.placeOf u' head'.generics, builder', κ.labels.ty result, 0⟩ :=
          ⟨(hplace _ _ hhead.generics).1, (hplace _ _ hhead.generics).2, rfl, rfl⟩
        refine (Walking.Mirrors.lift (declareParams_mirrors .empty hhead.params params)).then
          fun locals => ?_
        refine (checkStmts_mirrors hbody locals hstmts).then fun _ => ?_
        exact .lift (mirrors_record hmark (.fn arity params result))
    | _ => exact .throw hmissing

/-- Resembling items of mirrored units are checked with the same outcome. -/
theorem checkItem_mirrors (hplace : PlacesMirror κ builder builder' b b' u u')
    (hu : u.Mirrors κ.labels u') {s s' : Stmt} (hs : s.Resembles κ.spans s') :
    Walking.Mirrors κ Eq (checkItem b u builder s) (checkItem b' u' builder' s') := by
  have hget (found : Option Ty) : (found.map κ.labels.ty).getD .any =
      κ.labels.ty (found.getD .any) := by
    cases found <;> rfl
  have hspan := hs.span
  cases hs with
  | importDecl hmark hdecl =>
    rw [checkItem, checkItem, hdecl.localName.name, hu.namespaces, hget]
    exact .lift (mirrors_record hmark _)
  | structDecl hmark hdecl =>
    rw [checkItem, checkItem, hdecl.name.name, hu.types, hget]
    exact .lift (mirrors_record hmark _)
  | fnDecl hmark hhead hblock => exact checkFn_mirrors hplace hu hmark hhead hblock
  | _ => exact .throw (.statementAtTopLevel hspan)

/-- Resembling lists of declarations are checked alike. -/
theorem checkItems_mirrors (hplace : PlacesMirror κ builder builder' b b' u u')
    (hu : u.Mirrors κ.labels u') {items items' : List Stmt}
    (hitems : List.Forall₂ (Stmt.Resembles κ.spans) items items') :
    Walking.Mirrors κ Eq (checkItems b u builder items) (checkItems b' u' builder' items') := by
  induction hitems with
  | nil => exact .pure rfl
  | cons hs _ ih =>
    rw [checkItems, checkItems]
    exact (checkItem_mirrors hplace hu hs).bind fun _ _ _ => ih

end Items

end Typing

/-! ## The same check -/

theorem StructuralFault.Resembles.eq {f f' : StructuralFault}
    (h : f.Resembles (.refile fun i => i) f') : f' = f := by
  cases h with
  | declarationInBody what hspan => exact congrArg (StructuralFault.declarationInBody what) hspan
  | statementAtTopLevel hspan => exact congrArg StructuralFault.statementAtTopLevel hspan
  | missingDeclaration name hspan => exact congrArg (StructuralFault.missingDeclaration name) hspan

/-- With labels and spans as they are, checks that mirror each other are the same. -/
theorem Walking.Mirrors.eq {σ α : Type} {x y : Walking σ α} (h : Walking.Mirrors (.same σ) Eq x y) :
    y = x := by
  refine funext fun s => ?_
  obtain ⟨hvalue, hinstances, hlog⟩ := h s s rfl
  have hvalue' : (y.run s).value = (x.run s).value := by
    generalize (x.run s).value = value, (y.run s).value = value' at hvalue
    cases hvalue with
    | ok h => rw [h]
    | error h => rw [StructuralFault.Resembles.eq h]
  have hlog' : (y.run s).log = (x.run s).log :=
    (Log.Resembles.eq_log (τ := .same) hlog).trans (Relabelling.log_same _)
  change y.run s = x.run s
  generalize x.run s = r, y.run s = r' at hvalue' hinstances hlog'
  obtain ⟨value, instances, log⟩ := r
  obtain ⟨value', instances', log'⟩ := r'
  obtain rfl : value' = value := hvalue'
  obtain rfl : instances = instances' := hinstances
  obtain rfl : log' = log := hlog'
  rfl

end Custody
