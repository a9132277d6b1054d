import Custody.Proofs.Records
import Custody.Proofs.WellFormed

/-!
# Types that a check makes

`Checking.Forms` says that a check gives a value with a property and records only good types. With
`strict` it says so about checks without findings, and then `any` is not good; without, it says so
about all checks. Each rule forms good types from good types; so in a sound bundle the check of a
function records only types that fit the function's generic parameters (`checkFn_forms`).
-/

set_option autoImplicit false

namespace Custody

variable {σ α β : Type}

namespace Checking

/-- A check gives a value with the property `P` and records good types, under `strict` if it finds
nothing. -/
def Forms (strict : Bool) (good : Ty → Prop) (P : α → Prop) (x : Checking σ α) : Prop :=
  ∀ s, (strict = true → (x s).log.findings = []) → P (x s).value ∧ ∀ r ∈ (x s).log.types, good r.2

namespace Forms

variable {strict : Bool} {good : Ty → Prop} {P : α → Prop} {Q : β → Prop} {x : Checking σ α}
  {f : α → Checking σ β}

theorem pure {a : α} (h : P a) : Forms strict good P (Pure.pure a : Checking σ α) :=
  fun _ _ => ⟨h, fun _ hr => absurd hr List.not_mem_nil⟩

/-- A step may rely on what the step before it gives. -/
theorem bind (hx : Forms strict good P x) (hf : ∀ a, P a → Forms strict good Q (f a)) :
    Forms strict good Q (x >>= f) := by
  intro s hclean
  rw [bind_eq] at hclean ⊢
  simp only [Log.findings_append, List.append_eq_nil_iff] at hclean
  obtain ⟨hvalue, htypes⟩ := hx s fun hs => (hclean hs).1
  obtain ⟨hvalue', htypes'⟩ := hf _ hvalue _ fun hs => (hclean hs).2
  refine ⟨hvalue', fun r hr => ?_⟩
  rcases List.mem_append.1 hr with hr | hr
  · exact htypes r hr
  · exact htypes' r hr

theorem mono {P' : α → Prop} (hx : Forms strict good P x) (h : ∀ a, P a → P' a) :
    Forms strict good P' x :=
  fun s hclean => ⟨h _ (hx s hclean).1, (hx s hclean).2⟩

/-- What follows a finding matters only without `strict`. -/
theorem afterReport (span : Span) (fault : Fault) {k : Unit → Checking σ α}
    (h : strict = false → Forms strict good P (k ())) :
    Forms strict good P (report span fault >>= k) := by
  cases strict with
  | false => exact fun s _ => h rfl s fun hs => by cases hs
  | true =>
    intro s hclean
    have hnone := hclean rfl
    rw [bind_eq, Log.findings_append, List.append_eq_nil_iff] at hnone
    cases hnone.1

theorem report (span : Span) (fault : Fault) :
    Forms strict good (fun _ => strict = false) (report span fault : Checking σ Unit) := by
  cases strict with
  | false => exact fun s _ => ⟨rfl, fun _ hr => absurd hr List.not_mem_nil⟩
  | true =>
    intro s hclean
    cases hclean rfl

theorem record (id : Nat) {type : Ty} (h : good type) :
    Forms strict good (fun _ => True) (record id type : Checking σ Unit) := by
  intro s _
  refine ⟨trivial, fun r hr => ?_⟩
  rw [List.mem_singleton.1 hr]
  exact h

end Forms

end Checking

/-! ## Type expressions -/

/-- A place in a sound bundle, in a unit with sound names. -/
structure Place.Sound (strict : Bool) (place : Place) : Prop where
  bundle : place.bundle.Sound strict
  unit : place.unit.Sound strict place.bundle.shape

namespace Place

open Checking

variable {strict : Bool} {place : Place} {good : Ty → Prop}

/-- The types that are plain at a place. -/
def Plain (strict : Bool) (place : Place) (t : Ty) : Prop :=
  t.Plain strict place.bundle.shape place.generics

/-- The types of values at a place. -/
def Fits (strict : Bool) (place : Place) (t : Ty) : Prop :=
  t.Fits strict place.bundle.shape place.unit.Aliases place.generics

/-- Plain types fit. -/
theorem Plain.fits {t : Ty} (h : place.Plain strict t) : place.Fits strict t := Ty.Plain.fits h

theorem plain_any (h : strict = false) : place.Plain strict .any := h

/-- A name stands for a plain type, or for a struct whose arguments are still to come. -/
def NamedWell (strict : Bool) (place : Place) (argCount : Nat) : Named → Prop
  | .settled t => place.Plain strict t
  | .template base arity => (∃ id name, base = .struct id name arity ∧
      place.bundle.shape id = some (name, arity)) ∧ (strict = true → arity = argCount)

/-- What a name stands for in a unit is well named. -/
theorem namedIn_forms {owner : Option SourceUnit}
    (howner : ∀ u, owner = some u → u.Sound strict place.bundle.shape) (type : TypeExpr)
    (name : Ident) (argCount : Nat) :
    Forms strict good (place.NamedWell strict argCount)
      (namedIn owner type name argCount : Checking σ Named) := by
  unfold namedIn
  split
  · exact .afterReport _ _ fun hs => .pure (plain_any hs)
  · next base hbase =>
      obtain ⟨u, hu, hget⟩ := Option.bind_eq_some_iff.1 hbase
      have hnamed := (howner u hu).types _ _ hget
      -- Behind the count of arguments, a name is settled iff its struct has no parameters.
      have hrest : (strict = true → arityOf base = argCount) →
          Forms strict good (place.NamedWell strict argCount)
            (if arityOf base =
              0 then pure (.settled base) else pure (.template base (arityOf base)) :
              Checking σ Named) := by
        intro hcount
        split
        · next harity =>
            refine .pure ?_
            cases base with
            | void | bool | string | number format => trivial
            | struct id n arity =>
              obtain rfl : arity = 0 := harity
              exact ⟨rfl, hnamed⟩
            | _ => exact hnamed.elim
        · next harity =>
            refine .pure ⟨?_, hcount⟩
            cases base with
            | struct id n arity => exact ⟨id, n, rfl, hnamed⟩
            | _ => exact (harity rfl).elim
      dsimp only
      split
      · exact .bind (.report _ _) fun _ hs => hrest fun hs' => by simp [hs] at hs'
      · next hcount => exact hrest fun _ => Decidable.not_not.1 hcount

/-- What a name stands for, with an alias or without, is well named. -/
theorem named_forms (h : place.Sound strict) (type : TypeExpr) (space : Option Ident)
    (name : Ident) (argCount : Nat) :
    Forms strict good (place.NamedWell strict argCount)
      (place.named type space name argCount : Checking σ Named) := by
  unfold named
  split
  · split
    · refine namedIn_forms (fun u hu => ?_) _ _ _
      exact h.bundle.units u (Bundle.mem_units_of_get? hu)
    · exact .afterReport _ _ fun hs => .pure (plain_any hs)
  · split
    · next index hindex =>
        have hgeneric : place.Plain strict (.generic index name.name) := by
          obtain ⟨hlt, hget, -⟩ := List.idxOf?_eq_some_iff.1 hindex
          exact List.getElem?_eq_some_iff.2 ⟨hlt, hget⟩
        split
        · exact .afterReport _ _ fun _ => .pure hgeneric
        · exact .pure hgeneric
    · exact namedIn_forms (fun u hu => Option.some.inj hu ▸ h.unit) _ _ _

/-- A struct with plain arguments is a plain type. -/
theorem instanceOf_forms (h : place.Sound strict) {base : Ty} {arity : Nat} {args : List Ty}
    (hbase : ∃ id name, base = .struct id name arity ∧
      place.bundle.shape id = some (name, arity))
    (hargs : ∀ t ∈ args, place.Plain strict t) (hlength : strict = true → arity = args.length) :
    Forms strict good (place.Plain strict) (place.instanceOf .direct base arity args) := by
  obtain ⟨id, name, rfl, hshape⟩ := hbase
  obtain ⟨d, hd, hnames⟩ := Option.map_eq_some_iff.1 hshape
  simp only [Prod.mk.injEq] at hnames
  have hmade : place.Plain strict (d.instantiate (Ty.fitArgs args arity)) := by
    refine ⟨?_, (Ty.allPlain_iff _).2 (Ty.plain_of_mem_fitArgs hargs hlength)⟩
    rw [h.bundle.ids id d hd, hshape, Ty.length_fitArgs, hnames.1]
  unfold instanceOf
  simp only [Ty.structBase?, Ty.structId?, Option.bind_some, hd]
  exact fun s _ => ⟨hmade, fun _ hr => absurd hr List.not_mem_nil⟩

mutual
/-- What a type expression stands for is plain. -/
theorem resolve_forms (h : place.Sound strict) : ∀ type : TypeExpr,
    Forms strict good (place.Plain strict) (place.resolve .direct type)
  | .pointer _ _ pointee => by
    rw [resolve]
    exact .bind (resolve_forms h pointee) fun _ ht => .pure ht
  | .array _ _ element | .slice _ element => by
    rw [resolve]
    exact .bind (resolve_forms h element) fun _ ht => .pure ht
  | .named mark space name args => by
    rw [resolve]
    refine .bind (named_forms h _ _ _ _) fun named hnamed => ?_
    cases named with
    | settled t => exact .pure hnamed
    | template base arity =>
      refine .bind (resolveAll_forms h args) fun ts hts => ?_
      exact instanceOf_forms h hnamed.1 hts.1 fun hs => (hnamed.2 hs).trans hts.2.symm

/-- Types as written resolve to as many plain types. -/
theorem resolveAll_forms (h : place.Sound strict) : ∀ types : List TypeExpr,
    Forms strict good (fun ts => (∀ t ∈ ts, place.Plain strict t) ∧ ts.length = types.length)
      (place.resolveAll .direct types)
  | [] => by
    rw [resolveAll]
    exact .pure ⟨fun t ht => absurd ht List.not_mem_nil, rfl⟩
  | type :: types => by
    rw [resolveAll]
    refine .bind (resolve_forms h type) fun t ht =>
      .bind (resolveAll_forms h types) fun ts hts => .pure ⟨?_, congrArg Nat.succ hts.2⟩
    exact List.forall_mem_cons.2 ⟨ht, hts.1⟩
end

/-- The type of an array is one of arrays. -/
theorem isArray_resolve {type : TypeExpr} (h : type.isArray = true) (builder : InstanceBuilder σ)
    (s : σ) : ∃ length element, (place.resolve builder type s).value = .array length element := by
  cases type with
  | array mark length element => exact ⟨length, _, rfl⟩
  | _ => cases h

end Place

/-! ## Rules -/

namespace Typing

open Checking

variable {strict : Bool} {place : Place} {good : Ty → Prop}

theorem expectType_forms (part : Typed) (expected : Ty) :
    Forms strict good (fun _ => True) (expectType part expected : Checking σ Unit) := by
  unfold expectType
  split
  · exact .pure trivial
  · exact (Forms.report _ _).mono fun _ _ => trivial

/-- An operand that the operator does not take is a finding. -/
theorem expectOperand_forms (op : String) (part : Typed) (accepts : Ty → Bool) :
    Forms strict good (fun fits => strict = true → fits = true)
      (expectOperand op part accepts : Checking σ Bool) := by
  unfold expectOperand
  split
  · exact .pure fun _ => rfl
  · exact .afterReport _ _ fun hs => .pure fun hs' => by simp [hs] at hs'

theorem fits_any (h : strict = false) : place.Fits strict .any := h

/-- The common type of two types that fit does so, too. -/
theorem fits_of_unify {a b t : Ty} (ha : place.Fits strict a) (hb : place.Fits strict b)
    (h : a.unify b = some t) : place.Fits strict t := by
  unfold Ty.unify at h
  split at h
  · exact Option.some.inj h ▸ hb
  · exact Option.some.inj h ▸ ha
  · split at h
    · rw [← Option.some.inj h]
      split <;> trivial
    · cases h
  · split at h
    · exact Option.some.inj h ▸ ha
    · split at h
      · exact Option.some.inj h ▸ hb
      · cases h

theorem commonType_forms {left right : Typed} (hl : place.Fits strict left.type)
    (hr : place.Fits strict right.type) :
    Forms strict good (place.Fits strict) (commonType left right : Checking σ Ty) := by
  unfold commonType
  split
  · next h => exact .pure (fits_of_unify hl hr h)
  · exact .afterReport _ _ fun hs => .pure (fits_any hs)

/-- An operator between operands forms a type that fits. -/
theorem binaryType_forms (op : BinaryOp) {left right : Typed} (hl : place.Fits strict left.type)
    (hr : place.Fits strict right.type) :
    Forms strict good (place.Fits strict) (binaryType op left right : Checking σ Ty) := by
  unfold binaryType
  split
  · exact .bind (expectOperand_forms _ _ _) fun _ _ =>
      .bind (expectOperand_forms _ _ _) fun _ _ => .pure trivial
  · refine .bind (expectOperand_forms _ _ _) fun leftFits hleft =>
      .bind (expectOperand_forms _ _ _) fun rightFits hright => ?_
    -- `any` stands for the common type only behind a finding.
    have hdone : ∀ common, place.Fits strict common → Forms strict good (place.Fits strict)
        (pure (if op.isArithmetic = true then common else .bool) : Checking σ Ty) := by
      intro common hcommon
      refine .pure ?_
      split
      · exact hcommon
      · trivial
    dsimp only
    split
    · exact .bind (commonType_forms hl hr) hdone
    · next hnot =>
        refine .bind (.pure ?_) hdone
        cases strict with
        | false => exact rfl
        | true => exact (hnot (by rw [hleft rfl, hright rfl]; rfl)).elim

/-- An operator in front of an operand forms a type that fits. -/
theorem unaryType_forms (op : UnaryOp) {operand : Typed} (h : place.Fits strict operand.type) :
    Forms strict good (place.Fits strict) (unaryType op operand : Checking σ Ty) := by
  unfold unaryType
  split
  · exact .bind (expectOperand_forms _ _ _) fun _ _ => .pure trivial
  · refine .bind (expectOperand_forms _ _ _) fun fits hfits => ?_
    split
    · exact .pure h
    · next hnot =>
        refine .pure ?_
        cases strict with
        | false => exact rfl
        | true => exact (hnot (hfits rfl)).elim
  · exact .pure h
  · exact .pure h
  · split
    · next hpointer =>
        rw [hpointer] at h
        exact .pure h
    · next hany =>
        rw [hany] at h
        exact .pure h
    · exact .afterReport _ _ fun hs => .pure (fits_any hs)

/-- What a scope stack gives names fits. -/
def LocalsFit (strict : Bool) (place : Place) (locals : ScopeStack) : Prop :=
  ∀ scope ∈ locals.inner :: locals.outer, ∀ name t, scope.get? name = some t → place.Fits strict t

theorem fits_fn {s : Signature} (h : s.Sound strict place.bundle.shape) :
    place.Fits strict s.ty := h

/-- A name has a type that fits if all locals have. -/
theorem identType_forms (h : place.Sound strict) {locals : ScopeStack}
    (hlocals : LocalsFit strict place locals) (name : Ident) :
    Forms strict good (place.Fits strict) (identType place locals name : Checking σ Ty) := by
  unfold identType
  split
  · next t ht =>
      refine .pure ?_
      rcases Option.or_eq_some_iff.1 ht with hlocal | ⟨-, hrest⟩
      · obtain ⟨scope, hscope, hget⟩ := List.exists_of_findSome?_eq_some hlocal
        exact hlocals scope hscope _ _ hget
      · rcases Option.or_eq_some_iff.1 hrest with hfunction | ⟨-, hspace⟩
        · obtain ⟨s, rfl, hs⟩ := h.unit.functions _ _ hfunction
          exact fits_fn hs
        · obtain ⟨target, rfl⟩ := h.unit.namespaces _ _ hspace
          exact ⟨_, hspace⟩
  · exact .afterReport _ _ fun hs => .pure (fits_any hs)

/-- The types of a signature are plain at a place. -/
def PlainSignature (strict : Bool) (place : Place) (s : Signature) : Prop :=
  (∀ t ∈ s.params, place.Plain strict t) ∧ place.Plain strict s.result

/-- With its type arguments put in, the signature of a call is plain. -/
theorem callSignature_forms {signature : Signature}
    (h : signature.Sound strict place.bundle.shape) (callee : Expr) {typeArgs : List Ty}
    (hargs : ∀ t ∈ typeArgs, place.Plain strict t) :
    Forms strict good (PlainSignature strict place)
      (callSignature .direct callee signature typeArgs) := by
  unfold callSignature
  split
  -- Missing arguments are filled up with `any`, which is no longer silent here.
  · refine .afterReport _ _ fun hs s _ => ?_
    refine ⟨?_, fun _ hr => absurd hr List.not_mem_nil⟩
    exact h.substitute (Ty.plain_of_mem_fitArgs hargs fun hs' => by simp [hs] at hs')
      (Ty.length_fitArgs _ _).symm
  · next hcount =>
      have hcount : typeArgs.length = signature.arity := Decidable.not_not.1 hcount
      split
      -- Without generic parameters the signature is taken as it is, and its types are plain
      -- anywhere.
      · next hzero =>
          obtain ⟨own, hown, hparams, hresult⟩ := h
          rw [hzero, List.length_eq_zero_iff] at hown
          subst hown
          exact .pure ⟨fun t ht => (hparams t ht).closed, hresult.closed⟩
      · intro s _
        exact ⟨h.substitute hargs hcount.symm, fun _ hr => absurd hr List.not_mem_nil⟩

theorem expectAll_forms (parts : List Typed) (types : List Ty) :
    Forms strict good (fun _ => True) (expectAll parts types : Checking σ Unit) := by
  fun_induction expectAll (σ := σ) parts types with
  | case1 part parts expected rest ih => exact .bind (expectType_forms _ _) fun _ _ => ih
  | case2 => exact .pure trivial

/-- A call has a type that fits. -/
theorem callType_forms (h : place.Sound strict) (span : Span) (callee : Expr) {calleeType : Ty}
    (hcallee : place.Fits strict calleeType) (typeArgs : List TypeExpr) (args : List Typed) :
    Forms strict good (place.Fits strict)
      (callType place .direct span callee calleeType typeArgs args) := by
  unfold callType
  split
  · refine .bind (Place.resolveAll_forms h typeArgs) fun types htypes =>
      .bind (callSignature_forms hcallee callee htypes.1) fun signature hsignature => ?_
    have hdone : Forms strict good (place.Fits strict)
        (do
          expectAll args signature.params
          return signature.result : Checking Unit Ty) :=
      .bind (expectAll_forms _ _) fun _ _ => .pure hsignature.2.fits
    dsimp only
    split
    · exact .bind (.report _ _) fun _ _ => hdone
    · exact hdone
  · exact .pure hcallee
  · exact .afterReport _ _ fun hs => .pure (fits_any hs)

theorem getType_ofValue_forms (h : place.Sound strict) (object : Typed) (member : Ident)
    {target : Ty} (ht : place.Fits strict target) :
    Forms strict good (place.Fits strict)
      (getType.ofValue place object member target : Checking σ Ty) := by
  unfold getType.ofValue
  split
  · exact .pure ht
  · split
    · next hmember => exact .pure (Place.Plain.fits (h.bundle.member? ht hmember))
    · exact .afterReport _ _ fun hs => .pure (fits_any hs)
  · split
    · next hmember => exact .pure (Place.Plain.fits (h.bundle.member? ht hmember))
    · exact .afterReport _ _ fun hs => .pure (fits_any hs)
  · exact .afterReport _ _ fun hs => .pure (fits_any hs)

/-- A member has a type that fits. -/
theorem getType_forms (h : place.Sound strict) {object : Typed}
    (hobject : place.Fits strict object.type) (member : Ident) :
    Forms strict good (place.Fits strict) (getType place object member : Checking σ Ty) := by
  unfold getType
  split
  · split
    · next hfound =>
        obtain ⟨u, hu, hfunction⟩ := Option.bind_eq_some_iff.1 hfound
        obtain ⟨s, rfl, hs⟩ :=
          (h.bundle.units u (Bundle.mem_units_of_get? hu)).functions _ _ hfunction
        exact .pure (fits_fn hs)
    · exact .afterReport _ _ fun hs => .pure (fits_any hs)
  · next hpointer =>
      rw [hpointer] at hobject
      exact getType_ofValue_forms h object member hobject
  · exact getType_ofValue_forms h object member hobject

theorem expectFields_forms (fields : List (Ident × Typed)) (members : List (String × Ty)) :
    Forms strict good (fun _ => True) (expectFields fields members : Checking σ Unit) := by
  fun_induction expectFields (σ := σ) fields members with
  | case1 name value fields expected type members next hname ih =>
    exact .bind (.report _ _) fun _ _ => ih
  | case2 name value fields expected type members next hname ih =>
    exact .bind (expectType_forms _ _) fun _ _ => ih
  | case3 => exact .pure trivial

/-- A new value has a type that fits. -/
theorem newType_forms (span typeSpan : Span) {type : Ty} (htype : place.Plain strict type)
    (fields : List (Ident × Typed)) :
    Forms strict good (place.Fits strict)
      (newType place span typeSpan type fields : Checking σ Ty) := by
  unfold newType
  split
  · next hany =>
      cases type with
      | any => exact .pure htype
      | _ => cases hany
  · split
    · exact .afterReport _ _ fun hs => .pure (fits_any hs)
    · next members hmembers =>
        have hdone : Forms strict good (place.Fits strict)
            (do
              expectFields fields members
              return .pointer .owned type : Checking σ Ty) :=
          .bind (expectFields_forms _ _) fun _ _ => .pure (Place.Plain.fits htype)
        dsimp only
        split
        · exact .bind (.report _ _) fun _ _ => hdone
        · exact hdone

/-- An array literal has a type that fits, with `strict` if it is written as one. -/
theorem staticArrayType_forms (span : Span) {type : Ty} (htype : place.Plain strict type)
    (harray : strict = true → ∃ length element, type = .array length element)
    (elements : List Typed) : Forms strict good (place.Fits strict)
      (staticArrayType span type elements : Checking σ Ty) := by
  unfold staticArrayType
  split
  · next length element =>
      have hdone : Forms strict good (place.Fits strict)
          (do
            expectAll elements (elements.map fun _ => element)
            return .array length element : Checking σ Ty) :=
        .bind (expectAll_forms _ _) fun _ _ => .pure (Place.Plain.fits htype)
      dsimp only
      split
      · exact .bind (.report _ _) fun _ _ => hdone
      · exact hdone
  -- Another type is not one of a text, and `any` stands for it without a finding.
  · next hother =>
      refine .pure ?_
      cases strict with
      | false => exact rfl
      | true =>
        obtain ⟨length, element, rfl⟩ := harray rfl
        exact absurd rfl (hother length element)

theorem subscriptType_ofElement_forms (index : Typed) {element : Ty}
    (h : place.Fits strict element) :
    Forms strict good (place.Fits strict)
      (subscriptType.ofElement index element : Checking σ Ty) := by
  unfold subscriptType.ofElement
  split
  · exact .pure h
  · exact .pure h
  · split
    · exact .pure h
    · exact .afterReport _ _ fun _ => .pure h

/-- An element has a type that fits. -/
theorem subscriptType_forms {object : Typed} (h : place.Fits strict object.type) (index : Typed) :
    Forms strict good (place.Fits strict) (subscriptType object index : Checking σ Ty) := by
  unfold subscriptType
  split
  · next harray =>
      rw [harray] at h
      exact subscriptType_ofElement_forms index h
  · next hslice =>
      rw [hslice] at h
      exact subscriptType_ofElement_forms index h
  · next hany =>
      rw [hany] at h
      exact .pure h
  · exact .afterReport _ _ fun hs => .pure (fits_any hs)

theorem rangeType_forms (first last : Typed) :
    Forms strict good (place.Fits strict) (rangeType first last : Checking σ Ty) := by
  unfold rangeType
  refine .bind (expectOperand_forms _ _ _) fun firstFits hfirst =>
    .bind (expectOperand_forms _ _ _) fun lastFits hlast => ?_
  split
  · split
    · exact .pure trivial
    · exact .pure trivial
    · exact .afterReport _ _ fun hs => .pure (fits_any hs)
  · next hnot =>
      refine .pure ?_
      cases strict with
      | false => exact rfl
      | true => exact (hnot (by rw [hfirst rfl, hlast rfl]; rfl)).elim

/-- What a loop goes through has a type that fits. -/
theorem elementType_forms {iterable : Typed} (h : place.Fits strict iterable.type) :
    Forms strict good (place.Fits strict) (elementType iterable : Checking σ Ty) := by
  unfold elementType
  split
  · next harray =>
      rw [harray] at h
      exact .pure h
  · next hslice =>
      rw [hslice] at h
      exact .pure h
  · exact .pure trivial
  · next hany =>
      rw [hany] at h
      exact .pure h
  · exact .afterReport _ _ fun hs => .pure (fits_any hs)

/-! ## Expressions -/

theorem settle_forms (mark : Mark) {type : Ty} (h : place.Fits strict type) :
    Forms strict (place.Fits strict) (place.Fits strict) (settle mark type : Checking σ Ty) :=
  .bind (.record _ h) fun _ _ => .pure h

theorem fits_number (literal : NumberLiteral) : place.Fits strict (numberType literal) := by
  unfold numberType
  split
  · trivial
  · split <;> trivial

mutual
/-- The check of an expression records types that fit. Under `strict` the expression must not have a
`zero` or a `null`, and its array literals must name types of arrays. -/
theorem checkExpr_forms (h : place.Sound strict) {locals : ScopeStack}
    (hlocals : LocalsFit strict place locals) :
    ∀ e : Expr, (strict = true → e.every Expr.isFirm = true) →
      Forms strict (place.Fits strict) (place.Fits strict) (checkExpr place .direct locals e)
  | .binary _ op left right, hfirm => by
    simp only [Expr.every, Bool.and_eq_true] at hfirm
    rw [checkExpr]
    exact .bind (checkExpr_forms h hlocals left fun hs => (hfirm hs).1.2) fun _ hl =>
      .bind (checkExpr_forms h hlocals right fun hs => (hfirm hs).2) fun _ hr =>
        .bind (binaryType_forms op hl hr) fun _ ht => settle_forms _ ht
  | .unary _ op operand, hfirm => by
    simp only [Expr.every, Bool.and_eq_true] at hfirm
    rw [checkExpr]
    exact .bind (checkExpr_forms h hlocals operand fun hs => (hfirm hs).2) fun _ ho =>
      .bind (unaryType_forms op ho) fun _ ht => settle_forms _ ht
  | .number _ literal, _ => settle_forms _ (fits_number literal)
  | .string _ _, _ => settle_forms _ trivial
  | .bool _ _, _ => settle_forms _ trivial
  | .ident _ name, _ => by
    rw [checkExpr]
    exact .bind (identType_forms h hlocals name) fun _ ht => settle_forms _ ht
  | .call _ callee typeArgs args, hfirm => by
    simp only [Expr.every, Bool.and_eq_true] at hfirm
    rw [checkExpr]
    exact .bind (checkExpr_forms h hlocals callee fun hs => (hfirm hs).1.2) fun _ hf =>
      .bind (checkExprs_forms h hlocals args fun hs => (hfirm hs).2) fun parts _ =>
        .bind (callType_forms h _ callee hf typeArgs parts) fun _ ht => settle_forms _ ht
  | .get _ object member, hfirm => by
    simp only [Expr.every, Bool.and_eq_true] at hfirm
    rw [checkExpr]
    exact .bind (checkExpr_forms h hlocals object fun hs => (hfirm hs).2) fun _ ho =>
      .bind (getType_forms h ho member) fun _ ht => settle_forms _ ht
  | .new _ type fields, hfirm => by
    simp only [Expr.every, Bool.and_eq_true] at hfirm
    rw [checkExpr]
    exact .bind (Place.resolve_forms h type) fun _ hp =>
      .bind (checkFields_forms h hlocals fields fun hs => (hfirm hs).2) fun parts _ =>
        .bind (newType_forms _ _ hp parts) fun _ ht => settle_forms _ ht
  | .group _ inner, hfirm => by
    simp only [Expr.every, Bool.and_eq_true] at hfirm
    rw [checkExpr]
    exact .bind (checkExpr_forms h hlocals inner fun hs => (hfirm hs).2) fun _ ht =>
      settle_forms _ ht
  | .null _, hfirm | .zero _, hfirm => by
    -- Only these literals bring `any` in, and `strict` rules them out.
    cases strict with
    | false => exact settle_forms _ rfl
    | true => cases hfirm rfl
  | .staticArray _ type elements, hfirm => by
    simp only [Expr.every, Expr.isFirm, Expr.isSized, Bool.and_eq_true] at hfirm
    have hplain : Forms strict (place.Fits strict) (place.Plain strict)
        (place.resolve .direct type) := Place.resolve_forms h type
    -- With `strict` the type has to be that of an array; otherwise the node would get `any`.
    have htype : Forms strict (place.Fits strict)
        (fun t => place.Plain strict t ∧
          (strict = true → ∃ length element, t = .array length element))
        (place.resolve .direct type) := fun s hclean =>
      ⟨⟨(hplain s hclean).1, fun hs => Place.isArray_resolve (hfirm hs).1.1 _ s⟩,
        (hplain s hclean).2⟩
    rw [checkExpr]
    exact .bind htype fun _ hp =>
      .bind (checkExprs_forms h hlocals elements fun hs => (hfirm hs).2) fun parts _ =>
        .bind (staticArrayType_forms _ hp.1 hp.2 parts) fun _ ht => settle_forms _ ht
  | .subscript _ object index, hfirm => by
    simp only [Expr.every, Bool.and_eq_true] at hfirm
    rw [checkExpr]
    exact .bind (checkExpr_forms h hlocals object fun hs => (hfirm hs).1.2) fun _ ho =>
      .bind (checkExpr_forms h hlocals index fun hs => (hfirm hs).2) fun _ _ =>
        .bind (subscriptType_forms ho _) fun _ ht => settle_forms _ ht
  | .range _ first last, hfirm => by
    simp only [Expr.every, Bool.and_eq_true] at hfirm
    rw [checkExpr]
    exact .bind (checkExpr_forms h hlocals first fun hs => (hfirm hs).1.2) fun _ _ =>
      .bind (checkExpr_forms h hlocals last fun hs => (hfirm hs).2) fun _ _ =>
        .bind (rangeType_forms _ _) fun _ ht => settle_forms _ ht

theorem checkExprs_forms (h : place.Sound strict) {locals : ScopeStack}
    (hlocals : LocalsFit strict place locals) :
    ∀ es : List Expr, (strict = true → everyOf Expr.isFirm es = true) →
      Forms strict (place.Fits strict) (fun _ => True) (checkExprs place .direct locals es)
  | [], _ => .pure trivial
  | e :: es, hfirm => by
    simp only [everyOf, Bool.and_eq_true] at hfirm
    rw [checkExprs]
    exact .bind (checkExpr_forms h hlocals e fun hs => (hfirm hs).1) fun _ _ =>
      .bind (checkExprs_forms h hlocals es fun hs => (hfirm hs).2) fun _ _ => .pure trivial

theorem checkFields_forms (h : place.Sound strict) {locals : ScopeStack}
    (hlocals : LocalsFit strict place locals) :
    ∀ fields : List (Ident × Expr), (strict = true → everyField Expr.isFirm fields = true) →
      Forms strict (place.Fits strict) (fun _ => True) (checkFields place .direct locals fields)
  | [], _ => .pure trivial
  | (_, e) :: fields, hfirm => by
    simp only [everyField, Bool.and_eq_true] at hfirm
    rw [checkFields]
    exact .bind (checkExpr_forms h hlocals e fun hs => (hfirm hs).1) fun _ _ =>
      .bind (checkFields_forms h hlocals fields fun hs => (hfirm hs).2) fun _ _ =>
        .pure trivial
end

end Typing

/-! ## Statements -/

namespace Walking

/-- A check that gets through gives a value with the property `P` and records good types, under
`strict` if it finds nothing. -/
def Forms (strict : Bool) (good : Ty → Prop) (P : α → Prop) (x : Walking σ α) : Prop :=
  ∀ s a, (x.run s).value = .ok a → (strict = true → (x.run s).log.findings = []) →
    P a ∧ ∀ r ∈ (x.run s).log.types, good r.2

namespace Forms

variable {strict : Bool} {good : Ty → Prop} {P : α → Prop} {Q : β → Prop} {x : Walking σ α}
  {f : α → Walking σ β}

theorem pure {a : α} (h : P a) : Forms strict good P (Pure.pure a : Walking σ α) := by
  intro s a' hok _
  cases hok
  exact ⟨h, fun _ hr => absurd hr List.not_mem_nil⟩

theorem throw (fault : StructuralFault) :
    Forms strict good P (throw fault : Walking σ α) := by
  intro s a hok
  cases hok

theorem lift {x : Checking σ α} (hx : x.Forms strict good P) : Forms strict good P (lift x) := by
  intro s a hok hclean
  rw [lift_run] at hok hclean ⊢
  cases hok
  exact hx s hclean

theorem bind (hx : Forms strict good P x) (hf : ∀ a, P a → Forms strict good Q (f a)) :
    Forms strict good Q (x >>= f) := by
  intro s b hok hclean
  obtain ⟨a, ha, hb, hlog⟩ := bind_ok hok
  rw [hlog] at hclean ⊢
  simp only [Log.findings_append, List.append_eq_nil_iff] at hclean
  obtain ⟨hvalue, htypes⟩ := hx s a ha fun hs => (hclean hs).1
  obtain ⟨hvalue', htypes'⟩ := hf a hvalue _ b hb fun hs => (hclean hs).2
  refine ⟨hvalue', fun r hr => ?_⟩
  rcases List.mem_append.1 hr with hr | hr
  · exact htypes r hr
  · exact htypes' r hr

end Forms

end Walking

namespace Typing

open Checking

variable {strict : Bool} {body : Body Unit} {locals : ScopeStack}

theorem LocalsFit.push {place : Place} (h : LocalsFit strict place locals) :
    LocalsFit strict place locals.push := by
  intro scope hscope
  rcases List.mem_cons.1 hscope with rfl | hscope
  · intro name t hget
    cases hget
  · exact h scope hscope

theorem LocalsFit.pop {place : Place} (h : LocalsFit strict place locals) :
    LocalsFit strict place locals.pop := by
  unfold ScopeStack.pop
  split
  · exact h
  · next inner outer houter =>
      intro scope hscope
      exact h scope (List.mem_cons_of_mem _ (houter ▸ hscope))

/-- The locals still fit with a new one that does. -/
theorem declareName_forms {place : Place} {good : Ty → Prop} (h : LocalsFit strict place locals)
    (name : Ident) {type : Ty} (htype : place.Fits strict type) :
    Forms strict good (LocalsFit strict place)
      (declareName locals name type : Checking σ ScopeStack) := by
  unfold declareName
  split
  · next locals' hdeclare =>
      refine .pure fun scope hscope n t hget => ?_
      obtain ⟨hinsert, houter⟩ := ScopeStack.declare_ok hdeclare
      rcases List.mem_cons.1 hscope with rfl | hscope
      · rw [(NameMap.get?_of_insertNew hinsert).2] at hget
        split at hget
        · exact Option.some.inj hget ▸ htype
        · exact h _ List.mem_cons_self n t hget
      · exact h scope (List.mem_cons_of_mem _ (houter ▸ hscope)) n t hget
  · exact .afterReport _ _ fun _ => .pure h

/-- A body in a sound place, with instances made anew. -/
structure Body.Sound (strict : Bool) (body : Body Unit) : Prop where
  place : body.place.Sound strict
  direct : body.builder = .direct

theorem Body.Sound.inLoop (h : body.Sound strict) : body.inLoop.Sound strict := ⟨h.place, h.direct⟩

theorem Body.expr_forms (h : body.Sound strict) (hlocals : LocalsFit strict body.place locals)
    {e : Expr} (hfirm : strict = true → e.every Expr.isFirm = true) :
    Forms strict (body.place.Fits strict) (body.place.Fits strict) (body.expr locals e) := by
  unfold Body.expr
  rw [h.direct]
  exact checkExpr_forms h.place hlocals e hfirm

/-- A `let` has a type that fits. -/
theorem letType_forms {good : Ty → Prop} (h : body.Sound strict) (name : Ident)
    (type : Option TypeExpr) {init : Typed} (hinit : body.place.Fits strict init.type) :
    Forms strict good (body.place.Fits strict) (letType body name type init) := by
  unfold letType
  split
  · rw [h.direct]
    exact .bind (Place.resolve_forms h.place _) fun declared hdeclared =>
      .bind (expectType_forms _ _) fun _ _ => .pure hdeclared.fits
  · split
    · exact .afterReport _ _ fun hs => .pure (fits_any hs)
    · exact .pure hinit

/-- The locals still fit behind a `let`. -/
theorem checkLet_forms (h : body.Sound strict) (hlocals : LocalsFit strict body.place locals)
    (mark : Mark) (name : Ident) (type : Option TypeExpr) {init : Expr}
    (hfirm : strict = true → init.every Expr.isFirm = true) :
    Forms strict (body.place.Fits strict) (LocalsFit strict body.place)
      (checkLet body locals mark name type init) :=
  .bind (body.expr_forms h hlocals hfirm) fun _ ht =>
    .bind (letType_forms h name type ht) fun _ hbound =>
      .bind (declareName_forms hlocals name hbound) fun _ hlocals' =>
        .bind (.record _ hbound) fun _ _ => .pure hlocals'

theorem fits_void {place : Place} : place.Fits strict .void := trivial

theorem checkAssign_forms (h : body.Sound strict) (hlocals : LocalsFit strict body.place locals)
    (mark : Mark) {target value : Expr} (hfirm : strict = true → target.every Expr.isFirm = true)
    (hfirm' : strict = true → value.every Expr.isFirm = true) :
    Forms strict (body.place.Fits strict) (fun _ => True)
      (checkAssign body locals mark target value) := by
  have hrest : Forms strict (body.place.Fits strict) (fun _ => True)
      (do
        let t ← body.expr locals target
        let v ← body.expr locals value
        expectType ⟨value.span, v⟩ t
        record mark.id .void : Checking Unit Unit) :=
    .bind (body.expr_forms h hlocals hfirm) fun _ _ =>
      .bind (body.expr_forms h hlocals hfirm') fun _ _ =>
        .bind (expectType_forms _ _) fun _ _ => .record _ fits_void
  unfold checkAssign
  dsimp only
  split
  · exact hrest
  · exact .bind (.report _ _) fun _ _ => hrest

theorem checkReturn_forms (h : body.Sound strict) (hlocals : LocalsFit strict body.place locals)
    (mark : Mark) {value : Expr} (hfirm : strict = true → value.every Expr.isFirm = true) :
    Forms strict (body.place.Fits strict) (fun _ => True)
      (checkReturn body locals mark (some value)) :=
  .bind (body.expr_forms h hlocals hfirm) fun _ _ =>
    .bind (expectType_forms _ _) fun _ _ => .record _ fits_void

theorem checkReturn_none_forms (mark : Mark) :
    Forms strict (body.place.Fits strict) (fun _ => True) (checkReturn body locals mark none) :=
  .bind (expectType_forms _ _) fun _ _ => .record _ fits_void

theorem checkJump_forms (mark : Mark) (word : String) :
    Forms strict (body.place.Fits strict) (fun _ => True) (checkJump body mark word) := by
  unfold checkJump
  dsimp only
  split
  · exact .bind (.report _ _) fun _ _ => .record _ fits_void
  · exact .record _ fits_void

theorem checkCondition_forms (h : body.Sound strict) (hlocals : LocalsFit strict body.place locals)
    {condition : Expr} (hfirm : strict = true → condition.every Expr.isFirm = true) :
    Forms strict (body.place.Fits strict) (fun _ => True) (checkCondition body locals condition) :=
  .bind (body.expr_forms h hlocals hfirm) fun _ _ => expectType_forms _ _

/-- The locals still fit in the body of a loop. -/
theorem checkEachHead_forms (h : body.Sound strict) (hlocals : LocalsFit strict body.place locals)
    (name : Ident) {iterable : Expr} (hfirm : strict = true → iterable.every Expr.isFirm = true) :
    Forms strict (body.place.Fits strict) (LocalsFit strict body.place)
      (checkEachHead body locals name iterable) :=
  .bind (body.expr_forms h hlocals hfirm) fun _ ht =>
    .bind (elementType_forms ht) fun _ helement => declareName_forms hlocals name helement

theorem checkExprStmt_forms (h : body.Sound strict) (hlocals : LocalsFit strict body.place locals)
    (mark : Mark) {value : Expr} (hfirm : strict = true → value.every Expr.isFirm = true) :
    Forms strict (body.place.Fits strict) (fun _ => True)
      (checkExprStmt body locals mark value) :=
  .bind (body.expr_forms h hlocals hfirm) fun _ ht => .record _ ht

theorem done_forms {place : Place} (mark : Mark) (hlocals : LocalsFit strict place locals) :
    Walking.Forms (σ := σ) strict (place.Fits strict) (LocalsFit strict place)
      (done mark locals) :=
  .lift (.bind (.record _ fits_void) fun _ _ => .pure hlocals)

mutual
/-- The check of a statement records types that fit, and leaves scopes of types that fit. -/
theorem checkStmt_forms : ∀ (s : Stmt) (body : Body Unit) (locals : ScopeStack),
    body.Sound strict → LocalsFit strict body.place locals →
      (strict = true → s.every Expr.isFirm = true) →
        Walking.Forms strict (body.place.Fits strict) (LocalsFit strict body.place)
          (checkStmt body locals s)
  | .importDecl _ _, _, _, _, _, _ => .throw _
  | .structDecl _ _, _, _, _, _, _ => .throw _
  | .fnDecl _ _ _, _, _, _, _, _ => .throw _
  | .letDecl mark name type _, _, _, h, hlocals, hfirm =>
    .lift (checkLet_forms h hlocals mark name type hfirm)
  | .scope mark block, body, locals, h, hlocals, hfirm =>
    .bind (checkBlock_forms block body locals h hlocals hfirm) fun _ hlocals' =>
      done_forms mark hlocals'
  | .assign mark _ _, _, _, h, hlocals, hfirm => by
    simp only [Stmt.every, Bool.and_eq_true] at hfirm
    exact .bind (.lift (checkAssign_forms h hlocals mark (fun hs => (hfirm hs).1) fun hs =>
      (hfirm hs).2)) fun _ _ => .pure hlocals
  | .returnStmt mark none, _, _, _, hlocals, _ =>
    .bind (.lift (checkReturn_none_forms mark)) fun _ _ => .pure hlocals
  | .returnStmt mark (some _), _, _, h, hlocals, hfirm =>
    .bind (.lift (checkReturn_forms h hlocals mark hfirm)) fun _ _ => .pure hlocals
  | .breakStmt mark, _, _, _, hlocals, _ | .continueStmt mark, _, _, _, hlocals, _ =>
    .bind (.lift (checkJump_forms mark _)) fun _ _ => .pure hlocals
  | .forEach mark name _ block, body, locals, h, hlocals, hfirm => by
    simp only [Stmt.every, Bool.and_eq_true] at hfirm
    rw [checkStmt]
    refine .bind (.lift (checkEachHead_forms h hlocals.push name fun hs => (hfirm hs).1))
      fun inner hinner => ?_
    exact .bind (checkBlock_forms block body.inLoop inner h.inLoop hinner fun hs => (hfirm hs).2)
      fun _ hinner' => done_forms mark hinner'.pop
  | .forCounted mark init _ update block, body, locals, h, hlocals, hfirm => by
    simp only [Stmt.every, Bool.and_eq_true] at hfirm
    rw [checkStmt]
    refine .bind (checkStmt_forms init body locals.push h hlocals.push fun hs =>
      (hfirm hs).1.1.1) fun inner hinner => ?_
    refine .bind (.lift (checkCondition_forms h hinner fun hs => (hfirm hs).1.1.2)) fun _ _ => ?_
    refine .bind (checkBlock_forms block body.inLoop inner h.inLoop hinner fun hs =>
      (hfirm hs).2) fun inner' hinner' => ?_
    exact .bind (checkStmt_forms update body inner' h hinner' fun hs =>
      (hfirm hs).1.2) fun _ hinner'' => done_forms mark hinner''.pop
  | .ifElse mark _ thenBlock elseBranch, body, locals, h, hlocals, hfirm => by
    simp only [Stmt.every, Bool.and_eq_true] at hfirm
    rw [checkStmt]
    refine .bind (.lift (checkCondition_forms h hlocals fun hs => (hfirm hs).1.1)) fun _ _ => ?_
    refine .bind (checkBlock_forms thenBlock body locals h hlocals fun hs => (hfirm hs).1.2)
      fun locals' hlocals' => ?_
    exact .bind (checkElse_forms elseBranch body locals' h hlocals' fun hs => (hfirm hs).2)
      fun _ hlocals'' => done_forms mark hlocals''
  | .expr mark _, _, _, h, hlocals, hfirm =>
    .bind (.lift (checkExprStmt_forms h hlocals mark hfirm)) fun _ _ => .pure hlocals

theorem checkElse_forms : ∀ (s : Option Stmt) (body : Body Unit) (locals : ScopeStack),
    body.Sound strict → LocalsFit strict body.place locals →
      (strict = true → elseEvery Expr.isFirm s = true) →
        Walking.Forms strict (body.place.Fits strict) (LocalsFit strict body.place)
          (checkElse body locals s)
  | none, _, _, _, hlocals, _ => .pure hlocals
  | some s, body, locals, h, hlocals, hfirm =>
    checkStmt_forms s body locals h hlocals hfirm

/-- A block records types that fit, and the locals still fit behind it. -/
theorem checkBlock_forms : ∀ (b : Block) (body : Body Unit) (locals : ScopeStack),
    body.Sound strict → LocalsFit strict body.place locals →
      (strict = true → b.every Expr.isFirm = true) →
        Walking.Forms strict (body.place.Fits strict) (LocalsFit strict body.place)
          (checkBlock body locals b)
  | .mk _ ss, body, locals, h, hlocals, hfirm =>
    .bind (checkStmts_forms ss body locals.push h hlocals.push hfirm)
      fun _ hinner => .pure hinner.pop

theorem checkStmts_forms : ∀ (ss : List Stmt) (body : Body Unit) (locals : ScopeStack),
    body.Sound strict → LocalsFit strict body.place locals →
      (strict = true → stmtsEvery Expr.isFirm ss = true) →
        Walking.Forms strict (body.place.Fits strict) (LocalsFit strict body.place)
          (checkStmts body locals ss)
  | [], _, _, _, hlocals, _ => .pure hlocals
  | s :: ss, body, locals, h, hlocals, hfirm => by
    simp only [stmtsEvery, Bool.and_eq_true] at hfirm
    rw [checkStmts]
    exact .bind (checkStmt_forms s body locals h hlocals fun hs => (hfirm hs).1)
      fun locals' hlocals' =>
        checkStmts_forms ss body locals' h hlocals' fun hs => (hfirm hs).2
end

/-! ## Functions -/

/-- The locals fit if the types of the parameters do. -/
theorem declareParams_forms {place : Place} {good : Ty → Prop} : ∀ (params : List TypedName)
    (types : List Ty) (locals : ScopeStack), LocalsFit strict place locals →
      (∀ t ∈ types, place.Fits strict t) →
        Forms strict good (LocalsFit strict place)
          (declareParams locals params types : Checking σ ScopeStack)
  | [], _, _, hlocals, _ | _ :: _, [], _, hlocals, _ => by
    rw [declareParams]
    · exact .pure hlocals
    · simp
  | p :: ps, t :: ts, locals, hlocals, htypes => by
    rw [declareParams]
    exact .bind (declareName_forms hlocals p.name (htypes t List.mem_cons_self))
      fun locals' hlocals' => declareParams_forms ps ts locals' hlocals' fun t' ht' =>
        htypes t' (List.mem_cons_of_mem _ ht')

/-- The check of a function records types that fit, if the types of its signature are plain over the
function's own generic parameters. -/
theorem checkFn_forms {b : Bundle} {u : SourceUnit} (hb : b.Sound strict)
    (hu : u.Sound strict b.shape) (mark : Mark) {head : FnHead} {block : Block}
    (hfirm : strict = true → block.every Expr.isFirm = true)
    (hparams : ∀ arity params result,
      u.functions.get? head.name.name = some (.fn arity params result) →
        ∀ t ∈ params, (b.placeOf u head.generics).Plain strict t) :
    Walking.Forms strict ((b.placeOf u head.generics).Fits strict) (fun _ => True)
      (checkFn b u .direct mark head block) := by
  unfold checkFn
  split
  · next arity params result hfunction =>
      obtain ⟨s, hty, hs⟩ := hu.functions _ _ hfunction
      have hempty : LocalsFit strict (b.placeOf u head.generics) .empty := by
        intro scope hscope name t hget
        rw [List.mem_singleton.1 hscope] at hget
        cases hget
      cases block with
      | mk span ss =>
        refine .bind (.lift (declareParams_forms head.params params .empty hempty fun t ht =>
          (hparams arity params result hfunction t ht).fits)) fun locals hlocals => ?_
        refine .bind (checkStmts_forms ss ⟨b.placeOf u head.generics, .direct, result, 0⟩ locals
          ⟨⟨hb, hu⟩, rfl⟩ hlocals hfirm) fun _ _ => ?_
        refine .lift (.record _ ?_)
        rw [hty]
        exact hs
  · exact .throw _

end Typing

end Custody
