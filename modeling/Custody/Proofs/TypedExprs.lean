import Custody.Proofs.TypeFormation
import Custody.Proofs.TypingRules

/-!
# Expressions without findings are typed right

`Checking.Yields` says what follows about the value of a check that finds nothing, when the types
that it records are those of a table. Each rule of the check yields its typing rule; so the check of
a type expression yields `Place.Denotes`, and that of an expression `ExprTyped`
(`checkExpr_yields`).
-/

set_option autoImplicit false

namespace Custody

variable {σ α β : Type} {type : Nat → Option Ty} {good : Ty → Prop}

namespace Checking

/-- The value of a check has the property `P` if the check finds nothing and the types that it
records are good and are those that `type` gives. -/
def Yields (type : Nat → Option Ty) (good : Ty → Prop) (P : α → Prop) (x : Checking σ α) : Prop :=
  ∀ s, (x s).log.findings = [] → (∀ r ∈ (x s).log.types, type r.1 = some r.2 ∧ good r.2) →
    P (x s).value

namespace Yields

variable {P Q : α → Prop} {R : β → Prop} {x : Checking σ α} {f : α → Checking σ β}

theorem pure {a : α} (h : P a) : Yields type good P (Pure.pure a : Checking σ α) :=
  fun _ _ _ => h

theorem bind (hx : Yields type good P x) (hf : ∀ a, P a → Yields type good R (f a)) :
    Yields type good R (x >>= f) := by
  intro s hclean htypes
  rw [bind_eq] at hclean htypes ⊢
  obtain ⟨hclean, hclean'⟩ := List.append_eq_nil_iff.1 hclean
  obtain ⟨htypes, htypes'⟩ := List.forall_mem_append.1 htypes
  exact hf _ (hx s hclean htypes) _ hclean' htypes'

theorem mono (hx : Yields type good P x) (h : ∀ a, P a → Q a) : Yields type good Q x :=
  fun s hclean htypes => h _ (hx s hclean htypes)

theorem both (hP : Yields type good P x) (hQ : Yields type good Q x) :
    Yields type good (fun a => P a ∧ Q a) x :=
  fun s hclean htypes => ⟨hP s hclean htypes, hQ s hclean htypes⟩

/-- Nothing has to be shown behind a finding. -/
theorem report (span : Span) (fault : Fault) {k : Unit → Checking σ α} :
    Yields type good P (report span fault >>= k) := by
  intro s hclean
  rw [bind_eq, Log.findings_append, List.append_eq_nil_iff] at hclean
  cases hclean.1

theorem report_only (span : Span) (fault : Fault) {P : Unit → Prop} :
    Yields type good P (Checking.report span fault : Checking σ Unit) :=
  fun _ hclean => by cases hclean

theorem record (id : Nat) (t : Ty) :
    Yields type good (fun _ => type id = some t ∧ good t) (record id t : Checking σ Unit) :=
  fun _ _ htypes => htypes _ List.mem_cons_self

theorem of_forms {good' : Ty → Prop} (h : Forms true good' P x) : Yields type good P x :=
  fun s hclean _ => (h s fun _ => hclean).1

end Yields

end Checking

/-! ## Type expressions -/

theorem Ty.fitArgs_self (ts : List Ty) : Ty.fitArgs ts ts.length = ts := by
  simp only [fitArgs, List.take_length, Nat.sub_self, List.replicate_zero, List.append_nil]

namespace Place

open Checking

variable {place : Place}

theorem Names.isNamed {strict : Bool} (h : place.Sound strict) {space : Option Ident} {name : Ident}
    {t : Ty} (hname : place.Names space name t) : t.IsNamed place.bundle.shape := by
  cases hname with
  | own _ hget => exact h.unit.types _ _ hget
  | imported _ hunit hget =>
    exact (h.bundle.units _ (Bundle.mem_units_of_get? hunit)).types _ _ hget

/-- What a name in front of arguments stands for when nothing is found. -/
def NamedRight (place : Place) (space : Option Ident) (name : Ident) (argCount : Nat) : Named → Prop
  | .settled t => argCount = 0 ∧ ((space = none ∧ ∃ index,
      place.generics.idxOf? name.name = some index ∧ t = .generic index name.name) ∨
        place.Names space name t ∧ arityOf t = 0)
  | .template base arity =>
    place.Names space name base ∧ arityOf base = arity ∧ arity = argCount ∧ arity ≠ 0

theorem namedIn_yields {owner : Option SourceUnit} {space : Option Ident} {name : Ident}
    (howner : ∀ t, (owner.bind fun u => u.types.get? name.name) = some t →
      place.Names space name t) (written : TypeExpr) (argCount : Nat) :
    Yields type good (place.NamedRight space name argCount)
      (namedIn owner written name argCount : Checking σ Named) := by
  unfold namedIn
  split
  · exact .report _ _
  · next base hbase =>
      dsimp only
      split
      · exact .report _ _
      · next hcount =>
          have hcount : arityOf base = argCount := Decidable.not_not.1 hcount
          split
          · next hzero =>
              exact .pure ⟨hcount.symm.trans hzero, .inr ⟨howner base hbase, hzero⟩⟩
          · next hzero => exact .pure ⟨howner base hbase, rfl, hcount, hzero⟩

theorem named_yields (written : TypeExpr) (space : Option Ident) (name : Ident) (argCount : Nat) :
    Yields type good (place.NamedRight space name argCount)
      (place.named written space name argCount : Checking σ Named) := by
  unfold named
  split
  · split
    · next target htarget =>
        refine namedIn_yields (fun t ht => ?_) _ _
        obtain ⟨u, hu, hget⟩ := Option.bind_eq_some_iff.1 ht
        exact .imported htarget hu hget
    · exact .report _ _
  · split
    · next index hindex =>
        split
        · exact .report _ _
        · next hcount =>
            exact .pure ⟨Decidable.not_not.1 hcount, .inl ⟨rfl, index, hindex, rfl⟩⟩
    · next hindex =>
        refine namedIn_yields (fun t ht => ?_) _ _
        exact .own hindex ht

/-- The instance of a struct with as many arguments as it has parameters. -/
theorem instanceOf_yields (h : place.Sound true) {id : StructId} {structName : String}
    {types : List Ty} (hnamed : (Ty.struct id structName types.length).IsNamed place.bundle.shape) :
    Yields type good (· = .inst id structName types)
      (place.instanceOf .direct (.struct id structName types.length) types.length types) := by
  obtain ⟨d, hd, hnames⟩ := Option.map_eq_some_iff.1 hnamed
  rw [Prod.mk.injEq] at hnames
  unfold instanceOf
  simp only [Ty.structBase?, Ty.structId?, Option.bind_some, hd, Ty.fitArgs_self]
  intro s _ _
  change Ty.inst d.id d.name types = _
  rw [h.bundle.ids id d hd, hnames.1]

mutual
/-- A type expression that is resolved without a finding stands for the type that it is resolved
to. -/
theorem resolve_yields (h : place.Sound true) : ∀ written : TypeExpr,
    Yields type good (place.Denotes written) (place.resolve .direct written)
  | .pointer _ _ pointee => by
    rw [resolve]
    exact .bind (resolve_yields h pointee) fun _ ht => .pure (.pointer ht)
  | .array _ _ element => by
    rw [resolve]
    exact .bind (resolve_yields h element) fun _ ht => .pure (.array ht)
  | .slice _ element => by
    rw [resolve]
    exact .bind (resolve_yields h element) fun _ ht => .pure (.slice ht)
  | .named mark space name args => by
    rw [resolve]
    refine .bind (named_yields _ _ _ _) fun named hnamed => ?_
    cases named with
    | settled t =>
      obtain ⟨hargs, hcases⟩ := hnamed
      obtain rfl := List.length_eq_zero_iff.1 hargs
      rcases hcases with ⟨rfl, index, hindex, rfl⟩ | ⟨hname, harity⟩
      · exact .pure (.generic hindex)
      · exact .pure (.named hname harity)
    | template base arity =>
      obtain ⟨hname, hbase, hcount, hzero⟩ := hnamed
      refine .bind (resolveAll_yields h args) fun types htypes => ?_
      -- Only a struct takes arguments.
      cases base with
      | struct id structName n =>
        obtain rfl : n = args.length := hbase.trans hcount
        have hlength := htypes.length_eq
        rw [hcount] at hzero ⊢
        rw [hlength] at hname ⊢
        refine (instanceOf_yields h (hname.isNamed h)).mono fun t ht => ?_
        rw [ht]
        exact .inst (hlength ▸ hname) (fun hnil => hzero (by rw [hnil]; rfl)) htypes
      | _ => exact absurd hbase.symm hzero

theorem resolveAll_yields (h : place.Sound true) : ∀ written : List TypeExpr,
    Yields type good (List.Forall₂ place.Denotes written) (place.resolveAll .direct written)
  | [] => by
    rw [resolveAll]
    exact .pure .nil
  | t :: ts => by
    rw [resolveAll]
    exact .bind (resolve_yields h t) fun _ ht =>
      .bind (resolveAll_yields h ts) fun _ hts => .pure (.cons ht hts)
end

end Place

/-! ## Rules -/

mutual
/-- A type without generic parameters stays as it is. -/
theorem Ty.Plain.substitute_nil {strict : Bool} {shape : Shape} :
    ∀ t : Ty, t.Plain strict shape [] → t.substitute [] = t
  | .any, _ | .void, _ | .bool, _ | .string, _ | .number _, _ | .range _, _ | .struct _ _ _, _
  | .unit _, _ => rfl
  | .pointer _ t, h => congrArg (Ty.pointer _) (Ty.Plain.substitute_nil t h)
  | .array _ t, h => congrArg (Ty.array _) (Ty.Plain.substitute_nil t h)
  | .slice t, h => congrArg Ty.slice (Ty.Plain.substitute_nil t h)
  | .fn _ _ _, h => h.elim
  | .inst _ _ as, h => congrArg (Ty.inst _ _) (Ty.AllPlain.substitute_nil as h.2)
  | .generic _ _, h => by simp [Ty.Plain] at h

theorem Ty.AllPlain.substitute_nil {strict : Bool} {shape : Shape} :
    ∀ ts : List Ty, Ty.AllPlain strict shape [] ts → Ty.substituteList [] ts = ts
  | [], _ => rfl
  | t :: ts, h => by
    rw [Ty.substituteList, Ty.Plain.substitute_nil t h.1, Ty.AllPlain.substitute_nil ts h.2]
end

namespace Typing

open Checking

variable {place : Place} {locals : ScopeStack}

theorem expectType_yields (part : Typed) (expected : Ty) :
    Yields type good (fun _ => part.type.coerces expected = true)
      (expectType part expected : Checking σ Unit) := by
  unfold expectType
  split
  · next h => exact .pure h
  · exact .report_only _ _

theorem expectOperand_yields (op : String) (part : Typed) (accepts : Ty → Bool) :
    Yields type good (fun fits => fits = true ∧ Takes accepts part.type)
      (expectOperand op part accepts : Checking σ Bool) := by
  unfold expectOperand
  split
  · next h =>
      refine .pure ⟨rfl, ?_⟩
      rcases Bool.or_eq_true_iff.1 h with hany | haccepts
      · refine .inl ?_
        cases htype : part.type with
        | any => rfl
        | _ =>
          rw [htype] at hany
          cases hany
      · exact .inr haccepts
  · exact .report _ _

theorem commonType_yields (left right : Typed) :
    Yields type good (fun t => left.type.unify right.type = some t)
      (commonType left right : Checking σ Ty) := by
  unfold commonType
  split
  · next h => exact .pure h
  · exact .report _ _

theorem binaryType_yields (op : BinaryOp) (left right : Typed) :
    Yields type good (BinaryRule op left.type right.type)
      (binaryType op left right : Checking σ Ty) := by
  unfold binaryType
  split
  · next hlogical =>
      exact .bind (expectOperand_yields _ _ _) fun _ hleft =>
        .bind (expectOperand_yields _ _ _) fun _ hright =>
          .pure (.logical hlogical hleft.2 hright.2)
  · next hlogical =>
      refine .bind (expectOperand_yields _ _ _) fun leftFits hleft =>
        .bind (expectOperand_yields _ _ _) fun rightFits hright => ?_
      obtain ⟨rfl, hleft⟩ := hleft
      obtain ⟨rfl, hright⟩ := hright
      refine .bind (commonType_yields left right) fun common hcommon => .pure ?_
      -- An operator that is not logical is of one of the three other kinds.
      cases op with
      | and => exact absurd rfl hlogical
      | or => exact absurd rfl hlogical
      | add | sub | mul | div | mod => exact .arithmetic rfl hleft hright hcommon
      | eq | ne => exact .equality rfl hleft hright hcommon
      | lt | gt | le | ge => exact .relational rfl hleft hright hcommon

theorem unaryType_yields (op : UnaryOp) (operand : Typed) :
    Yields type good (UnaryRule op operand.type) (unaryType op operand : Checking σ Ty) := by
  unfold unaryType
  split
  · exact .bind (expectOperand_yields _ _ _) fun _ h => .pure (.not h.2)
  · refine .bind (expectOperand_yields _ _ _) fun fits h => ?_
    obtain ⟨rfl, h⟩ := h
    exact .pure (.negate h)
  · exact .pure .addressOf
  · exact .pure .own
  · split
    · next hpointer =>
        rw [hpointer]
        exact .pure .deref
    · next hany =>
        rw [hany]
        exact .pure .derefAny
    · exact .report _ _

theorem numberRule (literal : NumberLiteral) : NumberRule literal (numberType literal) := by
  obtain ⟨text, format⟩ := literal
  unfold numberType NumberLiteral.isDecimal
  cases format with
  | some format => exact .named
  | none =>
    dsimp only
    split
    · next h => exact .decimal (List.contains_iff_mem.1 h)
    · next h => exact .whole fun hmem => h (List.contains_iff_mem.2 hmem)

theorem identType_yields (name : Ident) :
    Yields type good (IdentRule place locals name.name)
      (identType place locals name : Checking σ Ty) := by
  unfold identType
  split
  · next t ht =>
      refine .pure ?_
      rcases Option.or_eq_some_iff.1 ht with hlocal | ⟨hnone, hrest⟩
      · exact .byScope hlocal
      · rcases Option.or_eq_some_iff.1 hrest with hfunction | ⟨hnone', hspace⟩
        · exact .function hnone hfunction
        · exact .space hnone hnone' hspace
  · exact .report _ _

/-- The signature of a call is the one of the callee with the type arguments put in. -/
theorem callSignature_yields {strict : Bool} {signature : Signature}
    (h : signature.Sound strict place.bundle.shape) (callee : Expr) (types : List Ty) :
    Yields type good (fun s => types.length = signature.arity ∧
        s.params = signature.params.map (Ty.substitute types) ∧
        s.result = signature.result.substitute types)
      (callSignature .direct callee signature types) := by
  unfold callSignature
  split
  · exact .report _ _
  · next hcount =>
      have hcount : types.length = signature.arity := Decidable.not_not.1 hcount
      split
      -- Without generic parameters nothing has to be put in.
      · next hzero =>
          obtain ⟨own, hown, hparams, hresult⟩ := h
          rw [hzero, List.length_eq_zero_iff] at hown
          subst hown
          obtain rfl := List.length_eq_zero_iff.1 (hcount.trans hzero)
          refine .pure ⟨hcount, ?_, (Ty.Plain.substitute_nil _ hresult).symm⟩
          rw [List.map_congr_left fun t ht => Ty.Plain.substitute_nil t
            (hparams t ht), List.map_id']
      · exact fun s _ _ => ⟨hcount, rfl, rfl⟩

theorem expectAll_yields (parts : List Typed) (expected : List Ty)
    (hlength : parts.length = expected.length) :
    Yields type good (fun _ => AllCoerce (parts.map (·.type)) expected)
      (expectAll parts expected : Checking σ Unit) := by
  induction parts generalizing expected with
  | nil =>
    obtain rfl := List.length_eq_zero_iff.1 hlength.symm
    exact .pure .nil
  | cons part parts ih =>
    cases expected with
    | nil => cases hlength
    | cons t expected =>
      rw [expectAll]
      exact .bind (expectType_yields part t) fun _ ht =>
        (ih expected (Nat.succ.inj hlength)).mono fun _ hts => .cons ht hts

theorem callType_yields {strict : Bool} (h : place.Sound true) (span : Span) (callee : Expr)
    {calleeType : Ty} (hcallee : place.Fits strict calleeType)
    (typeArgs : List TypeExpr) (args : List Typed) :
    Yields type good (CallRule place calleeType typeArgs (args.map (·.type)))
      (callType place .direct span callee calleeType typeArgs args) := by
  unfold callType
  split
  · next arity params result =>
      refine .bind (Place.resolveAll_yields h typeArgs) fun types htypes =>
        .bind (callSignature_yields hcallee callee types) fun s hs => ?_
      obtain ⟨hcount, hparams, hresult⟩ := hs
      dsimp only
      split
      · exact .report _ _
      · next hlength =>
          refine .bind (expectAll_yields _ _ (Decidable.not_not.1 hlength).symm) fun _ hargs =>
            .pure ?_
          rw [hparams] at hargs
          rw [hresult]
          exact .fn (htypes.length_eq.trans hcount) htypes hargs
  · exact .pure .any
  · exact .report _ _

theorem getType_ofValue_yields (object : Typed) (member : Ident) (target : Ty) :
    Yields type good (fun t => target = .any ∧ t = .any ∨
        place.bundle.member? target member.name = some t)
      (getType.ofValue place object member target : Checking σ Ty) := by
  unfold getType.ofValue
  split
  · exact .pure (.inl ⟨rfl, rfl⟩)
  · split
    · next hmember => exact .pure (.inr hmember)
    · exact .report _ _
  · split
    · next hmember => exact .pure (.inr hmember)
    · exact .report _ _
  · exact .report _ _

theorem getType_yields (object : Typed) (member : Ident) :
    Yields type good (GetRule place object.type member.name)
      (getType place object member : Checking σ Ty) := by
  unfold getType
  split
  · next target htarget =>
      split
      · next hfound =>
          obtain ⟨u, hu, hfunction⟩ := Option.bind_eq_some_iff.1 hfound
          rw [htarget]
          exact .pure (.function hu hfunction)
      · exact .report _ _
  · next hpointer =>
      rw [hpointer]
      refine (getType_ofValue_yields object member _).mono fun t ht => ?_
      rcases ht with ⟨rfl, rfl⟩ | hmember
      · exact .throughAny
      · exact .through hmember
  · refine (getType_ofValue_yields object member _).mono fun t ht => ?_
    rcases ht with ⟨htarget, rfl⟩ | hmember
    · rw [htarget]
      exact .any
    · exact .member hmember

theorem expectFields_yields (fields : List (Ident × Typed)) (members : List (String × Ty))
    (hlength : members.length = fields.length) :
    Yields type good (fun _ => fields.map (·.1.name) = members.map Prod.fst ∧
        AllCoerce (fields.map (·.2.type)) (members.map Prod.snd))
      (expectFields fields members : Checking σ Unit) := by
  induction fields generalizing members with
  | nil =>
    obtain rfl := List.length_eq_zero_iff.1 hlength
    exact .pure ⟨rfl, .nil⟩
  | cons field fields ih =>
    obtain ⟨name, value⟩ := field
    cases members with
    | nil => cases hlength
    | cons m members =>
      obtain ⟨expected, t⟩ := m
      rw [expectFields]
      split
      · exact .report _ _
      · next hname =>
          refine .bind (expectType_yields value t) fun _ ht =>
            (ih members (Nat.succ.inj hlength)).mono fun _ hrest => ⟨?_, .cons ht hrest.2⟩
          simp only [List.map_cons, hrest.1, Decidable.not_not.1 hname]

theorem newType_yields (span typeSpan : Span) {t : Ty} (ht : t ≠ .any)
    (fields : List (Ident × Typed)) :
    Yields type good (fun made => made = .pointer .owned t ∧
        NewRule place t (fields.map (·.1.name)) (fields.map (·.2.type)))
      (newType place span typeSpan t fields : Checking σ Ty) := by
  unfold newType
  split
  · next hany =>
      cases t with
      | any => exact absurd rfl ht
      | _ => cases hany
  · split
    · exact .report _ _
    · next members hmembers =>
        dsimp only
        split
        · exact .report _ _
        · next hlength =>
            refine .bind (expectFields_yields _ _ (Decidable.not_not.1 hlength)) fun _ hfields =>
              .pure ⟨rfl, ?_⟩
            rw [hfields.1]
            exact .mk hmembers hfields.2

theorem staticArrayType_yields (span : Span) (length : Nat) (element : Ty) (elements : List Typed) :
    Yields type good (fun t => t = .array length element ∧ elements.length = length ∧
        ∀ t ∈ elements.map (·.type), t.coerces element = true)
      (staticArrayType span (.array length element) elements : Checking σ Ty) := by
  unfold staticArrayType
  dsimp only
  split
  · exact .report _ _
  · next hlength =>
      refine .bind (expectAll_yields _ _ (List.length_map _).symm) fun _ hall => .pure ?_
      refine ⟨rfl, (Decidable.not_not.1 hlength).symm, fun t ht => ?_⟩
      rw [AllCoerce, List.forall₂_map_left_iff, List.forall₂_map_right_iff,
        List.forall₂_same] at hall
      obtain ⟨part, hpart, rfl⟩ := List.mem_map.1 ht
      exact hall part hpart

theorem subscriptType_ofElement_yields {object : Ty} (index : Typed) {element : Ty}
    (h : Elements object element) :
    Yields type good (SubscriptRule object index.type)
      (subscriptType.ofElement index element : Checking σ Ty) := by
  unfold subscriptType.ofElement
  split
  · next hrange =>
      rw [hrange]
      exact .pure (.slice h)
  · next hany =>
      rw [hany]
      exact .pure (.element h (.inl rfl))
  · split
    · next hinteger => exact .pure (.element h (.inr hinteger))
    · exact .report _ _

theorem subscriptType_yields (object index : Typed) :
    Yields type good (SubscriptRule object.type index.type)
      (subscriptType object index : Checking σ Ty) := by
  unfold subscriptType
  split
  · next harray =>
      rw [harray]
      exact subscriptType_ofElement_yields index .array
  · next hslice =>
      rw [hslice]
      exact subscriptType_ofElement_yields index .slice
  · next hany =>
      rw [hany]
      exact .pure .any
  · exact .report _ _

/-- Two integers, of which some may be unknown, unify to an integer unless both are unknown. -/
theorem any_of_unify {first last t : Ty} (hfirst : Takes isInteger first)
    (hlast : Takes isInteger last) (h : first.unify last = some t)
    (hnumber : ∀ format, t ≠ .number format) : first = .any ∧ last = .any := by
  rcases hfirst with rfl | hfirst
  · rcases hlast with rfl | hlast
    · exact ⟨rfl, rfl⟩
    · cases last with
      | number format => exact absurd (Option.some.inj h).symm (hnumber format)
      | _ => cases hlast
  · cases first with
    | number format =>
      rcases hlast with rfl | hlast
      · exact absurd (Option.some.inj h).symm (hnumber format)
      · cases last with
        | number format' =>
          simp only [Ty.unify] at h
          split at h
          · split at h
            · exact absurd (Option.some.inj h).symm (hnumber _)
            · exact absurd (Option.some.inj h).symm (hnumber _)
          · cases h
        | _ => cases hlast
    | _ => cases hfirst

theorem rangeType_yields (first last : Typed) :
    Yields type good (RangeRule first.type last.type) (rangeType first last : Checking σ Ty) := by
  unfold rangeType
  refine .bind (expectOperand_yields _ _ _) fun firstFits hfirst =>
    .bind (expectOperand_yields _ _ _) fun lastFits hlast => ?_
  obtain ⟨rfl, hfirst⟩ := hfirst
  obtain ⟨rfl, hlast⟩ := hlast
  rw [Bool.and_self, if_pos rfl]
  split
  · next hunify => exact .pure (.numbers hfirst hlast hunify)
  · next t hnumber hunify =>
      obtain ⟨hfirst', hlast'⟩ :=
        any_of_unify hfirst hlast hunify fun format heq => hnumber format heq
      rw [hfirst', hlast']
      exact .pure .any
  · exact .report _ _

theorem elementType_yields (iterable : Typed) :
    Yields type good (EachRule iterable.type) (elementType iterable : Checking σ Ty) := by
  unfold elementType
  split
  · next harray =>
      rw [harray]
      exact .pure (.elements .array)
  · next hslice =>
      rw [hslice]
      exact .pure (.elements .slice)
  · next hrange =>
      rw [hrange]
      exact .pure .range
  · next hany =>
      rw [hany]
      exact .pure .any
  · exact .report _ _

/-! ## Expressions -/

/-- What the check of an expression gives. -/
structure Right (place : Place) (type : Nat → Option Ty) (locals : ScopeStack) (e : Expr) (t : Ty) :
    Prop where
  typed : ExprTyped place type locals e t
  fits : place.Fits false t

theorem settle_yields {mark : Mark} {e : Expr} (hid : e.id = mark.id) {parts : List Expr}
    (hparts : e.parts = parts ++ [e]) (hnodes : ∀ p ∈ parts, NodeTyped place type locals p) {t : Ty}
    (ht : NodeRule place type locals e t) :
    Yields type (place.Fits false) (Right place type locals e)
      (settle mark t : Checking σ Ty) := by
  refine .bind (.record mark.id t) fun _ h => .pure ⟨⟨hid ▸ h.1, ?_⟩, h.2⟩
  rw [hparts]
  refine List.forall_mem_append.2 ⟨hnodes, List.forall_mem_singleton.2 ⟨t, hid ▸ h.1, ht⟩⟩

/-- A node without parts. -/
theorem settle_leaf_yields {mark : Mark} {e : Expr} (hid : e.id = mark.id) (hparts : e.parts = [e])
    {t : Ty} (ht : NodeRule place type locals e t) :
    Yields type (place.Fits false) (Right place type locals e)
      (settle mark t : Checking σ Ty) := by
  have hnone : e.parts = [] ++ [e] := hparts
  exact settle_yields hid hnone (fun _ hp => absurd hp List.not_mem_nil) ht

mutual
/-- The check of an expression without findings types all its nodes right. -/
theorem checkExpr_yields (h : place.Sound true) : ∀ e : Expr, e.every Expr.isSized = true →
    Yields type (place.Fits false) (Right place type locals e) (checkExpr place .direct locals e)
  | .binary _ op left right, hsized => by
    simp only [Expr.every, Bool.and_eq_true] at hsized
    rw [checkExpr]
    refine .bind (checkExpr_yields h left hsized.1.2) fun _ hl =>
      .bind (checkExpr_yields h right hsized.2) fun _ hr =>
        .bind (binaryType_yields op _ _) fun _ ht => settle_yields rfl rfl ?_ ?_
    · exact List.forall_mem_append.2 ⟨hl.typed.nodes, hr.typed.nodes⟩
    · exact .binary hl.typed.recorded hr.typed.recorded ht
  | .unary _ op operand, hsized => by
    simp only [Expr.every, Bool.and_eq_true] at hsized
    rw [checkExpr]
    exact .bind (checkExpr_yields h operand hsized.2) fun _ ho =>
      .bind (unaryType_yields op _) fun _ ht =>
        settle_yields rfl rfl ho.typed.nodes (.unary ho.typed.recorded ht)
  | .number _ literal, _ => settle_leaf_yields rfl rfl (.number (numberRule literal))
  | .string _ _, _ => settle_leaf_yields rfl rfl .string
  | .bool _ _, _ => settle_leaf_yields rfl rfl .bool
  | .ident _ name, _ => by
    rw [checkExpr]
    exact .bind (identType_yields name) fun _ ht => settle_leaf_yields rfl rfl (.ident ht)
  | .call _ callee typeArgs args, hsized => by
    simp only [Expr.every, Bool.and_eq_true] at hsized
    rw [checkExpr]
    refine .bind (checkExpr_yields h callee hsized.1.2) fun _ hf =>
      .bind (checkExprs_yields h args hsized.2) fun parts hargs =>
        .bind (callType_yields h _ callee hf.fits typeArgs parts) fun _ ht =>
          settle_yields rfl rfl ?_ ?_
    · exact List.forall_mem_append.2 ⟨hf.typed.nodes, hargs.2⟩
    · exact .call hf.typed.recorded (List.forall₂_map_right_iff.2 hargs.1) ht
  | .get _ object member, hsized => by
    simp only [Expr.every, Bool.and_eq_true] at hsized
    rw [checkExpr]
    exact .bind (checkExpr_yields h object hsized.2) fun _ ho =>
      .bind (getType_yields _ member) fun _ ht =>
        settle_yields rfl rfl ho.typed.nodes (.get ho.typed.recorded ht)
  | .new _ written fields, hsized => by
    simp only [Expr.every, Bool.and_eq_true] at hsized
    -- Without a finding the type is not `any`, so its members are known.
    have hforms : Forms true (fun _ => True) (place.Plain true) (place.resolve .direct written) :=
      Place.resolve_forms h written
    rw [checkExpr]
    refine .bind ((Place.resolve_yields h written).both (.of_forms hforms)) fun t ht =>
      .bind (checkFields_yields h fields hsized.2) fun parts hfields => ?_
    have hany : t ≠ .any := by
      rintro rfl
      cases ht.2
    refine .bind (newType_yields _ _ hany parts) fun made hmade =>
      settle_yields rfl rfl hfields.2.2 ?_
    rw [hmade.1]
    refine .new ht.1 (List.forall₂_map_right_iff.2 hfields.2.1) ?_
    have hnames := congrArg (List.map Ident.name) hfields.1
    rw [List.map_map, List.map_map] at hnames
    exact hnames ▸ hmade.2
  | .group _ inner, hsized => by
    simp only [Expr.every, Bool.and_eq_true] at hsized
    rw [checkExpr]
    exact .bind (checkExpr_yields h inner hsized.2) fun _ hi =>
      settle_yields rfl rfl hi.typed.nodes (.group hi.typed.recorded)
  | .null _, _ => settle_leaf_yields rfl rfl .null
  | .zero _, _ => settle_leaf_yields rfl rfl .zero
  | .staticArray _ written elements, hsized => by
    simp only [Expr.every, Expr.isSized, Bool.and_eq_true] at hsized
    have harray : Yields type (place.Fits false) (fun t => ∃ length element,
        t = .array length element)
        (place.resolve .direct written) := fun s _ _ => Place.isArray_resolve hsized.1 _ s
    rw [checkExpr]
    refine .bind ((Place.resolve_yields h written).both harray) fun t ht =>
      .bind (checkExprs_yields h elements hsized.2) fun parts helements => ?_
    obtain ⟨ht, length, element, rfl⟩ := ht
    refine .bind (staticArrayType_yields _ length element parts) fun made hmade =>
      settle_yields rfl rfl helements.2 ?_
    obtain ⟨rfl, hlength, hall⟩ := hmade
    obtain rfl : elements.length = length := helements.1.length_eq.trans hlength
    exact .staticArray ht (List.forall₂_map_right_iff.2 helements.1) hall
  | .subscript _ object index, hsized => by
    simp only [Expr.every, Bool.and_eq_true] at hsized
    rw [checkExpr]
    refine .bind (checkExpr_yields h object hsized.1.2) fun _ ho =>
      .bind (checkExpr_yields h index hsized.2) fun _ hi =>
        .bind (subscriptType_yields _ _) fun _ ht => settle_yields rfl rfl ?_ ?_
    · exact List.forall_mem_append.2 ⟨ho.typed.nodes, hi.typed.nodes⟩
    · exact .subscript ho.typed.recorded hi.typed.recorded ht
  | .range _ first last, hsized => by
    simp only [Expr.every, Bool.and_eq_true] at hsized
    rw [checkExpr]
    refine .bind (checkExpr_yields h first hsized.1.2) fun _ hf =>
      .bind (checkExpr_yields h last hsized.2) fun _ hl =>
        .bind (rangeType_yields _ _) fun _ ht => settle_yields rfl rfl ?_ ?_
    · exact List.forall_mem_append.2 ⟨hf.typed.nodes, hl.typed.nodes⟩
    · exact .range hf.typed.recorded hl.typed.recorded ht

theorem checkExprs_yields (h : place.Sound true) :
    ∀ es : List Expr, everyOf Expr.isSized es = true → Yields type (place.Fits false)
      (fun parts => List.Forall₂ (fun e (part : Typed) => type e.id = some part.type) es parts ∧
        ∀ p ∈ partsAll es, NodeTyped place type locals p)
      (checkExprs place .direct locals es)
  | [], _ => .pure ⟨.nil, fun _ hp => absurd hp List.not_mem_nil⟩
  | e :: es, hsized => by
    simp only [everyOf, Bool.and_eq_true] at hsized
    rw [checkExprs]
    exact .bind (checkExpr_yields h e hsized.1) fun _ ht =>
      .bind (checkExprs_yields h es hsized.2) fun _ hts =>
        .pure ⟨.cons ht.typed.recorded hts.1, List.forall_mem_append.2 ⟨ht.typed.nodes, hts.2⟩⟩

theorem checkFields_yields (h : place.Sound true) :
    ∀ fields : List (Ident × Expr), everyField Expr.isSized fields = true →
      Yields type (place.Fits false)
        (fun parts => fields.map Prod.fst = parts.map Prod.fst ∧
          List.Forall₂ (fun f (part : Ident × Typed) => type f.2.id =
            some part.2.type) fields parts ∧
          ∀ p ∈ partsFields fields, NodeTyped place type locals p)
        (checkFields place .direct locals fields)
  | [], _ => .pure ⟨rfl, .nil, fun _ hp => absurd hp List.not_mem_nil⟩
  | (name, e) :: fields, hsized => by
    simp only [everyField, Bool.and_eq_true] at hsized
    rw [checkFields]
    refine .bind (checkExpr_yields h e hsized.1) fun _ ht =>
      .bind (checkFields_yields h fields hsized.2) fun parts hts => .pure ⟨?_, ?_, ?_⟩
    · rw [List.map_cons, List.map_cons, hts.1]
    · exact .cons ht.typed.recorded hts.2.1
    · exact List.forall_mem_append.2 ⟨ht.typed.nodes, hts.2.2⟩
end

end Typing

end Custody
