import Custody.Proofs.Relabelling
import Custody.Proofs.Resemblance
import Custody.Proofs.TypeFormation

/-!
# Types side by side

Two bundles mirror each other if every name stands in the one for what it stands for in the other,
with new labels (`Bundle.Mirrors`). Then a check of a tree in the first bundle does what the check
of a resembling tree does in the second: it gives the relabelled type and writes the relabelled log,
at places that answer to each other (`Checking.Mirrors`). The two checks may also make their
instances in different ways, as long as the instances come out the same. What is fixed about two
checks is a `Coupling`.

This module has the lemmas for type expressions, up to the members of a struct and the signature of
a function.
-/

set_option autoImplicit false

namespace Custody

variable {τ : Relabelling}

/-! ## Units and bundles -/

/-- The names of a unit stand for what they stand for in another one, with new labels. -/
structure SourceUnit.Mirrors (τ : Relabelling) (u u' : SourceUnit) : Prop where
  types : ∀ name, u'.types.get? name = (u.types.get? name).map τ.ty
  functions : ∀ name, u'.functions.get? name = (u.functions.get? name).map τ.ty
  namespaces : ∀ name, u'.namespaces.get? name = (u.namespaces.get? name).map τ.ty

/-- Each unit and each struct of a bundle is found in another one, with new labels. -/
structure Bundle.Mirrors (τ : Relabelling) (b b' : Bundle) : Prop where
  units : ∀ i, Option.Rel (SourceUnit.Mirrors τ) (b.get? i) (b'.get? (τ.unit i))
  structs : ∀ id, b'.struct? (τ.struct id) = (b.struct? id).map τ.structDef

/-- The same struct with new labels, wherever it was written. -/
structure StructDef.Mirrors (τ : Relabelling) (d d' : StructDef) : Prop where
  id : d'.id = τ.struct d.id
  name : d'.name = d.name
  generics : d'.generics = d.generics
  members : d'.members = d.members.map fun m => (m.1, τ.ty m.2)

/-- Each unit and each struct of a bundle is found in another one with new labels, wherever it was
written. -/
structure Bundle.NamesMirror (τ : Relabelling) (b b' : Bundle) : Prop where
  units : ∀ i, Option.Rel (SourceUnit.Mirrors τ) (b.get? i) (b'.get? (τ.unit i))
  structs : ∀ id, Option.Rel (StructDef.Mirrors τ) (b.struct? id) (b'.struct? (τ.struct id))

theorem Bundle.Mirrors.names {b b' : Bundle} (h : b.Mirrors τ b') : b.NamesMirror τ b' := by
  refine ⟨h.units, fun id => ?_⟩
  rw [h.structs id]
  cases b.struct? id with
  | none => exact .none
  | some d => exact .some ⟨rfl, rfl, rfl, rfl⟩

/-! ## Checks -/

/-- How two checks run side by side: the labels of the second one, which spans answer to which, and
which states of the instances belong together. -/
structure Coupling (σ σ' : Type) where
  labels : Relabelling
  spans : Correspondence
  instances : σ → σ' → Prop

/-- The coupling of two checks without a state, the second one with new labels in renumbered
files. -/
def Relabelling.coupling (τ : Relabelling) : Coupling Unit Unit :=
  ⟨τ, .refile τ.unit, fun _ _ => True⟩

/-- The same finding with new labels, at a place that answers to the first one. -/
structure Finding.Resembles (τ : Relabelling) (ρ : Correspondence) (f f' : Finding) : Prop where
  span : ρ.node f.span f'.span
  fault : f'.fault = τ.fault f.fault

/-- The same log with new labels, at places that answer to each other. -/
structure Log.Resembles (τ : Relabelling) (ρ : Correspondence) (l l' : Log) : Prop where
  types : l'.types = l.types.map fun e => (e.1, τ.ty e.2)
  findings : List.Forall₂ (Finding.Resembles τ ρ) l.findings l'.findings

theorem Log.Resembles.append {ρ : Correspondence} {l₁ l₂ l₁' l₂' : Log} (h₁ : l₁.Resembles τ ρ l₁')
    (h₂ : l₂.Resembles τ ρ l₂') : (l₁ ++ l₂).Resembles τ ρ (l₁' ++ l₂') := by
  refine ⟨?_, ?_⟩
  · rw [Log.types_append, Log.types_append, h₁.types, h₂.types, List.map_append]
  · rw [Log.findings_append, Log.findings_append]
    exact List.rel_append h₁.findings h₂.findings

/-- The log that resembles another one in renumbered files is the relabelled one. -/
theorem Log.Resembles.eq_log {l l' : Log} (h : l.Resembles τ (.refile τ.unit) l') :
    l' = τ.log l := by
  obtain ⟨types', findings'⟩ := l'
  have hfindings : findings' = l.findings.map τ.finding := by
    refine eq_map_of_forall₂ h.findings fun f f' hf => ?_
    obtain ⟨span', fault'⟩ := f'
    obtain ⟨rfl, rfl⟩ := hf
    rfl
  rw [hfindings]
  exact congrArg (Log.mk · _) h.types

/-- Two outcomes: the values are related by `R`, the states belong together, and the logs resemble
each other. -/
structure Checked.Resembles {σ σ' α β : Type} (κ : Coupling σ σ') (R : α → β → Prop)
    (r : Checked σ α)
    (r' : Checked σ' β) : Prop where
  value : R r.value r'.value
  instances : κ.instances r.instances r'.instances
  log : r.log.Resembles κ.labels κ.spans r'.log

namespace Checking

variable {σ σ' α β γ δ : Type} {κ : Coupling σ σ'}

/-- From states that belong together, the second check does what the first one does. -/
def Mirrors (κ : Coupling σ σ') (R : α → β → Prop) (x : Checking σ α) (y : Checking σ' β) : Prop :=
  ∀ s s', κ.instances s s' → (x s).Resembles κ R (y s')

/-- Two checks, where `g` tells what becomes of the value of the first. -/
abbrev MirrorsTo (κ : Coupling σ σ') (g : α → β) (x : Checking σ α) (y : Checking σ' β) : Prop :=
  Mirrors κ (fun a b => b = g a) x y

variable {R : α → β → Prop} {S : γ → δ → Prop} {g : α → β} {x x₁ x₂ : Checking σ α}
  {y y₁ y₂ : Checking σ' β} {f : α → Checking σ γ} {f' : β → Checking σ' δ}

theorem Mirrors.bind (h : Mirrors κ R x y) (hf : ∀ a b, R a b → Mirrors κ S (f a) (f' b)) :
    Mirrors κ S (x >>= f) (y >>= f') := by
  intro s s' hs
  obtain ⟨hvalue, hinstances, hlog⟩ := h s s' hs
  obtain ⟨hvalue', hinstances', hlog'⟩ := hf _ _ hvalue _ _ hinstances
  rw [bind_eq, bind_eq]
  exact ⟨hvalue', hinstances', hlog.append hlog'⟩

theorem MirrorsTo.then (h : MirrorsTo κ g x y) (hf : ∀ a, Mirrors κ S (f a) (f' (g a))) :
    Mirrors κ S (x >>= f) (y >>= f') := by
  refine Mirrors.bind h ?_
  rintro a b rfl
  exact hf a

/-- For checks whose values have no labels. -/
theorem Mirrors.thenSame {y : Checking σ' α} {f' : α → Checking σ' δ} (h : Mirrors κ Eq x y)
    (hf : ∀ a, Mirrors κ S (f a) (f' a)) : Mirrors κ S (x >>= f) (y >>= f') := by
  refine Mirrors.bind h ?_
  rintro a b rfl
  exact hf a

/-- What is known about the value of the first check. -/
theorem Mirrors.and (h : Mirrors κ R x y) {P : α → Prop} (hP : ∀ s, P (x s).value) :
    Mirrors κ (fun a b => R a b ∧ P a) x y := by
  intro s s' hs
  obtain ⟨hvalue, hinstances, hlog⟩ := h s s' hs
  exact ⟨⟨hvalue, hP s⟩, hinstances, hlog⟩

theorem mirrors_pure {a : α} {b : β} (h : R a b) : Mirrors κ R (pure a) (pure b) :=
  fun _ _ hs => ⟨h, hs, rfl, .nil⟩

theorem mirrors_ite {p : Prop} [Decidable p] (h₁ : Mirrors κ R x₁ y₁) (h₂ : Mirrors κ R x₂ y₂) :
    Mirrors κ R (if p then x₁ else x₂) (if p then y₁ else y₂) := by
  split
  · exact h₁
  · exact h₂

theorem mirrors_report {span span' : Span} (h : κ.spans.node span span') (fault : Fault) :
    Mirrors κ Eq (report span fault) (report span' (κ.labels.fault fault)) :=
  fun _ _ hs => ⟨rfl, hs, rfl, .cons ⟨h, rfl⟩ .nil⟩

/-- A report, and what follows it. -/
theorem report_then {x : Checking σ γ} {y : Checking σ' δ} {span span' : Span}
    (hspan : κ.spans.node span span') (fault : Fault) (h : Mirrors κ S x y) :
    Mirrors κ S (report span fault >>= fun _ => x)
      (report span' (κ.labels.fault fault) >>= fun _ => y) :=
  (mirrors_report hspan fault).thenSame fun _ => h

theorem mirrors_record {mark mark' : Mark} (hmark : mark.Resembles κ.spans mark') (type : Ty) :
    Mirrors κ Eq (record mark.id type) (record mark'.id (κ.labels.ty type)) := by
  rw [hmark.id]
  exact fun _ _ hs => ⟨rfl, hs, rfl, .nil⟩

end Checking

/-! ## Instances -/

section Builders

variable {σ σ' : Type} {κ : Coupling σ σ'} {builder : InstanceBuilder σ}
  {builder' : InstanceBuilder σ'} {b b' : Bundle}

/-- Two ways to make instances give the same, with new labels: for the structs of the bundles, and
for all signatures. -/
structure InstanceBuilder.Mirrors (κ : Coupling σ σ') (b b' : Bundle) (builder : InstanceBuilder σ)
    (builder' : InstanceBuilder σ') : Prop where
  struct : ∀ id d d', b.struct? id = some d → b'.struct? (κ.labels.struct id) = some d' → ∀ args,
    Checking.MirrorsTo κ κ.labels.ty (Checking.build (builder.struct d args))
      (Checking.build (builder'.struct d' (κ.labels.tys args)))
  fn : ∀ signature args, Checking.MirrorsTo κ κ.labels.signature
    (Checking.build (builder.fn signature args))
    (Checking.build (builder'.fn (κ.labels.signature signature) (κ.labels.tys args)))

/-- A place in a bundle and the same place in the other one, with instances made by the two
builders. -/
structure Place.Mirrors (κ : Coupling σ σ') (builder : InstanceBuilder σ)
    (builder' : InstanceBuilder σ')
    (p p' : Place) : Prop where
  bundle : p.bundle.NamesMirror κ.labels p'.bundle
  unit : p.unit.Mirrors κ.labels p'.unit
  generics : p'.generics = p.generics
  instances : builder.Mirrors κ p.bundle p'.bundle builder'

/-- No label is part of the text of a type that is resolved at the place. -/
def Place.Legible (τ : Relabelling) (builder : InstanceBuilder σ) (p : Place) : Prop :=
  ∀ type s, (τ.ty (p.resolve builder type s).value).text = (p.resolve builder type s).value.text

end Builders

theorem Relabelling.signature_substitute (s : Signature) (args : List Ty) :
    (τ.signature s).substitute (τ.tys args) = τ.signature (s.substitute args) := by
  have hparams : (τ.tys s.params).map (Ty.substitute (τ.tys args)) =
      τ.tys (s.params.map (Ty.substitute args)) := by
    rw [← Ty.substituteList_eq_map, ← Ty.substituteList_eq_map, τ.substituteList_ty]
  rw [Signature.substitute, Relabelling.signature, Signature.substitute, hparams, ← τ.substitute_ty]
  rfl

/-- Instances made anew are the same, with new labels. -/
theorem InstanceBuilder.direct_mirrors {b b' : Bundle} {κ : Coupling Unit Unit}
    (hinstances : ∀ s s', κ.instances s s') (h : b.NamesMirror κ.labels b') :
    InstanceBuilder.direct.Mirrors κ b b' .direct := by
  refine ⟨fun id d d' hd hd' args => ?_, fun s args => ?_⟩
  · have hstruct := h.structs id
    rw [hd, hd'] at hstruct
    cases hstruct with
    | some hstruct =>
      refine fun _ _ _ => ⟨?_, hinstances _ _, rfl, .nil⟩
      change d'.instantiate (κ.labels.tys args) = κ.labels.ty (d.instantiate args)
      rw [StructDef.instantiate, StructDef.instantiate, hstruct.id, hstruct.name]
      rfl
  · exact fun _ _ _ => ⟨κ.labels.signature_substitute s args, hinstances _ _, rfl, .nil⟩

/-! ## Type expressions -/

namespace Relabelling

/-- What a name stands for, with new labels. -/
def named (τ : Relabelling) : Place.Named → Place.Named
  | .settled type => .settled (τ.ty type)
  | .template base arity => .template (τ.ty base) arity

theorem arityOf_ty (t : Ty) : Place.arityOf (τ.ty t) = Place.arityOf t := by
  cases t <;> rfl

theorem structId?_ty (t : Ty) : (τ.ty t).structId? = t.structId?.map τ.struct := by
  cases t <;> rfl

theorem structBase?_ty (t : Ty) : (τ.ty t).structBase? = t.structBase?.map τ.struct := by
  cases t with
  | pointer kind t => exact τ.structId?_ty t
  | _ => rfl

end Relabelling

namespace Place

open Checking

variable {σ σ' : Type} {κ : Coupling σ σ'} {builder : InstanceBuilder σ}
  {builder' : InstanceBuilder σ'} {p p' : Place}

theorem namedIn_mirrors {owner owner' : Option SourceUnit}
    (h : Option.Rel (SourceUnit.Mirrors κ.labels) owner owner') {type type' : TypeExpr}
    (htype : type.Resembles κ.spans type') {name name' : Ident}
    (hname : name.Resembles κ.spans name') (argCount : Nat) :
    MirrorsTo κ κ.labels.named (namedIn owner type name argCount)
      (namedIn owner' type' name' argCount) := by
  have hfound : (owner'.bind fun u => u.types.get? name'.name) =
      (owner.bind fun u => u.types.get? name.name).map κ.labels.ty := by
    rw [hname.name]
    cases h with
    | none => rfl
    | some h => exact h.types name.name
  have hnode := κ.spans.node_of_name hname.span
  rw [namedIn, namedIn, htype.text, hname.name]
  rw [hname.name] at hfound
  rw [hfound]
  cases owner.bind fun u => u.types.get? name.name with
  | none => exact report_then hnode _ (mirrors_pure rfl)
  | some base =>
    dsimp only [Option.map_some]
    rw [κ.labels.arityOf_ty]
    refine mirrors_ite (report_then htype.span _ ?_) ?_
    · exact mirrors_ite (mirrors_pure rfl) (mirrors_pure rfl)
    · exact mirrors_ite (mirrors_pure rfl) (mirrors_pure rfl)

theorem named_mirrors (h : p.Mirrors κ builder builder' p') {type type' : TypeExpr}
    (htype : type.Resembles κ.spans type') {space space' : Option Ident}
    (hspace : Option.Rel (Ident.Resembles κ.spans) space space') {name name' : Ident}
    (hname : name.Resembles κ.spans name') (argCount : Nat) :
    MirrorsTo κ κ.labels.named (p.named type space name argCount)
      (p'.named type' space' name' argCount) := by
  cases hspace with
  | @some unitName unitName' hunitName =>
    have hnode := κ.spans.node_of_name hunitName.span
    rw [named, named, hunitName.name, h.unit.namespaces]
    cases p.unit.namespaces.get? unitName.name with
    | none => exact report_then hnode _ (mirrors_pure rfl)
    | some t =>
      cases t with
      | unit target => exact namedIn_mirrors (h.bundle.units target) htype hname argCount
      | _ => exact report_then hnode _ (mirrors_pure rfl)
  | none =>
    rw [named, named, h.generics, hname.name]
    cases p.generics.idxOf? name.name with
    | none => exact namedIn_mirrors (.some h.unit) htype hname argCount
    | some index =>
      exact mirrors_ite (report_then htype.span _ (mirrors_pure rfl)) (mirrors_pure rfl)

theorem instanceOf_mirrors (h : p.Mirrors κ builder builder' p') (base : Ty) (arity : Nat)
    (args : List Ty) :
    MirrorsTo κ κ.labels.ty (p.instanceOf builder base arity args)
      (p'.instanceOf builder' (κ.labels.ty base) arity (κ.labels.tys args)) := by
  rw [instanceOf, instanceOf, κ.labels.structBase?_ty]
  cases base.structBase? with
  | none => exact mirrors_pure rfl
  | some id =>
    rw [Option.map_some, Option.bind_some, Option.bind_some]
    have hstruct := h.bundle.structs id
    cases hd : p.bundle.struct? id with
    | none =>
      rw [hd] at hstruct
      cases hd' : p'.bundle.struct? (κ.labels.struct id) with
      | none => exact mirrors_pure rfl
      | some d' =>
        rw [hd'] at hstruct
        cases hstruct
    | some d =>
      rw [hd] at hstruct
      cases hd' : p'.bundle.struct? (κ.labels.struct id) with
      | none =>
        rw [hd'] at hstruct
        cases hstruct
      | some d' =>
        dsimp only
        rw [← κ.labels.fitArgs_tys]
        exact h.instances.struct id d d' hd hd' _

mutual
theorem resolve_mirrors (h : p.Mirrors κ builder builder' p') : ∀ {type type' : TypeExpr},
    type.Resembles κ.spans type' →
      MirrorsTo κ κ.labels.ty (p.resolve builder type) (p'.resolve builder' type')
  | .pointer _ _ pointee, _, htype => by
    cases htype with
    | pointer _ _ hpointee =>
      rw [resolve, resolve]
      exact (resolve_mirrors h hpointee).then fun _ => mirrors_pure rfl
  | .array _ _ element, _, htype => by
    cases htype with
    | array _ _ helement =>
      rw [resolve, resolve]
      exact (resolve_mirrors h helement).then fun _ => mirrors_pure rfl
  | .slice _ element, _, htype => by
    cases htype with
    | slice _ helement =>
      rw [resolve, resolve]
      exact (resolve_mirrors h helement).then fun _ => mirrors_pure rfl
  | .named mark space name args, _, htype => by
    have hall := htype
    cases htype with
    | named _ hspace hname hargs =>
      rw [resolve, resolve, ← hargs.length_eq]
      refine (named_mirrors h hall hspace hname args.length).then fun found => ?_
      cases found with
      | settled type => exact mirrors_pure rfl
      | template base arity =>
        exact (resolveAll_mirrors h hargs).then fun types => instanceOf_mirrors h base arity types

theorem resolveAll_mirrors (h : p.Mirrors κ builder builder' p') : ∀ {types types' : List TypeExpr},
    List.Forall₂ (TypeExpr.Resembles κ.spans) types types' →
      MirrorsTo κ κ.labels.tys (p.resolveAll builder types) (p'.resolveAll builder' types')
  | [], _, htypes => by
    cases htypes
    rw [resolveAll, resolveAll]
    exact mirrors_pure rfl
  | type :: types, _, htypes => by
    cases htypes with
    | cons htype htypes =>
      rw [resolveAll, resolveAll]
      exact (resolve_mirrors h htype).then fun _ => (resolveAll_mirrors h htypes).then fun _ =>
        mirrors_pure rfl
end

/-- What is resolved at a sound place is plain, so that it has no unit in its text. -/
theorem Sound.legible (hsound : p.Sound false) (τ : Relabelling) : p.Legible τ .direct := by
  intro type s
  have hforms : Forms false (fun _ => True) (p.Plain false) (p.resolve .direct type) :=
    resolve_forms hsound type
  exact τ.text_ty _ (hforms s fun hs => by cases hs).1

/-! ## Declarations -/

/-- Members with new labels. -/
def relabelMembers (τ : Relabelling) (members : List (String × Ty)) : List (String × Ty) :=
  members.map fun m => (m.1, τ.ty m.2)

theorem members_mirrors (h : p.Mirrors κ builder builder' p') {ms ms' : List TypedName}
    (hms : List.Forall₂ (TypedName.Resembles κ.spans) ms ms') (known : List (String × Ty)) :
    MirrorsTo κ (relabelMembers κ.labels) (p.members builder known ms)
      (p'.members builder' (relabelMembers κ.labels known) ms') := by
  induction hms generalizing known with
  | nil => exact mirrors_pure rfl
  | @cons m m' ms ms' hm _ ih =>
    rw [members, members]
    refine (resolve_mirrors h hm.type).then fun type => ?_
    have hknown : ((relabelMembers κ.labels known).any fun e => e.1 == m'.name.name) =
        known.any fun e => e.1 == m.name.name := by
      rw [relabelMembers, List.any_map, hm.name.name]
      rfl
    rw [hknown, hm.name.name]
    refine mirrors_ite (report_then (κ.spans.node_of_name hm.name.span) _ (ih known)) ?_
    have hadd := ih (known ++ [(m.name.name, type)])
    rw [relabelMembers, List.map_append] at hadd
    exact hadd

theorem params_mirrors (h : p.Mirrors κ builder builder' p') {ps ps' : List TypedName}
    (hps : List.Forall₂ (TypedName.Resembles κ.spans) ps ps') :
    MirrorsTo κ κ.labels.tys (p.params builder ps) (p'.params builder' ps') := by
  induction hps with
  | nil => exact mirrors_pure rfl
  | cons hparam _ ih =>
    rw [params, params]
    exact (resolve_mirrors h hparam.type).then fun _ => ih.then fun _ => mirrors_pure rfl

theorem signature_mirrors (h : p.Mirrors κ builder builder' p') {head head' : FnHead}
    (hhead : head.Resembles κ.spans head') :
    MirrorsTo κ κ.labels.signature (p.signature builder head) (p'.signature builder' head') := by
  rw [signature, signature, ← hhead.generics.length_eq]
  refine (params_mirrors h hhead.params).then fun params => ?_
  have hresult (result : Ty) : MirrorsTo κ κ.labels.signature
      (pure ⟨head.generics.length, params, result⟩)
      (pure ⟨head.generics.length, κ.labels.tys params, κ.labels.ty result⟩) := mirrors_pure rfl
  have hreturn := hhead.returnType
  obtain ⟨name, generics, ps, returnType⟩ := head
  obtain ⟨name', generics', ps', returnType'⟩ := head'
  cases hreturn with
  | none => exact hresult .void
  | some htype => exact (resolve_mirrors h htype).then hresult

end Place

/-! ## Labels as they are -/

namespace Relabelling

/-- No new labels. -/
def same : Relabelling :=
  ⟨fun i => i, fun _ k => k, Function.bijective_id, fun _ => Function.bijective_id⟩

mutual
theorem ty_same : ∀ t : Ty, same.ty t = t
  | .pointer kind t => congrArg (Ty.pointer kind) (ty_same t)
  | .array length t => congrArg (Ty.array length) (ty_same t)
  | .slice t => congrArg Ty.slice (ty_same t)
  | .fn arity params result => congrArg₂ (Ty.fn arity) (tys_same params) (ty_same result)
  | .inst id name args => congrArg (Ty.inst id name) (tys_same args)
  | .struct _ _ _ | .unit _ | .any | .void | .bool | .string | .number _ | .range _
  | .generic _ _ => rfl

theorem tys_same : ∀ ts : List Ty, same.tys ts = ts
  | [] => rfl
  | t :: ts => congrArg₂ List.cons (ty_same t) (tys_same ts)
end

theorem signature_same (s : Signature) : same.signature s = s := by
  rw [signature, tys_same, ty_same]

theorem fault_same (f : Fault) : same.fault f = f := by
  cases f <;> simp only [fault, ty_same]

theorem map_ty_same (t : Option Ty) : t.map same.ty = t := by
  cases t with
  | none => rfl
  | some t => rw [Option.map_some, ty_same]

theorem relabelMembers_same (members : List (String × Ty)) :
    Place.relabelMembers same members = members := by
  have hmember : (fun m : String × Ty => (m.1, same.ty m.2)) = id :=
    funext fun m => congrArg (Prod.mk m.1) (ty_same m.2)
  rw [Place.relabelMembers, hmember, List.map_id]

theorem map_types_same (types : List (Nat × Ty)) :
    types.map (fun e => (e.1, same.ty e.2)) = types := by
  have hentry : (fun e : Nat × Ty => (e.1, same.ty e.2)) = id :=
    funext fun e => congrArg (Prod.mk e.1) (ty_same e.2)
  rw [hentry, List.map_id]

theorem log_same (l : Log) : same.log l = l := by
  have hfinding : same.finding = id :=
    funext fun f => congrArg (Finding.mk f.span) (fault_same f.fault)
  rw [log, map_types_same, hfinding, List.map_id]

end Relabelling

/-- Two checks side by side that do the very same. -/
def Coupling.same (σ : Type) : Coupling σ σ := ⟨.same, .refile fun i => i, Eq⟩

end Custody
