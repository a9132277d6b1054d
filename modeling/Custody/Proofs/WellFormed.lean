import Custody.Proofs.NameMap
import Custody.Typing.Resolve

/-!
# Well-formed types

A type is plain over a list of generic parameters if its structs exist and have as many arguments as
they have parameters, if its generic parameters are in the list, and if it has no function and no
unit inside (`Ty.Plain`). These are the types of members, parameters and results. A value in a body
may also be a function, a unit that has an alias, or a pointer to one (`Ty.Fits`). In both, `strict`
says that `any` must not occur.

The predicates read only the names and the parameter counts of structs, the `shape` of a bundle,
which stays the same once all structs are declared. `Bundle.Sound` says that the scopes and members
of all units are well formed; then so is every member of a plain struct type
(`Bundle.Sound.member?`).
-/

set_option autoImplicit false

namespace Custody

/-- The name and the number of generic parameters of each struct. -/
abbrev Shape : Type := StructId → Option (String × Nat)

/-- The names and parameter counts of the structs of a bundle. -/
def Bundle.shape (b : Bundle) : Shape := fun id =>
  (b.struct? id).map fun d => (d.name, d.generics.length)

namespace Ty

mutual
/-- Whether `any` occurs nowhere in a type. -/
def anyFree : Ty → Bool
  | any => false
  | pointer _ t => anyFree t
  | array _ t => anyFree t
  | slice t => anyFree t
  | fn _ ps r => allAnyFree ps && anyFree r
  | inst _ _ as => allAnyFree as
  | _ => true

/-- Whether `any` occurs in none of some types. -/
def allAnyFree : List Ty → Bool
  | [] => true
  | t :: ts => anyFree t && allAnyFree ts
end

theorem allAnyFree_iff (ts : List Ty) : allAnyFree ts = true ↔ ∀ t ∈ ts, t.anyFree = true := by
  induction ts with
  | nil => simp [allAnyFree]
  | cons t ts ih => simp [allAnyFree, ih]

/-! ## Plain types -/

section Plain

variable (strict : Bool) (shape : Shape) (generics : List String)

mutual
/-- Whether a type can be the type of a member or a parameter. -/
def Plain : Ty → Prop
  | any => strict = false
  | pointer _ t => Plain t
  | array _ t => Plain t
  | slice t => Plain t
  | fn _ _ _ => False
  | struct id name arity => arity = 0 ∧ shape id = some (name, 0)
  | inst id name as => shape id = some (name, as.length) ∧ AllPlain as
  | unit _ => False
  | generic index name => generics[index]? = some name
  | _ => True

/-- Whether all of some types are plain. -/
def AllPlain : List Ty → Prop
  | [] => True
  | t :: ts => Plain t ∧ AllPlain ts
end

end Plain

variable {strict : Bool} {shape : Shape} {generics : List String}

theorem allPlain_iff (ts : List Ty) :
    AllPlain strict shape generics ts ↔ ∀ t ∈ ts, t.Plain strict shape generics := by
  induction ts with
  | nil => simp [AllPlain]
  | cons t ts ih => simp [AllPlain, ih]

mutual
theorem Plain.anyFree : ∀ t : Ty, t.Plain true shape generics → t.anyFree = true
  | any, h => by simp [Plain] at h
  | void, _ | bool, _ | string, _ | number _, _ | range _, _ | struct _ _ _, _ | unit _, _
  | generic _ _, _ => rfl
  | pointer _ t, h | array _ t, h | slice t, h => Plain.anyFree t h
  | fn _ _ _, h => by simp [Plain] at h
  | inst _ _ as, h => AllPlain.allAnyFree as h.2

theorem AllPlain.allAnyFree :
    ∀ ts : List Ty, AllPlain true shape generics ts → Ty.allAnyFree ts = true
  | [], _ => rfl
  | t :: ts, h => Bool.and_eq_true_iff.2 ⟨Plain.anyFree t h.1, AllPlain.allAnyFree ts h.2⟩
end

mutual
/-- Putting plain arguments for all generic parameters of a plain type gives a plain type. -/
theorem Plain.substitute {args : List Ty} {own : List String}
    (hargs : ∀ t ∈ args, t.Plain strict shape generics) (hlength : own.length = args.length) :
    ∀ t : Ty, t.Plain strict shape own → (t.substitute args).Plain strict shape generics
  | any, h => h
  | void, _ | bool, _ | string, _ | number _, _ | range _, _ => trivial
  | pointer _ t, h | array _ t, h | slice t, h => Plain.substitute hargs hlength t h
  | fn _ _ _, h => h
  | struct _ _ _, h => h
  | inst _ _ as, h => by
    refine ⟨?_, AllPlain.substitute hargs hlength as h.2⟩
    rw [substituteList_eq_map, List.length_map]
    exact h.1
  | unit _, h => h
  | generic index name, h => by
    -- The parameter is in the list, so there is an argument for it and `any` does not step in.
    obtain ⟨hindex, -⟩ := List.getElem?_eq_some_iff.1 h
    have harg : args[index]? = some args[index] := List.getElem?_eq_getElem (hlength ▸ hindex)
    simp only [Ty.substitute, harg, Option.getD_some]
    exact hargs _ (List.getElem_mem _)

theorem AllPlain.substitute {args : List Ty} {own : List String}
    (hargs : ∀ t ∈ args, t.Plain strict shape generics) (hlength : own.length = args.length) :
    ∀ ts : List Ty, AllPlain strict shape own ts →
      AllPlain strict shape generics (substituteList args ts)
  | [], _ => trivial
  | t :: ts, h =>
    ⟨Plain.substitute hargs hlength t h.1, AllPlain.substitute hargs hlength ts h.2⟩
end

mutual
/-- A type without generic parameters is plain over any list of them. -/
theorem Plain.closed : ∀ t : Ty, t.Plain strict shape [] → t.Plain strict shape generics
  | any, h => h
  | void, _ | bool, _ | string, _ | number _, _ | range _, _ => trivial
  | pointer _ t, h | array _ t, h | slice t, h => Plain.closed t h
  | fn _ _ _, h => h
  | struct _ _ _, h => h
  | inst _ _ as, h => ⟨h.1, AllPlain.closed as h.2⟩
  | unit _, h => h
  | generic _ _, h => by simp [Plain] at h

theorem AllPlain.closed :
    ∀ ts : List Ty, AllPlain strict shape [] ts → AllPlain strict shape generics ts
  | [], _ => trivial
  | t :: ts, h => ⟨Plain.closed t h.1, AllPlain.closed ts h.2⟩
end

theorem length_fitArgs (args : List Ty) (arity : Nat) : (fitArgs args arity).length = arity := by
  simp only [fitArgs, List.length_append, List.length_take, List.length_replicate]
  omega

/-- Arguments stay plain when they are cut or filled up; to fill up takes `any`. -/
theorem plain_of_mem_fitArgs {args : List Ty} {arity : Nat}
    (hargs : ∀ t ∈ args, t.Plain strict shape generics)
    (hlength : strict = true → arity = args.length) :
    ∀ t ∈ fitArgs args arity, t.Plain strict shape generics := by
  intro t ht
  rcases List.mem_append.1 ht with ht | ht
  · exact hargs t (List.mem_of_mem_take ht)
  · obtain ⟨hne, rfl⟩ := List.mem_replicate.1 ht
    cases strict with
    | false => exact rfl
    | true =>
      have := hlength rfl
      omega

end Ty

/-! ## Types of values -/

variable {strict : Bool} {shape : Shape} {generics : List String}

/-- A signature whose types are plain over parameters of its own. -/
def Signature.Sound (strict : Bool) (shape : Shape) (s : Signature) : Prop :=
  ∃ own : List String, own.length = s.arity ∧ (∀ t ∈ s.params, t.Plain strict shape own) ∧
    s.result.Plain strict shape own

/-- A signature with plain arguments put in has plain types. -/
theorem Signature.Sound.substitute {s : Signature} (h : s.Sound strict shape) {args : List Ty}
    (hargs : ∀ t ∈ args, t.Plain strict shape generics) (hlength : s.arity = args.length) :
    (∀ t ∈ (s.substitute args).params, t.Plain strict shape generics) ∧
      (s.substitute args).result.Plain strict shape generics := by
  obtain ⟨own, hown, hparams, hresult⟩ := h
  refine ⟨fun t ht => ?_, Ty.Plain.substitute hargs (hown.trans hlength) _ hresult⟩
  obtain ⟨p, hp, rfl⟩ := List.mem_map.1 ht
  exact Ty.Plain.substitute hargs (hown.trans hlength) p (hparams p hp)

namespace Ty

/-- Whether a type can be the type of a value in a body. A unit must be one of `units`. -/
def Fits (strict : Bool) (shape : Shape) (units : Nat → Prop) (generics : List String) : Ty → Prop
  | pointer _ t => Fits strict shape units generics t
  | array _ t => Fits strict shape units generics t
  | slice t => Fits strict shape units generics t
  | fn arity params result => Signature.Sound strict shape ⟨arity, params, result⟩
  | unit target => units target
  | t => t.Plain strict shape generics

variable {units : Nat → Prop}

theorem Plain.fits : ∀ {t : Ty}, t.Plain strict shape generics → t.Fits strict shape units generics
  | any, h | void, h | bool, h | string, h | number _, h | range _, h | struct _ _ _, h
  | inst _ _ _, h
  | generic _ _, h => h
  | pointer _ t, h | array _ t, h | slice t, h => Plain.fits (t := t) h
  | fn _ _ _, h => h.elim
  | unit _, h => h.elim

theorem Fits.anyFree : ∀ {t : Ty}, t.Fits true shape units generics → t.anyFree = true
  | any, h => (show Plain true shape generics any from h).anyFree
  | void, _ | bool, _ | string, _ | number _, _ | range _, _ | struct _ _ _, _ | unit _, _
  | generic _ _, _ => rfl
  | pointer _ t, h | array _ t, h | slice t, h => Fits.anyFree (t := t) h
  | fn _ ps r, h => by
    obtain ⟨own, -, hparams, hresult⟩ := h
    refine Bool.and_eq_true_iff.2 ⟨(allAnyFree_iff ps).2 fun t ht => ?_, hresult.anyFree⟩
    exact (hparams t ht).anyFree
  | inst id name as, h => (show Plain true shape generics (inst id name as) from h).anyFree

end Ty

/-! ## Sound units -/

/-- The units that a unit has an alias for. -/
def SourceUnit.Aliases (u : SourceUnit) (target : Nat) : Prop :=
  ∃ name, u.namespaces.get? name = some (.unit target)

/-- What a name in front of type arguments may stand for: a builtin, or a struct with its name and
parameter count. -/
def Ty.IsNamed (shape : Shape) : Ty → Prop
  | .void | .bool | .string | .number _ => True
  | .struct id name arity => shape id = some (name, arity)
  | _ => False

/-- The scopes and the members of a unit are well formed. -/
structure SourceUnit.Sound (strict : Bool) (shape : Shape) (u : SourceUnit) : Prop where
  types : ∀ name t, u.types.get? name = some t → t.IsNamed shape
  functions : ∀ name t, u.functions.get? name = some t →
    ∃ s : Signature, t = s.ty ∧ s.Sound strict shape
  namespaces : ∀ name t, u.namespaces.get? name = some t → ∃ target, t = .unit target
  members : ∀ d ∈ u.structs, ∀ m ∈ d.members, m.2.Plain strict shape d.generics

/-- All units of a bundle are well formed, and its structs stand where their ids say. -/
structure Bundle.Sound (strict : Bool) (b : Bundle) : Prop where
  units : ∀ u ∈ b.units, u.Sound strict b.shape
  ids : ∀ id d, b.struct? id = some d → d.id = id

namespace Bundle

variable {b : Bundle}

theorem mem_units_of_get? {i : Nat} {u : SourceUnit} (h : b.get? i = some u) : u ∈ b.units :=
  List.mem_of_getElem? h

/-- A struct that is found has the shape of its declaration and plain members. -/
theorem Sound.struct? (hb : b.Sound strict) {id : StructId} {d : StructDef}
    (h : b.struct? id = some d) :
    b.shape id = some (d.name, d.generics.length) ∧
      ∀ m ∈ d.members, m.2.Plain strict b.shape d.generics := by
  refine ⟨by rw [shape, h, Option.map_some], ?_⟩
  obtain ⟨u, hu, hd⟩ := Option.bind_eq_some_iff.1 h
  exact (hb.units u (mem_units_of_get? hu)).members d (List.mem_of_getElem? hd)

/-- A plain struct type has as many arguments as its declaration has parameters. -/
theorem Sound.structArgs? (hb : b.Sound strict) {t : Ty} (ht : t.Plain strict b.shape generics)
    {id : StructId} {args : List Ty} (hargs : structArgs? t = some (id, args)) {d : StructDef}
    (h : b.struct? id = some d) :
    d.generics.length = args.length ∧ ∀ a ∈ args, a.Plain strict b.shape generics := by
  have hshape := (hb.struct? h).1
  cases t with
  | struct id' name arity =>
    simp only [Bundle.structArgs?, Option.some.injEq, Prod.mk.injEq] at hargs
    obtain ⟨rfl, rfl⟩ := hargs
    obtain ⟨-, hshape'⟩ := ht
    rw [hshape'] at hshape
    simp only [Option.some.injEq, Prod.mk.injEq] at hshape
    exact ⟨hshape.2.symm, fun a ha => absurd ha List.not_mem_nil⟩
  | inst id' name as =>
    simp only [Bundle.structArgs?, Option.some.injEq, Prod.mk.injEq] at hargs
    obtain ⟨rfl, rfl⟩ := hargs
    obtain ⟨hshape', hplain⟩ := ht
    rw [hshape'] at hshape
    simp only [Option.some.injEq, Prod.mk.injEq] at hshape
    exact ⟨hshape.2.symm, (Ty.allPlain_iff as).1 hplain⟩
  | _ => simp [Bundle.structArgs?] at hargs

/-- The members of a plain struct type are plain. -/
theorem Sound.member? (hb : b.Sound strict) {t : Ty} (ht : t.Plain strict b.shape generics)
    {name : String} {m : Ty} (h : b.member? t name = some m) : m.Plain strict b.shape generics := by
  simp only [Bundle.member?, Option.bind_eq_bind, Option.bind_eq_some_iff, Option.pure_def,
    Option.some.injEq] at h
  obtain ⟨⟨id, args⟩, hargs, d, hd, declared, hmember, rfl⟩ := h
  obtain ⟨hlength, hplain⟩ := hb.structArgs? ht hargs hd
  obtain ⟨before, after, hmembers, -⟩ := List.lookup_eq_some_iff.1 hmember
  have hmem : (name, declared) ∈ d.members := hmembers ▸ List.mem_append_right _ List.mem_cons_self
  exact Ty.Plain.substitute hplain hlength declared ((hb.struct? hd).2 _ hmem)

end Bundle

end Custody
