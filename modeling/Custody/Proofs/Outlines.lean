import Custody.Proofs.Records
import Custody.Proofs.WellFormed

/-!
# The declare stage unit by unit

The declare stage goes through the units of a bundle three times: for aliases, for structs without
members, and for members and signatures. The third round changes one unit after another, so a unit
is resolved in a bundle in which some of the others are done already. That makes no difference: a
type expression is resolved by the names of the units alone, not by their members and functions
(`Place.resolve_skeleton`).

So each unit is declared as if all others had nothing but their names (`Bundle.declare_eq`).
-/

set_option autoImplicit false

namespace Custody

variable {σ : Type}

/-! ## What the rounds change in a unit -/

namespace SourceUnit

theorem declareAliases_eq (u : SourceUnit) (links : List ImportLink) :
    ∃ namespaces, (u.declareAliases links).1 = { u with namespaces } := by
  induction links generalizing u with
  | nil => exact ⟨u.namespaces, rfl⟩
  | cons link links ih =>
    obtain ⟨namespaces, hrest⟩ := ih (u.declareAlias link).1
    refine ⟨namespaces, hrest.trans ?_⟩
    unfold declareAlias
    split
    · rfl
    · split <;> rfl

theorem declareStructs_eq (u : SourceUnit) (ds : List StructDecl) :
    ∃ types structs, (u.declareStructs ds).1 = { u with types, structs } := by
  induction ds generalizing u with
  | nil => exact ⟨u.types, u.structs, rfl⟩
  | cons d ds ih =>
    obtain ⟨types, structs, hrest⟩ := ih (u.declareStruct d).1
    refine ⟨types, structs, hrest.trans ?_⟩
    unfold declareStruct
    dsimp only
    split <;> rfl

theorem declareFns_eq (u : SourceUnit) (fns : List (Ident × Signature)) :
    ∃ functions, (u.declareFns fns).1 = { u with functions } := by
  induction fns generalizing u with
  | nil => exact ⟨u.functions, rfl⟩
  | cons fn fns ih =>
    unfold declareFns
    split
    · exact ih _
    · exact ih _

/-- Of the functions of one name, the one that was there or else the first one that is declared
counts. -/
theorem functions_declareFns_eq (u : SourceUnit) (fns : List (Ident × Signature)) (name : String) :
    (u.declareFns fns).1.functions.get? name = (u.functions.get? name).or
      ((fns.find? fun e => e.1.name == name).map fun e => e.2.ty) := by
  induction fns generalizing u with
  | nil => exact (Option.or_none).symm
  | cons fn fns ih =>
    rw [declareFns]
    cases hinsert : u.functions.insertNew fn.1.name fn.2.ty with
    | ok functions =>
      obtain ⟨hnew, hget⟩ := NameMap.get?_of_insertNew hinsert
      refine (ih { u with functions }).trans ?_
      dsimp only
      rw [hget, List.find?_cons]
      by_cases hname : name = fn.1.name
      · rw [if_pos hname, hname, hnew, beq_self_eq_true]
        rfl
      · rw [if_neg hname, beq_eq_false_iff_ne.2 (Ne.symm hname)]
    | error existing =>
      refine (ih u).trans ?_
      rw [List.find?_cons]
      by_cases hname : fn.1.name = name
      · have hthere : (u.functions.get? name).isSome := by
          rw [← hname]
          exact NameMap.isSome_of_insertNew hinsert
        obtain ⟨t, ht⟩ := Option.isSome_iff_exists.1 hthere
        rw [ht]
        rfl
      · rw [beq_eq_false_iff_ne.2 hname]

/-- Functions that are declared without a finding all have their signatures. -/
theorem get?_declareFns (u : SourceUnit) (fns : List (Ident × Signature))
    (h : (u.declareFns fns).2 = []) :
    (∀ name t, u.functions.get? name = some t →
      (u.declareFns fns).1.functions.get? name = some t) ∧
      ∀ e ∈ fns, (u.declareFns fns).1.functions.get? e.1.name = some e.2.ty := by
  induction fns generalizing u with
  | nil => exact ⟨fun _ _ h => h, fun _ h => absurd h List.not_mem_nil⟩
  | cons fn fns ih =>
    unfold declareFns at h ⊢
    split at h
    · next functions hinsert =>
        obtain ⟨hnew, hget⟩ := NameMap.get?_of_insertNew hinsert
        obtain ⟨hkept, hdeclared⟩ := ih _ h
        refine ⟨fun name t ht => hkept name t ?_, List.forall_mem_cons.2 ⟨?_, hdeclared⟩⟩
        · rw [hget, if_neg fun heq => ?_]
          · exact ht
          · rw [heq, hnew] at ht
            cases ht
        · exact hkept _ _ (by rw [hget, if_pos rfl])
    · cases h

theorem file_declareFns (u : SourceUnit) (fns : List (Ident × Signature)) :
    (u.declareFns fns).1.file = u.file := by
  obtain ⟨functions, h⟩ := u.declareFns_eq fns
  rw [h]

end SourceUnit

namespace Bundle

theorem get?_modify_self {b : Bundle} {id : Nat} {u : SourceUnit} (h : b.get? id = some u)
    (f : SourceUnit → SourceUnit) : (b.modify id f).get? id = some (f u) := by
  unfold get? at h ⊢
  rw [modify, List.getElem?_modify_eq, h]
  rfl

theorem get?_modify_of_ne {b : Bundle} {id i : Nat} (h : id ≠ i) (f : SourceUnit → SourceUnit) :
    (b.modify id f).get? i = b.get? i :=
  List.getElem?_modify_ne _ _ h

/-- The files of the units, in order. -/
def files (b : Bundle) : List SourceFile := b.units.map SourceUnit.file

theorem eachUnit_units {α : Type} (f : SourceUnit → SourceUnit × α × List Finding)
    (us : List SourceUnit) : (eachUnit f us).1 = us.map fun u => (f u).1 := by
  induction us with
  | nil => rfl
  | cons u us ih => exact congrArg (List.cons (f u).1) ih

theorem eachUnit_values {α : Type} (f : SourceUnit → SourceUnit × α × List Finding)
    (us : List SourceUnit) : (eachUnit f us).2.1 = us.map fun u => (f u).2.1 := by
  induction us with
  | nil => rfl
  | cons u us ih => exact congrArg (List.cons (f u).2.1) ih

theorem files_declareAliases (b : Bundle) : b.declareAliases.1.files = b.files := by
  unfold declareAliases files
  dsimp only
  rw [eachUnit_units, List.map_map]
  refine List.map_congr_left fun u _ => ?_
  obtain ⟨namespaces, h⟩ := u.declareAliases_eq u.imports
  exact (congrArg SourceUnit.file h : (u.declareAliases u.imports).1.file = _)

theorem files_declareStructs (b : Bundle) : b.declareStructs.1.files = b.files := by
  unfold declareStructs files
  dsimp only
  rw [eachUnit_units, List.map_map]
  refine List.map_congr_left fun u _ => ?_
  obtain ⟨types, structs, h⟩ := u.declareStructs_eq u.structDecls
  exact (congrArg SourceUnit.file h : (u.declareStructs u.structDecls).1.file = _)

theorem files_declareSignatures (b : Bundle) (builder : InstanceBuilder σ) (id : Nat)
    (slots : List (Option Nat)) (s : σ) :
    (b.declareSignatures builder id slots s).1.files = b.files := by
  unfold declareSignatures
  cases hget : b.get? id with
  | none => rfl
  | some u =>
    refine List.ext_getElem? fun i => ?_
    dsimp only
    rw [files, files, List.getElem?_map, List.getElem?_map, modify, List.getElem?_modify]
    by_cases hi : id = i
    · subst hi
      have hget : b.units[id]? = some u := hget
      rw [hget]
      simp only [if_true, Option.map_eq_map, Option.map_some]
      exact congrArg some ((SourceUnit.file_declareFns _ _).trans rfl)
    · cases b.units[i]? with
      | none => rfl
      | some u' => simp [hi]

theorem files_declareSignaturesFrom (b : Bundle) (builder : InstanceBuilder σ) (id : Nat)
    (slots : List (List (Option Nat))) (s : σ) :
    (b.declareSignaturesFrom builder id slots s).1.files = b.files := by
  induction slots generalizing b id s with
  | nil => rfl
  | cons slots rest ih => exact (ih _ _ _).trans (b.files_declareSignatures builder id slots s)

/-- The declare stage leaves the files as they are. -/
theorem files_declare (b : Bundle) : b.declare.1.files = b.files :=
  (files_declareSignaturesFrom _ _ _ _ _).trans
    ((files_declareStructs _).trans b.files_declareAliases)

end Bundle

/-! ## Resolving reads names only -/

/-- A struct before its members are known. -/
def StructDef.withoutMembers (d : StructDef) : StructDef := { d with members := [] }

/-- What type expressions read of a unit. -/
def SourceUnit.skeleton (u : SourceUnit) : SourceUnit :=
  { u with functions := .empty, structs := u.structs.map StructDef.withoutMembers, table := .empty }

/-- What type expressions read of a bundle. -/
def Bundle.skeleton (b : Bundle) : Bundle := ⟨b.units.map SourceUnit.skeleton⟩

/-- A place in the skeleton of its bundle. -/
def Place.skeleton (p : Place) : Place := ⟨p.bundle.skeleton, p.unit.skeleton, p.generics⟩

namespace Bundle

theorem get?_skeleton (b : Bundle) (id : Nat) :
    b.skeleton.get? id = (b.get? id).map SourceUnit.skeleton :=
  List.getElem?_map

theorem struct?_skeleton (b : Bundle) (id : StructId) :
    b.skeleton.struct? id = (b.struct? id).map StructDef.withoutMembers := by
  rw [struct?, struct?, get?_skeleton]
  cases b.get? id.unit with
  | none => rfl
  | some u => exact List.getElem?_map

/-- The shape of a bundle does not tell the members of structs. -/
theorem shape_skeleton (b : Bundle) : b.skeleton.shape = b.shape := by
  funext id
  rw [shape, shape, struct?_skeleton, Option.map_map]
  rfl

end Bundle

namespace Place

variable (p : Place)

theorem namedIn_skeleton (owner : Option SourceUnit) (type : TypeExpr) (name : Ident)
    (argCount : Nat) : (namedIn (owner.map SourceUnit.skeleton) type name argCount :
      Checking σ Named) = namedIn owner type name argCount := by
  unfold namedIn
  rw [Option.bind_map]
  rfl

theorem named_skeleton (type : TypeExpr) (space : Option Ident) (name : Ident)
    (argCount : Nat) : (p.skeleton.named type space name argCount : Checking σ Named) =
      p.named type space name argCount := by
  unfold named
  cases space with
  | none => rfl
  | some unitName =>
    have hspaces : p.skeleton.unit.namespaces = p.unit.namespaces := rfl
    dsimp only
    rw [hspaces]
    split
    · exact (congrArg (namedIn · type name argCount) (p.bundle.get?_skeleton _)).trans
        (namedIn_skeleton _ _ _ _)
    · rfl

/-- An instance has the id and the name of its struct, whatever the members are. -/
theorem instanceOf_skeleton (base : Ty) (arity : Nat) (args : List Ty) :
    p.skeleton.instanceOf .direct base arity args = p.instanceOf .direct base arity args := by
  unfold instanceOf
  cases base.structBase? with
  | none => rfl
  | some id =>
    rw [Option.bind_some, Option.bind_some]
    have hstruct : p.skeleton.bundle.struct? id = _ := p.bundle.struct?_skeleton id
    rw [hstruct]
    cases p.bundle.struct? id with
    | none => rfl
    | some d => rfl

mutual
theorem resolve_skeleton :
    ∀ type : TypeExpr, p.skeleton.resolve .direct type = p.resolve .direct type
  | .pointer _ _ pointee => by rw [resolve, resolve, resolve_skeleton pointee]
  | .array _ _ element | .slice _ element => by rw [resolve, resolve, resolve_skeleton element]
  | .named _ _ _ args => by
    rw [resolve, resolve, named_skeleton, resolveAll_skeleton args]
    simp only [instanceOf_skeleton]

theorem resolveAll_skeleton :
    ∀ types : List TypeExpr, p.skeleton.resolveAll .direct types = p.resolveAll .direct types
  | [] => by rw [resolveAll, resolveAll]
  | type :: types => by
    rw [resolveAll, resolveAll, resolve_skeleton type, resolveAll_skeleton types]
end

theorem members_skeleton : ∀ (ms : List TypedName) (known : List (String × Ty)),
    p.skeleton.members .direct known ms = p.members .direct known ms
  | [], _ => rfl
  | m :: ms, known => by
    rw [members, members, resolve_skeleton]
    simp only [members_skeleton ms]

theorem params_skeleton : ∀ ps : List TypedName, p.skeleton.params .direct ps = p.params .direct ps
  | [] => rfl
  | param :: ps => by rw [params, params, resolve_skeleton, params_skeleton ps]

theorem signature_skeleton (head : FnHead) :
    p.skeleton.signature .direct head = p.signature .direct head := by
  unfold signature
  simp only [params_skeleton, resolve_skeleton]

end Place

namespace Bundle

theorem resolveStructs_skeleton (b : Bundle) (u : SourceUnit) :
    ∀ ds : List (StructDecl × Option Nat),
      b.skeleton.resolveStructs .direct u.skeleton ds = b.resolveStructs .direct u ds
  | [] => rfl
  | (_, none) :: ds => resolveStructs_skeleton b u ds
  | (d, some _) :: ds => by
    have hplace : b.skeleton.placeOf u.skeleton d.generics = (b.placeOf u d.generics).skeleton :=
      rfl
    rw [resolveStructs, resolveStructs, hplace, Place.members_skeleton,
      resolveStructs_skeleton b u ds]

theorem resolveFns_skeleton (b : Bundle) (u : SourceUnit) :
    ∀ heads : List FnHead, b.skeleton.resolveFns .direct u.skeleton heads =
      b.resolveFns .direct u heads
  | [] => rfl
  | head :: heads => by
    have hplace : b.skeleton.placeOf u.skeleton head.generics =
        (b.placeOf u head.generics).skeleton := rfl
    rw [resolveFns, resolveFns, hplace, Place.signature_skeleton, resolveFns_skeleton b u heads]

end Bundle

/-! ## The third round -/

namespace Bundle

/-- The signatures of functions do not depend on one another. -/
theorem resolveFns_eq (b : Bundle) (u : SourceUnit) (heads : List FnHead) :
    let run := fun head : FnHead => (b.placeOf u head.generics).signature .direct head ()
    (b.resolveFns .direct u heads ()).value =
    heads.map (fun head => (head.name, (run head).value)) ∧
      (b.resolveFns .direct u heads ()).log.findings =
        heads.flatMap fun head => (run head).log.findings := by
  induction heads with
  | nil => exact ⟨rfl, rfl⟩
  | cons head heads ih =>
    obtain ⟨hvalue, hfindings⟩ := ih
    refine ⟨congrArg (List.cons _) hvalue, ?_⟩
    rw [resolveFns, Checking.bind_eq, Checking.bind_eq, List.flatMap_cons, ← hfindings]
    exact congrArg (_ ++ ·) (List.append_nil _)

end Bundle

namespace SourceUnit

/-- The third round for one unit: members and functions put in, and what was found. -/
def signed (b : Bundle) (u : SourceUnit) (slots : List (Option Nat)) : SourceUnit × List Finding :=
  let structs := b.resolveStructs .direct u (u.structDecls.zip slots) ()
  let fns := b.resolveFns .direct u u.fnHeads ()
  let declared := (u.setMembers structs.value).declareFns fns.value
  (declared.1, structs.log.findings ++ fns.log.findings ++ declared.2)

/-- Only the names in the bundle matter. -/
theorem signed_congr {b b' : Bundle} (h : b.skeleton = b'.skeleton) (u : SourceUnit)
    (slots : List (Option Nat)) : u.signed b slots = u.signed b' slots := by
  unfold signed
  rw [← b.resolveStructs_skeleton, ← b.resolveFns_skeleton, h, b'.resolveStructs_skeleton,
    b'.resolveFns_skeleton]

theorem withoutMembers_setMembers (u : SourceUnit) (resolved : List (Nat × List (String × Ty))) :
    (u.setMembers resolved).structs.map StructDef.withoutMembers =
      u.structs.map StructDef.withoutMembers := by
  unfold setMembers
  dsimp only
  induction resolved generalizing u with
  | nil => rfl
  | cons e resolved ih =>
    rw [List.foldl_cons]
    refine (ih
      { u with structs := u.structs.modify e.1 fun d => { d with members := e.2 } }).trans ?_
    refine List.ext_getElem? fun k => ?_
    rw [List.getElem?_map, List.getElem?_map, List.getElem?_modify]
    cases u.structs[k]? with
    | none => rfl
    | some d =>
      by_cases hk : e.1 = k
      · simp [hk, StructDef.withoutMembers]
      · simp [hk]

/-- The round keeps the names of a unit. -/
theorem skeleton_signed (b : Bundle) (u : SourceUnit) (slots : List (Option Nat)) :
    (u.signed b slots).1.skeleton = u.skeleton := by
  unfold signed
  dsimp only
  obtain ⟨functions, hdeclared⟩ := (u.setMembers
    (b.resolveStructs .direct u (u.structDecls.zip slots) ()).value).declareFns_eq
      (b.resolveFns .direct u u.fnHeads ()).value
  rw [hdeclared]
  unfold skeleton
  dsimp only
  rw [withoutMembers_setMembers]
  rfl

end SourceUnit

namespace Bundle

/-- The third round declares each unit against the names of all. -/
theorem declareSignaturesFrom_eq (b₀ : Bundle) (us : List SourceUnit) :
    ∀ (slots : List (List (Option Nat))) (before : List SourceUnit), slots.length = us.length →
      (⟨before ++ us⟩ : Bundle).skeleton = b₀.skeleton →
        (⟨before ++ us⟩ : Bundle).declareSignaturesFrom .direct before.length slots () =
          (⟨before ++ (us.zip slots).map fun p => (p.1.signed b₀ p.2).1⟩,
            (us.zip slots).flatMap fun p => (p.1.signed b₀ p.2).2.map p.1.declareReport, ()) := by
  induction us with
  | nil =>
    intro slots before hlength _
    obtain rfl := List.length_eq_zero_iff.1 hlength
    simp only [declareSignaturesFrom, List.zip_nil_left, List.map_nil, List.flatMap_nil]
  | cons u us ih =>
    intro slots before hlength hskeleton
    cases slots with
    | nil => cases hlength
    | cons places slots =>
      have hget : (⟨before ++ u :: us⟩ : Bundle).get? before.length = some u := by
        rw [get?, List.getElem?_append_right (Nat.le_refl _), Nat.sub_self]
        rfl
      have hmodify : (⟨before ++ u :: us⟩ : Bundle).modify before.length
          (fun _ => (u.signed b₀ places).1) = ⟨(before ++ [(u.signed b₀ places).1]) ++ us⟩ := by
        rw [modify, List.modify_eq_take_drop, List.take_left, List.drop_left, List.modifyHead,
          List.append_assoc, List.singleton_append]
      have hround :
          (⟨before ++ u :: us⟩ : Bundle).declareSignatures .direct before.length places () =
          (⟨(before ++ [(u.signed b₀ places).1]) ++ us⟩,
            (u.signed b₀ places).2.map u.declareReport, ()) := by
        rw [← hmodify, ← u.signed_congr hskeleton places]
        simp only [declareSignatures, hget, SourceUnit.signed]
      -- The unit that is done has the names that it had, so the next one sees no difference.
      have hnext : (⟨(before ++ [(u.signed b₀ places).1]) ++ us⟩ : Bundle).skeleton =
          b₀.skeleton := by
        rw [← hskeleton]
        simp only [skeleton, List.map_append, List.map_cons, SourceUnit.skeleton_signed,
          List.append_assoc, List.singleton_append]
      have hrest := ih slots (before ++ [(u.signed b₀ places).1]) (Nat.succ.inj hlength) hnext
      rw [List.length_append, List.length_singleton] at hrest
      rw [declareSignaturesFrom, hround]
      dsimp only
      rw [hrest]
      simp only [List.zip_cons_cons, List.map_cons, List.flatMap_cons, List.append_assoc,
        List.singleton_append]

end Bundle

/-! ## The stage -/

namespace SourceUnit

/-- The first round for one unit. -/
def aliased (u : SourceUnit) : SourceUnit × List Finding := u.declareAliases u.imports

/-- The second round for one unit, behind the first. -/
def shelled (u : SourceUnit) : SourceUnit × List (Option Nat) × List Finding :=
  u.aliased.1.declareStructs u.structDecls

theorem aliased_eq (u : SourceUnit) : ∃ namespaces, u.aliased.1 = { u with namespaces } :=
  u.declareAliases_eq u.imports

theorem shelled_eq (u : SourceUnit) :
    ∃ namespaces types structs, u.shelled.1 = { u with namespaces, types, structs } := by
  obtain ⟨namespaces, haliased⟩ := u.aliased_eq
  obtain ⟨types, structs, hshelled⟩ := u.aliased.1.declareStructs_eq u.structDecls
  refine ⟨namespaces, types, structs, hshelled.trans ?_⟩
  rw [haliased]

end SourceUnit

/-- A bundle behind the first two rounds: all units have their names. -/
def Bundle.shelled (b : Bundle) : Bundle := ⟨b.units.map fun u => u.shelled.1⟩

/-- A unit behind all rounds, declared against the names of a bundle, and what the third one
found. -/
def SourceUnit.declared (b : Bundle) (u : SourceUnit) : SourceUnit × List Finding :=
  u.shelled.1.signed b.shelled u.shelled.2.1

namespace Bundle

theorem eachUnit_reports {α : Type} (f : SourceUnit → SourceUnit × α × List Finding)
    (us : List SourceUnit) (hpath : ∀ u, (f u).1.path = u.path) :
    (eachUnit f us).2.2 = us.flatMap fun u => (f u).2.2.map u.declareReport := by
  induction us with
  | nil => rfl
  | cons u us ih =>
    have hreport : (f u).1.declareReport = u.declareReport := by
      funext x
      simp only [SourceUnit.declareReport, hpath]
    simp only [eachUnit, List.flatMap_cons, ih, hreport]

/-- The first round, unit by unit. -/
theorem declareAliases_eq (b : Bundle) :
    b.declareAliases = (⟨b.units.map fun u => u.aliased.1⟩,
      b.units.flatMap fun u => u.aliased.2.map u.declareReport) := by
  unfold declareAliases
  dsimp only
  rw [eachUnit_units, eachUnit_reports _ _ fun u => ?_]
  · rfl
  · obtain ⟨namespaces, h⟩ := u.aliased_eq
    exact (congrArg SourceUnit.path h : u.aliased.1.path = _)

/-- The second round behind the first, unit by unit. -/
theorem declareStructs_eq (b : Bundle) :
    b.declareAliases.1.declareStructs = (b.shelled, b.units.map fun u => u.shelled.2.1,
      b.units.flatMap fun u => u.shelled.2.2.map u.declareReport) := by
  have hdecls : ∀ u : SourceUnit, u.aliased.1.structDecls = u.structDecls := fun u => by
    obtain ⟨namespaces, h⟩ := u.aliased_eq
    rw [h]
    rfl
  have hreport : ∀ u : SourceUnit, u.aliased.1.declareReport = u.declareReport := fun u => by
    obtain ⟨namespaces, h⟩ := u.aliased_eq
    rw [h]
    rfl
  rw [declareAliases_eq]
  unfold declareStructs
  dsimp only
  rw [eachUnit_units, eachUnit_values, eachUnit_reports _ _ fun u => ?_]
  · simp only [List.map_map, List.flatMap_map, Function.comp_def, hdecls, hreport]
    rfl
  · obtain ⟨types, structs, h⟩ := u.declareStructs_eq u.structDecls
    exact (congrArg SourceUnit.path h : (u.declareStructs u.structDecls).1.path = _)

/-- The declare stage declares each unit on its own, against the names of all units. It reports the
findings of the first round, then of the second, then of the third. -/
theorem declare_eq (b : Bundle) :
    b.declare = (⟨b.units.map fun u => (u.declared b).1⟩,
      (b.units.flatMap fun u => u.aliased.2.map u.declareReport) ++
        (b.units.flatMap fun u => u.shelled.2.2.map u.declareReport) ++
        b.units.flatMap fun u => (u.declared b).2.map u.declareReport) := by
  have hsigned := declareSignaturesFrom_eq b.shelled b.shelled.units
    (b.units.map fun u => u.shelled.2.1) [] (by simp [shelled]) rfl
  have hreport : ∀ u : SourceUnit, u.shelled.1.declareReport = u.declareReport := fun u => by
    obtain ⟨namespaces, types, structs, h⟩ := u.shelled_eq
    rw [h]
    rfl
  rw [List.nil_append, List.length_nil] at hsigned
  have hzip : b.shelled.units.zip (b.units.map fun u => u.shelled.2.1) =
      b.units.map fun u => (u.shelled.1, u.shelled.2.1) := by
    rw [shelled, List.zip_map']
  have haliased : b.declareAliases.2 = _ := congrArg Prod.snd b.declareAliases_eq
  unfold declare declareWith
  dsimp only
  rw [declareStructs_eq, haliased]
  dsimp only
  rw [hsigned, hzip]
  simp only [List.nil_append, List.map_map, List.flatMap_map, Function.comp_def, hreport]
  rfl

theorem skeleton_declare (b : Bundle) : b.declare.1.skeleton = b.shelled.skeleton := by
  rw [declare_eq]
  simp only [skeleton, shelled, List.map_map, Function.comp_def, SourceUnit.declared,
    SourceUnit.skeleton_signed]

theorem shape_declare (b : Bundle) : b.declare.1.shape = b.shelled.shape := by
  rw [← shape_skeleton, skeleton_declare, shape_skeleton]

theorem get?_declare (b : Bundle) (i : Nat) :
    b.declare.1.get? i = (b.get? i).map fun u => (u.declared b).1 := by
  rw [declare_eq]
  exact List.getElem?_map

theorem size_declare (b : Bundle) : b.declare.1.size = b.size := by
  rw [declare_eq]
  exact List.length_map _

theorem fnHeads_declared (b : Bundle) (u : SourceUnit) :
    u.shelled.1.fnHeads = (u.declared b).1.fnHeads := by
  have hfile : u.shelled.1.file = (u.declared b).1.file :=
    (congrArg SourceUnit.file
      (SourceUnit.skeleton_signed b.shelled _ _).symm : u.shelled.1.skeleton.file = _)
  simp only [SourceUnit.fnHeads, hfile]

/-- Behind the stage a declaration sees the names that it saw in the round that resolves it. -/
theorem skeleton_placeOf_declared (b : Bundle) (u : SourceUnit) (generics : List Ident) :
    (b.shelled.placeOf u.shelled.1 generics).skeleton =
      (b.declare.1.placeOf (u.declared b).1 generics).skeleton := by
  have hunit : u.shelled.1.skeleton = (u.declared b).1.skeleton :=
    (SourceUnit.skeleton_signed _ _ _).symm
  simp only [Place.skeleton, placeOf, b.skeleton_declare, hunit]

/-- A type stands for the same behind the stage as in the round that resolves it. -/
theorem resolve_declared (b : Bundle) (u : SourceUnit) (generics : List Ident) (type : TypeExpr) :
    (b.shelled.placeOf u.shelled.1 generics).resolve .direct type =
      (b.declare.1.placeOf (u.declared b).1 generics).resolve .direct type := by
  rw [← Place.resolve_skeleton, skeleton_placeOf_declared, Place.resolve_skeleton]

/-- A signature is the same behind the stage as in the round that resolves it. -/
theorem signature_declared (b : Bundle) (u : SourceUnit) (head : FnHead) :
    (b.shelled.placeOf u.shelled.1 head.generics).signature .direct head =
      (b.declare.1.placeOf (u.declared b).1 head.generics).signature .direct head := by
  rw [← Place.signature_skeleton, skeleton_placeOf_declared, Place.signature_skeleton]

/-- Where the stage reports nothing, the scope of a unit has each function with the signature that
its head stands for. -/
theorem signature_of_declare {b : Bundle} (h : b.declare.2 = []) {i : Nat} {u : SourceUnit}
    (hu : b.declare.1.get? i = some u) {head : FnHead} (hhead : head ∈ u.fnHeads) :
    let run := (b.declare.1.placeOf u head.generics).signature .direct head ()
    run.log.findings = [] ∧ u.functions.get? head.name.name = some run.value.ty := by
  rw [get?_declare] at hu
  obtain ⟨u₀, hu₀, rfl⟩ := Option.map_eq_some_iff.1 hu
  -- The third round found nothing in the unit.
  have hclean : (u₀.declared b).2 = [] := by
    rw [declare_eq] at h
    have hthird := (List.append_eq_nil_iff.1 h).2
    exact List.map_eq_nil_iff.1 (List.flatMap_eq_nil_iff.1 hthird u₀ (mem_units_of_get? hu₀))
  obtain ⟨hvalue, hfindings⟩ := b.shelled.resolveFns_eq u₀.shelled.1 u₀.shelled.1.fnHeads
  unfold SourceUnit.declared SourceUnit.signed at hclean
  dsimp only at hclean
  rw [List.append_eq_nil_iff, List.append_eq_nil_iff] at hclean
  obtain ⟨⟨-, hfns⟩, hdeclared⟩ := hclean
  rw [← fnHeads_declared] at hhead
  have hresolved := (SourceUnit.get?_declareFns _ _ hdeclared).2 _
    (hvalue ▸ List.mem_map_of_mem hhead)
  rw [hfns] at hfindings
  have hnone := List.flatMap_eq_nil_iff.1 hfindings.symm head hhead
  rw [← signature_declared]
  exact ⟨hnone, hresolved⟩

/-- Whatever the stage reports, the scope of a unit has the signatures of its functions. Of two
functions of one name the first counts. -/
theorem functions_declare {b : Bundle} {i : Nat} {u : SourceUnit} (hu : b.declare.1.get? i = some u)
    (hempty : ∀ u ∈ b.units, u.functions = .empty) (name : String) :
    u.functions.get? name = (u.fnHeads.find? fun head => head.name.name == name).map fun head =>
      ((b.declare.1.placeOf u head.generics).signature .direct head ()).value.ty := by
  rw [get?_declare] at hu
  obtain ⟨u₀, hu₀, rfl⟩ := Option.map_eq_some_iff.1 hu
  have hnone : u₀.shelled.1.functions = .empty := by
    obtain ⟨namespaces, types, structs, h⟩ := u₀.shelled_eq
    rw [h]
    exact hempty u₀ (mem_units_of_get? hu₀)
  have hvalue := (b.shelled.resolveFns_eq u₀.shelled.1 u₀.shelled.1.fnHeads).1
  simp only [signature_declared] at hvalue
  have hfunctions := SourceUnit.functions_declareFns_eq (u₀.shelled.1.setMembers
    (b.shelled.resolveStructs .direct u₀.shelled.1
      (u₀.shelled.1.structDecls.zip u₀.shelled.2.1) ()).value)
    (b.shelled.resolveFns .direct u₀.shelled.1 u₀.shelled.1.fnHeads ()).value name
  refine hfunctions.trans ?_
  have hkept : (u₀.shelled.1.setMembers (b.shelled.resolveStructs .direct u₀.shelled.1
      (u₀.shelled.1.structDecls.zip u₀.shelled.2.1) ()).value).functions = .empty := hnone
  rw [hkept, hvalue, List.find?_map, Option.map_map, ← fnHeads_declared]
  rfl

end Bundle

end Custody
