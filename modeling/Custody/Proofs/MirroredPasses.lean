import Custody.Proofs.MirroredChecks
import Custody.Proofs.NodeTypes
import Custody.Proofs.Outlines

/-!
# Passes side by side

Two bundles resemble each other if their units do, one by one: the same names stand for the same
types in resembling trees (`Bundle.Resembles`). Which spans answer to which may differ from unit to
unit. Then the declare stage and the type check do the same on both: the bundles that they leave
resemble each other again, and the reports come in the same order with the same faults, each at a
place that answers to the other (`declareWith_mirrors`, `checkWith_mirrors`).

The passes may make their instances in different ways. What is asked of the two ways
(`InstanceBuilder.Agree`) is that they give the same for structs of the same label and name.
-/

set_option autoImplicit false

namespace Custody

/-! ## Units and bundles -/

/-- The same import, at places that answer to each other. -/
structure ImportLink.Resembles (ρ : Correspondence) (l l' : ImportLink) : Prop where
  localName : l'.localName = l.localName
  path : l'.path = l.path
  target : l'.target = l.target
  span : ρ.name l.span l'.span

/-- The same struct, at places that answer to each other. -/
structure StructDef.Resembles (ρ : Correspondence) (d d' : StructDef) : Prop where
  id : d'.id = d.id
  name : d'.name = d.name
  generics : d'.generics = d.generics
  members : d'.members = d.members
  span : ρ.name d.span d'.span

/-- The same unit with the same names, at places that answer to each other. -/
structure SourceUnit.Resembles (ρ : Correspondence) (u u' : SourceUnit) : Prop where
  id : u'.id = u.id
  path : u'.path = u.path
  file : u.file.Resembles ρ u'.file
  imports : List.Forall₂ (ImportLink.Resembles ρ) u.imports u'.imports
  types : u'.types = u.types
  functions : u'.functions = u.functions
  namespaces : u'.namespaces = u.namespaces
  structs : List.Forall₂ (StructDef.Resembles ρ) u.structs u'.structs
  table : u'.table = u.table

/-- Unit by unit the same, where `ρ` tells for each unit which spans answer to which. -/
def Bundle.Resembles (ρ : Nat → Correspondence) (b b' : Bundle) : Prop :=
  List.Forall₂ (fun u u' => u.Resembles (ρ u.id) u') b.units b'.units

/-- The number and the path of a unit. -/
def SourceUnit.owner (u : SourceUnit) : Nat × Path := (u.id, u.path)

/-- The numbers and the paths of the units. -/
def Bundle.owners (b : Bundle) : List (Nat × Path) := b.units.map SourceUnit.owner

/-- A unit as it was read: without the names, the structs and the types that the passes put in. -/
def SourceUnit.asRead (u : SourceUnit) : SourceUnit :=
  { u with
    types := .empty, functions := .empty, namespaces := .empty, structs := [], table := .empty }

/-- A bundle as it was read. -/
def Bundle.asRead (b : Bundle) : Bundle := ⟨b.units.map SourceUnit.asRead⟩

/-- Every struct has a label and a name that belong together. -/
def Bundle.Known (known : StructId → String → Prop) (b : Bundle) : Prop :=
  ∀ u ∈ b.units, ∀ d ∈ u.structs, known d.id d.name

theorem rel_getElem?_of_forall₂ {α β : Type} {R : α → β → Prop} {xs : List α} {ys : List β}
    (h : List.Forall₂ R xs ys) (i : Nat) : Option.Rel R xs[i]? ys[i]? := by
  induction h generalizing i with
  | nil => exact .none
  | cons hx _ ih =>
    cases i with
    | zero => exact .some hx
    | succ i => exact ih i

/-- The same change at the same place of two related lists. -/
theorem forall₂_modify {α β : Type} {R : α → β → Prop} {f : α → α} {f' : β → β} {xs : List α}
    {ys : List β} (h : List.Forall₂ R xs ys) (i : Nat)
    (hf : ∀ a b, xs[i]? = some a → ys[i]? = some b → R a b → R (f a) (f' b)) :
    List.Forall₂ R (xs.modify i f) (ys.modify i f') := by
  induction h generalizing i with
  | nil =>
    rw [List.modify_nil, List.modify_nil]
    exact .nil
  | cons hx hxs ih =>
    cases i with
    | zero => exact .cons (hf _ _ rfl rfl hx) hxs
    | succ i => exact .cons hx (ih i hf)

section Units

variable {ρ : Correspondence} {u u' : SourceUnit}

theorem SourceUnit.Resembles.mirrors (h : u.Resembles ρ u') : u.Mirrors .same u' := by
  refine ⟨fun name => ?_, fun name => ?_, fun name => ?_⟩
  · rw [h.types, Relabelling.map_ty_same]
  · rw [h.functions, Relabelling.map_ty_same]
  · rw [h.namespaces, Relabelling.map_ty_same]

theorem SourceUnit.Resembles.struct? (h : u.Resembles ρ u') (k : Nat) :
    Option.Rel (StructDef.Mirrors .same) u.structs[k]? u'.structs[k]? := by
  refine rel_getElem?_of_forall₂ (h.structs.imp fun d d' hd => ?_) k
  exact ⟨hd.id, hd.name, hd.generics, hd.members.trans (Relabelling.relabelMembers_same _).symm⟩

theorem SourceUnit.Resembles.structDecls (h : u.Resembles ρ u') :
    List.Forall₂ (StructDecl.Resembles ρ) u.structDecls u'.structDecls := by
  refine List.rel_filterMap (fun s s' hs => ?_) h.file.items
  cases hs with
  | structDecl _ hdecl => exact .some hdecl
  | _ => exact .none

theorem SourceUnit.Resembles.fnHeads (h : u.Resembles ρ u') :
    List.Forall₂ (FnHead.Resembles ρ) u.fnHeads u'.fnHeads := by
  refine List.rel_filterMap (fun s s' hs => ?_) h.file.items
  cases hs with
  | fnDecl _ hhead _ => exact .some hhead
  | _ => exact .none

end Units

section Bundles

variable {ρ : Nat → Correspondence} {b b' : Bundle}

theorem Bundle.Resembles.get? (h : b.Resembles ρ b') (i : Nat) :
    Option.Rel (fun u u' => u.Resembles (ρ u.id) u') (b.get? i) (b'.get? i) :=
  rel_getElem?_of_forall₂ h i

/-- Both have a unit with the number, or neither has. -/
theorem Bundle.Resembles.get?_cases (h : b.Resembles ρ b') (i : Nat) :
    (b.get? i = none ∧ b'.get? i = none) ∨
      ∃ u u', b.get? i = some u ∧ b'.get? i = some u' ∧ u.Resembles (ρ u.id) u' := by
  have hget := h.get? i
  generalize b.get? i = found at hget
  generalize b'.get? i = found' at hget
  cases hget with
  | none => exact .inl ⟨rfl, rfl⟩
  | some hu => exact .inr ⟨_, _, rfl, rfl, hu⟩

theorem Bundle.Resembles.names (h : b.Resembles ρ b') : b.NamesMirror .same b' := by
  refine ⟨rel_getElem?_of_forall₂ (List.Forall₂.imp (fun _ _ hu => hu.mirrors) h), fun id => ?_⟩
  have hunit := h.get? id.unit
  change Option.Rel _ _ (b'.struct? id)
  rw [Bundle.struct?, Bundle.struct?]
  generalize b.get? id.unit = found at hunit
  generalize b'.get? id.unit = found' at hunit
  cases hunit with
  | none => exact .none
  | some hu => exact hu.struct? id.index

theorem Bundle.Resembles.size (h : b.Resembles ρ b') : b'.size = b.size :=
  (List.Forall₂.length_eq h).symm

theorem Bundle.Resembles.withRecords (h : b.Resembles ρ b') (i : Nat) (records : List (Nat × Ty)) :
    (b.modify i (·.withRecords records)).Resembles ρ (b'.modify i (·.withRecords records)) :=
  forall₂_modify h i fun _ _ _ _ hu => { hu with table := rfl }

theorem Bundle.owner_mem (b : Bundle) : ∀ u ∈ b.units, u.owner ∈ b.owners :=
  fun _ hu => List.mem_map_of_mem hu

theorem Bundle.Known.struct? {known : StructId → String → Prop} (h : b.Known known) {id : StructId}
    {d : StructDef} (hd : b.struct? id = some d) : known d.id d.name := by
  obtain ⟨u, hu, hd⟩ := Option.bind_eq_some_iff.1 hd
  exact h u (List.mem_of_getElem? hu) d (List.mem_of_getElem? hd)

theorem Bundle.asRead_modify (b : Bundle) (i : Nat) {f : SourceUnit → SourceUnit}
    (hf : ∀ u, b.get? i = some u → (f u).asRead = u.asRead) : (b.modify i f).asRead = b.asRead := by
  refine congrArg Bundle.mk (List.ext_getElem? fun j => ?_)
  rw [modify, List.getElem?_map, List.getElem?_map, List.getElem?_modify]
  cases hu : b.units[j]? with
  | none => rfl
  | some u =>
    by_cases hij : i = j
    · subst hij
      exact congrArg some ((congrArg _ (if_pos rfl)).trans (hf u hu))
    · exact congrArg some (congrArg SourceUnit.asRead (if_neg hij))

theorem Bundle.asRead_withRecords (b : Bundle) (i : Nat) (records : List (Nat × Ty)) :
    (b.modify i (·.withRecords records)).asRead = b.asRead :=
  b.asRead_modify i fun _ _ => rfl

theorem SourceUnit.owner_of_asRead {u v : SourceUnit} (h : u.asRead = v.asRead) :
    u.owner = v.owner :=
  (congrArg SourceUnit.owner h : u.asRead.owner = v.asRead.owner)

theorem Bundle.owners_asRead (b : Bundle) : b.asRead.owners = b.owners := by
  rw [owners, asRead, List.map_map]
  rfl

theorem Bundle.owners_of_asRead (h : b.asRead = b'.asRead) : b.owners = b'.owners := by
  rw [← owners_asRead, h, owners_asRead]

end Bundles

/-! ## Reports -/

/-- The same note, at a place that answers to the first one. -/
structure Note.Resembles (ρ : Correspondence) (n n' : Note) : Prop where
  message : n'.message = n.message
  span : ρ.node n.span n'.span

/-- The same report, at places that answer to each other. -/
structure Report.Resembles (ρ : Correspondence) (r r' : Report) : Prop where
  stage : r'.stage = r.stage
  file : r'.file = r.file
  fault : r'.fault = r.fault
  span : ρ.node r.span r'.span
  notes : List.Forall₂ (Note.Resembles ρ) r.notes r'.notes

/-- The same report about one of the units, at places that answer to each other in that unit. -/
def Report.Answers (ρ : Nat → Correspondence) (owners : List (Nat × Path)) (r r' : Report) : Prop :=
  ∃ i, (i, r.file) ∈ owners ∧ r.Resembles (ρ i) r'

/-- The same fault in one of the units, at places that answer to each other in that unit. -/
def StructuralFault.Answers (ρ : Nat → Correspondence) (owners : List (Nat × Path))
    (fault fault' : StructuralFault) : Prop :=
  ∃ e ∈ owners, fault.Resembles (ρ e.1) fault'

section Reports

variable {ρ : Nat → Correspondence} {owners : List (Nat × Path)}

theorem Report.answers_of_findings {i : Nat} {path : Path} (howner : (i, path) ∈ owners)
    (stage : Stage) {found found' : List Finding}
    (h : List.Forall₂ (Finding.Resembles .same (ρ i)) found found') :
    List.Forall₂ (Report.Answers ρ owners) (found.map (.ofFinding stage path))
      (found'.map (.ofFinding stage path)) := by
  refine List.forall₂_map_left_iff.2 (List.forall₂_map_right_iff.2 (h.imp fun f f' hf => ?_))
  exact ⟨i, howner, rfl, rfl, hf.fault.trans (Relabelling.fault_same _), hf.span, .nil⟩

end Reports

/-! ## The rounds for one unit -/

namespace SourceUnit

section Rounds

variable {ρ : Correspondence} {u u' : SourceUnit}

theorem declareAlias_mirrors (hu : u.Resembles ρ u') {link link' : ImportLink}
    (hlink : link.Resembles ρ link') :
    (u.declareAlias link).1.Resembles ρ (u'.declareAlias link').1 ∧
      List.Forall₂ (Finding.Resembles .same ρ) (u.declareAlias link).2
        (u'.declareAlias link').2 := by
  have hspan := ρ.node_of_name hlink.span
  rw [declareAlias, declareAlias, hlink.target, hlink.localName, hlink.path, hu.namespaces]
  cases link.target with
  | none => exact ⟨hu, .cons ⟨hspan, rfl⟩ .nil⟩
  | some target =>
    dsimp only
    cases u.namespaces.insertNew link.localName (.unit target) with
    | ok namespaces => exact ⟨{ hu with namespaces := rfl }, .nil⟩
    | error existing => exact ⟨hu, .cons ⟨hspan, rfl⟩ .nil⟩

theorem declareAliases_mirrors (hu : u.Resembles ρ u') {links links' : List ImportLink}
    (hlinks : List.Forall₂ (ImportLink.Resembles ρ) links links') :
    (u.declareAliases links).1.Resembles ρ (u'.declareAliases links').1 ∧
      List.Forall₂ (Finding.Resembles .same ρ) (u.declareAliases links).2
        (u'.declareAliases links').2 := by
  induction hlinks generalizing u u' with
  | nil => exact ⟨hu, .nil⟩
  | cons hlink _ ih =>
    obtain ⟨hunit, hfound⟩ := declareAlias_mirrors hu hlink
    obtain ⟨hunits, hmore⟩ := ih hunit
    exact ⟨hunits, List.rel_append hfound hmore⟩

theorem shell_mirrors (hu : u.Resembles ρ u') {d d' : StructDecl} (hd : d.Resembles ρ d') :
    (u.shell d).Resembles ρ (u'.shell d') := by
  refine ⟨?_, hd.name.name, Ident.names_of_resembles hd.generics, rfl, hd.name.span⟩
  rw [shell, shell, hu.id, hu.structs.length_eq]

theorem declareStruct_mirrors (hu : u.Resembles ρ u') {d d' : StructDecl} (hd : d.Resembles ρ d') :
    (u.declareStruct d).1.Resembles ρ (u'.declareStruct d').1 ∧
      (u'.declareStruct d').2.1 = (u.declareStruct d).2.1 ∧
      List.Forall₂ (Finding.Resembles .same ρ) (u.declareStruct d).2.2
        (u'.declareStruct d').2.2 := by
  have hshell := shell_mirrors hu hd
  have hty : (u'.shell d').ty = (u.shell d).ty := by
    rw [StructDef.ty, StructDef.ty, hshell.id, hshell.name, hshell.generics]
  rw [declareStruct, declareStruct, hu.types, hty, hd.name.name, hshell.id]
  cases u.types.insertNew d.name.name (u.shell d).ty with
  | ok types =>
    refine ⟨{ hu with types := rfl, structs := ?_ }, rfl, .nil⟩
    exact List.rel_append hu.structs (.cons hshell .nil)
  | error existing => exact ⟨hu, rfl, .cons ⟨ρ.node_of_name hd.name.span, rfl⟩ .nil⟩

theorem declareStructs_mirrors (hu : u.Resembles ρ u') {ds ds' : List StructDecl}
    (hds : List.Forall₂ (StructDecl.Resembles ρ) ds ds') :
    (u.declareStructs ds).1.Resembles ρ (u'.declareStructs ds').1 ∧
      (u'.declareStructs ds').2.1 = (u.declareStructs ds).2.1 ∧
      List.Forall₂ (Finding.Resembles .same ρ) (u.declareStructs ds).2.2
        (u'.declareStructs ds').2.2 := by
  induction hds generalizing u u' with
  | nil => exact ⟨hu, rfl, .nil⟩
  | cons hd _ ih =>
    obtain ⟨hunit, hslot, hfound⟩ := declareStruct_mirrors hu hd
    obtain ⟨hunits, hslots, hmore⟩ := ih hunit
    exact ⟨hunits, congrArg₂ List.cons hslot hslots, List.rel_append hfound hmore⟩

theorem setMembers_mirrors (hu : u.Resembles ρ u') (resolved : List (Nat × List (String × Ty))) :
    (u.setMembers resolved).Resembles ρ (u'.setMembers resolved) := by
  refine { hu with structs := ?_ }
  have hstructs := hu.structs
  change List.Forall₂ _ (resolved.foldl _ u.structs) (resolved.foldl _ u'.structs)
  generalize u.structs = structs at hstructs
  generalize u'.structs = structs' at hstructs
  induction resolved generalizing structs structs' with
  | nil => exact hstructs
  | cons e resolved ih =>
    refine ih _ _ (forall₂_modify hstructs e.1 fun d d' _ _ hd => ?_)
    exact { hd with members := rfl }

theorem declareFns_mirrors (hu : u.Resembles ρ u') {fns fns' : List (Ident × Signature)}
    (hfns : List.Forall₂ (fun f f' => f.1.Resembles ρ f'.1 ∧ f'.2 = f.2) fns fns') :
    (u.declareFns fns).1.Resembles ρ (u'.declareFns fns').1 ∧
      List.Forall₂ (Finding.Resembles .same ρ) (u.declareFns fns).2 (u'.declareFns fns').2 := by
  induction hfns generalizing u u' with
  | nil => exact ⟨hu, .nil⟩
  | @cons f f' fns fns' hf _ ih =>
    rw [declareFns, declareFns, hf.1.name, hf.2, hu.functions]
    cases u.functions.insertNew f.1.name f.2.ty with
    | ok functions => exact ih { hu with functions := rfl }
    | error existing =>
      obtain ⟨hunit, hmore⟩ := ih hu
      exact ⟨hunit, .cons ⟨ρ.node_of_name hf.1.span, rfl⟩ hmore⟩

end Rounds

end SourceUnit

/-! ## Instances -/

variable {σ σ' : Type}

/-- Two ways to make instances give the same for structs of the same label and name, and for
functions of the same signature, from states that belong together. Of the structs only those that
are `known` are asked for. -/
structure InstanceBuilder.Agree (known : StructId → String → Prop) (I : σ → σ' → Prop)
    (builder : InstanceBuilder σ) (builder' : InstanceBuilder σ') : Prop where
  struct : ∀ d d' : StructDef, known d.id d.name → d'.id = d.id → d'.name = d.name →
    ∀ args s s', I s s' →
    (builder'.struct d' args s').1 = (builder.struct d args s).1 ∧
      I (builder.struct d args s).2 (builder'.struct d' args s').2
  fn : ∀ signature args s s', I s s' →
    (builder'.fn signature args s').1 = (builder.fn signature args s).1 ∧
      I (builder.fn signature args s).2 (builder'.fn signature args s').2

/-- Instances made anew are always the same. -/
theorem InstanceBuilder.direct_agree (known : StructId → String → Prop) :
    InstanceBuilder.Agree known (fun _ _ => True) .direct .direct := by
  refine ⟨fun d d' _ hid hname args _ _ _ => ⟨?_, trivial⟩, fun _ _ _ _ _ => ⟨rfl, trivial⟩⟩
  change d'.instantiate args = d.instantiate args
  rw [StructDef.instantiate, StructDef.instantiate, hid, hname]

section Agree

variable {known : StructId → String → Prop} {I : σ → σ' → Prop} {builder : InstanceBuilder σ}
  {builder' : InstanceBuilder σ'} {ρ : Nat → Correspondence} {b b' : Bundle} {u u' : SourceUnit}

/-- The coupling of two passes over resembling bundles, in one unit. -/
abbrev Coupling.within (I : σ → σ' → Prop) (ρ : Correspondence) : Coupling σ σ' := ⟨.same, ρ, I⟩

theorem InstanceBuilder.Agree.mirrors (h : InstanceBuilder.Agree known I builder builder')
    (hb : b.Resembles ρ b') (hknown : b.Known known) (ρ₁ : Correspondence) :
    builder.Mirrors (.within I ρ₁) b b' builder' := by
  refine ⟨fun id d d' hd hd' args s s' hs => ?_, fun signature args s s' hs => ?_⟩
  · have hstruct := hb.names.structs id
    rw [hd, hd'] at hstruct
    cases hstruct with
    | some hstruct =>
      obtain ⟨hvalue, hinstances⟩ :=
        h.struct d d' (hknown.struct? hd) hstruct.id hstruct.name args s s' hs
      rw [Relabelling.tys_same]
      exact ⟨hvalue.trans (Relabelling.ty_same _).symm, hinstances, rfl, .nil⟩
  · obtain ⟨hvalue, hinstances⟩ := h.fn signature args s s' hs
    rw [Relabelling.tys_same, Relabelling.signature_same]
    exact ⟨hvalue.trans (Relabelling.signature_same _).symm, hinstances, rfl, .nil⟩

theorem Typing.placesMirror_of_resembles (hbuilder : InstanceBuilder.Agree known I builder builder')
    (hb : b.Resembles ρ b') (hknown : b.Known known) {ρ₁ : Correspondence}
    (hu : u.Resembles ρ₁ u') : PlacesMirror (.within I ρ₁) builder builder' b b' u u' := by
  refine placesMirror_of_names hb.names hu.mirrors (hbuilder.mirrors hb hknown ρ₁)
    fun generics type s => ?_
  rw [Relabelling.ty_same]

/-! ## Members and signatures -/

theorem Bundle.resolveStructs_mirrors {ρ₁ : Correspondence}
    (hplaces : Typing.PlacesMirror (.within I ρ₁) builder builder' b b' u u')
    {ds ds' : List StructDecl} (hds : List.Forall₂ (StructDecl.Resembles ρ₁) ds ds')
    (slots : List (Option Nat)) :
    Checking.Mirrors (.within I ρ₁) Eq (b.resolveStructs builder u (ds.zip slots))
      (b'.resolveStructs builder' u' (ds'.zip slots)) := by
  induction hds generalizing slots with
  | nil => exact Checking.mirrors_pure rfl
  | @cons d d' ds ds' hd _ ih =>
    cases slots with
    | nil => exact Checking.mirrors_pure rfl
    | cons slot slots =>
      cases slot with
      | none => exact ih slots
      | some slot =>
        have hmembers := Place.members_mirrors (hplaces _ _ hd.generics).1 hd.members []
        refine hmembers.then fun members => (ih slots).thenSame fun rest => ?_
        rw [Relabelling.relabelMembers_same]
        exact Checking.mirrors_pure rfl

theorem Bundle.resolveFns_mirrors {ρ₁ : Correspondence}
    (hplaces : Typing.PlacesMirror (.within I ρ₁) builder builder' b b' u u')
    {heads heads' : List FnHead} (hheads : List.Forall₂ (FnHead.Resembles ρ₁) heads heads') :
    Checking.Mirrors (.within I ρ₁) (List.Forall₂ fun f f' => f.1.Resembles ρ₁ f'.1 ∧ f'.2 = f.2)
      (b.resolveFns builder u heads) (b'.resolveFns builder' u' heads') := by
  induction hheads with
  | nil => exact Checking.mirrors_pure .nil
  | cons hhead _ ih =>
    have hsignature := Place.signature_mirrors (hplaces _ _ hhead.generics).1 hhead
    refine hsignature.then fun signature => ih.bind fun rest rest' hrest => ?_
    exact Checking.mirrors_pure (.cons ⟨hhead.name, Relabelling.signature_same signature⟩ hrest)

end Agree

/-! ## What the passes leave alone -/

namespace SourceUnit

theorem asRead_declareAliases (u : SourceUnit) (links : List ImportLink) :
    (u.declareAliases links).1.asRead = u.asRead := by
  obtain ⟨namespaces, h⟩ := u.declareAliases_eq links
  rw [h]
  rfl

theorem asRead_declareStructs (u : SourceUnit) (ds : List StructDecl) :
    (u.declareStructs ds).1.asRead = u.asRead := by
  obtain ⟨types, structs, h⟩ := u.declareStructs_eq ds
  rw [h]
  rfl

theorem asRead_declareFns (u : SourceUnit) (fns : List (Ident × Signature)) :
    (u.declareFns fns).1.asRead = u.asRead := by
  obtain ⟨functions, h⟩ := u.declareFns_eq fns
  rw [h]
  rfl

end SourceUnit

namespace Bundle

theorem asRead_eachUnit {α : Type} {f : SourceUnit → SourceUnit × α × List Finding}
    (hf : ∀ u, (f u).1.asRead = u.asRead) (us : List SourceUnit) :
    (⟨(eachUnit f us).1⟩ : Bundle).asRead = (⟨us⟩ : Bundle).asRead := by
  rw [asRead, eachUnit_units, List.map_map]
  exact congrArg Bundle.mk (List.map_congr_left fun u _ => hf u)

theorem asRead_declareAliases (b : Bundle) : b.declareAliases.1.asRead = b.asRead :=
  asRead_eachUnit (fun u => u.asRead_declareAliases u.imports) b.units

theorem asRead_declareStructs (b : Bundle) : b.declareStructs.1.asRead = b.asRead :=
  asRead_eachUnit (fun u => u.asRead_declareStructs u.structDecls) b.units

theorem asRead_declareSignatures (b : Bundle) (builder : InstanceBuilder σ) (id : Nat)
    (slots : List (Option Nat)) (s : σ) :
    (b.declareSignatures builder id slots s).1.asRead = b.asRead := by
  rw [declareSignatures]
  cases hu : b.get? id with
  | none => rfl
  | some u =>
    refine b.asRead_modify id fun v hv => ?_
    obtain rfl : u = v := Option.some.inj (hu.symm.trans hv)
    exact SourceUnit.asRead_declareFns _ _

theorem asRead_declareSignaturesFrom (b : Bundle) (builder : InstanceBuilder σ) (id : Nat)
    (slots : List (List (Option Nat))) (s : σ) :
    (b.declareSignaturesFrom builder id slots s).1.asRead = b.asRead := by
  induction slots generalizing b id s with
  | nil => rfl
  | cons slot slots ih => exact (ih _ _ _).trans (b.asRead_declareSignatures builder id slot s)

theorem asRead_declareWith (b : Bundle) (builder : InstanceBuilder σ) (s : σ) :
    (b.declareWith builder s).1.asRead = b.asRead :=
  calc (b.declareWith builder s).1.asRead
      = b.declareAliases.1.declareStructs.1.asRead := asRead_declareSignaturesFrom _ builder 0 _ s
    _ = b.declareAliases.1.asRead := asRead_declareStructs _
    _ = b.asRead := b.asRead_declareAliases

theorem asRead_checkUnits (b : Bundle) (builder : InstanceBuilder σ) (ids : List Nat) (s : σ) :
    (b.checkUnits builder ids s).bundle.asRead = b.asRead := by
  induction ids generalizing b s with
  | nil => rfl
  | cons id ids ih =>
    cases hu : b.get? id with
    | none =>
      rw [checkUnits_cons_of_none ids hu]
      exact ih b s
    | some u =>
      cases hrun : ((Typing.checkItems b u builder u.file.items).run s).value with
      | error fault => rw [checkUnits_cons_of_fault ids hu hrun]
      | ok _ =>
        rw [checkUnits_cons_of_ok ids hu hrun]
        exact (ih _ _).trans (b.asRead_withRecords id _)

theorem asRead_checkWith (b : Bundle) (builder : InstanceBuilder σ) (s : σ) :
    (b.checkWith builder s).bundle.asRead = b.asRead :=
  b.asRead_checkUnits builder (List.range b.size) s

end Bundle

/-! ## The declare stage -/

namespace Bundle

/-- What the rounds keep: the bundles resemble each other, the structs are known, and the states of
the instances belong together. -/
structure DeclaredAlike (known : StructId → String → Prop) (I : σ → σ' → Prop)
    (ρ : Nat → Correspondence) (owners : List (Nat × Path)) (r : Bundle × List Report × σ)
    (r' : Bundle × List Report × σ') :
    Prop where
  bundle : r.1.Resembles ρ r'.1
  known : r.1.Known known
  reports : List.Forall₂ (Report.Answers ρ owners) r.2.1 r'.2.1
  instances : I r.2.2 r'.2.2

section Declare

variable {known : StructId → String → Prop} {I : σ → σ' → Prop} {builder : InstanceBuilder σ}
  {builder' : InstanceBuilder σ'} {ρ : Nat → Correspondence} {owners : List (Nat × Path)}
  {b b' : Bundle}

/-- A round does the same to each unit. -/
theorem eachUnit_mirrors {α : Type} {f : SourceUnit → SourceUnit × α × List Finding}
    (hf : ∀ (ρ₁ : Correspondence) (u u' : SourceUnit), u.Resembles ρ₁ u' →
      (f u).1.Resembles ρ₁ (f u').1 ∧ (f u').2.1 = (f u).2.1 ∧
        List.Forall₂ (Finding.Resembles .same ρ₁) (f u).2.2 (f u').2.2)
    (hread : ∀ u, (f u).1.asRead = u.asRead) {us us' : List SourceUnit}
    (hus : List.Forall₂ (fun u u' => u.Resembles (ρ u.id) u') us us')
    (howners : ∀ u ∈ us, u.owner ∈ owners) :
    List.Forall₂ (fun u u' => u.Resembles (ρ u.id) u') (eachUnit f us).1 (eachUnit f us').1 ∧
      (eachUnit f us').2.1 = (eachUnit f us).2.1 ∧
      List.Forall₂ (Report.Answers ρ owners) (eachUnit f us).2.2 (eachUnit f us').2.2 := by
  induction hus with
  | nil => exact ⟨.nil, rfl, .nil⟩
  | @cons u u' us us' hu _ ih =>
    obtain ⟨hunit, hvalue, hfound⟩ := hf _ u u' hu
    obtain ⟨hunits, hvalues, hmore⟩ := ih fun v hv => howners v (List.mem_cons_of_mem _ hv)
    have howner : (f u).1.owner = u.owner := SourceUnit.owner_of_asRead (hread u)
    have hmem : (f u).1.owner ∈ owners := howner ▸ howners u List.mem_cons_self
    have hid : (f u).1.id = u.id := congrArg Prod.fst howner
    rw [← hid] at hunit hfound
    have hreports := Report.answers_of_findings hmem .declare hfound
    rw [eachUnit, eachUnit]
    dsimp only
    refine ⟨.cons hunit hunits, congrArg₂ List.cons hvalue hvalues, ?_⟩
    have hpath : (f u').1.declareReport = (f u).1.declareReport :=
      congrArg (Report.ofFinding .declare) hunit.path
    rw [hpath]
    exact List.rel_append hreports hmore

theorem declareAliases_mirrors (h : b.Resembles ρ b') :
    b.declareAliases.1.Resembles ρ b'.declareAliases.1 ∧
      List.Forall₂ (Report.Answers ρ b.owners) b.declareAliases.2 b'.declareAliases.2 := by
  obtain ⟨hunits, _, hreports⟩ := eachUnit_mirrors
    (f := fun u => ((u.declareAliases u.imports).1, (), (u.declareAliases u.imports).2))
    (fun _ _ _ hu => ⟨(SourceUnit.declareAliases_mirrors hu hu.imports).1, rfl,
      (SourceUnit.declareAliases_mirrors hu hu.imports).2⟩)
    (fun u => u.asRead_declareAliases u.imports) h b.owner_mem
  exact ⟨hunits, hreports⟩

theorem declareStructs_mirrors (h : b.Resembles ρ b') :
    b.declareStructs.1.Resembles ρ b'.declareStructs.1 ∧
      b'.declareStructs.2.1 = b.declareStructs.2.1 ∧
      List.Forall₂ (Report.Answers ρ b.owners) b.declareStructs.2.2 b'.declareStructs.2.2 :=
  eachUnit_mirrors (f := fun u => u.declareStructs u.structDecls)
    (fun _ _ _ hu => SourceUnit.declareStructs_mirrors hu hu.structDecls)
    (fun u => u.asRead_declareStructs u.structDecls) h b.owner_mem

/-- Members and signatures change neither what a unit is nor the names of its structs. -/
theorem Known.setMembers {u : SourceUnit} (h : ∀ d ∈ u.structs, known d.id d.name)
    (resolved : List (Nat × List (String × Ty))) :
    ∀ d ∈ (u.setMembers resolved).structs, known d.id d.name := by
  intro d hd
  have hmem : d.withoutMembers ∈ u.structs.map StructDef.withoutMembers :=
    u.withoutMembers_setMembers resolved ▸ List.mem_map_of_mem hd
  obtain ⟨d₀, hd₀, hsame⟩ := List.mem_map.1 hmem
  have hid : d₀.id = d.id := (congrArg StructDef.id hsame : d₀.withoutMembers.id = _)
  have hname : d₀.name = d.name := (congrArg StructDef.name hsame : d₀.withoutMembers.name = _)
  rw [← hid, ← hname]
  exact h d₀ hd₀

theorem Known.modify (h : b.Known known) {i : Nat} {f : SourceUnit → SourceUnit}
    (hf : ∀ u, b.get? i = some u → ∀ d ∈ (f u).structs, known d.id d.name) :
    (b.modify i f).Known known := by
  intro u hu
  obtain ⟨j, hj⟩ := List.mem_iff_getElem?.1 hu
  rw [Bundle.modify, List.getElem?_modify] at hj
  obtain ⟨v, hv, rfl⟩ := Option.map_eq_some_iff.1 hj
  by_cases hij : i = j
  · subst hij
    rw [if_pos rfl]
    exact hf v hv
  · rw [if_neg hij]
    exact h v (List.mem_of_getElem? hv)

theorem declareSignatures_mirrors (hbuilder : InstanceBuilder.Agree known I builder builder')
    (h : b.Resembles ρ b') (hknown : b.Known known) (id : Nat) (slots : List (Option Nat)) {s : σ}
    {s' : σ'} (hs : I s s') :
    DeclaredAlike known I ρ b.owners (b.declareSignatures builder id slots s)
      (b'.declareSignatures builder' id slots s') := by
  rw [declareSignatures, declareSignatures]
  rcases h.get?_cases id with ⟨hu, hu'⟩ | ⟨u, u', hu, hu', hunit⟩
  · rw [hu, hu']
    exact ⟨h, hknown, .nil, hs⟩
  · rw [hu, hu']
    have hplaces := Typing.placesMirror_of_resembles hbuilder h hknown hunit
    obtain ⟨hmembers, hinstances, hlog⟩ :=
      resolveStructs_mirrors hplaces hunit.structDecls slots s s' hs
    obtain ⟨hfns, hinstances', hlog'⟩ := resolveFns_mirrors hplaces hunit.fnHeads _ _ hinstances
    have hset := SourceUnit.setMembers_mirrors hunit
      (b.resolveStructs builder u (u.structDecls.zip slots) s).value
    obtain ⟨hdeclared, hfound⟩ := SourceUnit.declareFns_mirrors hset hfns
    have howner : u.owner ∈ b.owners := b.owner_mem u (List.mem_of_getElem? hu)
    have hpath : u'.declareReport = u.declareReport :=
      congrArg (Report.ofFinding .declare) hunit.path
    dsimp only
    rw [← hmembers, hpath]
    generalize b.resolveStructs builder u (u.structDecls.zip slots) s = structs at *
    generalize b.resolveFns builder u u.fnHeads structs.instances = fns at *
    generalize b'.resolveStructs builder' u' (u'.structDecls.zip slots) s' = structs' at *
    generalize b'.resolveFns builder' u' u'.fnHeads structs'.instances = fns' at *
    -- The functions are all that is declared behind the members.
    obtain ⟨functions, hfunctions⟩ := (u.setMembers structs.value).declareFns_eq fns.value
    refine ⟨?_, ?_, ?_, hinstances'⟩
    · refine forall₂_modify h id fun v v' hv _ _ => ?_
      rw [hfunctions] at hdeclared ⊢
      exact hdeclared
    · refine hknown.modify fun v _ => ?_
      rw [hfunctions]
      exact Known.setMembers (hknown u (List.mem_of_getElem? hu)) structs.value
    · refine Report.answers_of_findings howner .declare ?_
      exact List.rel_append (List.rel_append hlog.findings hlog'.findings) hfound

theorem declareSignaturesFrom_mirrors (hbuilder : InstanceBuilder.Agree known I builder builder')
    (slots : List (List (Option Nat))) :
    ∀ {b b' : Bundle} (_ : b.Resembles ρ b') (_ : b.Known known)
      (id : Nat) {s : σ} {s' : σ'} (_ : I s s'),
    DeclaredAlike known I ρ b.owners (b.declareSignaturesFrom builder id slots s)
      (b'.declareSignaturesFrom builder' id slots s') := by
  induction slots with
  | nil => exact fun h hknown _ _ _ hs => ⟨h, hknown, .nil, hs⟩
  | cons slot slots ih =>
    intro b b' h hknown id s s' hs
    have hfirst := declareSignatures_mirrors hbuilder h hknown id slot hs
    have hrest := ih hfirst.bundle hfirst.known (id + 1) hfirst.instances
    rw [owners_of_asRead (b.asRead_declareSignatures builder id slot s)] at hrest
    exact ⟨hrest.bundle, hrest.known, List.rel_append hfirst.reports hrest.reports,
      hrest.instances⟩

/-- The declare stage does the same on both bundles. -/
theorem declareWith_mirrors (hbuilder : InstanceBuilder.Agree known I builder builder')
    (h : b.Resembles ρ b') (hknown : b.declareAliases.1.declareStructs.1.Known known) {s : σ}
    {s' : σ'} (hs : I s s') :
    DeclaredAlike known I ρ b.owners (b.declareWith builder s) (b'.declareWith builder' s') := by
  obtain ⟨haliases, haliasReports⟩ := declareAliases_mirrors h
  obtain ⟨hstructs, hslots, hstructReports⟩ := declareStructs_mirrors haliases
  have howners := owners_of_asRead b.asRead_declareAliases
  have howners' := owners_of_asRead b.declareAliases.1.asRead_declareStructs
  have hrest :=
    declareSignaturesFrom_mirrors hbuilder b.declareAliases.1.declareStructs.2.1 hstructs hknown 0
    hs
  rw [howners', howners] at hrest
  rw [howners] at hstructReports
  rw [declareWith, declareWith]
  dsimp only
  rw [hslots]
  exact ⟨hrest.bundle, hrest.known,
    List.rel_append (List.rel_append haliasReports hstructReports) hrest.reports, hrest.instances⟩

end Declare

/-! ## The type check -/

/-- What the type check gives on both bundles: the bundles that it leaves resemble each other, and
it has the same reports and the same fault, at places that answer to each other. -/
structure TypeCheck.Resembles (I : σ → σ' → Prop) (ρ : Nat → Correspondence)
    (owners : List (Nat × Path))
    (r : TypeCheck σ) (r' : TypeCheck σ') : Prop where
  bundle : r.bundle.Resembles ρ r'.bundle
  reports : List.Forall₂ (Report.Answers ρ owners) r.reports r'.reports
  fault : Option.Rel (StructuralFault.Answers ρ owners) r.fault r'.fault
  instances : I r.instances r'.instances

section Check

variable {known : StructId → String → Prop} {I : σ → σ' → Prop} {builder : InstanceBuilder σ}
  {builder' : InstanceBuilder σ'} {ρ : Nat → Correspondence}

theorem checkUnits_mirrors (hbuilder : InstanceBuilder.Agree known I builder builder')
    (ids : List Nat) :
    ∀ {b b' : Bundle} (_ : b.Resembles ρ b') (_ : b.Known known) {s : σ} {s' : σ'} (_ : I s s'),
      TypeCheck.Resembles I ρ b.owners (b.checkUnits builder ids s)
        (b'.checkUnits builder' ids s') := by
  induction ids with
  | nil => exact fun h _ _ _ hs => ⟨h, .nil, .none, hs⟩
  | cons id ids ih =>
    intro b b' h hknown s s' hs
    rcases h.get?_cases id with ⟨hu, hu'⟩ | ⟨u, u', hu, hu', hunit⟩
    · rw [checkUnits_cons_of_none ids hu, checkUnits_cons_of_none ids hu']
      exact ih h hknown hs
    · have howner : u.owner ∈ b.owners := b.owner_mem u (List.mem_of_getElem? hu)
      have hplaces := Typing.placesMirror_of_resembles hbuilder h hknown hunit
      obtain ⟨hvalue, hinstances, hlog⟩ :=
        Typing.checkItems_mirrors hplaces hunit.mirrors hunit.file.items s s' hs
      have hreports := Report.answers_of_findings howner .typeCheck hlog.findings
      rcases ExceptRel.cases hvalue with
        ⟨fault, fault', hrun, hrun', hfault⟩ | ⟨_, _, hrun, hrun', _⟩
      · rw [checkUnits_cons_of_fault ids hu hrun,
          checkUnits_cons_of_fault ids hu' hrun', hunit.path]
        exact ⟨h, hreports, .some ⟨u.owner, howner, hfault⟩, hinstances⟩
      · have hrecords : ((Typing.checkItems b' u' builder' u'.file.items).run s').log.types =
            ((Typing.checkItems b u builder u.file.items).run s).log.types := by
          rw [hlog.types]
          exact Relabelling.map_types_same _
        have hbundle :=
          h.withRecords id ((Typing.checkItems b u builder u.file.items).run s).log.types
        have hrest :=
          ih hbundle (hknown.modify fun v hv => hknown v (List.mem_of_getElem? hv)) hinstances
        rw [checkUnits_cons_of_ok ids hu hrun, checkUnits_cons_of_ok ids hu' hrun']
        dsimp only
        rw [hrecords, hunit.path]
        rw [owners_of_asRead (b.asRead_withRecords id _)] at hrest
        exact ⟨hrest.bundle, List.rel_append hreports hrest.reports, hrest.fault,
          hrest.instances⟩

/-- The type check does the same on both bundles. -/
theorem checkWith_mirrors {b b' : Bundle}
    (hbuilder : InstanceBuilder.Agree known I builder builder') (h : b.Resembles ρ b')
    (hknown : b.Known known) {s : σ} {s' : σ'} (hs : I s s') :
    TypeCheck.Resembles I ρ b.owners (b.checkWith builder s) (b'.checkWith builder' s') := by
  rw [checkWith, checkWith, h.size]
  exact checkUnits_mirrors hbuilder (List.range b.size) h hknown hs

end Check

section Direct

variable {ρ : Nat → Correspondence} {b b' : Bundle}

/-- The declare stage, with instances made anew, does the same on both bundles. -/
theorem Resembles.declare (h : b.Resembles ρ b') : b.declare.1.Resembles ρ b'.declare.1 ∧
    List.Forall₂ (Report.Answers ρ b.owners) b.declare.2 b'.declare.2 := by
  have hsame : DeclaredAlike (fun _ _ => True) (fun _ _ => True) ρ b.owners
      (b.declareWith .direct ())
      (b'.declareWith .direct ()) :=
    declareWith_mirrors (InstanceBuilder.direct_agree _) h (fun _ _ _ _ => trivial) trivial
  exact ⟨hsame.bundle, hsame.reports⟩

/-- The type check, with instances made anew, does the same on both bundles. -/
theorem Resembles.check (h : b.Resembles ρ b') :
    TypeCheck.Resembles (fun _ _ => True) ρ b.owners b.check b'.check :=
  checkWith_mirrors (InstanceBuilder.direct_agree fun _ _ => True) h
    (fun _ _ _ _ => trivial) trivial

end Direct

end Bundle

end Custody
