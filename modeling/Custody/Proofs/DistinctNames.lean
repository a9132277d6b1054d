import Custody.Proofs.FirstDeclarations

/-!
# Declaring distinct names

Where no two structs, no two functions and no two imports of a unit share a name (`NamesApart`),
every declaration is the first one of its name: nothing is left out and nothing of the unit stands
in the way of anything else. What a unit has behind the declare stage can then be written down
without `firsts` (`SourceUnit.Undeclared.declared_eq`).
-/

set_option autoImplicit false

namespace Custody

/-! ## Maps with one entry for each name -/

namespace NameMap

variable {α β : Type} {m : NameMap α} {name : String} {a : α}

theorem mem_of_get? (h : m.get? name = some a) : (name, a) ∈ m.entries := by
  obtain ⟨before, after, hentries, -⟩ := List.lookup_eq_some_iff.1 h
  rw [hentries]
  exact List.mem_append_right _ List.mem_cons_self

/-- Where each name has one entry, the name stands for what the entry says. -/
theorem get?_of_mem (hnodup : (m.entries.map Prod.fst).Nodup) (h : (name, a) ∈ m.entries) :
    m.get? name = some a := by
  cases hget : m.get? name with
  | none => exact absurd (List.mem_map_of_mem h) (get?_eq_none_iff.1 hget)
  | some a' =>
    have heq := List.inj_on_of_nodup_map hnodup (mem_of_get? hget) h rfl
    exact congrArg (fun e => some e.2) heq

/-- A map that has the entries of another one, with `f` applied, and no other names. -/
theorem get?_eq_map {m' : NameMap β} {f : α → β} (hnodup : (m'.entries.map Prod.fst).Nodup)
    (hmem : ∀ e ∈ m.entries, (e.1, f e.2) ∈ m'.entries)
    (hnames : m'.entries.map Prod.fst ⊆ m.entries.map Prod.fst) (name : String) :
    m'.get? name = (m.get? name).map f := by
  cases hget : m.get? name with
  | some a => exact get?_of_mem hnodup (hmem (name, a) (mem_of_get? hget))
  | none => exact get?_eq_none_iff.2 fun h => get?_eq_none_iff.1 hget (hnames h)

theorem empty_extend_of_nodup {new : List (String × α)} (hnodup : (new.map Prod.fst).Nodup) :
    (empty : NameMap α).extend new = ⟨new⟩ := by
  have hnew : ∀ e ∈ new, e.1 ∉ ([] : List String) := fun e _ => List.not_mem_nil
  exact congrArg NameMap.mk (firsts_of_nodup Prod.fst hnodup hnew).1

end NameMap

namespace SourceUnit

/-- No two structs, functions or imports of a unit have the same name, and no struct has the name of
a builtin type. -/
structure NamesApart (u : SourceUnit) : Prop where
  structs : (u.structDecls.map fun d => d.name.name).Nodup
  builtins : ∀ d ∈ u.structDecls, d.name.name ∉ Ty.builtins.map Prod.fst
  functions : (u.fnHeads.map fun head => head.name.name).Nodup
  imports : (u.imports.map ImportLink.localName).Nodup

instance (u : SourceUnit) : Decidable u.NamesApart :=
  decidable_of_iff
    ((u.structDecls.map fun d => d.name.name).Nodup ∧
      (∀ d ∈ u.structDecls, d.name.name ∉ Ty.builtins.map Prod.fst) ∧
      (u.fnHeads.map fun head => head.name.name).Nodup ∧ (u.imports.map ImportLink.localName).Nodup)
    ⟨fun h => ⟨h.1, h.2.1, h.2.2.1, h.2.2.2⟩,
      fun h => ⟨h.structs, h.builtins, h.functions, h.imports⟩⟩

/-! ## The first two rounds -/

/-- The unit behind the first two rounds. -/
def withNames (u : SourceUnit) : SourceUnit :=
  { u with
    namespaces := ⟨u.imports.filterMap ImportLink.entry?⟩
    types := ⟨Ty.builtins ++ u.structDecls.zipIdx.map fun p => (p.1.name.name, (shellAt u.id p).ty)⟩
    structs := u.structDecls.zipIdx.map (shellAt u.id) }

theorem names_types_withNames (u : SourceUnit) : u.withNames.types.entries.map Prod.fst =
    Ty.builtins.map Prod.fst ++ u.structDecls.map fun d => d.name.name := by
  nth_rewrite 1 [← List.zipIdx_map_fst 0 u.structDecls]
  rw [List.map_map]
  simp only [withNames, List.map_append, List.map_map]
  rfl

variable {i : Nat} {u : SourceUnit}

/-- Type names have one entry each. -/
theorem NamesApart.types_nodup (h : u.NamesApart) :
    (u.withNames.types.entries.map Prod.fst).Nodup := by
  rw [names_types_withNames]
  refine List.nodup_append.2 ⟨by decide, h.structs, ?_⟩
  rintro name hname _ hd rfl
  obtain ⟨d, hd', rfl⟩ := List.mem_map.1 hd
  exact h.builtins d hd' hname

/-- Aliases have one entry each. -/
theorem NamesApart.namespaces_nodup (h : u.NamesApart) :
    (u.withNames.namespaces.entries.map Prod.fst).Nodup := by
  -- Imports that lead nowhere have no entry; the others keep their order.
  suffices hsub : ∀ links : List ImportLink,
      ((links.filterMap ImportLink.entry?).map Prod.fst).Sublist
      (links.map ImportLink.localName) from (hsub u.imports).nodup h.imports
  intro links
  induction links with
  | nil => exact .slnil
  | cons l links ih =>
    obtain ⟨localName, path, span, target⟩ := l
    cases target with
    | none => exact ih.cons localName
    | some target => exact ih.cons_cons localName

theorem NamesApart.acceptedStructs_eq (h : u.NamesApart) :
    u.acceptedStructs = u.structDecls ∧ u.rejectedStructs = [] :=
  firsts_of_nodup (fun d : StructDecl => d.name.name) h.structs h.builtins

theorem NamesApart.rejectedFns_eq (h : u.NamesApart) : u.rejectedFns = [] :=
  (firsts_of_nodup (fun head : FnHead => head.name.name) h.functions fun _ _ => List.not_mem_nil).2

theorem NamesApart.rejectedImports_eq (h : u.NamesApart) : u.rejectedImports = [] := by
  have hnodup := ((List.filter_sublist (p := (·.target.isSome)) (l := u.imports)).map
    ImportLink.localName).nodup h.imports
  exact (firsts_of_nodup ImportLink.localName hnodup fun _ _ => List.not_mem_nil).2

theorem NamesApart.withFirsts_eq (h : u.NamesApart) : u.withFirsts = u.withNames := by
  have hspaces : NameMap.empty.extend (u.imports.filterMap ImportLink.entry?) =
      ⟨u.imports.filterMap ImportLink.entry?⟩ := NameMap.empty_extend_of_nodup h.namespaces_nodup
  rw [withFirsts, h.acceptedStructs_eq.1, hspaces]
  rfl

/-- All that the first round finds is about imports that lead nowhere. -/
theorem Undeclared.aliased_findings (hu : u.Undeclared i) (h : u.NamesApart) :
    u.aliased.2 = u.imports.filterMap ImportLink.lost? := by
  obtain ⟨-, hrepeats, hlost⟩ := u.declareAliases_firsts u.imports
  have hnone : u.aliased.2.filter (·.fault.isDuplicate) = [] := by
    refine hrepeats.trans ?_
    rw [hu.namespaces]
    exact List.map_eq_nil_iff.2 h.rejectedImports_eq
  have hall : u.aliased.2.filter (fun f => !f.fault.isDuplicate) = u.aliased.2 := by
    refine List.filter_eq_self.2 fun f hf => ?_
    simpa using List.filter_eq_nil_iff.1 hnone f hf
  exact hall.symm.trans hlost

theorem Undeclared.shelled_eq (hu : u.Undeclared i) (h : u.NamesApart) :
    u.shelled.1 = u.withNames ∧ u.shelled.2.2 = [] := by
  rw [hu.shelled_fst, h.withFirsts_eq, hu.shelled_findings, h.acceptedStructs_eq.2]
  exact ⟨rfl, rfl⟩

/-! ## The third round -/

/-- What is resolved for a struct declaration of the unit, against the names of a bundle. -/
def membersIn (b : Bundle) (u : SourceUnit) (d : StructDecl) : Checked Unit (List (String × Ty)) :=
  (b.placeOf u.withNames d.generics).members .direct [] d.members ()

/-- What is resolved for a function of the unit, against the names of a bundle. -/
def signatureIn (b : Bundle) (u : SourceUnit) (head : FnHead) : Checked Unit Signature :=
  (b.placeOf u.withNames head.generics).signature .direct head ()

/-- A unit with distinct names behind all rounds: every declaration has its entry, and what was
found is what was found in the members of structs and in the signatures. -/
theorem Undeclared.declared_eq (hu : u.Undeclared i) (h : u.NamesApart) (b : Bundle) :
    u.declared b =
      ({ u.withNames with
          structs := u.structDecls.zipIdx.map fun p =>
            { shellAt u.id p with members := (u.membersIn b.shelled p.1).value }
          functions := ⟨u.fnHeads.map fun head =>
            (head.name.name, (u.signatureIn b.shelled head).value.ty)⟩ },
        (u.structDecls.flatMap fun d => (u.membersIn b.shelled d).log.findings) ++
          u.fnHeads.flatMap fun head => (u.signatureIn b.shelled head).log.findings) := by
  have hfunctions : NameMap.empty.extend (u.fnHeads.map fun head =>
      (head.name.name, (u.withNames.signatureOf b.shelled head).value.ty)) =
      ⟨u.fnHeads.map fun head =>
        (head.name.name, (u.signatureIn b.shelled head).value.ty)⟩ := by
    refine NameMap.empty_extend_of_nodup ?_
    rw [List.map_map]
    exact h.functions
  rw [hu.declared_eq_firsts, h.acceptedStructs_eq.1, h.rejectedFns_eq, h.withFirsts_eq, hfunctions,
    List.map_nil, List.append_nil]
  rfl

end SourceUnit

end Custody
