import Custody.Proofs.DistinctNames
import Custody.Proofs.MirroredTypes
import Mathlib.Data.List.Perm.Basic
import Mathlib.Logic.Equiv.Basic

/-!
# Declarations in another order

A bundle is a rearrangement of another one if it has the same units under other numbers, each with
its declarations in some other order (`Bundle.Rearranged`). Where the names of each unit are
distinct, the declare stage gives both bundles the same names, structs and findings, with new
labels: `Bundle.Paired.declare_mirrors` and `Bundle.Paired.declare_reports`. The new label of a
struct is the place where its declaration stands now (`Bundle.Rearranged.exists_paired`).
-/

set_option autoImplicit false

namespace Custody

/-! ## Rearrangements -/

/-- The import in the renumbered file, leading to the renumbered unit. -/
def ImportLink.renumber (π : Nat → Nat) (l : ImportLink) : ImportLink :=
  { l.refile π with target := l.target.map π }

/-- The same file, renumbered, with its declarations in some order. -/
structure SourceUnit.Rearranged (π : Nat → Nat) (u u' : SourceUnit) : Prop where
  path : u'.path = u.path
  items : u'.file.items.Perm (u.file.items.map (Stmt.refile π))
  imports : u'.imports.Perm (u.imports.map (ImportLink.renumber π))

/-- The same units under the numbers that `π` gives them, each with its declarations in some order,
and nothing of them declared yet. -/
structure Bundle.Rearranged (π : Equiv.Perm Nat) (b b' : Bundle) : Prop where
  size : b'.size = b.size
  undeclared : b'.Undeclared
  units : ∀ i u, b.get? i = some u → ∃ u', b'.get? (π i) = some u' ∧ u.Rearranged π u'

/-- Where the elements of a list stand in another order of it. -/
theorem exists_places_of_perm {α : Type} {l l' : List α} (h : l'.Perm l) :
    ∃ g : Nat → Nat, Function.Bijective g ∧ ∀ k, l'[g k]? = l[k]? := by
  -- Along the steps of the permutation; a place behind the end of the one list is behind that of
  -- the other.
  induction h with
  | nil => exact ⟨id, Function.bijective_id, fun _ => rfl⟩
  | cons x _ ih =>
    obtain ⟨g, hg, hget⟩ := ih
    refine ⟨fun k => k.casesOn 0 fun k => g k + 1, ⟨?_, ?_⟩, ?_⟩
    · intro k m hkm
      cases k with
      | zero =>
        cases m with
        | zero => rfl
        | succ m => cases hkm
      | succ k =>
        cases m with
        | zero => cases hkm
        | succ m => exact congrArg Nat.succ (hg.1 (Nat.succ.inj hkm))
    · intro m
      cases m with
      | zero => exact ⟨0, rfl⟩
      | succ m =>
        obtain ⟨k, hk⟩ := hg.2 m
        exact ⟨k + 1, congrArg Nat.succ hk⟩
    · intro k
      cases k with
      | zero => rfl
      | succ k => exact hget k
  | swap x y l =>
    refine ⟨Equiv.swap 0 1, (Equiv.swap 0 1).bijective, fun k => ?_⟩
    rcases k with _ | _ | k
    · rfl
    · rfl
    · rw [Equiv.swap_apply_of_ne_of_ne (by omega) (by omega)]
      rfl
  | trans _ _ ih ih' =>
    obtain ⟨g, hg, hget⟩ := ih
    obtain ⟨g', hg', hget'⟩ := ih'
    exact ⟨g ∘ g', hg.comp hg', fun k => (hget (g' k)).trans (hget' k)⟩

section Collected

variable {α β γ δ : Type} {l : List α} {l' : List β} {r : α → β} {g : γ → δ}

/-- What is picked from elements in another order. -/
theorem perm_filterMap_of_perm {f : α → Option γ} {f' : β → Option δ} (h : l'.Perm (l.map r))
    (hf : ∀ a, f' (r a) = (f a).map g) : (l'.filterMap f').Perm ((l.filterMap f).map g) := by
  refine (h.filterMap f').trans (.of_eq ?_)
  rw [List.filterMap_map, List.map_filterMap]
  exact List.filterMap_congr fun a _ => hf a

/-- What elements in another order give together. -/
theorem perm_flatMap_of_perm {f : α → List γ} {f' : β → List δ} (h : l'.Perm (l.map r))
    (hf : ∀ a ∈ l, (f' (r a)).Perm ((f a).map g)) : (l'.flatMap f').Perm ((l.flatMap f).map g) := by
  rw [List.map_flatMap]
  refine (h.flatMap_right f').trans ?_
  rw [List.flatMap_map]
  exact List.Perm.flatMap_left l hf

end Collected

namespace SourceUnit

variable {π : Nat → Nat} {u u' : SourceUnit}

theorem Rearranged.structDecls (h : u.Rearranged π u') :
    u'.structDecls.Perm (u.structDecls.map (StructDecl.refile π)) := by
  refine perm_filterMap_of_perm h.items fun s => ?_
  cases s <;> rfl

theorem Rearranged.fnHeads (h : u.Rearranged π u') :
    u'.fnHeads.Perm (u.fnHeads.map (FnHead.refile π)) := by
  refine perm_filterMap_of_perm h.items fun s => ?_
  cases s <;> rfl

/-- Distinct names stay distinct. -/
theorem Rearranged.namesApart (h : u.Rearranged π u') (hu : u.NamesApart) : u'.NamesApart := by
  have hstructs := h.structDecls.map fun d => d.name.name
  have hfns := h.fnHeads.map fun head => head.name.name
  have himports := h.imports.map ImportLink.localName
  rw [List.map_map] at hstructs hfns himports
  refine ⟨hstructs.nodup_iff.2 hu.structs, fun d hd => ?_, hfns.nodup_iff.2 hu.functions,
    himports.nodup_iff.2 hu.imports⟩
  obtain ⟨d₀, hd₀, rfl⟩ := List.mem_map.1 (h.structDecls.subset hd)
  exact hu.builtins d₀ hd₀

/-- A unit under number `i`, its rearrangement, and the places where its structs stand there. -/
structure Paired (τ : Relabelling) (i : Nat) (u u' : SourceUnit) : Prop where
  rearranged : u.Rearranged τ.unit u'
  undeclared : u.Undeclared i
  undeclared' : u'.Undeclared (τ.unit i)
  apart : u.NamesApart
  places : ∀ k, u'.structDecls[τ.index i k]? = u.structDecls[k]?.map (StructDecl.refile τ.unit)

end SourceUnit

/-- Every unit of a bundle is found in the other one, rearranged. -/
structure Bundle.Paired (τ : Relabelling) (b b' : Bundle) : Prop where
  units : ∀ i, Option.Rel (SourceUnit.Paired τ i) (b.get? i) (b'.get? (τ.unit i))
  range : ((List.range b.size).map τ.unit).Perm (List.range b'.size)

namespace Bundle

variable {b b' : Bundle}

/-- The numbers of the units of a rearrangement are those that `π` gives. -/
theorem Rearranged.range {π : Equiv.Perm Nat} (h : b.Rearranged π b') :
    ((List.range b.size).map π).Perm (List.range b'.size) := by
  -- The new numbers are numbers of the rearrangement, they differ, and there are as many of them.
  have hsub : (List.range b.size).map π ⊆ List.range b'.size := by
    intro j hj
    obtain ⟨i, hi, rfl⟩ := List.mem_map.1 hj
    obtain ⟨u', hu', -⟩ := h.units i _ (List.getElem?_eq_getElem (List.mem_range.1 hi))
    exact List.mem_range.2 (List.getElem?_eq_some_iff.1 hu').1
  have hnodup : ((List.range b.size).map π).Nodup := List.nodup_range.map π.injective
  refine (List.subperm_of_subset hnodup hsub).perm_of_length_le (Nat.le_of_eq ?_)
  rw [List.length_map, List.length_range, List.length_range, h.size]

/-- A rearrangement comes with new labels: for each struct the place where its declaration
stands. -/
theorem Rearranged.exists_paired {π : Equiv.Perm Nat} (h : b.Rearranged π b') (hb : b.Undeclared)
    (hapart : ∀ u ∈ b.units, u.NamesApart) :
    ∃ τ : Relabelling, τ.unit = π ∧ b.Paired τ b' := by
  have hplaces : ∀ i, ∃ g : Nat → Nat, Function.Bijective g ∧ ∀ u u', b.get? i = some u →
      b'.get? (π i) = some u' →
        ∀ k, u'.structDecls[g k]? = u.structDecls[k]?.map (StructDecl.refile π) := by
    intro i
    cases hu : b.get? i with
    | none => exact ⟨id, Function.bijective_id, fun u u' hu' => by cases hu'⟩
    | some u =>
      obtain ⟨u', hu', hrearranged⟩ := h.units i u hu
      obtain ⟨g, hg, hget⟩ := exists_places_of_perm hrearranged.structDecls
      refine ⟨g, hg, fun v v' hv hv' k => ?_⟩
      cases hv
      cases hu'.symm.trans hv'
      rw [hget, List.getElem?_map]
  choose index hindex hget using hplaces
  refine ⟨⟨π, index, π.bijective, hindex⟩, rfl, fun i => ?_, h.range⟩
  cases hu : b.get? i with
  | some u =>
    obtain ⟨u', hu', hrearranged⟩ := h.units i u hu
    have hpaired : SourceUnit.Paired ⟨π, index, π.bijective, hindex⟩ i u u' :=
      ⟨hrearranged, hb i u hu, h.undeclared (π i) u' hu', hapart u (mem_units_of_get? hu),
        hget i u u' hu hu'⟩
    exact hu' ▸ .some hpaired
  | none =>
    -- A number that some unit has in the rearrangement is given to a unit of the bundle.
    have hnone : b'.get? (π i) = none := by
      refine List.getElem?_eq_none (Nat.le_of_not_lt fun hlt => ?_)
      obtain ⟨j, hj, heq⟩ := List.mem_map.1 (h.range.symm.subset (List.mem_range.2 hlt))
      obtain rfl := π.injective heq
      exact absurd (List.mem_range.1 hj) (Nat.not_lt.2 (List.getElem?_eq_none_iff.1 hu))
    change Option.Rel _ none (b'.get? (π i))
    rw [hnone]
    exact .none

end Bundle

/-! ## The names of a unit -/

namespace SourceUnit.Paired

variable {τ : Relabelling} {i : Nat} {u u' : SourceUnit}

theorem apart' (h : u.Paired τ i u') : u'.NamesApart := h.rearranged.namesApart h.apart

/-- A struct declaration with its place, and the same one in the rearrangement. -/
theorem mem_zipIdx (h : u.Paired τ i u') {d : StructDecl} {k : Nat}
    (hd : (d, k) ∈ u.structDecls.zipIdx) :
    (d.refile τ.unit, τ.index i k) ∈ u'.structDecls.zipIdx := by
  rw [List.mem_zipIdx_iff_getElem?] at hd ⊢
  rw [h.places, hd]
  rfl

/-- Structs with members that are the same but for labels. -/
theorem structs (h : u.Paired τ i u') (members members' : StructDecl → List (String × Ty))
    (hmembers : ∀ d ∈ u.structDecls,
      members' (d.refile τ.unit) = Place.relabelMembers τ (members d)) (k : Nat) :
    (u'.structDecls.zipIdx.map fun p =>
        { shellAt u'.id p with members := members' p.1 })[τ.index i k]? =
      (u.structDecls.zipIdx.map fun p =>
        { shellAt u.id p with members := members p.1 })[k]?.map τ.structDef := by
  rw [List.getElem?_map, List.getElem?_map, List.getElem?_zipIdx, List.getElem?_zipIdx, h.places,
    h.undeclared.id, h.undeclared'.id]
  cases hd : u.structDecls[k]? with
  | none => rfl
  | some d =>
    have hgenerics : (d.refile τ.unit).generics.map (·.name) = d.generics.map (·.name) :=
      List.map_map
    simp only [Option.map_some, shellAt, Relabelling.structDef, hgenerics, Nat.zero_add,
      hmembers d (List.mem_of_getElem? hd)]
    rfl

theorem types (h : u.Paired τ i u') (name : String) :
    u'.withNames.types.get? name = (u.withNames.types.get? name).map τ.ty := by
  have hbuiltins : ∀ e ∈ Ty.builtins, τ.ty e.2 = e.2 := by
    simp [Ty.builtins, Relabelling.ty]
  refine NameMap.get?_eq_map h.apart'.types_nodup (fun e he => ?_) ?_ name
  · rcases List.mem_append.1 he with he | he
    · rw [hbuiltins e he]
      exact List.mem_append_left _ he
    · -- The entry of a struct holds its place, which is the one that the new label names.
      obtain ⟨⟨d, k⟩, hd, rfl⟩ := List.mem_map.1 he
      refine List.mem_append_right _ (List.mem_map.2 ⟨_, h.mem_zipIdx hd, ?_⟩)
      rw [h.undeclared.id, h.undeclared'.id]
      simp only [shellAt, StructDef.ty, StructDecl.refile, List.length_map]
      rfl
  · rw [names_types_withNames, names_types_withNames]
    have hnames := (h.rearranged.structDecls.map fun d => d.name.name).subset
    rw [List.map_map] at hnames
    rintro name hname
    rcases List.mem_append.1 hname with hname | hname
    · exact List.mem_append_left _ hname
    · exact List.mem_append_right _ (hnames hname)

theorem namespaces (h : u.Paired τ i u') (name : String) :
    u'.withNames.namespaces.get? name = (u.withNames.namespaces.get? name).map τ.ty := by
  have hentries : (u'.imports.filterMap ImportLink.entry?).Perm
      ((u.imports.filterMap ImportLink.entry?).map fun e => (e.1, τ.ty e.2)) := by
    refine perm_filterMap_of_perm h.rearranged.imports fun l => ?_
    obtain ⟨localName, path, span, target⟩ := l
    cases target <;> rfl
  refine NameMap.get?_eq_map h.apart'.namespaces_nodup (fun e he => ?_) (fun x hx => ?_) name
  · exact hentries.symm.subset (List.mem_map.2 ⟨e, he, rfl⟩)
  · have hx' := (hentries.map Prod.fst).subset hx
    rwa [List.map_map] at hx'

/-- Before functions are declared, the names of the two units stand for the same. -/
theorem withNames_mirrors (h : u.Paired τ i u') : u.withNames.Mirrors τ u'.withNames := by
  refine ⟨h.types, fun name => ?_, h.namespaces⟩
  change u'.functions.get? name = (u.functions.get? name).map τ.ty
  rw [h.undeclared.functions, h.undeclared'.functions]
  rfl

end SourceUnit.Paired

/-! ## The declare stage -/

/-- The units of a bundle by their numbers. -/
theorem Bundle.flatMap_units {α : Type} (b : Bundle) (f : SourceUnit → List α) :
    b.units.flatMap f = (List.range b.size).flatMap fun i => (b.get? i).elim [] f := by
  unfold Bundle.size Bundle.get?
  induction b.units with
  | nil => rfl
  | cons u us ih =>
    rw [List.flatMap_cons, ih, List.length_cons, List.range_succ_eq_map, List.flatMap_cons,
      List.flatMap_map]
    rfl

namespace Bundle.Paired

variable {τ : Relabelling} {b b' : Bundle}

/-- A number is that of a unit in both bundles or in none. -/
theorem unit_or_none (h : b.Paired τ b') (i : Nat) :
    (∃ u u', b.get? i = some u ∧ b'.get? (τ.unit i) = some u' ∧ u.Paired τ i u') ∨
      b.get? i = none ∧ b'.get? (τ.unit i) = none := by
  have hi := h.units i
  revert hi
  generalize b.get? i = unit
  generalize b'.get? (τ.unit i) = unit'
  rintro (hpaired | _)
  · exact .inl ⟨_, _, rfl, rfl, hpaired⟩
  · exact .inr ⟨rfl, rfl⟩

/-- Units that are changed alike mirror each other if their names and structs do. -/
theorem map_mirrors (h : b.Paired τ b') {f f' : SourceUnit → SourceUnit}
    (hnames : ∀ i u u', u.Paired τ i u' → (f u).Mirrors τ (f' u'))
    (hstructs : ∀ i u u', u.Paired τ i u' → ∀ k,
      (f' u').structs[τ.index i k]? = (f u).structs[k]?.map τ.structDef) :
    (⟨b.units.map f⟩ : Bundle).Mirrors τ ⟨b'.units.map f'⟩ := by
  have hget (i : Nat) : (⟨b.units.map f⟩ : Bundle).get? i = (b.get? i).map f := List.getElem?_map
  have hget' (i : Nat) : (⟨b'.units.map f'⟩ : Bundle).get? i = (b'.get? i).map f' :=
    List.getElem?_map
  refine ⟨fun i => ?_, fun id => ?_⟩
  · rw [hget, hget']
    rcases h.unit_or_none i with ⟨u, u', hu, hu', hpaired⟩ | ⟨hu, hu'⟩
    · rw [hu, hu']
      exact .some (hnames i u u' hpaired)
    · rw [hu, hu']
      exact .none
  · obtain ⟨i, k⟩ := id
    change ((⟨b'.units.map f'⟩ : Bundle).get? (τ.unit i)).bind (fun u => u.structs[τ.index i k]?) =
      (((⟨b.units.map f⟩ : Bundle).get? i).bind fun u => u.structs[k]?).map τ.structDef
    rw [hget, hget']
    rcases h.unit_or_none i with ⟨u, u', hu, hu', hpaired⟩ | ⟨hu, hu'⟩
    · rw [hu, hu']
      exact hstructs i u u' hpaired k
    · rw [hu, hu']
      rfl

/-- Behind the first two rounds all names stand for the same. -/
theorem shelled_mirrors (h : b.Paired τ b') : b.shelled.Mirrors τ b'.shelled := by
  refine h.map_mirrors (fun i u u' hpaired => ?_) (fun i u u' hpaired k => ?_)
  · rw [(hpaired.undeclared.shelled_eq hpaired.apart).1,
      (hpaired.undeclared'.shelled_eq hpaired.apart').1]
    exact hpaired.withNames_mirrors
  · rw [(hpaired.undeclared.shelled_eq hpaired.apart).1,
      (hpaired.undeclared'.shelled_eq hpaired.apart').1]
    exact hpaired.structs (fun _ => []) (fun _ => []) (fun _ _ => rfl) k

section Unit

variable {i : Nat} {u u' : SourceUnit}

theorem place_mirrors (h : b.Paired τ b') (hu : u.Paired τ i u') (generics : List Ident) :
    (b.shelled.placeOf u.withNames generics).Mirrors τ.coupling .direct .direct
      (b'.shelled.placeOf u'.withNames (generics.map (Ident.refile τ.unit))) := by
  have hbundle := h.shelled_mirrors.names
  refine ⟨hbundle, hu.withNames_mirrors, ?_,
    InstanceBuilder.direct_mirrors (fun _ _ => trivial) hbundle⟩
  exact List.map_map

theorem membersIn_mirrors (h : b.Paired τ b') (hu : u.Paired τ i u') (d : StructDecl) :
    (u'.membersIn b'.shelled (d.refile τ.unit)).value =
        Place.relabelMembers τ (u.membersIn b.shelled d).value ∧
      (u'.membersIn b'.shelled (d.refile τ.unit)).log = τ.log (u.membersIn b.shelled d).log := by
  have hmembers :=
    Place.members_mirrors (h.place_mirrors hu d.generics) d.resembles_refile.members []
    () () trivial
  exact ⟨hmembers.value, hmembers.log.eq_log⟩

theorem signatureIn_mirrors (h : b.Paired τ b') (hu : u.Paired τ i u') (head : FnHead) :
    (u'.signatureIn b'.shelled (head.refile τ.unit)).value =
        τ.signature (u.signatureIn b.shelled head).value ∧
      (u'.signatureIn b'.shelled (head.refile τ.unit)).log =
        τ.log (u.signatureIn b.shelled head).log := by
  have hsignature :=
    Place.signature_mirrors (h.place_mirrors hu head.generics) head.resembles_refile
    () () trivial
  exact ⟨hsignature.value, hsignature.log.eq_log⟩

/-- Behind all rounds the names of the two units stand for the same. -/
theorem declared_mirrors (h : b.Paired τ b') (hu : u.Paired τ i u') :
    (u.declared b).1.Mirrors τ (u'.declared b').1 := by
  rw [hu.undeclared.declared_eq hu.apart, hu.undeclared'.declared_eq hu.apart']
  refine ⟨hu.types, NameMap.get?_eq_map ?_ (fun e he => ?_) (fun x hx => ?_), hu.namespaces⟩
  · rw [List.map_map]
    exact hu.apart'.functions
  · obtain ⟨head, hhead, rfl⟩ := List.mem_map.1 he
    refine List.mem_map.2 ⟨head.refile τ.unit, ?_, ?_⟩
    · exact hu.rearranged.fnHeads.symm.subset (List.mem_map_of_mem hhead)
    · rw [(h.signatureIn_mirrors hu head).1]
      rfl
  · rw [List.map_map] at hx ⊢
    have hx' := (hu.rearranged.fnHeads.map fun head => head.name.name).subset hx
    rwa [List.map_map] at hx'

theorem declared_structs (h : b.Paired τ b') (hu : u.Paired τ i u') (k : Nat) :
    (u'.declared b').1.structs[τ.index i k]? = (u.declared b).1.structs[k]?.map τ.structDef := by
  rw [hu.undeclared.declared_eq hu.apart, hu.undeclared'.declared_eq hu.apart']
  exact hu.structs (fun d => (u.membersIn b.shelled d).value)
    (fun d => (u'.membersIn b'.shelled d).value) (fun d _ => (h.membersIn_mirrors hu d).1) k

/-- The rounds find the same in the two units. -/
theorem declared_findings (h : b.Paired τ b') (hu : u.Paired τ i u') :
    (u'.declared b').2.Perm ((u.declared b).2.map τ.finding) := by
  rw [hu.undeclared.declared_eq hu.apart, hu.undeclared'.declared_eq hu.apart']
  dsimp only
  rw [List.map_append]
  refine .append ?_ ?_
  · refine perm_flatMap_of_perm hu.rearranged.structDecls fun d _ => .of_eq ?_
    exact congrArg Log.findings (h.membersIn_mirrors hu d).2
  · refine perm_flatMap_of_perm hu.rearranged.fnHeads fun head _ => .of_eq ?_
    exact congrArg Log.findings (h.signatureIn_mirrors hu head).2

theorem aliased_findings (hu : u.Paired τ i u') :
    u'.aliased.2.Perm (u.aliased.2.map τ.finding) := by
  rw [hu.undeclared.aliased_findings hu.apart, hu.undeclared'.aliased_findings hu.apart']
  refine perm_filterMap_of_perm hu.rearranged.imports fun l => ?_
  obtain ⟨localName, path, span, target⟩ := l
  cases target <;> rfl

end Unit

/-- The declare stage gives the two bundles the same names and structs. -/
theorem declare_mirrors (h : b.Paired τ b') : b.declare.1.Mirrors τ b'.declare.1 := by
  rw [declare_eq, declare_eq]
  exact h.map_mirrors (fun _ _ _ hu => h.declared_mirrors hu) fun _ _ _ hu => h.declared_structs hu

/-- What is found in units, in the order of the bundle. -/
theorem perm_flatMap (h : b.Paired τ b') {found found' : SourceUnit → List Finding}
    (hfound : ∀ i u u', u.Paired τ i u' → (found' u').Perm ((found u).map τ.finding)) :
    (b'.units.flatMap fun u => (found' u).map u.declareReport).Perm
      ((b.units.flatMap fun u => (found u).map u.declareReport).map τ.report) := by
  rw [b'.flatMap_units, b.flatMap_units]
  refine perm_flatMap_of_perm h.range.symm fun i _ => ?_
  rcases h.unit_or_none i with ⟨u, u', hu, hu', hpaired⟩ | ⟨hu, hu'⟩
  · rw [hu, hu']
    have hreport : u'.declareReport ∘ τ.finding = τ.report ∘ u.declareReport := by
      funext f
      simp only [Function.comp_apply, SourceUnit.declareReport, hpaired.rearranged.path]
      rfl
    have hperm := (hfound i u u' hpaired).map u'.declareReport
    rw [List.map_map, hreport, ← List.map_map] at hperm
    exact hperm
  · rw [hu, hu']
    exact .nil

/-- The declare stage reports the same about the two bundles. -/
theorem declare_reports (h : b.Paired τ b') : b'.declare.2.Perm (b.declare.2.map τ.report) := by
  rw [declare_eq, declare_eq]
  dsimp only
  rw [List.map_append, List.map_append]
  refine .append (.append ?_ ?_) ?_
  · exact h.perm_flatMap fun _ _ _ hu => aliased_findings hu
  · refine h.perm_flatMap fun _ _ _ hu => ?_
    rw [(hu.undeclared.shelled_eq hu.apart).2, (hu.undeclared'.shelled_eq hu.apart').2]
    exact .nil
  · exact h.perm_flatMap fun _ _ _ hu => h.declared_findings hu

end Bundle.Paired

end Custody
