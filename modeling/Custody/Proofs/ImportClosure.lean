import Custody.Loading
import Custody.Proofs.FileTrees
import Custody.Proofs.RefiledReading
import Mathlib.Data.List.Nodup
import Mathlib.Data.List.Perm.Subperm
import Mathlib.Logic.Relation

/-!
# What a load assembles

The files that a load reaches form a graph: `FileAccess.Imports` leads from a file that parses to
those that its imports resolve to, and a file is `Broken` if it cannot be read or parsed or has
an import that leads nowhere. `FileAccess.Preorder` visits the graph depth first and lists each
file where it is first met.

`Loading.loadFile_outcome` follows one load from an arbitrary bundle of files, by induction on the
number of files that may still be read in a row; `Loading.load_assembles_closure` says what a load
into the empty bundle gives: exactly the files reached, once each, in preorder, with every import
linked, or an error exactly when the entry is missing or a broken file is reached.
-/

set_option autoImplicit false

namespace Custody

variable {file : Path} {source : String} {i : Nat} {u : SourceUnit} {tree : SourceFile}
variable {files : List Path} {links : List ImportLink}

/-! ## Reading one file -/

/-- The paths that the imports of a file spell, in order. -/
def SourceFile.importPaths (tree : SourceFile) : List String :=
  (tree.items.filterMap SourceUnit.importLink?).map ImportLink.path

theorem SourceFile.Resembles.importPaths {ρ : Correspondence} {f f' : SourceFile}
    (h : f.Resembles ρ f') : f'.importPaths = f.importPaths := by
  obtain ⟨hitems, -⟩ := h
  rw [SourceFile.importPaths, SourceFile.importPaths]
  revert hitems
  generalize f.items = items
  generalize f'.items = items'
  intro hitems
  induction hitems with
  | nil => rfl
  | cons hs _ ih =>
    cases hs with
    | importDecl hmark hdecl => exact congrArg₂ List.cons hdecl.path ih
    | _ => exact ih

/-- A text without lexical errors is a file with the given tree. -/
def Parses (source : String) (id : Nat) (tree : SourceFile) : Prop :=
  (∀ t ∈ tokenize source id, t.kind ≠ .error) ∧ parseSource source id = some (.ok tree)

/-- Under another number a text has the same tree, with spans of the other file. -/
theorem Parses.renumber (h : Parses source i tree)
    (j : Nat) : ∃ tree', Parses source j tree' ∧ tree.Resembles (.refile fun _ => j) tree' := by
  obtain ⟨htokens, hparse⟩ := h
  have hread := parseSource_refile source i j
  rw [hparse] at hread
  generalize hparse' : parseSource source j = read' at hread
  cases hread with
  | some hread =>
    cases hread with
    | @ok _ tree' htree =>
      refine ⟨tree', ⟨fun t ht => ?_, hparse'⟩, htree⟩
      rw [tokenize_refile source j i] at ht
      obtain ⟨t', ht', rfl⟩ := List.mem_map.1 ht
      exact htokens t' ht'

/-- A tree has spans of the file that was read only. -/
theorem Parses.file_of_mem_spans
    (h : Parses source i tree) {span : Span} (hspan : span ∈ tree.spans) : span.file = i := by
  obtain ⟨tree', htree', hresembles⟩ := h.renumber i
  obtain rfl : tree = tree' := Except.ok.inj (Option.some.inj (h.2.symm.trans htree'.2))
  rw [eq_map_of_forall₂ hresembles.spans fun _ _ hnear => hnear] at hspan
  obtain ⟨s, -, rfl⟩ := List.mem_map.1 hspan
  rfl

theorem readTree_eq_ok_iff {id : Nat} {tokens : List Token} :
    readTree file source id = .ok (tokens, tree) ↔ tokens = tokenize source id ∧
      Parses source id tree := by
  have hbad : (tokenize source id).filter (·.kind == .error) = [] ↔
      ∀ t ∈ tokenize source id, t.kind ≠ .error := by simp [List.filter_eq_nil_iff]
  rw [readTree, Parses, ← hbad, parseSource]
  cases (tokenize source id).filter (·.kind == .error) with
  | cons t ts => simp
  | nil =>
    dsimp only
    cases parseTokens (tokenize source id) with
    | none => simp
    | some r => cases r <;> simp [eq_comm]

/-! ## The graph of files -/

namespace FileAccess

variable (access : FileAccess Id)

/-- A file that can be read and parsed, with its tree. -/
def HasTree (file : Path) (tree : SourceFile) : Prop :=
  ∃ source, access.read file = .ok source ∧ Parses source 0 tree

/-- A file parses, and one of its imports leads to another. -/
def Imports (file target : Path) : Prop :=
  ∃ tree, access.HasTree file tree ∧
    ∃ path ∈ tree.importPaths, access.resolveImport path file = some target

/-- A file leads to another through any number of imports. -/
abbrev Reaches : Path → Path → Prop := Relation.ReflTransGen access.Imports

/-- A file that stops a load. -/
inductive Broken (file : Path) : Prop where
  | unreadable (error : FileError) (h : access.read file = .error error)
  | lexical (source : String) (h : access.read file = .ok source) (t : Token)
      (ht : t ∈ tokenize source 0) (herror : t.kind = .error)
  | grammatical (source : String) (h : access.read file = .ok source)
      (hparse : ∀ tree, parseSource source 0 ≠ some (.ok tree))
  | unresolved (tree : SourceFile) (h : access.HasTree file tree) (path : String)
      (hpath : path ∈ tree.importPaths) (hnone : access.resolveImport path file = none)

/-- The files that the imports of a file lead to, in order. -/
def Targets (file : Path) (targets : List Path) : Prop :=
  ∃ tree, access.HasTree file tree ∧
    tree.importPaths.map (access.resolveImport · file) = targets.map some

/-- Visits files and what they import, depth first. The first list has the files met before, the
last those met at the end, each where it was first met. -/
inductive Preorder : List Path → List Path → List Path → Prop where
  | nil (seen : List Path) : Preorder seen [] seen
  | skip {seen files seen' : List Path} {file : Path} (h : file ∈ seen)
      (rest : Preorder seen files seen') : Preorder seen (file :: files) seen'
  | visit {seen files targets seen₁ seen' : List Path} {file : Path} (h : file ∉ seen)
      (htargets : access.Targets file targets) (inner : Preorder (seen ++ [file]) targets seen₁)
      (rest : Preorder seen₁ files seen') : Preorder seen (file :: files) seen'

variable {access}

theorem HasTree.unique {tree tree' : SourceFile} (h : access.HasTree file tree)
    (h' : access.HasTree file tree') : tree = tree' := by
  obtain ⟨source, hread, hparse⟩ := h
  obtain ⟨source', hread', hparse'⟩ := h'
  obtain rfl : source = source' := Except.ok.inj (hread.symm.trans hread')
  exact Except.ok.inj (Option.some.inj (hparse.2.symm.trans hparse'.2))

theorem Targets.imports {file target : Path} {targets : List Path}
    (h : access.Targets file targets) : access.Imports file target ↔ target ∈ targets := by
  obtain ⟨tree, htree, hmap⟩ := h
  have hmem : some target ∈ tree.importPaths.map (access.resolveImport · file) ↔
      target ∈ targets := by
    rw [hmap, List.mem_map]
    constructor
    · rintro ⟨t, ht, heq⟩
      exact Option.some.inj heq ▸ ht
    · exact fun ht => ⟨target, ht, rfl⟩
  rw [← hmem, List.mem_map]
  constructor
  · rintro ⟨tree', htree', path, hpath, hresolve⟩
    obtain rfl := htree.unique htree'
    exact ⟨path, hpath, hresolve⟩
  · rintro ⟨path, hpath, hresolve⟩
    exact ⟨tree, htree, path, hpath, hresolve⟩

/-- A file whose imports all lead somewhere is not broken. -/
theorem Targets.not_broken {targets : List Path} (h : access.Targets file targets) :
    ¬ access.Broken file := by
  obtain ⟨tree, ⟨source, hread, hparse⟩, hmap⟩ := h
  intro hbroken
  cases hbroken with
  | unreadable error herror =>
    rw [hread] at herror
    cases herror
  | lexical source' hread' t ht herror =>
    obtain rfl : source = source' := Except.ok.inj (hread.symm.trans hread')
    exact hparse.1 t ht herror
  | grammatical source' hread' hnot =>
    obtain rfl : source = source' := Except.ok.inj (hread.symm.trans hread')
    exact hnot tree hparse.2
  | unresolved tree' htree' path hpath hnone =>
    obtain rfl := HasTree.unique ⟨source, hread, hparse⟩ htree'
    have hmem := List.mem_map_of_mem (f := (access.resolveImport · file)) hpath
    rw [hmap] at hmem
    obtain ⟨target, -, hsome⟩ := List.mem_map.1 hmem
    exact Option.some_ne_none target (hsome.trans hnone)

namespace Preorder

variable {seen todo seen' : List Path}

theorem isPrefix (h : access.Preorder seen todo seen') : seen <+: seen' := by
  induction h with
  | nil seen => exact List.prefix_refl seen
  | skip _ _ ih => exact ih
  | visit _ _ _ _ inner ih => exact ((List.prefix_append _ _).trans inner).trans ih

theorem subset (h : access.Preorder seen todo seen') : todo ⊆ seen' := by
  induction h with
  | nil seen => exact List.nil_subset _
  | skip hfile rest ih => exact List.cons_subset.2 ⟨rest.isPrefix.subset hfile, ih⟩
  | visit _ _ inner rest _ ih =>
    refine List.cons_subset.2 ⟨?_, ih⟩
    exact rest.isPrefix.subset (inner.isPrefix.subset (by simp))

/-- What was met was met before, or is reached. -/
theorem reached (h : access.Preorder seen todo seen') (hfile : file ∈ seen') :
    file ∈ seen ∨ ∃ start ∈ todo, access.Reaches start file := by
  induction h with
  | nil seen => exact .inl hfile
  | skip _ _ ih =>
    refine (ih hfile).imp_right ?_
    rintro ⟨start, hstart, hreach⟩
    exact ⟨start, List.mem_cons_of_mem _ hstart, hreach⟩
  | @visit seen files targets seen₁ seen' first hfirst htargets inner rest ihinner ih =>
    rcases ih hfile with hfile | ⟨start, hstart, hreach⟩
    · rcases ihinner hfile with hfile | ⟨start, hstart, hreach⟩
      · rcases List.mem_append.1 hfile with hfile | hfile
        · exact .inl hfile
        · rw [List.mem_singleton.1 hfile]
          exact .inr ⟨first, List.mem_cons_self, .refl⟩
      · exact .inr ⟨first, List.mem_cons_self, .head (htargets.imports.2 hstart) hreach⟩
    · exact .inr ⟨start, List.mem_cons_of_mem _ hstart, hreach⟩

/-- What a file that was newly met imports was met too. -/
theorem closed (h : access.Preorder seen todo seen') (hfile : file ∈ seen')
    (hnew : file ∉ seen) : ∃ targets, access.Targets file targets ∧ targets ⊆ seen' := by
  induction h with
  | nil seen => exact absurd hfile hnew
  | skip _ _ ih => exact ih hfile hnew
  | @visit seen files targets seen₁ seen' first hfirst htargets inner rest ihinner ih =>
    by_cases hmet : file ∈ seen₁
    · by_cases hfirst' : file = first
      · subst hfirst'
        exact ⟨targets, htargets, fun p hp => rest.isPrefix.subset (inner.subset hp)⟩
      · have hbefore : file ∉ seen ++ [first] := by simp [hnew, hfirst']
        obtain ⟨targets', htargets', hsub⟩ := ihinner hmet hbefore
        exact ⟨targets', htargets', fun p hp => rest.isPrefix.subset (hsub hp)⟩
    · exact ih hfile hmet

/-- From nothing, a visit of a file meets exactly the files that it reaches. -/
theorem mem_iff_reaches (h : access.Preorder [] [file] files)
    (p : Path) : p ∈ files ↔ access.Reaches file p := by
  constructor
  · intro hp
    rcases h.reached hp with hp | ⟨start, hstart, hreach⟩
    · exact absurd hp List.not_mem_nil
    · exact List.mem_singleton.1 hstart ▸ hreach
  · intro hreach
    induction hreach with
    | refl => exact h.subset List.mem_cons_self
    | tail _ himports ih =>
      obtain ⟨targets, htargets, hsub⟩ := h.closed ih List.not_mem_nil
      exact hsub (htargets.imports.1 himports)

/-- A visit of several files is a visit of the first and then of the others. -/
theorem cons {files seen₁ : List Path} (h : access.Preorder seen [file] seen₁)
    (h' : access.Preorder seen₁ files seen') : access.Preorder seen (file :: files) seen' := by
  cases h with
  | skip hfile rest =>
    cases rest
    exact .skip hfile h'
  | visit hfile htargets inner rest =>
    cases rest
    exact .visit hfile htargets inner h'

end Preorder

theorem canonical_of_resolveImport (h : access.Lawful) {specifier : String} {importer file : Path}
    (hresolve : access.resolveImport specifier importer = some file) :
    access.canonical file = .ok file := by
  change (if Id.run (access.isFile (importTarget specifier importer)) then
    (Id.run (access.canonical (importTarget specifier importer))).toOption else none) =
    some file at hresolve
  split at hresolve
  · cases hcanonical : access.canonical (importTarget specifier importer) with
    | error e =>
      rw [hcanonical] at hresolve
      exact absurd hresolve.symm (Option.some_ne_none file)
    | ok file' =>
      rw [hcanonical] at hresolve
      obtain rfl : file' = file := Option.some.inj hresolve
      exact h.idempotent _ _ hcanonical
  · cases hresolve

/-- A file that is neither unreadable nor unparsable has a tree. -/
theorem broken_of_readTree {faults : List LoadFault}
    (hread : access.read file = .ok source) (h : readTree file source i = .error faults) :
    access.Broken file := by
  by_cases hlexical : ∀ t ∈ tokenize source 0, t.kind ≠ .error
  · refine .grammatical source hread fun tree htree => ?_
    obtain ⟨tree', htree', -⟩ := Parses.renumber ⟨hlexical, htree⟩ i
    have hok : readTree file source i = .ok (tokenize source i, tree') :=
      readTree_eq_ok_iff.2 ⟨rfl, htree'⟩
    rw [h] at hok
    cases hok
  · push Not at hlexical
    obtain ⟨t, ht, herror⟩ := hlexical
    exact .lexical source hread t ht herror

/-! ## Bundles of files -/

end FileAccess

/-- The link before it leads anywhere. -/
def ImportLink.unresolved (l : ImportLink) : ImportLink := { l with target := none }

/-- The paths of the units. -/
def Bundle.paths (b : Bundle) : List Path := b.units.map SourceUnit.path

/-- A unit is the file at its path, read under the number `i`. Where its imports lead is left
open. -/
structure SourceUnit.Reads (access : FileAccess Id) (i : Nat) (u : SourceUnit) : Prop where
  id : u.id = i
  canonical : access.canonical u.path = .ok u.path
  source : access.read u.path = .ok u.source
  tokens : u.tokens = tokenize u.source i
  tree : Parses u.source i u.file
  imports : u.imports.map ImportLink.unresolved = u.file.items.filterMap importLink?

/-- A link leads to the unit of the file that it resolves to. -/
def ImportLink.Leads (access : FileAccess Id) (paths : List Path) (file : Path) (l : ImportLink) :
    Prop :=
  ∃ j target, l.target = some j ∧ paths[j]? = some target ∧
  access.resolveImport l.path file = some target

/-- Every import of a unit leads to the unit of its file. -/
def SourceUnit.Linked (access : FileAccess Id) (paths : List Path) (u : SourceUnit) : Prop :=
  ∀ link ∈ u.imports, link.Leads access paths u.path

/-- Every unit is a file of its own. -/
structure Bundle.FromFiles (access : FileAccess Id) (b : Bundle) : Prop where
  reads : ∀ (i : Nat) (u : SourceUnit), b.units[i]? = some u → u.Reads access i
  nodup : b.paths.Nodup

variable {access : FileAccess Id}

theorem ImportLink.Leads.mono {paths paths' : List Path} {l : ImportLink}
    (h : l.Leads access paths file) (hpre : paths <+: paths') : l.Leads access paths' file := by
  obtain ⟨j, target, htarget, hj, hresolve⟩ := h
  obtain ⟨new, rfl⟩ := hpre
  obtain ⟨hlt, -⟩ := List.getElem?_eq_some_iff.1 hj
  exact ⟨j, target, htarget, by rw [List.getElem?_append_left hlt, hj], hresolve⟩

theorem SourceUnit.Linked.mono {paths paths' : List Path} {u : SourceUnit}
    (h : u.Linked access paths) (hpre : paths <+: paths') : u.Linked access paths' :=
  fun link hlink => (h link hlink).mono hpre

/-- Linking the import behind those that are linked already. -/
theorem SourceUnit.imports_resolveImport {done links : List ImportLink}
    {link : ImportLink} (h : u.imports = done ++ link :: links) (target : Nat) :
    (u.resolveImport done.length target).imports =
      done ++ { link with target := some target } :: links := by
  rw [resolveImport, h, List.modify_eq_take_drop, List.take_left, List.drop_left]
  rfl

/-- Linking an import changes nothing but where it leads. -/
theorem SourceUnit.unresolved_resolveImport (u : SourceUnit) (index target : Nat) :
    (u.resolveImport index target).imports.map ImportLink.unresolved =
      u.imports.map ImportLink.unresolved := by
  refine List.ext_getElem? fun k => ?_
  rw [resolveImport, List.getElem?_map, List.getElem?_map, List.getElem?_modify]
  cases u.imports[k]? with
  | none => rfl
  | some link =>
    by_cases hk : index = k
    · simp [hk, ImportLink.unresolved]
    · simp [hk]

/-- The links of a fresh unit do not lead anywhere yet. -/
theorem SourceFile.unresolved_importLinks (tree : SourceFile) :
    (tree.items.filterMap SourceUnit.importLink?).map ImportLink.unresolved =
      tree.items.filterMap SourceUnit.importLink? := by
  rw [List.map_filterMap]
  refine List.filterMap_congr fun s _ => ?_
  cases s <;> rfl

theorem SourceUnit.Reads.resolveImport {i : Nat} {u : SourceUnit} (h : u.Reads access i)
    (index target : Nat) : (u.resolveImport index target).Reads access i :=
  ⟨h.id, h.canonical, h.source, h.tokens, h.tree,
    (u.unresolved_resolveImport index target).trans h.imports⟩

theorem SourceUnit.reads_fresh
    (hfile : access.canonical file = .ok file) (hread : access.read file = .ok source)
    (htree : Parses source i tree) :
    (SourceUnit.fresh i file source (tokenize source i) tree).Reads access i :=
  ⟨rfl, hfile, hread, rfl, htree, tree.unresolved_importLinks⟩

namespace Bundle

variable {b : Bundle}

theorem getElem?_paths (b : Bundle) (i : Nat) : b.paths[i]? = b.units[i]?.map SourceUnit.path :=
  List.getElem?_map

theorem length_paths (b : Bundle) : b.paths.length = b.size := List.length_map _

theorem paths_modify (b : Bundle) (id : Nat) {f : SourceUnit → SourceUnit}
    (hf : ∀ u, (f u).path = u.path) : (b.modify id f).paths = b.paths := by
  refine List.ext_getElem? fun k => ?_
  rw [getElem?_paths, getElem?_paths, modify, List.getElem?_modify]
  cases b.units[k]? with
  | none => rfl
  | some u =>
    by_cases hk : id = k
    · simp [hk, hf]
    · simp [hk]

namespace FromFiles

theorem empty : Bundle.empty.FromFiles access := ⟨by simp [Bundle.empty], List.nodup_nil⟩

theorem modify (h : b.FromFiles access) (id index target : Nat) :
    (b.modify id (·.resolveImport index target)).FromFiles access := by
  refine ⟨fun i u hu => ?_, ?_⟩
  · rw [Bundle.modify, List.getElem?_modify] at hu
    cases hi : b.units[i]? with
    | none =>
      rw [hi] at hu
      cases hu
    | some u' =>
      rw [hi] at hu
      have hread := h.reads i u' hi
      by_cases hid : id = i
      · simp only [hid, if_true, Option.map_eq_map, Option.map_some, Option.some.injEq] at hu
        exact hu ▸ hread.resolveImport index target
      · simp only [hid, if_false, Option.map_eq_map, Option.map_some, Option.some.injEq] at hu
        exact hu ▸ hread
  · rw [b.paths_modify id (f := (·.resolveImport index target)) fun _ => rfl]
    exact h.nodup

theorem add {tokens : List Token}
    (h : b.FromFiles access) (hnew : file ∉ b.paths)
    (hunit : (SourceUnit.fresh b.size file source tokens tree).Reads access b.size) :
    (⟨b.units ++ [.fresh b.size file source tokens tree]⟩ : Bundle).FromFiles access := by
  refine ⟨fun i u hu => ?_, ?_⟩
  · rcases Nat.lt_or_ge i b.units.length with hi | hi
    · rw [List.getElem?_append_left hi] at hu
      exact h.reads i u hu
    · rw [List.getElem?_append_right hi] at hu
      rw [List.getElem?_singleton] at hu
      split at hu
      · rename_i hzero
        obtain rfl : i = b.size := Nat.le_antisymm (Nat.sub_eq_zero_iff_le.1 hzero) hi
        exact Option.some.inj hu ▸ hunit
      · cases hu
  · rw [paths, List.map_append]
    exact List.nodup_append_comm.1 (List.nodup_cons.2 ⟨hnew, h.nodup⟩)

theorem same_iff (h : b.FromFiles access) (hlawful : access.Lawful) {u : SourceUnit}
    (hu : u ∈ b.units) {file : Path} (hfile : access.canonical file = .ok file) :
    u.path.same file = true ↔ u.path = file := by
  obtain ⟨i, hi⟩ := List.getElem?_of_mem hu
  constructor
  · exact hlawful.unique _ _ (h.reads i u hi).canonical hfile
  · rintro rfl
    exact beq_self_eq_true _

theorem getElem?_of_indexOf? (h : b.FromFiles access) (hlawful : access.Lawful) {file : Path}
    {i : Nat} (hfile : access.canonical file = .ok file) (hi : b.indexOf? file = some i) :
    b.paths[i]? = some file := by
  obtain ⟨hlt, hsame, -⟩ := List.findIdx?_eq_some_iff_getElem.1 hi
  rw [getElem?_paths, List.getElem?_eq_getElem hlt, Option.map_some,
    (h.same_iff hlawful (List.getElem_mem hlt) hfile).1 hsame]

theorem not_mem_of_indexOf? (h : b.FromFiles access) (hlawful : access.Lawful)
    (hfile : access.canonical file = .ok file) (hnone : b.indexOf? file = none) :
    file ∉ b.paths := by
  intro hmem
  obtain ⟨u, hu, rfl⟩ := List.mem_map.1 hmem
  have hnot := List.findIdx?_eq_none_iff.1 hnone u hu
  rw [(h.same_iff hlawful hu hfile).2 rfl] at hnot
  cases hnot

theorem indexOf?_path (h : b.FromFiles access) (hlawful : access.Lawful) {i : Nat} {u : SourceUnit}
    (hu : b.units[i]? = some u) : b.indexOf? u.path = some i := by
  have hcanonical := (h.reads i u hu).canonical
  have hpath : b.paths[i]? = some u.path := by rw [getElem?_paths, hu, Option.map_some]
  cases hindex : b.indexOf? u.path with
  | none =>
    exact absurd (List.mem_of_getElem? hpath) (h.not_mem_of_indexOf? hlawful hcanonical hindex)
  | some j =>
    -- No two units have the same path.
    have hj := h.getElem?_of_indexOf? hlawful hcanonical hindex
    obtain ⟨hlt, -⟩ := List.getElem?_eq_some_iff.1 hpath
    rw [(List.getElem?_inj hlt h.nodup).1 (hpath.trans hj.symm)]

/-- There are at most as many units as readable files. -/
theorem size_le (h : b.FromFiles access) {files : List Path}
    (hfiles : ∀ p text, access.canonical p = .ok p → access.read p = .ok text → p ∈ files) :
    b.size ≤ files.length := by
  rw [← length_paths]
  refine (h.nodup.subperm fun p hp => ?_).length_le
  obtain ⟨u, hu, rfl⟩ := List.mem_map.1 hp
  obtain ⟨i, hi⟩ := List.getElem?_of_mem hu
  exact hfiles _ _ (h.reads i u hi).canonical (h.reads i u hi).source

end FromFiles

end Bundle

/-! ## One load -/

namespace Loading

variable {b b₁ b' : Bundle} {target : Path} {link : ImportLink}

/-- What a load of some files has done to a bundle: the old units stay, the new ones are linked, and
together they are in the order of a visit. -/
structure Loads (access : FileAccess Id) (b : Bundle) (todo : List Path) (b' : Bundle) : Prop where
  sound : b'.FromFiles access
  kept : ∀ (i : Nat) (u : SourceUnit), b.units[i]? = some u → b'.units[i]? = some u
  linked : ∀ (i : Nat) (u : SourceUnit), b.size ≤ i → b'.units[i]? = some u →
    u.Linked access b'.paths
  order : access.Preorder b.paths todo b'.paths

/-- How the load of a file ends. -/
inductive Outcome (access : FileAccess Id) (b : Bundle) (file : Path) : Loaded → Prop where
  | ok {b' : Bundle} {id : Nat} (h : Loads access b [file] b') (hid : b'.paths[id]? = some file) :
      Outcome access b file (b', .ok id)
  | error {b' : Bundle} {faults : List LoadFault} {broken : Path}
      (hreach : access.Reaches file broken)
      (hbroken : access.Broken broken) (hlimit : ∀ f, .chainTooLong f ∉ faults) :
      Outcome access b file (b', .error faults)

/-- What a load of the imports of the unit `id` has done to a bundle: as for any load, but the unit
itself is linked then. -/
structure LoadsImports (access : FileAccess Id) (b : Bundle) (id : Nat) (file : Path)
    (links : List ImportLink) (b' : Bundle) : Prop where
  sound : b'.FromFiles access
  kept : ∀ (i : Nat) (u : SourceUnit), i ≠ id → b.units[i]? = some u → b'.units[i]? = some u
  linked : ∀ (i : Nat) (u : SourceUnit), b.size ≤ i → b'.units[i]? = some u →
    u.Linked access b'.paths
  unit : ∀ u : SourceUnit, b'.units[id]? = some u → u.Linked access b'.paths
  order : ∃ targets : List Path, links.map (access.resolveImport ·.path file) = targets.map some ∧
    access.Preorder b.paths targets b'.paths

/-- How the load of the imports of a unit ends. -/
inductive ImportsOutcome (access : FileAccess Id) (b : Bundle) (id : Nat) (file : Path)
    (links : List ImportLink) : Loaded → Prop where
  | ok {b' : Bundle} (h : LoadsImports access b id file links b') :
      ImportsOutcome access b id file links (b', .ok id)
  | unresolved {b' : Bundle} {faults : List LoadFault} {link : ImportLink} (hlink : link ∈ links)
      (hnone : access.resolveImport link.path file = none)
      (hlimit : ∀ f, .chainTooLong f ∉ faults) :
      ImportsOutcome access b id file links (b', .error faults)
  | error {b' : Bundle} {faults : List LoadFault} {link : ImportLink} {target broken : Path}
      (hlink : link ∈ links) (htarget : access.resolveImport link.path file = some target)
      (hreach : access.Reaches target broken) (hbroken : access.Broken broken)
      (hlimit : ∀ f, .chainTooLong f ∉ faults) :
      ImportsOutcome access b id file links (b', .error faults)

/-- Nothing more to load. -/
theorem loadsImports_nil {id : Nat} (hb : b.FromFiles access) (hu : b.units[id]? = some u)
    (hlinked : u.Linked access b.paths) :
    LoadsImports access b id u.path [] b where
  sound := hb
  kept _ _ _ h := h
  linked i v hi hv := by
    obtain ⟨hlt, -⟩ := List.getElem?_eq_some_iff.1 hv
    exact absurd hlt (Nat.not_lt.2 hi)
  unit v hv := Option.some.inj (hu.symm.trans hv) ▸ hlinked
  order := ⟨[], rfl, .nil _⟩

/-- The load of one import, its linking, and the load of the others. -/
theorem LoadsImports.cons {id index n : Nat}
    (h : LoadsImports access (b₁.modify id (·.resolveImport index n)) id file links b')
    (hid : id < b.size) (hresolve : access.resolveImport link.path file = some target)
    (h₁ : Loads access b [target] b₁) : LoadsImports access b id file (link :: links) b' := by
  have hpaths : (b₁.modify id (·.resolveImport index n)).paths = b₁.paths :=
    b₁.paths_modify id fun _ => rfl
  have hother (i : Nat) (hi : i ≠ id) :
      (b₁.modify id (·.resolveImport index n)).units[i]? = b₁.units[i]? :=
    List.getElem?_modify_ne _ _ (Ne.symm hi)
  obtain ⟨targets, htargets, horder⟩ := h.order
  rw [hpaths] at horder
  refine ⟨h.sound, ?_, ?_, h.unit, target :: targets, ?_, h₁.order.cons horder⟩
  · intro i u hi hu
    exact h.kept i u hi ((hother i hi).trans (h₁.kept i u hu))
  · intro i u hi hu
    have hne : i ≠ id := fun heq => absurd hid (Nat.not_lt.2 (heq ▸ hi))
    -- The unit is one of the first load, and stayed, or it is one of the later loads.
    rcases Nat.lt_or_ge i b₁.size with hlt | hge
    · have hold := List.getElem?_eq_getElem hlt
      have hstays := h.kept i _ hne ((hother i hne).trans hold)
      rw [hu] at hstays
      rw [Option.some.inj hstays]
      exact (h₁.linked i _ hi hold).mono horder.isPrefix
    · refine h.linked i u ?_ hu
      rw [← Bundle.length_paths, hpaths, Bundle.length_paths]
      exact hge
  · rw [List.map_cons, List.map_cons, hresolve, htargets]

theorem ImportsOutcome.cons {id index n : Nat} {r : Loaded}
    (h : ImportsOutcome access (b₁.modify id (·.resolveImport index n)) id file links r)
    (hid : id < b.size) (hresolve : access.resolveImport link.path file = some target)
    (h₁ : Loads access b [target] b₁) : ImportsOutcome access b id file (link :: links) r := by
  cases h with
  | ok h => exact .ok (h.cons hid hresolve h₁)
  | unresolved hlink hnone hlimit =>
    exact .unresolved (List.mem_cons_of_mem link hlink) hnone hlimit
  | error hlink htarget hreach hbroken hlimit =>
    exact .error (List.mem_cons_of_mem link hlink) htarget hreach hbroken hlimit

/-- Loading the imports of a unit, given that the loads of single files end as they should. -/
theorem loadImports_outcome (hlawful : access.Lawful) {load : Path → Bundle → Id Loaded}
    {least : Nat}
    (hload : ∀ (file : Path) (b : Bundle), access.canonical file = .ok file → b.FromFiles access →
      least ≤ b.size → Outcome access b file (load file b))
    {id : Nat} (done : List ImportLink)
    (hb : b.FromFiles access) (hleast : least ≤ b.size) (hu : b.units[id]? = some u)
    (himports : u.imports = done ++ links)
    (hdone : ∀ link ∈ done, link.Leads access b.paths u.path) :
    ImportsOutcome access b id u.path links
      (loadImports access load u.path id links done.length b) := by
  induction links generalizing done b u with
  | nil =>
    refine .ok (loadsImports_nil hb hu fun link hlink => hdone link ?_)
    rwa [himports, List.append_nil] at hlink
  | cons link links ih =>
    obtain ⟨hid, -⟩ := List.getElem?_eq_some_iff.1 hu
    unfold loadImports
    simp only [bind, pure]
    cases hresolve : access.resolveImport link.path u.path with
    | none => exact .unresolved List.mem_cons_self hresolve (by simp)
    | some target =>
      have hcanonical := FileAccess.canonical_of_resolveImport hlawful hresolve
      have hfirst := hload target b hcanonical hb hleast
      dsimp only
      revert hfirst
      generalize load target b = r
      rintro (⟨h₁, hn⟩ | ⟨hreach, hbroken, hlimit⟩)
      · rename_i b₁ n
        dsimp only
        -- The import that was just loaded is linked now and joins those that are done.
        have hu₂ : (b₁.modify id (·.resolveImport done.length n)).units[id]? =
            some (u.resolveImport done.length n) := by
          rw [Bundle.modify, List.getElem?_modify_eq, h₁.kept id u hu]
          rfl
        have hpaths : (b₁.modify id (·.resolveImport done.length n)).paths = b₁.paths :=
          b₁.paths_modify id fun _ => rfl
        have hgrows := h₁.order.isPrefix
        have hrest := ih (done ++ [{ link with target := some n }])
          (h₁.sound.modify id done.length n) ?_ hu₂ ?_ ?_
        · rw [List.length_append, List.length_singleton] at hrest
          exact hrest.cons hid hresolve h₁
        · rw [← Bundle.length_paths, hpaths]
          exact Nat.le_trans (b.length_paths ▸ hleast) hgrows.length_le
        · rw [SourceUnit.imports_resolveImport himports, List.append_assoc, List.singleton_append]
        · intro l hl
          rw [hpaths]
          rcases List.mem_append.1 hl with hl | hl
          · exact (hdone l hl).mono hgrows
          · rw [List.mem_singleton.1 hl]
            exact ⟨n, target, rfl, hn, hresolve⟩
      · exact .error List.mem_cons_self hresolve hreach hbroken hlimit

/-- The file is a unit already. -/
theorem loads_of_mem (hb : b.FromFiles access) (hfile : file ∈ b.paths) :
    Loads access b [file] b where
  sound := hb
  kept _ _ h := h
  linked i v hi hv := by
    obtain ⟨hlt, -⟩ := List.getElem?_eq_some_iff.1 hv
    exact absurd hlt (Nat.not_lt.2 hi)
  order := .skip hfile (.nil _)

/-- A new unit, together with what its imports load. -/
theorem LoadsImports.loads
    (h : LoadsImports access ⟨b.units ++ [u]⟩ b.size u.path links b') (hnew : u.path ∉ b.paths)
    (htargets : ∀ targets : List Path, links.map (access.resolveImport ·.path u.path) =
      targets.map some → access.Targets u.path targets) :
    Loads access b [u.path] b' ∧ b'.paths[b.size]? = some u.path := by
  have hpaths : Bundle.paths ⟨b.units ++ [u]⟩ = b.paths ++ [u.path] := List.map_append
  have hsize : Bundle.size ⟨b.units ++ [u]⟩ = b.size + 1 := by
    rw [← Bundle.length_paths, hpaths, List.length_append, Bundle.length_paths]
    rfl
  obtain ⟨targets, hmap, horder⟩ := h.order
  rw [hpaths] at horder
  refine ⟨⟨h.sound, ?_, ?_, .visit hnew (htargets targets hmap) horder (.nil _)⟩, ?_⟩
  · intro i v hv
    obtain ⟨hlt, -⟩ := List.getElem?_eq_some_iff.1 hv
    exact h.kept i v (Nat.ne_of_lt hlt) ((List.getElem?_append_left hlt).trans hv)
  · intro i v hi hv
    rcases Nat.eq_or_lt_of_le hi with rfl | hlt
    · exact h.unit v hv
    · exact h.linked i v (hsize ▸ hlt) hv
  · obtain ⟨new, hprefix⟩ := horder.isPrefix
    rw [← hprefix, List.append_assoc, List.getElem?_append_right (Nat.le_of_eq b.length_paths),
      b.length_paths, Nat.sub_self]
    rfl

/-- A new unit ends a load as its imports do. -/
theorem ImportsOutcome.outcome {r : Loaded}
    (h : ImportsOutcome access ⟨b.units ++ [u]⟩ b.size u.path u.imports r) (hnew : u.path ∉ b.paths)
    (htree : access.HasTree u.path tree)
    (hpaths : u.imports.map ImportLink.path = tree.importPaths) : Outcome access b u.path r := by
  have hmem (link : ImportLink) (hlink : link ∈ u.imports) : link.path ∈ tree.importPaths :=
    hpaths ▸ List.mem_map_of_mem hlink
  cases h with
  | ok h =>
    have hloads := h.loads hnew fun targets hmap => ⟨tree, htree, by
      rw [← hpaths, List.map_map]
      exact hmap⟩
    exact .ok hloads.1 hloads.2
  | unresolved hlink hnone hlimit =>
    exact .error .refl (.unresolved tree htree _ (hmem _ hlink) hnone) hlimit
  | error hlink htarget hreach hbroken hlimit =>
    exact .error (.head ⟨tree, htree, _, hmem _ hlink, htarget⟩ hreach) hbroken hlimit

theorem not_chainTooLong_of_readTree {faults : List LoadFault}
    (h : readTree file source i = .error faults) (f : Path) : .chainTooLong f ∉ faults := by
  unfold readTree at h
  dsimp only at h
  split at h
  · split at h <;> cases h
    · simp
    · exact List.not_mem_nil
  · cases h
    simp

/-- The load of a file into a bundle of files, with files left to read in a row. Every file that is
read is a new one, so there are fewer and fewer left. -/
theorem loadFile_outcome (hlawful : access.Lawful) {files : List Path}
    (hfiles : ∀ p text, access.canonical p = .ok p → access.read p = .ok text → p ∈ files)
    (fuel : Nat) :
    ∀ (file : Path) (b : Bundle), access.canonical file = .ok file → b.FromFiles access →
      files.length < fuel + b.size → Outcome access b file (loadFile access fuel file b) := by
  induction fuel with
  | zero =>
    intro file b _ hb hfuel
    -- All units are readable files, so the bundle has not outgrown their number.
    have hsize := hb.size_le hfiles
    omega
  | succ fuel ih =>
    intro file b hfile hb hfuel
    unfold loadFile
    simp only [bind, pure]
    cases hindex : b.indexOf? file with
    | some id =>
      have hid := hb.getElem?_of_indexOf? hlawful hfile hindex
      exact .ok (loads_of_mem hb (List.mem_of_getElem? hid)) hid
    | none =>
      have hnew := hb.not_mem_of_indexOf? hlawful hfile hindex
      dsimp only
      cases hread : access.read file with
      | error e => exact .error .refl (.unreadable e hread) (by simp)
      | ok source =>
        dsimp only
        cases hparse : readTree file source b.size with
        | error faults =>
          exact .error .refl (FileAccess.broken_of_readTree hread hparse)
            (not_chainTooLong_of_readTree hparse)
        | ok r =>
          obtain ⟨tokens, tree⟩ := r
          obtain ⟨rfl, hparses⟩ := readTree_eq_ok_iff.1 hparse
          -- The unit stands in the bundle before its imports are followed, so a circle ends at it.
          have hb₁ := hb.add hnew (SourceUnit.reads_fresh hfile hread hparses)
          have hsize : Bundle.size ⟨b.units ++ [SourceUnit.fresh b.size file source
              (tokenize source b.size) tree]⟩ = b.size + 1 := List.length_append
          have hload (p : Path) (b' : Bundle) (hp : access.canonical p = .ok p)
              (hb' : b'.FromFiles access) (hle : b.size + 1 ≤ b'.size) :
              Outcome access b' p (loadFile access fuel p b') := ih p b' hp hb' (by omega)
          obtain ⟨tree', htree', hresembles⟩ := hparses.renumber 0
          dsimp only
          rw [Bundle.addUnit, hindex]
          exact (loadImports_outcome hlawful hload [] hb₁ (Nat.le_of_eq hsize.symm)
            List.getElem?_concat_length rfl (by simp)).outcome hnew
            ⟨source, hread, htree'⟩ hresembles.importPaths.symm

/-! ## The whole load -/

/-- What a successful load of a file gives: its unit comes first, the units are exactly the files
that it reaches, each once and in the order of a visit, each has the number under which it was read,
and all imports are linked. -/
structure Assembles (access : FileAccess Id) (file : Path) (id : Nat) (b : Bundle) : Prop where
  entry : id = 0 ∧ b.paths[0]? = some file
  closure : ∀ p, p ∈ b.paths ↔ access.Reaches file p
  order : access.Preorder [] [file] b.paths
  distinct : b.units.Pairwise fun u v => u.path.same v.path = false
  reads : ∀ (i : Nat) (u : SourceUnit), b.units[i]? = some u → u.Reads access i
  indexed : ∀ (i : Nat) (u : SourceUnit), b.units[i]? = some u → b.indexOf? u.path = some i
  linked : ∀ u ∈ b.units, ∀ link ∈ u.imports, ∃ j v, link.target = some j ∧ b.units[j]? = some v ∧
    access.resolveImport link.path u.path = some v.path
  placed : ∀ (i : Nat) (u : SourceUnit), b.units[i]? = some u →
    (∀ t ∈ u.tokens, t.span.file = i) ∧ ∀ span ∈ u.file.spans, span.file = i

theorem file_of_mem_tokenize {t : Token} (h : t ∈ tokenize source i) :
    t.span.file = i := by
  rw [tokenize_refile source i i] at h
  obtain ⟨t', -, rfl⟩ := List.mem_map.1 h
  rfl

/-- A load of one file into the empty bundle assembles what it reaches. -/
theorem Loads.assembles {id : Nat} (hlawful : access.Lawful)
    (h : Loads access .empty [file] b) (hid : b.paths[id]? = some file) :
    Assembles access file id b := by
  have horder : access.Preorder [] [file] b.paths := h.order
  -- Nothing was met before the file, so the visit lists it first.
  have hfirst : b.paths[0]? = some file := by
    cases horder with
    | skip hmem rest => exact absurd hmem List.not_mem_nil
    | visit _ _ inner rest =>
      obtain ⟨new, hprefix⟩ := inner.isPrefix.trans rest.isPrefix
      rw [← hprefix]
      rfl
  obtain ⟨hlt, -⟩ := List.getElem?_eq_some_iff.1 hid
  refine ⟨⟨(List.getElem?_inj hlt h.sound.nodup).1 (hid.trans hfirst.symm), hfirst⟩,
    horder.mem_iff_reaches, horder, ?_, h.sound.reads,
    fun i u hu => h.sound.indexOf?_path hlawful hu, ?_, ?_⟩
  · refine (List.pairwise_map.1 h.sound.nodup).imp_of_mem ?_
    intro u v hu hv hne
    obtain ⟨j, hj⟩ := List.getElem?_of_mem hv
    rw [← Bool.not_eq_true, h.sound.same_iff hlawful hu (h.sound.reads j v hj).canonical]
    exact hne
  · intro u hu link hlink
    obtain ⟨i, hi⟩ := List.getElem?_of_mem hu
    obtain ⟨j, target, htarget, hj, hresolve⟩ := h.linked i u (Nat.zero_le i) hi link hlink
    rw [b.getElem?_paths, Option.map_eq_some_iff] at hj
    obtain ⟨v, hv, rfl⟩ := hj
    exact ⟨j, v, htarget, hv, hresolve⟩
  · intro i u hu
    have hreads := h.sound.reads i u hu
    exact ⟨fun t ht => file_of_mem_tokenize (hreads.tokens ▸ ht), fun span hspan =>
      hreads.tree.file_of_mem_spans hspan⟩

/-- What was assembled has no broken file. -/
theorem Assembles.not_broken {broken : Path} {id : Nat} (h : Assembles access file id b)
    (hreach : access.Reaches file broken) : ¬ access.Broken broken := by
  obtain ⟨targets, htargets, -⟩ := h.order.closed ((h.closure broken).2 hreach) List.not_mem_nil
  exact htargets.not_broken

/-- A load follows the imports of its entry, in circles too, to all files that they reach. It fails
exactly if the entry leads to no file or directory or a broken file is reached, and never because
its chain of imports is too long. -/
theorem load_assembles_closure (hlawful : access.Lawful) (entry : Path) :
    ((∃ faults, (load access entry).run.2 = .error faults) ↔
      (∃ e, access.canonical entry = .error e) ∨
        ∃ file broken, access.canonical entry = .ok file ∧ access.Reaches file broken ∧
          access.Broken broken) ∧
    (∀ faults, (load access entry).run.2 = .error faults → ∀ file, .chainTooLong file ∉ faults) ∧
    ∀ id, (load access entry).run.2 = .ok id → ∃ file, access.canonical entry = .ok file ∧
      Assembles access file id (load access entry).run.1 := by
  obtain ⟨files, hlimit, hfiles⟩ := hlawful.finite
  unfold load
  simp only [bind, pure]
  cases hentry : access.canonical entry with
  | error e => simp [Id.run]
  | ok file =>
    have hfile := hlawful.idempotent entry file hentry
    have houtcome :=
      loadFile_outcome hlawful hfiles access.chainLimit file .empty hfile .empty hlimit
    dsimp only
    revert houtcome
    generalize loadFile access access.chainLimit file .empty = r
    rintro (⟨h, hid⟩ | ⟨hreach, hbroken, hchain⟩)
    · have hassembles := h.assembles hlawful hid
      refine ⟨⟨?_, ?_⟩, ?_, ?_⟩
      · rintro ⟨faults, herror⟩
        cases herror
      · rintro (⟨e, herror⟩ | ⟨file', broken, hfile', hreach, hbroken⟩)
        · cases herror
        · obtain rfl := Except.ok.inj hfile'
          exact absurd hbroken (hassembles.not_broken hreach)
      · intro faults herror
        cases herror
      · intro id hok
        cases hok
        exact ⟨file, rfl, hassembles⟩
    · refine ⟨⟨?_, ?_⟩, ?_, ?_⟩
      · exact fun _ => .inr ⟨file, _, rfl, hreach, hbroken⟩
      · exact fun _ => ⟨_, rfl⟩
      · intro faults herror
        cases herror
        exact hchain
      · intro id hok
        cases hok

/-- Three files that import one another in a circle, one of them twice and under several spellings,
and a fourth one that is broken and not reached. -/
def circle : FileTree where
  files := [
    (["w", "main.liam"], "import \"left\" l; import \"./right.liam\" r;".toUTF8),
    (["w", "left.liam"], "import \"../w/main\" m;".toUTF8),
    (["w", "right.liam"], "import \"/w/left\" l;".toUTF8),
    (["w", "other.liam"], "import \"missing\" m;".toUTF8)]
  dirs := []
  workingDir := ["w"]

theorem rooted_circle : circle.Rooted := by
  intro name hname
  obtain rfl : name = "w" := List.mem_singleton.1 hname
  constructor <;> decide

theorem load_assembles_closure_circle :
    circle.access.Lawful ∧
    (load circle.access ⟨"main.liam"⟩).run.map Bundle.paths id =
      ([⟨"/w/main.liam"⟩, ⟨"/w/left.liam"⟩, ⟨"/w/right.liam"⟩], .ok 0) ∧
    ∃ file, circle.access.canonical ⟨"main.liam"⟩ = .ok file ∧
      Assembles circle.access file 0 (load circle.access ⟨"main.liam"⟩).run.1 := by
  have hlawful := FileTree.lawful_access rooted_circle
  have hrun : (load circle.access ⟨"main.liam"⟩).run.map Bundle.paths id =
      ([⟨"/w/main.liam"⟩, ⟨"/w/left.liam"⟩, ⟨"/w/right.liam"⟩], .ok 0) := by decide +kernel
  have hok := congrArg Prod.snd hrun
  rw [Prod.map_snd, id] at hok
  exact ⟨hlawful, hrun, (load_assembles_closure hlawful ⟨"main.liam"⟩).2.2 0 hok⟩

end Loading

end Custody
