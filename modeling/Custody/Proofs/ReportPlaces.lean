import Custody.Proofs.Accepted
import Custody.Proofs.Halting
import Custody.Proofs.ImportClosure
import Custody.Proofs.MirroredMoves
import Custody.Proofs.TokenPlaces
import Mathlib.Logic.Relation

/-!
# Reports point into their files

Every span that the stages report stands in the text of a unit. This is the case of two runs that
are one and the same: a span answers to itself if it is a span of the text
(`Correspondence.inText`), so that whatever is read from a text, or found in what was read, is at
places of that text.

The load stage is run against a world `τ`, as files may change. What it reports about a file stands
in the text that was read (`Loading.load_leaves`). Each stage behind it keeps the places of the
bundle, and what it reports points into a unit of the bundle that it leaves (`runStage_points`); so
do the reports of a whole run, as the first stage that reports something is the last one.
-/

set_option autoImplicit false

namespace Custody

/-! ## Spans that answer to themselves -/

/-- Spans of a text answer to themselves; those of nodes cover some of it. -/
def Correspondence.inText (text : List Char) (file : Nat) : Correspondence where
  name a b := a = b ∧ a.InText text file ∧ a.start < a.stop
  node a b := a = b ∧ a.InText text file ∧ a.start < a.stop
  near a b := a = b ∧ a.InText text file
  node_of_name h := h
  near_of_node h := ⟨h.1, h.2.1⟩
  merge_name := by
    rintro a _ b _ ⟨rfl, ha⟩ ⟨rfl, hb, hlt⟩
    refine ⟨rfl, ha.merge hb, ?_⟩
    calc min a.start b.start ≤ b.start := Nat.min_le_right _ _
      _ < b.stop := hlt
      _ ≤ max a.stop b.stop := Nat.le_max_right _ _
  merge_node := by
    rintro a _ b _ ⟨rfl, ha⟩ ⟨rfl, hb, _⟩
    exact ⟨rfl, ha.merge hb⟩

theorem Correspondence.inText_oneToOne (text : List Char) (file : Nat) :
    (inText text file).OneToOne := by
  rintro a _ b _ ⟨rfl, _⟩ ⟨rfl, _⟩
  exact Iff.rfl

theorem tokens_resemble (source : String) (file : Nat) :
    List.Forall₂ (Token.Resembles (.inText source.toList file)) (tokenize source file)
      (tokenize source file) := by
  refine List.forall₂_same.2 fun t ht => ?_
  obtain ⟨hspan, hcovers⟩ := (tokenize_places source file).1 t ht
  exact ⟨.inl rfl, rfl, ⟨rfl, hspan⟩, fun hkind => ⟨rfl, hspan, hcovers hkind⟩⟩

/-- What the parser complains about stands in the text. -/
theorem error_inText {source : String} {file : Nat} {errors : List ParseError}
    (h : parseTokens (tokenize source file) = some (.error errors)) {e : ParseError}
    (he : e ∈ errors) : e.span.InText source.toList file := by
  have hread := parseTokens_mirrors rfl (tokens_resemble source file)
  rw [h] at hread
  cases hread with
  | some hread =>
    cases hread with
    | error herrors => exact (List.forall₂_same.1 herrors e he).span.2

/-- A tree has spans of the text only. -/
theorem Parses.resembles {source : String} {i : Nat} {tree : SourceFile}
    (h : Parses source i tree) : tree.Resembles (.inText source.toList i) tree := by
  have hread := parseTokens_mirrors rfl (tokens_resemble source i)
  have hparse : parseTokens (tokenize source i) = some (.ok tree) := h.2
  rw [hparse] at hread
  cases hread with
  | some hread =>
    cases hread with
    | ok htree => exact htree

/-! ## Units that were read -/

/-- A unit that was read under the number `i`. Where its imports lead is left open. -/
structure SourceUnit.FromText (i : Nat) (u : SourceUnit) : Prop where
  undeclared : u.Undeclared i
  tokens : u.tokens = tokenize u.source i
  tree : Parses u.source i u.file
  imports : u.imports.map ImportLink.unresolved = u.file.items.filterMap importLink?
  table : u.table = .empty

/-- A bundle of units that were read. -/
def Bundle.FromTexts (b : Bundle) : Prop := ∀ i u, b.get? i = some u → u.FromText i

namespace SourceUnit

variable {i : Nat} {u : SourceUnit}

theorem fromText_fresh {file : Path} {source : String} {tree : SourceFile}
    (h : Parses source i tree) :
    (SourceUnit.fresh i file source (tokenize source i) tree).FromText i :=
  ⟨undeclared_fresh i file source _ tree, rfl, h, tree.unresolved_importLinks, rfl⟩

theorem FromText.resolveImport (h : u.FromText i) (index target : Nat) :
    (u.resolveImport index target).FromText i :=
  ⟨⟨h.undeclared.id, h.undeclared.types, h.undeclared.functions, h.undeclared.namespaces,
    h.undeclared.structs⟩, h.tokens, h.tree,
    (u.unresolved_resolveImport index target).trans h.imports, h.table⟩

/-- An import of a unit stands in its text. -/
theorem FromText.import_resembles (h : u.FromText i) {link : ImportLink}
    (hlink : link ∈ u.imports) : link.Resembles (.inText u.source.toList i) link := by
  have hmem : link.unresolved ∈ u.file.items.filterMap importLink? :=
    h.imports ▸ List.mem_map_of_mem hlink
  obtain ⟨s, hs, hlink⟩ := List.mem_filterMap.1 hmem
  have hresembles := List.forall₂_same.1 h.tree.resembles.items s hs
  cases hresembles with
  | @importDecl _ _ d _ _ hdecl =>
    have hspan : d.pathSpan = link.unresolved.span :=
      congrArg ImportLink.span (Option.some.inj hlink)
    have hname := hdecl.pathSpan
    rw [hspan] at hname
    exact ⟨rfl, rfl, rfl, hname⟩
  | _ => cases hlink

theorem FromText.resembles (h : u.FromText i) : u.Resembles (.inText u.source.toList i) u := by
  refine ⟨rfl, rfl, h.tree.resembles, ?_, rfl, rfl, rfl, ?_, rfl⟩
  · exact List.forall₂_same.2 fun link hlink => h.import_resembles hlink
  · rw [h.undeclared.structs]
    exact .nil

end SourceUnit

namespace Bundle

variable {b : Bundle}

theorem fromTexts_empty : Bundle.empty.FromTexts := nofun

theorem FromTexts.resolveImport (h : b.FromTexts) (id index target : Nat) :
    (b.modify id (·.resolveImport index target)).FromTexts := by
  intro i u hu
  rw [get?, modify, List.getElem?_modify] at hu
  obtain ⟨v, hv, rfl⟩ := Option.map_eq_some_iff.1 hu
  split
  · exact (h i v hv).resolveImport index target
  · exact h i v hv

theorem FromTexts.addUnit (h : b.FromTexts) {source : String} {tree : SourceFile}
    (hparses : Parses source b.size tree) (file : Path) :
    (b.addUnit file source (tokenize source b.size) tree).2.FromTexts := by
  rw [Bundle.addUnit]
  cases b.indexOf? file with
  | some existing => exact h
  | none =>
    intro i u hu
    rcases get?_concat hu with hu | ⟨rfl, rfl⟩
    · exact h i u hu
    · exact SourceUnit.fromText_fresh hparses

end Bundle

/-! ## Places in a bundle -/

/-- The spans of the text of each unit. -/
def Bundle.texts (b : Bundle) (i : Nat) : Correspondence :=
  .inText ((b.get? i).elim [] fun u => u.source.toList) i

/-- All places in a bundle stand in the texts of their units. -/
structure Bundle.Placed (b : Bundle) : Prop where
  ids : ∀ i u, b.get? i = some u → u.id = i
  units : b.Resembles b.texts b

namespace Bundle

variable {b b' : Bundle}

theorem FromTexts.placed (h : b.FromTexts) : b.Placed := by
  have hids : ∀ i u, b.get? i = some u → u.id = i := fun i u hu => (h i u hu).undeclared.id
  refine ⟨hids, List.forall₂_same.2 fun u hu => ?_⟩
  obtain ⟨i, hi⟩ := List.mem_iff_getElem?.1 hu
  have hget : b.get? i = some u := hi
  rw [texts, hids i u hget, hget]
  exact (h i u hget).resembles

theorem get?_asRead (b : Bundle) (i : Nat) : b.asRead.get? i = (b.get? i).map SourceUnit.asRead :=
  List.getElem?_map

theorem texts_asRead (b : Bundle) : b.asRead.texts = b.texts := by
  funext i
  rw [texts, texts, get?_asRead]
  cases b.get? i <;> rfl

theorem texts_of_asRead (h : b'.asRead = b.asRead) : b'.texts = b.texts := by
  rw [← texts_asRead, h, texts_asRead]

/-- A pass that puts in names and types keeps the places. -/
theorem Placed.of_asRead (h : b.Placed) (hread : b'.asRead = b.asRead)
    (hunits : b'.Resembles b.texts b') : b'.Placed := by
  refine ⟨fun i u hu => ?_, ?_⟩
  · have hsame : b'.asRead.get? i = b.asRead.get? i := congrArg (·.get? i) hread
    rw [get?_asRead, get?_asRead, hu] at hsame
    obtain ⟨v, hv, hvu⟩ := Option.map_eq_some_iff.1 hsame.symm
    exact (congrArg SourceUnit.id hvu).symm.trans (h.ids i v hv)
  · rw [texts_of_asRead hread]
    exact hunits

end Bundle

/-! ## What it means to point into a file -/

/-- The line of a place in a source: one more than the line ends in front of it. -/
def lineAt (source : String) (offset : Nat) : Nat :=
  1 + (textBefore source.toList offset).count '\n'

/-- The column of a place in a source: one more than the characters in front of it in its line. -/
def columnAt (source : String) (offset : Nat) : Nat :=
  1 + ((textBefore source.toList offset).reverse.takeWhile (· ≠ '\n')).length

/-- A span covers some text of a source, from one character boundary to another, and it tells the
line and the column of its start. -/
structure Span.Covers (source : String) (s : Span) : Prop where
  nonempty : s.start < s.stop
  within : s.stop ≤ source.utf8ByteSize
  startBoundary : (⟨s.start⟩ : String.Pos.Raw).IsValid source
  stopBoundary : (⟨s.stop⟩ : String.Pos.Raw).IsValid source
  line : s.line = lineAt source s.start
  column : s.column = columnAt source s.start

/-- A report is about the unit whose number its span has: it names the file of that unit, its line
and its character are those of the start of its span there, and its span and those of its notes
cover some text. -/
def Report.PointsInto (b : Bundle) (r : Report) : Prop :=
  ∃ u, b.get? r.span.file = some u ∧ u.id = r.span.file ∧ r.file = u.path ∧
    r.line = lineAt u.source r.span.start ∧ r.character = columnAt u.source r.span.start ∧
    r.span.Covers u.source ∧ ∀ n ∈ r.notes, n.span.file = r.span.file ∧ n.span.Covers u.source

theorem Span.InText.covers {source : String} {file : Nat} {s : Span}
    (h : s.InText source.toList file) (hlt : s.start < s.stop) : s.Covers source := by
  obtain ⟨p, q, hp, hq, _, rfl⟩ := h
  exact ⟨hlt, hq.offset_le, hp.isValid, hq.isValid, hp.line, hp.column⟩

namespace Bundle

variable {b b' : Bundle}

/-- The unit that a report is about. -/
theorem Placed.unit_of_owner (h : b.Placed) {i : Nat} {path : Path}
    (howner : (i, path) ∈ b.owners) :
    ∃ u, b.get? i = some u ∧ u.id = i ∧ u.path = path ∧ b.texts i = .inText u.source.toList i := by
  obtain ⟨u, hu, hsame⟩ := List.mem_map.1 howner
  obtain ⟨hid, hpath⟩ := Prod.mk.inj hsame
  obtain ⟨j, hj⟩ := List.mem_iff_getElem?.1 hu
  obtain rfl : j = i := (h.ids j u hj).symm.trans hid
  have hget : b.get? j = some u := hj
  refine ⟨u, hget, hid, hpath, ?_⟩
  rw [texts, hget]
  rfl

theorem Placed.pointsInto (h : b.Placed) {r : Report} (hr : r.Answers b.texts b.owners r) :
    r.PointsInto b := by
  obtain ⟨i, howner, hr⟩ := hr
  obtain ⟨u, hget, hid, hpath, htexts⟩ := h.unit_of_owner howner
  rw [htexts] at hr
  obtain ⟨-, hspan, hlt⟩ := hr.span
  obtain rfl : r.span.file = i := hspan.file_eq
  have hcovers := hspan.covers hlt
  refine ⟨u, hget, hid, hpath.symm, hcovers.line, hcovers.column, hcovers, fun n hn => ?_⟩
  obtain ⟨-, hnote, hlt'⟩ := (List.forall₂_same.1 hr.notes n hn).span
  exact ⟨hnote.file_eq, hnote.covers hlt'⟩

/-- A structural fault is reported for the file that it stands in. -/
theorem Placed.pointsInto_fault (h : b.Placed) {fault : StructuralFault}
    (hfault : fault.Answers b.texts b.owners fault) : (fault.report b).PointsInto b := by
  obtain ⟨⟨i, path⟩, howner, hfault⟩ := hfault
  obtain ⟨u, hget, hid, hpath, htexts⟩ := h.unit_of_owner howner
  rw [htexts] at hfault
  have hspan : fault.span.InText u.source.toList i ∧ fault.span.start < fault.span.stop := by
    cases hfault with
    | declarationInBody _ hspan | statementAtTopLevel hspan | missingDeclaration _ hspan =>
      exact hspan.2
  obtain rfl : fault.span.file = i := hspan.1.file_eq
  have hcovers := hspan.1.covers hspan.2
  refine ⟨u, hget, hid, ?_, hcovers.line, hcovers.column, hcovers,
    fun n hn => absurd hn List.not_mem_nil⟩
  rw [StructuralFault.report, hget]
  rfl

/-! ## What the passes report -/

/-- What is found in what was read stays true of the bundle with names and types put in. -/
theorem Placed.pointsInto_of_asRead (h : b'.Placed) (hread : b'.asRead = b.asRead) {r : Report}
    (hr : r.Answers b.texts b.owners r) : r.PointsInto b' := by
  refine h.pointsInto ?_
  rw [texts_of_asRead hread, owners_of_asRead hread]
  exact hr

/-- The declare stage keeps the places, and reports about them. -/
theorem Placed.declare (h : b.Placed) :
    b.declare.1.Placed ∧ ∀ r ∈ b.declare.2, r.PointsInto b.declare.1 := by
  have hread : b.declare.1.asRead = b.asRead := b.asRead_declareWith .direct ()
  obtain ⟨hunits, hreports⟩ := h.units.declare
  have hafter : b.declare.1.Placed := h.of_asRead hread hunits
  exact ⟨hafter, fun r hr => hafter.pointsInto_of_asRead hread (List.forall₂_same.1 hreports r hr)⟩

/-- The type check keeps the places, and reports about them, whether it gets to its end or not. -/
theorem Placed.check (h : b.Placed) :
    b.check.bundle.Placed ∧ (∀ r ∈ b.check.reports, r.PointsInto b.check.bundle) ∧
      ∀ fault, b.check.fault = some fault →
        (fault.report b.check.bundle).PointsInto b.check.bundle := by
  have hread : b.check.bundle.asRead = b.asRead := b.asRead_checkWith .direct ()
  have hsame := h.units.check
  have hafter : b.check.bundle.Placed := h.of_asRead hread hsame.bundle
  refine ⟨hafter,
    fun r hr => hafter.pointsInto_of_asRead hread (List.forall₂_same.1 hsame.reports r hr),
    fun fault hfault => hafter.pointsInto_fault ?_⟩
  rw [texts_of_asRead hread, owners_of_asRead hread]
  have hanswers := hsame.fault
  rw [hfault] at hanswers
  cases hanswers with
  | some hanswers => exact hanswers

/-- The move check reports about places of the texts. -/
theorem Placed.checkMoves (h : b.Placed) : ∀ r ∈ b.checkMoves, r.PointsInto b := by
  have hsame := checkMoves_mirrors (fun _ => Correspondence.inText_oneToOne _ _) h.units
  exact fun r hr => h.pointsInto (List.forall₂_same.1 hsame r hr)

end Bundle

/-! ## Loading -/

section Loading

variable {τ : Type}

/-- One use of the files turns the world into another one. -/
def FileAccess.Turns (access : FileAccess (StateM τ)) (w w' : τ) : Prop :=
  ∃ path, w' = (access.isFile path w).2 ∨ w' = (access.canonical path w).2 ∨
  w' = (access.read path w).2

/-- The worlds that uses of the files lead to. -/
def FileAccess.Reach (access : FileAccess (StateM τ)) : τ → τ → Prop :=
  Relation.ReflTransGen access.Turns

/-- A span stands in the text that the file has in a world that is reached. -/
def FileAccess.HasSpan (access : FileAccess (StateM τ)) (w : τ) (file : Path) (s : Span) : Prop :=
  ∃ w' source, access.Reach w w' ∧ (access.read file w').1 = .ok source ∧
    s.start ≤ s.stop ∧ s.stop ≤ source.utf8ByteSize

/-- What is wrong with the text of a file stands in that text. -/
def LoadFault.Stands (access : FileAccess (StateM τ)) (w : τ) : LoadFault → Prop
  | lexical file span _ => access.HasSpan w file span
  | grammatical file span _ => access.HasSpan w file span
  | _ => True

variable {access : FileAccess (StateM τ)} {w w' : τ}

theorem FileAccess.reach_read (access : FileAccess (StateM τ)) (w : τ) (file : Path) :
    access.Reach w (access.read file w).2 :=
  .single ⟨file, .inr (.inr rfl)⟩

theorem FileAccess.reach_canonical (access : FileAccess (StateM τ)) (w : τ) (file : Path) :
    access.Reach w (access.canonical file w).2 :=
  .single ⟨file, .inr (.inl rfl)⟩

theorem FileAccess.reach_resolveImport (access : FileAccess (StateM τ)) (w : τ) (specifier : String)
    (importer : Path) : access.Reach w (access.resolveImport specifier importer w).2 := by
  have hisFile : access.Reach w (access.isFile (importTarget specifier importer) w).2 :=
    .single ⟨_, .inl rfl⟩
  change access.Reach w ((if (access.isFile (importTarget specifier importer) w).1 then _ else _ :
    StateM τ (Option Path)) (access.isFile (importTarget specifier importer) w).2).2
  split
  · exact hisFile.trans (access.reach_canonical _ _)
  · exact hisFile

theorem FileAccess.HasSpan.of_reach {file : Path} {s : Span} (h : access.HasSpan w' file s)
    (hreach : access.Reach w w') : access.HasSpan w file s := by
  obtain ⟨w₁, source, hreach', hread, hspan⟩ := h
  exact ⟨w₁, source, hreach.trans hreach', hread, hspan⟩

theorem LoadFault.Stands.of_reach {f : LoadFault} (h : f.Stands access w')
    (hreach : access.Reach w w') : f.Stands access w := by
  cases f with
  | lexical file span message | grammatical file span message =>
    exact FileAccess.HasSpan.of_reach h hreach
  | _ => trivial

/-- What is wrong with a text stands in it. -/
theorem stands_of_readTree {file : Path} {source : String} {id : Nat} {faults : List LoadFault}
    (hread : (access.read file w).1 = .ok source) (h : readTree file source id = .error faults)
    {f : LoadFault} (hf : f ∈ faults) : f.Stands access w := by
  have hstands {s : Span} (hs : s.InText source.toList id) : access.HasSpan w file s := by
    obtain ⟨p, q, _, hq, hle, rfl⟩ := hs
    exact ⟨w, source, .refl, hread, hle, hq.offset_le⟩
  rw [readTree] at h
  cases hbad : (tokenize source id).filter (·.kind == .error) with
  | cons t ts =>
    rw [hbad] at h
    obtain rfl := Except.error.inj h
    obtain ⟨t', ht', rfl⟩ := List.mem_map.1 hf
    have hmem : t' ∈ tokenize source id := (List.mem_filter.1 (hbad ▸ ht')).1
    exact hstands ((tokenize_places source id).1 t' hmem).1
  | nil =>
    rw [hbad] at h
    dsimp only at h
    cases hparse : parseTokens (tokenize source id) with
    | none =>
      rw [hparse] at h
      obtain rfl := Except.error.inj h
      cases hf
    | some result =>
      rw [hparse] at h
      cases result with
      | ok tree => cases h
      | error errors =>
        obtain rfl := Except.error.inj h
        obtain ⟨e, he, rfl⟩ := List.mem_map.1 hf
        exact hstands (error_inText hparse he)

namespace Loading

/-- What a load leaves: units that were read, in a world that was reached, and faults in what was
read. -/
structure Leaves (access : FileAccess (StateM τ)) (w : τ) (r : Loaded × τ) : Prop where
  bundle : r.1.1.FromTexts
  world : access.Reach w r.2
  faults : ∀ faults, r.1.2 = .error faults → ∀ f ∈ faults, f.Stands access w

theorem Leaves.of_reach {r : Loaded × τ} (h : Leaves access w' r) (hreach : access.Reach w w') :
    Leaves access w r :=
  ⟨h.bundle, hreach.trans h.world,
    fun faults hfaults f hf => (h.faults faults hfaults f hf).of_reach hreach⟩

theorem leaves_ok {b : Bundle} (hb : b.FromTexts) (hreach : access.Reach w w') (id : Nat) :
    Leaves access w ((b, .ok id), w') :=
  ⟨hb, hreach, nofun⟩

theorem leaves_error {b : Bundle} (hb : b.FromTexts) (hreach : access.Reach w w') {f : LoadFault}
    (hf : f.Stands access w) : Leaves access w ((b, .error [f]), w') := by
  refine ⟨hb, hreach, fun faults hfaults f' hf' => ?_⟩
  obtain rfl := Except.error.inj hfaults
  obtain rfl := List.mem_singleton.1 hf'
  exact hf

theorem loadImports_leaves {load : Path → Bundle → StateM τ Loaded}
    (hload : ∀ (path : Path) (b : Bundle) (w : τ), b.FromTexts → Leaves access w (load path b w))
    (file : Path) (id : Nat) (links : List ImportLink) (index : Nat) {b : Bundle} (hb : b.FromTexts)
    (w : τ) :
    Leaves access w (loadImports access load file id links index b w) := by
  induction links generalizing index b w with
  | nil => exact leaves_ok hb .refl id
  | cons link links ih =>
    have hresolve := access.reach_resolveImport w link.path file
    rw [loadImports, Compilation.bind_apply]
    generalize access.resolveImport link.path file w = resolved at hresolve
    obtain ⟨target, w₁⟩ := resolved
    cases target with
    | none => exact leaves_error hb hresolve trivial
    | some path =>
      have hleaves := (hload path b w₁ hb).of_reach hresolve
      change Leaves access w ((load path b >>= _) w₁)
      rw [Compilation.bind_apply]
      generalize load path b w₁ = loaded at hleaves
      obtain ⟨⟨b₁, result⟩, w₂⟩ := loaded
      cases result with
      | error faults => exact hleaves
      | ok target =>
        have hrest := ih (index + 1) (hleaves.bundle.resolveImport id index target) w₂
        exact hrest.of_reach hleaves.world

theorem loadFile_leaves (access : FileAccess (StateM τ)) (fuel : Nat) (file : Path) {b : Bundle}
    (hb : b.FromTexts) (w : τ) : Leaves access w (loadFile access fuel file b w) := by
  induction fuel generalizing file b w with
  | zero => exact leaves_error hb .refl trivial
  | succ fuel ih =>
    rw [loadFile]
    cases hindex : b.indexOf? file with
    | some id => exact leaves_ok hb .refl id
    | none =>
      have hworld := access.reach_read w file
      change Leaves access w ((access.read file >>= _) w)
      rw [Compilation.bind_apply]
      cases hread : access.read file w with
      | mk result w₁ =>
        rw [hread] at hworld
        cases result with
        | error error => exact leaves_error hb hworld trivial
        | ok source =>
          dsimp only
          cases htree : readTree file source b.size with
          | error faults =>
            refine ⟨hb, hworld, fun faults' hfaults f hf => ?_⟩
            obtain rfl := Except.error.inj hfaults
            exact stands_of_readTree (congrArg Prod.fst hread) htree hf
          | ok parsed =>
            obtain ⟨tokens, tree⟩ := parsed
            obtain ⟨rfl, hparses⟩ := readTree_eq_ok_iff.1 htree
            have hadd := hb.addUnit hparses file
            exact (loadImports_leaves (fun path b w hb => ih path hb w) file _ _ 0 hadd w₁).of_reach
              hworld

theorem load_leaves (access : FileAccess (StateM τ)) (entry : Path) (w : τ) :
    Leaves access w (load access entry w) := by
  have hworld := access.reach_canonical w entry
  rw [load, Compilation.bind_apply]
  generalize access.canonical entry w = canonical at hworld
  obtain ⟨result, w₁⟩ := canonical
  cases result with
  | error error => exact leaves_error Bundle.fromTexts_empty hworld trivial
  | ok file => exact (loadFile_leaves access _ file Bundle.fromTexts_empty w₁).of_reach hworld

end Loading

/-! ## Reports of a run -/

/-- A fault that is about the text of a file, by its wording. -/
def Fault.IsTextual (f : Fault) : Prop :=
  ∃ message, f = .fatal ("lexical error: " ++ message) ∨ f = .fatal ("parse error: " ++ message)

/-- Only faults of the lexer and of the parser are about the text. -/
theorem LoadFault.Stands.hasSpan {f : LoadFault} (h : f.Stands access w)
    (htextual : f.report.fault.IsTextual) : access.HasSpan w f.report.file f.report.span := by
  obtain ⟨message, hfault⟩ := htextual
  have hchars {a b : String} (h : Fault.fatal a = .fatal b) : a.toList = b.toList :=
    congrArg String.toList (Fault.fatal.inj h)
  cases f with
  | lexical file span message => exact h
  | grammatical file span message => exact h
  | unresolvedImport file span specifier => rcases hfault with hfault | hfault <;> cases hfault
  -- The other wordings start with other letters.
  | unreadable file error | chainTooLong file =>
    rcases hfault with hfault | hfault <;> simpa using hchars hfault

namespace Compilation

variable {stopAfter : Option Stage} {backend : Option (Backend (StateM τ))} {entry : Path}
  {c : Compilation} {stage : Stage} {done rest : List Stage}

theorem mem_of_mem_enter (hreports : c.journal.reports = []) {reports : List Report} {r : Report}
    (hr : r ∈ (c.enter reports).journal.reports) : r ∈ reports := by
  rcases List.mem_append.1 hr with hr | hr
  · rw [hreports] at hr
    cases hr
  · exact hr

/-- A stage behind the load keeps the places, and what it reports, unless it is the backend, points
into a file of the bundle that it leaves. -/
theorem runStage_points (access : FileAccess (StateM τ)) (backend : Option (Backend (StateM τ)))
    (entry : Path) (hstage : stage ≠ .load) (hplaced : c.bundle.Placed)
    (hreports : c.journal.reports = []) (w : τ) :
    (runStage access backend entry stage c w).1.bundle.Placed ∧
      ∀ r ∈ (runStage access backend entry stage c w).1.journal.reports, r.stage ≠ .load ∧
        (r.stage ≠ .backend → r.PointsInto (runStage access backend entry stage c w).1.bundle) := by
  have heffect := runStage_effect access backend entry stage c w
  -- There were no reports before, so all of them are those of this stage.
  have hown : ∀ r ∈ (runStage access backend entry stage c w).1.journal.reports,
      r.stage = stage := by
    obtain ⟨added, hadded, hstages⟩ := heffect.reports
    rw [hadded, hreports]
    exact hstages
  suffices h : (runStage access backend entry stage c w).1.bundle.Placed ∧
      (stage ≠ .backend → ∀ r ∈ (runStage access backend entry stage c w).1.journal.reports,
        r.PointsInto (runStage access backend entry stage c w).1.bundle) from
    ⟨h.1, fun r hr => ⟨hown r hr ▸ hstage, fun hbackend => h.2 (hown r hr ▸ hbackend) r hr⟩⟩
  cases stage with
  | load => exact absurd rfl hstage
  | declare =>
    obtain ⟨hafter, hpoints⟩ := hplaced.declare
    exact ⟨hafter, fun _ r hr => hpoints r (mem_of_mem_enter hreports hr)⟩
  | typeCheck =>
    obtain ⟨hafter, hpoints, hfault⟩ := hplaced.check
    refine ⟨hafter, fun _ r hr => ?_⟩
    rcases List.mem_append.1 (mem_of_mem_enter hreports hr) with hr | hr
    · exact hpoints r hr
    · obtain ⟨fault, hmem, rfl⟩ := List.mem_map.1 hr
      exact hfault fault (Option.mem_toList.1 hmem)
  | borrowCheck =>
    exact ⟨hplaced, fun _ r hr => hplaced.checkMoves r (mem_of_mem_enter hreports hr)⟩
  | backend =>
    rw [heffect.bundle (.inr rfl)]
    exact ⟨hplaced, fun hbackend => absurd rfl hbackend⟩

/-- What stages behind the load report, one stage after the other, points into a file. -/
theorem runStages_points (access : FileAccess (StateM τ)) (stopAfter : Option Stage)
    (backend : Option (Backend (StateM τ))) (entry : Path) (h : Passed done c)
    (hkeeps : KeepsTypes (done ++ rest)) (hrest : .load ∉ rest) (hplaced : c.bundle.Placed)
    (w : τ) :
    ∀ r ∈ (runStages access stopAfter backend entry rest c w).1.journal.reports, r.stage ≠ .load ∧
      (r.stage ≠ .backend →
        r.PointsInto (runStages access stopAfter backend entry rest c w).1.bundle) := by
  induction rest generalizing done c w with
  | nil =>
    intro r hr
    change r ∈ c.journal.reports at hr
    rw [h.reports] at hr
    cases hr
  | cons stage rest ih =>
    obtain ⟨hstage, hrest⟩ := not_or.1 (mt List.mem_cons.2 hrest)
    obtain ⟨hafter, hpoints⟩ := runStage_points access backend entry (Ne.symm hstage)
      (c := c.entering stage) hplaced h.reports w
    rw [runStages_cons h w]
    dsimp only
    -- The run goes on only if the stage reported nothing.
    split
    · next hquiet =>
        split
        · exact hpoints
        · refine ih (h.next hkeeps w hquiet) ?_ hrest hafter _
          rwa [List.append_assoc, List.singleton_append]
    · exact hpoints

/-- What the load stage reports about a text stands in it. -/
theorem runStage_load_points (access : FileAccess (StateM τ))
    (backend : Option (Backend (StateM τ))) (entry : Path) (hreports : c.journal.reports = [])
    (w : τ) :
    (runStage access backend entry .load c w).1.bundle.Placed ∧
      ∀ r ∈ (runStage access backend entry .load c w).1.journal.reports,
        r.stage = .load ∧ (r.fault.IsTextual → access.HasSpan w r.file r.span) := by
  have hleaves := Loading.load_leaves access entry w
  rw [runStage, bind_apply]
  generalize Loading.load access entry w = loaded at hleaves
  obtain ⟨⟨bundle, result⟩, w'⟩ := loaded
  refine ⟨?_, fun r hr => ?_⟩
  · cases result <;> exact hleaves.bundle.placed
  · cases result with
    | ok id =>
      change r ∈ c.journal.reports at hr
      rw [hreports] at hr
      cases hr
    | error faults =>
      obtain ⟨f, hf, rfl⟩ := List.mem_map.1 (mem_of_mem_enter (c := { c with bundle }) hreports hr)
      exact ⟨f.stage_report, (hleaves.faults faults rfl f hf).hasSpan⟩

/-- In every world and however the files behave in it, the reports of the checks name the file of
the unit that their spans belong to, and all their spans cover some text of that unit and tell its
line and column. A lexical or grammatical fault stands in the text of the file that it names. -/
theorem reports_point_into_files (access : FileAccess (StateM τ)) (stopAfter : Option Stage)
    (backend : Option (Backend (StateM τ))) (entry : Path) (w : τ) (r : Report)
    (hr : r ∈ (runWith access stopAfter backend entry w).1.journal.reports) :
    (r.stage = .declare ∨ r.stage = .typeCheck ∨ r.stage = .borrowCheck →
      r.PointsInto (runWith access stopAfter backend entry w).1.bundle) ∧
    (r.stage = .load → r.fault.IsTextual → access.HasSpan w r.file r.span) := by
  obtain ⟨rest, hplanned, hrest⟩ : ∃ rest, planned backend = .load :: rest ∧ .load ∉ rest := by
    cases backend with
    | none => exact ⟨_, rfl, by decide⟩
    | some backend => exact ⟨_, rfl, by decide⟩
  have hkeeps : KeepsTypes ([] ++ .load :: rest) := hplanned ▸ keepsTypes_planned backend
  obtain ⟨hplaced, hload⟩ :=
    runStage_load_points access backend entry (c := start.entering .load) rfl w
  have hrun : runWith access stopAfter backend entry w =
      runStages access stopAfter backend entry (.load :: rest) start w := by rw [← hplanned]; rfl
  rw [hrun, runStages_cons passed_start w] at hr ⊢
  dsimp only at hr ⊢
  -- If the load reports something, the run ends there; if not, all reports come from later stages.
  split at hr
  · next hquiet =>
      rw [if_pos hquiet]
      split at hr
      · rw [hquiet] at hr
        cases hr
      · next hstop =>
          rw [if_neg hstop]
          have hpassed := passed_start.next hkeeps w hquiet
          obtain ⟨hload, hpoints⟩ :=
            runStages_points access stopAfter backend entry hpassed hkeeps hrest hplaced _ r hr
          refine ⟨fun hstage => hpoints ?_, fun hstage => absurd hstage hload⟩
          rcases hstage with hstage | hstage | hstage <;> rw [hstage] <;> decide
  · next hreports =>
      rw [if_neg hreports]
      obtain ⟨hstage, hspan⟩ := hload r hr
      refine ⟨fun hcheck => ?_, fun _ => hspan⟩
      rw [hstage] at hcheck
      rcases hcheck with hcheck | hcheck | hcheck <;> cases hcheck

/-- A program that uses a moved pointer in an imported file, behind letters of two bytes, and two
files that cannot be read. -/
def misplaced : FileTree where
  files := [
    (["w", "main.liam"], "import \"lib\" l;\nfn main() { }".toUTF8),
    (["w", "lib.liam"], "/* zählt */ // ü
fn twice(p: ~u64) {
  let q := p;
  let r := p;
}".toUTF8),
    (["w", "open.liam"], "fn f( { }".toUTF8),
    (["w", "broken.liam"], "fn f() { } §".toUTF8)]
  dirs := []
  workingDir := ["w"]

/-- A run over these files. -/
def misplacedRun (entry : Path) : Compilation :=
  (runWith (unchanging misplaced.access) none none entry ()).1

theorem reports_point_into_files_misplaced :
    let access : FileAccess (StateM Unit) := unchanging misplaced.access
    (∃ r ∈ (misplacedRun ⟨"main.liam"⟩).journal.reports, r.stage = .borrowCheck ∧
      r.file = ⟨"/w/lib.liam"⟩ ∧ r.notes.length = 2 ∧ (r.line, r.character) = (4, 12) ∧
      r.PointsInto (misplacedRun ⟨"main.liam"⟩).bundle) ∧
    (∃ r ∈ (misplacedRun ⟨"open.liam"⟩).journal.reports, r.stage = .load ∧
      access.HasSpan () r.file r.span) ∧
    ∃ r ∈ (misplacedRun ⟨"broken.liam"⟩).journal.reports, r.stage = .load ∧
      access.HasSpan () r.file r.span := by
  have hmoved : ((misplacedRun ⟨"main.liam"⟩).journal.reports.any fun r => r.stage = .borrowCheck ∧
      r.file = ⟨"/w/lib.liam"⟩ ∧ r.notes.length = 2 ∧ (r.line, r.character) = (4, 12)) = true := by
    decide +kernel
  have hopen : ((misplacedRun ⟨"open.liam"⟩).journal.reports.any fun r => r.stage = .load ∧
      r.fault = .fatal ("parse error: " ++ "Expected identifier, found '\x7b'")) = true := by
    decide +kernel
  have hbroken : ((misplacedRun ⟨"broken.liam"⟩).journal.reports.any fun r => r.stage = .load ∧
      r.fault = .fatal ("lexical error: " ++ "Unexpected character: §")) = true := by
    decide +kernel
  have hpoints (entry : Path) (r : Report) (hr : r ∈ (misplacedRun entry).journal.reports) :
      (r.stage = .declare ∨ r.stage = .typeCheck ∨ r.stage = .borrowCheck →
        r.PointsInto (misplacedRun entry).bundle) ∧
      (r.stage = .load → r.fault.IsTextual →
        (unchanging misplaced.access).HasSpan () r.file r.span) :=
    reports_point_into_files (unchanging misplaced.access) none none entry () r hr
  refine ⟨?_, ?_, ?_⟩
  · obtain ⟨r, hr, hfound⟩ := List.any_eq_true.1 hmoved
    obtain ⟨hstage, hfile, hnotes, hplace⟩ := of_decide_eq_true hfound
    exact ⟨r, hr, hstage, hfile, hnotes, hplace,
      (hpoints ⟨"main.liam"⟩ r hr).1 (.inr (.inr hstage))⟩
  · obtain ⟨r, hr, hfound⟩ := List.any_eq_true.1 hopen
    obtain ⟨hstage, hfault⟩ := of_decide_eq_true hfound
    exact ⟨r, hr, hstage, (hpoints ⟨"open.liam"⟩ r hr).2 hstage ⟨_, .inr hfault⟩⟩
  · obtain ⟨r, hr, hfound⟩ := List.any_eq_true.1 hbroken
    obtain ⟨hstage, hfault⟩ := of_decide_eq_true hfound
    exact ⟨r, hr, hstage, (hpoints ⟨"broken.liam"⟩ r hr).2 hstage ⟨_, .inl hfault⟩⟩

end Compilation

end Loading

end Custody
