import Custody.Proofs.Accounts
import Custody.Proofs.FileReadings
import Custody.Proofs.OneLocal
import Custody.Proofs.TokenOrder
import Custody.Proofs.Tracking
import Custody.Proofs.TypeTables

/-!
# Parsed files and accepted functions

The names in a parsed file have places of their own, its nodes have numbers of their own, and its
statements have the shapes that a text gives them (`SourceFile.Parsed`). A function of such a file
is accepted if the type check of its bundle got through and found nothing in it; then the move check
finds in it what following its flow finds (`Accepted.checkItem_eq_follow`).

`acceptsFn` decides whether a text of one file has an accepted function with a property, so that
statements about accepted functions can be tried on texts.
-/

set_option autoImplicit false

namespace Custody

theorem tokenize_ofList (chars : List Char) (file : Nat) :
    tokenize (String.ofList chars) file =
      Scanner.untilEof (chars.length + 1) ⟨file, .origin, chars⟩ := by
  rw [tokenize, Scanner.ofSource, String.toList_ofList]

/-! ## Shapes -/

/-- The array literals in an expression that can be written have array types. -/
theorem Expr.sized_of_wellShaped {e : Expr} (h : e.wellShaped = true) :
    e.every Expr.isSized = true := by
  have hfits : Expr.fitsParts = fun e => e.fitsParts && e.isSized := by
    funext e
    cases e with
    | staticArray mark type elements =>
      rw [fitsParts, isSized, Bool.and_right_comm, Bool.and_self]
    | _ => exact (Bool.and_true _).symm
  rw [wellShaped, hfits, every_and] at h
  exact (Bool.and_eq_true_iff.1 h).2

mutual
/-- A statement that can stand in a block has the shapes that a text gives, no declaration inside,
and array literals with array types. -/
theorem Stmt.shapes_of_wellShaped : ∀ s : Stmt, s.wellShaped = true →
    s.regular = true ∧ s.localOnly = true ∧ s.every Expr.isSized = true
  | .letDecl _ _ _ _, h => ⟨rfl, rfl, Expr.sized_of_wellShaped (Bool.and_eq_true_iff.1 h).2⟩
  | .scope _ body, h => body.shapes_of_wellShaped h
  | .assign _ _ _, h => by
    obtain ⟨htarget, hvalue⟩ := Bool.and_eq_true_iff.1 h
    refine ⟨rfl, rfl, ?_⟩
    rw [Stmt.every, Expr.sized_of_wellShaped htarget, Expr.sized_of_wellShaped hvalue]
    rfl
  | .returnStmt _ none, _ | .breakStmt _, _ | .continueStmt _, _ => ⟨rfl, rfl, rfl⟩
  | .returnStmt _ (some _), h | .expr _ _, h => ⟨rfl, rfl, Expr.sized_of_wellShaped h⟩
  | .forEach _ _ _ body, h => by
    obtain ⟨hiterable, hbody⟩ := Bool.and_eq_true_iff.1 h
    obtain ⟨hregular, hlocal, hsized⟩ := body.shapes_of_wellShaped hbody
    exact ⟨hregular, hlocal, by rw [Stmt.every, Expr.sized_of_wellShaped hiterable, hsized]; rfl⟩
  | .forCounted _ init _ update body, h => by
    simp only [Stmt.wellShaped, Bool.and_eq_true] at h
    obtain ⟨⟨⟨⟨⟨hlet, hinit⟩, hcondition⟩, heffect⟩, hupdate⟩, hbody⟩ := h
    obtain ⟨-, hinitLocal, hinitSized⟩ := init.shapes_of_wellShaped hinit
    obtain ⟨-, hupdateLocal, hupdateSized⟩ := update.shapes_of_wellShaped hupdate
    obtain ⟨hregular, hlocal, hsized⟩ := body.shapes_of_wellShaped hbody
    simp [Stmt.regular, Stmt.localOnly, Stmt.every, Expr.sized_of_wellShaped hcondition, *]
  | .ifElse _ _ thenBlock elseBranch, h => by
    simp only [Stmt.wellShaped, Bool.and_eq_true] at h
    obtain ⟨⟨hcondition, hthen⟩, helse⟩ := h
    obtain ⟨hregular, hlocal, hsized⟩ := thenBlock.shapes_of_wellShaped hthen
    obtain ⟨hregular', hlocal', hsized'⟩ := shapes_of_wellShapedElse elseBranch helse
    simp [Stmt.regular, Stmt.localOnly, Stmt.every, Expr.sized_of_wellShaped hcondition, *]

theorem shapes_of_wellShapedElse : ∀ branch : Option Stmt, Stmt.wellShapedElse branch = true →
    elseRegular branch = true ∧ elseLocalOnly branch = true ∧ elseEvery Expr.isSized branch = true
  | none, _ => ⟨rfl, rfl, rfl⟩
  | some s, h => by
    obtain ⟨hbranch, hshape⟩ := Bool.and_eq_true_iff.1 h
    obtain ⟨hregular, hlocal, hsized⟩ := s.shapes_of_wellShaped hshape
    exact ⟨Bool.and_eq_true_iff.2 ⟨hbranch, hregular⟩, hlocal, hsized⟩

theorem Block.shapes_of_wellShaped : ∀ b : Block, b.wellShaped = true →
    b.regular = true ∧ b.localOnly = true ∧ b.every Expr.isSized = true
  | .mk _ stmts, h => shapes_of_wellShapedAll stmts h

theorem shapes_of_wellShapedAll : ∀ ss : List Stmt, Stmt.wellShapedAll ss = true →
    stmtsRegular ss = true ∧ stmtsLocalOnly ss = true ∧ stmtsEvery Expr.isSized ss = true
  | [], _ => ⟨rfl, rfl, rfl⟩
  | s :: ss, h => by
    obtain ⟨hs, hss⟩ := Bool.and_eq_true_iff.1 h
    obtain ⟨hregular, hlocal, hsized⟩ := s.shapes_of_wellShaped hs
    obtain ⟨hregular', hlocal', hsized'⟩ := shapes_of_wellShapedAll ss hss
    simp [stmtsRegular, stmtsLocalOnly, stmtsEvery, *]
end

theorem Stmt.shapes_of_wellShapedItem {s : Stmt} (h : s.wellShapedItem = true) :
    s.regular = true ∧ s.isItem = true ∧ s.every Expr.isSized = true := by
  cases s with
  | importDecl | structDecl => exact ⟨rfl, rfl, rfl⟩
  | fnDecl mark head body => exact body.shapes_of_wellShaped (Bool.and_eq_true_iff.1 h).2
  | _ => cases h

/-! ## Parsed files -/

/-- A file that was read from some text. -/
def SourceFile.Parsed (f : SourceFile) : Prop := ∃ source id, parseSource source id = some (.ok f)

namespace SourceFile.Parsed

variable {f : SourceFile}

/-- The tokens of some text were read, and they spell the file. -/
theorem taken (h : f.Parsed) : ∃ source id c c' row, row.Sublist (tokenize source id) ∧
    Cursor.Taken c c' (f.write .lenient) f.pieces row ∧ c.nextId = 0 ∧ f.wellShaped = true := by
  obtain ⟨source, id, hparse⟩ := h
  obtain ⟨tokens, eof, hsource, heof, -⟩ := tokenize_ends source id
  have hend : ∃ t ∈ tokenize source id, t.kind = .eof := ⟨eof, by simp [hsource], heof⟩
  have hread := readFrom_of_parseTokens hend hparse
  obtain ⟨first, c', -, htakes, -⟩ := hread.taken
  obtain ⟨row, hrow⟩ := htakes hend
  refine ⟨source, id, _, c', row, ?_, hrow, rfl, hread.wellShaped⟩
  have hrest : tokenize source id = row ++ c'.rest := hrow.way.rest
  rw [hrest]
  exact List.sublist_append_left _ _

theorem names_nodup (h : f.Parsed) : ((stmtsNames f.items).map Ident.span).Nodup := by
  obtain ⟨source, id, c, c', row, hsub, hrow, -⟩ := h.taken
  obtain ⟨spans, hperm, hspans⟩ := hrow.stands.names
  rw [Piece.stmtsNames_eq]
  exact hperm.nodup_iff.1 ((hspans.trans (hsub.map _)).nodup (tokenize_spans_nodup source id))

theorem ids_nodup (h : f.Parsed) : (stmtsIds f.items).Nodup := by
  obtain ⟨source, id, c, c', row, -, hrow, -⟩ := h.taken
  have hids : Piece.ids f.pieces = stmtsIds f.items := by
    rw [Piece.ids, SourceFile.pieces, ← Piece.stmtsRegions_eq, marks_stmtsRegions]
  rw [← hids, hrow.numbers]
  exact List.nodup_range'

theorem shapes (h : f.Parsed) {s : Stmt} (hs : s ∈ f.items) :
    s.regular = true ∧ s.isItem = true ∧ s.every Expr.isSized = true := by
  obtain ⟨source, id, c, c', row, -, -, -, hshape⟩ := h.taken
  exact Stmt.shapes_of_wellShapedItem (List.all_eq_true.1 hshape s hs)

theorem regular (h : f.Parsed) : stmtsRegular f.items = true := by
  have hall := fun s hs => (@shapes f h s hs).1
  generalize f.items = ss at hall
  induction ss with
  | nil => rfl
  | cons s ss ih =>
    obtain ⟨hs, hss⟩ := List.forall_mem_cons.1 hall
    exact Bool.and_eq_true_iff.2 ⟨hs, ih hss⟩

/-- Every item of a file that was read is a declaration without declarations inside. -/
theorem items (h : f.Parsed) : ∀ s ∈ f.items, s.isItem = true := fun _ hs => (h.shapes hs).2.1

end SourceFile.Parsed

/-- A bundle of parsed files of which nothing is declared yet. -/
structure Bundle.Parsed (b : Bundle) : Prop where
  files : ∀ f ∈ b.files, f.Parsed
  undeclared : b.Undeclared

namespace Bundle

theorem Parsed.empty : Bundle.empty.Parsed :=
  ⟨fun f hf => absurd hf List.not_mem_nil, fun i u hu => by cases hu⟩

/-- A unit of a bundle with one more unit is one from before or the new one. -/
theorem get?_concat {b : Bundle} {new u : SourceUnit} {i : Nat}
    (h : (⟨b.units ++ [new]⟩ : Bundle).get? i = some u) :
    b.get? i = some u ∨ i = b.size ∧ u = new := by
  rcases Nat.lt_or_ge i b.units.length with hi | hi
  · rw [get?, List.getElem?_append_left hi] at h
    exact .inl h
  · rw [get?, List.getElem?_append_right hi, List.getElem?_singleton] at h
    split at h
    · next hzero =>
        exact .inr ⟨Nat.le_antisymm (Nat.sub_eq_zero_iff_le.1 hzero) hi, (Option.some.inj h).symm⟩
    · cases h

/-- A parsed file may be added to a bundle of parsed files. -/
theorem Parsed.addUnit {b : Bundle} (h : b.Parsed) (path : Path) (source : String)
    (tokens : List Token)
    {file : SourceFile} (hfile : file.Parsed) : (b.addUnit path source tokens file).2.Parsed := by
  unfold Bundle.addUnit
  split
  · exact h
  · refine ⟨fun f hf => ?_, fun i u hu => ?_⟩
    · rw [Bundle.files, List.map_append, List.mem_append] at hf
      rcases hf with hf | hf
      · exact h.files f hf
      · rw [List.mem_singleton.1 hf]
        exact hfile
    · rcases get?_concat hu with hu | ⟨rfl, rfl⟩
      · exact h.undeclared i u hu
      · exact SourceUnit.undeclared_fresh _ _ _ _ _

/-- Letting imports lead to units keeps a bundle one of parsed files. -/
theorem Parsed.linkByPath {b : Bundle} (h : b.Parsed) : b.linkByPath.Parsed := by
  unfold Bundle.linkByPath
  refine ⟨fun f hf => h.files f ?_, fun i u hu => ?_⟩
  · rw [Bundle.files, List.map_map] at hf
    exact hf
  · rw [get?, List.getElem?_map] at hu
    obtain ⟨u₀, hu₀, rfl⟩ := Option.map_eq_some_iff.1 hu
    obtain ⟨hid, htypes, hfunctions, hnamespaces, hstructs⟩ := h.undeclared i u₀ hu₀
    exact ⟨hid, htypes, hfunctions, hnamespaces, hstructs⟩

variable {b : Bundle} {texts : List (String × String)} {chars : List (String × List Char)}

/-- Adds the files of some texts to a bundle, if all of them can be parsed. -/
def addTexts : List (String × String) → Bundle → Option Bundle
  | [], b => some b
  | (path, source) :: texts, b =>
    match parseSource source b.size with
    | some (.ok file) =>
      addTexts texts (b.addUnit ⟨path⟩ source (tokenize source b.size) file).2
    | _ => none

/-- The bundle of some texts, in which imports lead to files by their paths. -/
def ofTexts (texts : List (String × String)) : Option Bundle :=
  (addTexts texts .empty).map linkByPath

theorem Parsed.addTexts {b' : Bundle} (hb : b.Parsed) (h : addTexts texts b = some b') :
    b'.Parsed := by
  induction texts generalizing b with
  | nil => exact Option.some.inj h ▸ hb
  | cons text texts ih =>
    unfold Bundle.addTexts at h
    split at h
    · next file hparse => exact ih (hb.addUnit _ _ _ ⟨_, _, hparse⟩) h
    · cases h

theorem parsed_of_ofTexts (h : ofTexts texts = some b) : b.Parsed := by
  obtain ⟨b', hb', rfl⟩ := Option.map_eq_some_iff.1 h
  exact (Parsed.empty.addTexts hb').linkByPath

/-- Adds the files of some texts to a bundle, if all of them can be parsed. The texts are given by
their characters. -/
def addChars : List (String × List Char) → Bundle → Option Bundle
  | [], b => some b
  | (path, chars) :: texts, b =>
    let tokens := Scanner.untilEof (chars.length + 1) ⟨b.size, .origin, chars⟩
    match parseTokens tokens with
    | some (.ok file) => addChars texts (b.addUnit ⟨path⟩ (String.ofList chars) tokens file).2
    | _ => none

/-- Which characters some texts consist of. -/
inductive ConsistOf : List (String × String) → List (String × List Char) → Prop
  | nil : ConsistOf [] []
  | cons {path text : String} {chars : List Char} {texts : List (String × String)}
      {rest : List (String × List Char)} (htext : text = String.ofList chars)
      (hrest : ConsistOf texts rest) :
      ConsistOf ((path, text) :: texts) ((path, chars) :: rest)

theorem addTexts_eq_addChars (h : ConsistOf texts chars) (b : Bundle) :
    addTexts texts b = addChars chars b := by
  induction h generalizing b with
  | nil => rfl
  | cons htext _ ih =>
    subst htext
    simp only [addTexts, parseSource, tokenize_ofList, ih]
    rfl

/-- A property of a bundle can be tried on the characters of its texts. To take a text apart is what
costs most in an evaluation of a text. -/
theorem any_ofTexts {p : Bundle → Bool} (h : ConsistOf texts chars)
    (hp : ((addChars chars .empty).map linkByPath).any p = true) :
    (ofTexts texts).any p = true := by
  rw [ofTexts, addTexts_eq_addChars h, hp]

/-- Whether some texts give a bundle about which the stages report nothing, and a unit of it has a
property. -/
def acceptsTexts (texts : List (String × String)) (i : Nat) (p : SourceUnit → Bool) : Bool :=
  (ofTexts texts).any fun b =>
    let checked := b.declare.1.check
    b.declare.2.isEmpty && checked.fault.isNone && checked.reports.isEmpty &&
      (checked.bundle.get? i).any p

theorem acceptsTexts_of_chars {i : Nat} {p : SourceUnit → Bool} (h : ConsistOf texts chars)
    (hp : (((addChars chars .empty).map linkByPath).any fun b =>
      let checked := b.declare.1.check
      b.declare.2.isEmpty && checked.fault.isNone && checked.reports.isEmpty &&
        (checked.bundle.get? i).any p) = true) : acceptsTexts texts i p = true :=
  any_ofTexts h hp

theorem exists_of_acceptsTexts {i : Nat} {p : SourceUnit → Bool}
    (h : acceptsTexts texts i p = true) :
    ∃ b u, Bundle.Parsed b ∧ b.declare.2 = [] ∧ b.declare.1.check.fault = none ∧
      b.declare.1.check.reports = [] ∧ b.declare.1.check.bundle.get? i = some u ∧ p u = true := by
  simp only [acceptsTexts, Option.any_eq_true, Bool.and_eq_true, Option.isNone_iff_eq_none,
    List.isEmpty_iff] at h
  obtain ⟨b, hb, ⟨⟨hdeclare, hfault⟩, hreports⟩, u, hu, hp⟩ := h
  exact ⟨b, u, parsed_of_ofTexts hb, hdeclare, hfault, hreports, hu, hp⟩

/-- The units of a parsed bundle still have parsed files when they are declared and checked. -/
theorem Parsed.file_of_check (h : b.Parsed) {i : Nat} {u : SourceUnit}
    (hu : b.declare.1.check.bundle.get? i = some u) : u.file.Parsed := by
  obtain ⟨u₀, hu₀, hsame⟩ := get?_of_check hu
  have hmem : u₀.file ∈ b.declare.1.files := List.mem_map_of_mem (mem_units_of_get? hu₀)
  rw [files_declare] at hmem
  have hfile : u₀.file = u.file := (congrArg SourceUnit.file hsame : u₀.untyped.file = _)
  exact hfile ▸ h.files _ hmem

end Bundle

/-- Whether a unit has a function with a property. -/
def SourceUnit.anyFn (u : SourceUnit) (p : Mark → FnHead → Block → Bool) : Bool :=
  u.file.items.any fun
    | .fnDecl mark head body => p mark head body
    | _ => false

theorem SourceUnit.exists_of_anyFn {u : SourceUnit} {p : Mark → FnHead → Block → Bool}
    (h : u.anyFn p = true) :
    ∃ mark head body, .fnDecl mark head body ∈ u.file.items ∧ p mark head body = true := by
  obtain ⟨item, hitem, h⟩ := List.any_eq_true.1 h
  split at h
  · rename_i mark head body
    exact ⟨mark, head, body, hitem, h⟩
  · cases h

namespace Ownership

/-! ## Accepted functions -/

/-- A function of a parsed file in which the type check of its bundle found nothing. -/
structure Accepted (b : Bundle) (i : Nat) (u : SourceUnit) (mark : Mark) (head : FnHead)
    (body : Block) : Prop where
  parsed : u.file.Parsed
  checked : b.check.fault = none
  unit : b.check.bundle.get? i = some u
  declared : .fnDecl mark head body ∈ u.file.items
  clean : ((Typing.checkFn b u .direct mark head body).run ()).log.findings = []

theorem declare_of_declareName {σ : Type} {locals : ScopeStack} {name : Ident} {type : Ty} {s : σ}
    (h : (Typing.declareName locals name type s).log.findings = []) :
    locals.declare name.name type = .ok (Typing.declareName locals name type s).value := by
  unfold Typing.declareName at h ⊢
  cases hdeclare : locals.declare name.name type with
  | ok locals' => rfl
  | error existing =>
    rw [hdeclare] at h
    cases h

/-- Parameters that are declared without a finding have different names. -/
theorem params_nodup_of_declareParams {σ : Type} (params : List TypedName) (types : List Ty)
    (locals : ScopeStack) (s : σ)
    (h : (Typing.declareParams locals params types s).log.findings = []) :
    ((paramBindings params types).map (·.name.name)).Nodup ∧
      ∀ d ∈ paramBindings params types, locals.inner.get? d.name.name = none := by
  induction params generalizing types locals s with
  | nil => exact ⟨List.nodup_nil, fun d hd => absurd hd List.not_mem_nil⟩
  | cons p ps ih =>
    cases types with
    | nil => exact ⟨List.nodup_nil, fun d hd => absurd hd List.not_mem_nil⟩
    | cons t ts =>
      rw [Typing.declareParams, Checking.bind_eq, Log.findings_append,
        List.append_eq_nil_iff] at h
      obtain ⟨hdeclare, hrest⟩ := h
      obtain ⟨hinsert, -⟩ := ScopeStack.declare_ok (declare_of_declareName hdeclare)
      obtain ⟨hnew, hget⟩ := NameMap.get?_of_insertNew hinsert
      obtain ⟨hnodup, hnone⟩ := ih ts _ _ hrest
      -- Behind the first parameter its name is taken, so no later one has it.
      have hother : ∀ d ∈ paramBindings ps ts,
          d.name.name ≠ p.name.name ∧ locals.inner.get? d.name.name = none := by
        intro d hd
        have hd' := hnone d hd
        rw [hget] at hd'
        by_cases heq : d.name.name = p.name.name
        · rw [if_pos heq] at hd'
          cases hd'
        · rw [if_neg heq] at hd'
          exact ⟨heq, hd'⟩
      rw [paramBindings]
      refine ⟨List.nodup_cons.2 ⟨fun hmem => ?_, hnodup⟩, fun d hd => ?_⟩
      · obtain ⟨d, hd, heq⟩ := List.mem_map.1 hmem
        exact (hother d hd).1 heq
      · rcases List.mem_cons.1 hd with rfl | hd
        · exact hnew
        · exact (hother d hd).2

/-- A check of a function that gets through declares the parameters of its signature first, and
records the signature last. -/
theorem signature_of_checkFn {σ : Type} {b : Bundle} {u : SourceUnit} {builder : InstanceBuilder σ}
    {mark : Mark} {head : FnHead} {body : Block} {s : σ}
    (h : ((Typing.checkFn b u builder mark head body).run s).value = .ok ()) :
    ∃ arity params result,
      u.functions.get? head.name.name = some (.fn arity params result) ∧
      [(mark.id, .fn arity params result)] <:+
        ((Typing.checkFn b u builder mark head body).run s).log.types ∧
      (Typing.declareParams .empty head.params params s).log.findings <+:
        ((Typing.checkFn b u builder mark head body).run s).log.findings := by
  unfold Typing.checkFn at h ⊢
  split at h
  · rename_i arity params result hsignature
    obtain ⟨locals, -, hrest, hlog⟩ := Walking.bind_ok h
    obtain ⟨_, -, -, hlog'⟩ := Walking.bind_ok hrest
    rw [hlog', Walking.lift_run] at hlog
    refine ⟨arity, params, result, hsignature, ?_, ?_⟩
    · rw [hlog, Log.types_append, Log.types_append]
      exact (List.suffix_append _ _).trans (List.suffix_append _ _)
    · rw [hlog, Log.findings_append]
      exact List.prefix_append _ _
  · cases h

namespace Accepted

variable {b : Bundle} {i : Nat} {u : SourceUnit} {mark : Mark} {head : FnHead} {body : Block}

theorem fn_names_nodup (h : Accepted b i u mark head body) :
    ((Stmt.fnDecl mark head body).names.map Ident.span).Nodup :=
  ((names_sublist_stmtsNames h.declared).map Ident.span).nodup h.parsed.names_nodup

theorem regular (h : Accepted b i u mark head body) : body.regular = true :=
  (h.parsed.shapes h.declared).1

/-- The type of an accepted function is its signature, whose parameters were declared without a
finding. -/
theorem signature (h : Accepted b i u mark head body) : ∃ arity params result,
    u.functions.get? head.name.name = some (.fn arity params result) ∧
      fnParams u.table.get? mark head = paramBindings head.params params ∧
      (Typing.declareParams .empty head.params params ()).log.findings = [] := by
  obtain ⟨hok, htable, -⟩ := Bundle.table_of_check h.checked h.unit h.parsed.ids_nodup h.declared
  obtain ⟨arity, params, result, hsignature, ⟨types, htypes⟩, hfindings⟩ := signature_of_checkFn hok
  rw [h.clean, List.prefix_nil] at hfindings
  have hmark : u.table.get? mark.id = some (.fn arity params result) := by
    rw [htable mark.id (by simp [Stmt.ids]), ← htypes, TypeTable.get?_ofRecords_append]
    simp [TypeTable.ofRecords, TypeTable.get?]
  exact ⟨arity, params, result, hsignature, by simp only [fnParams, hmark], hfindings⟩

theorem params_nodup (h : Accepted b i u mark head body) :
    ((fnParams u.table.get? mark head).map (·.name.name)).Nodup := by
  obtain ⟨arity, params, result, -, hparams, hfindings⟩ := h.signature
  rw [hparams]
  exact (params_nodup_of_declareParams head.params params _ _ hfindings).1

theorem sites_nodup (h : Accepted b i u mark head body) {leaks : Bool} :
    (fnFlow u.table.get? leaks mark head body).sites.Nodup := by
  rw [Flow.sites_eq_map_subjects]
  exact ((subjects_fnFlow _ mark head body).map Ident.span).nodup h.fn_names_nodup

/-- The move check finds in an accepted function what following its flow finds, if names leak in the
flow. -/
theorem checkItem_eq_follow (h : Accepted b i u mark head body) :
    checkItem u.table.get? (.fnDecl mark head body) =
      ((fnFlow u.table.get? true mark head body).follow .start).2 :=
  walkFn_eq_follow h.regular ⟨h.fn_names_nodup, List.disjoint_nil_right _⟩ h.params_nodup

/-- What the move check finds at the places of an accepted function is what following its flow finds
there. -/
theorem mem_misuses_iff (h : Accepted b i u mark head body) {x : Misuse}
    (hx : x.span ∈ (fnFlow u.table.get? true mark head body).sites) :
    x ∈ u.misuses ↔ x ∈ ((fnFlow u.table.get? true mark head body).follow .start).2 := by
  have hspan : x.span ∈ (Stmt.fnDecl mark head body).names.map Ident.span := by
    rw [Flow.sites_eq_map_subjects] at hx
    exact ((subjects_fnFlow _ mark head body).map Ident.span).subset hx
  rw [SourceUnit.misuses,
    mem_flatMap_checkItem_iff u.table.get? h.declared h.parsed.names_nodup hspan,
    h.checkItem_eq_follow]

section Reports

variable {o : Occurrence} {d : Binding}

/-- A place that names a local is reported iff following the lexical flow reports it, if the updates
of loops agree about the local. -/
theorem reportedAt_iff (h : Accepted b i u mark head body)
    (ho : (o, some d) ∈ (flowFn u.table.get? mark head body).examined)
    (hagree : updatesAgree u.table.get? mark head body d.place = true) :
    (Flow.ReportedAt o.place u.misuses ↔
      Flow.ReportedAt o.place ((flowFn u.table.get? mark head body).follow .start).2) ∧
    ∀ x ∈ u.misuses, x.span = o.place → x.fault = o.fault := by
  have honly := eq_of_beq hagree
  -- The walk examines the same place for the same local.
  have hleaks : (o, some d) ∈ (fnFlow u.table.get? true mark head body).examined := by
    have hmem : (o, some d) ∈ ((flowFn u.table.get? mark head body).only d.place).examined := by
      rw [Flow.examined_only]
      exact List.mem_filter.2 ⟨ho, by simp⟩
    rw [← honly, Flow.examined_only] at hmem
    exact List.mem_of_mem_filter hmem
  have hmisuses {x : Misuse} (hspan : x.span = o.place) :
      x ∈ u.misuses ↔ x ∈ ((fnFlow u.table.get? true mark head body).follow .start).2 :=
    h.mem_misuses_iff (hspan ▸ Flow.mem_sites hleaks)
  refine ⟨?_, fun x hx hspan => ?_⟩
  · rw [← Flow.reportedAt_only ho h.sites_nodup, ← honly, Flow.reportedAt_only hleaks h.sites_nodup]
    exact exists_congr fun x => and_congr_left hmisuses
  · obtain ⟨o', d', ho', -, hspan', hfault, -⟩ := Flow.mem_follow ((hmisuses hspan).1 hx)
    have heq := Flow.examined_inj h.sites_nodup hleaks ho' (hspan.symm.trans hspan')
    rw [hfault, (Prod.mk.inj heq).1]

/-- A place is reported with the fault of its own, or not at all. -/
theorem reported_iff (h : Accepted b i u mark head body)
    (ho : (o, some d) ∈ (flowFn u.table.get? mark head body).examined)
    (hagree : updatesAgree u.table.get? mark head body d.place = true) :
    (∃ x ∈ u.misuses, x.span = o.place ∧ x.fault = o.fault) ↔
      Flow.ReportedAt o.place ((flowFn u.table.get? mark head body).follow .start).2 := by
  obtain ⟨hiff, hfault⟩ := h.reportedAt_iff ho hagree
  rw [← hiff]
  constructor
  · rintro ⟨x, hx, hspan, -⟩
    exact ⟨x, hx, hspan⟩
  · rintro ⟨x, hx, hspan⟩
    exact ⟨x, hx, hspan, hfault x hx hspan⟩

end Reports

end Accepted

/-! ## Accepted functions of a text -/

/-- Whether a text of one file is accepted and has a function with a property. -/
def acceptsFn (source : String) (p : SourceUnit → Mark → FnHead → Block → Bool) : Bool :=
  Bundle.acceptsTexts [("main.liam", source)] 0 fun u => u.anyFn (p u)

theorem exists_accepted {source : String} {p : SourceUnit → Mark → FnHead → Block → Bool}
    (h : acceptsFn source p = true) :
    ∃ b u mark head body, Bundle.Parsed b ∧ b.declare.2 = [] ∧
      Accepted b.declare.1 0 u mark head body ∧ p u mark head body = true := by
  obtain ⟨b, u, hparsed, hdeclare, hfault, hreports, hu, h⟩ := Bundle.exists_of_acceptsTexts h
  obtain ⟨mark, head, body, hitem, h⟩ := SourceUnit.exists_of_anyFn h
  have hfile := hparsed.file_of_check hu
  exact ⟨b, u, mark, head, body, hparsed, hdeclare, ⟨hfile, hfault, hu, hitem,
    Bundle.findings_of_check hfault hreports hu hfile.ids_nodup hitem⟩, h⟩

end Ownership

end Custody
