import Custody.Proofs.ReportPlaces

/-!
# Layout

Blanks, comments and line ends say nothing: two texts with the same tokens are the same program, at
other places. Every span that is read from a text, or joined from what was read, reaches from one
token to another one (`Span.Reaches`). A span answers to the span that reaches from the same token
to the same token in the other text (`Correspondence.byTokens`), so the theory of two runs side by
side applies: the trees are the same but for their spans, and all passes report the same at the same
tokens (`layout_unobservable`).
-/

set_option autoImplicit false

namespace Custody

/-! ## Spans from token to token -/

/-- The span from the start of one to the end of the other. -/
def Span.through (a b : Span) : Span := { a with stop := b.stop }

/-- A span reaches from the token with number `m` to the token with number `n`. -/
def Span.Reaches (tokens : List Token) (m n : Nat) (s : Span) : Prop :=
  ∃ first last, tokens[m]? = some first ∧ tokens[n]? = some last ∧ s = first.span.through last.span

/-- Two spans, of two lists of tokens, reach from the same token to the same token. -/
def Span.SameTokens (tokens tokens' : List Token) (s s' : Span) : Prop :=
  ∃ m n, s.Reaches tokens m n ∧ s'.Reaches tokens' m n

theorem Span.merge_of_le {a b c d e : Span} (h : a.start ≤ c.start)
    (hstop : max b.stop d.stop = e.stop) : (a.through b).merge (c.through d) = a.through e := by
  rw [merge, through, through, through]
  dsimp only
  rw [if_pos h, if_pos h, Nat.min_eq_left h, hstop]

theorem Span.merge_of_lt {a b c d e : Span} (h : c.start < a.start) (hfile : a.file = c.file)
    (hstop : max b.stop d.stop = e.stop) : (a.through b).merge (c.through d) = c.through e := by
  have hle := Nat.not_le.2 h
  rw [merge, through, through, through]
  dsimp only
  rw [if_neg hle, if_neg hle, Nat.min_eq_right (Nat.le_of_lt h), hfile, hstop]

section Order

variable {source : String} {file : Nat}

theorem start_lt_of_lt {m n : Nat} {t t' : Token} (ht : (tokenize source file)[m]? = some t)
    (ht' : (tokenize source file)[n]? = some t') (h : m < n) : t.span.start < t'.span.start := by
  obtain ⟨hm, rfl⟩ := List.getElem?_eq_some_iff.1 ht
  obtain ⟨hn, rfl⟩ := List.getElem?_eq_some_iff.1 ht'
  exact List.pairwise_iff_getElem.1 (Scanner.untilEof_start _ _).2 m n hm hn h

theorem stop_le_of_le {m n : Nat} {t t' : Token} (ht : (tokenize source file)[m]? = some t)
    (ht' : (tokenize source file)[n]? = some t') (h : m ≤ n) : t.span.stop ≤ t'.span.stop := by
  rcases Nat.lt_or_eq_of_le h with hlt | rfl
  · obtain ⟨hplaces, hapart⟩ := tokenize_places source file
    obtain ⟨⟨p, q, -, -, hle, hspan⟩, -⟩ := hplaces t' (List.mem_of_getElem? ht')
    obtain ⟨hm, rfl⟩ := List.getElem?_eq_some_iff.1 ht
    obtain ⟨hn, rfl⟩ := List.getElem?_eq_some_iff.1 ht'
    refine Nat.le_trans (List.pairwise_iff_getElem.1 hapart m n hm hn hlt) ?_
    rw [hspan]
    exact hle
  · rw [Option.some.inj (ht.symm.trans ht')]

/-- The join of two spans reaches from the first token of both to the last token of both. -/
theorem Span.Reaches.merge {a b : Span} {m n p q : Nat} (ha : a.Reaches (tokenize source file) m n)
    (hb : b.Reaches (tokenize source file) p q) :
    (a.merge b).Reaches (tokenize source file) (min m p) (max n q) := by
  obtain ⟨first, last, hfirst, hlast, rfl⟩ := ha
  obtain ⟨first', last', hfirst', hlast', rfl⟩ := hb
  have hfile {k : Nat} {t : Token} (ht : (tokenize source file)[k]? = some t) :
      t.span.file = file :=
    ((tokenize_places source file).1 t (List.mem_of_getElem? ht)).1.file_eq
  -- The later one of two tokens stops later.
  obtain ⟨final, hfinal, hstop⟩ : ∃ t, (tokenize source file)[max n q]? = some t ∧
      max last.span.stop last'.span.stop = t.span.stop := by
    rcases Nat.le_total n q with h | h
    · rw [Nat.max_eq_right h]
      exact ⟨last', hlast', Nat.max_eq_right (stop_le_of_le hlast hlast' h)⟩
    · rw [Nat.max_eq_left h]
      exact ⟨last, hlast, Nat.max_eq_left (stop_le_of_le hlast' hlast h)⟩
  rcases Nat.lt_or_ge p m with h | h
  · have hlt := start_lt_of_lt hfirst' hfirst h
    rw [Nat.min_eq_right (Nat.le_of_lt h)]
    refine ⟨first', final, hfirst', hfinal, ?_⟩
    exact merge_of_lt hlt ((hfile hfirst).trans (hfile hfirst').symm) hstop
  · have hle : first.span.start ≤ first'.span.start := by
      rcases Nat.lt_or_eq_of_le h with hlt | rfl
      · exact Nat.le_of_lt (start_lt_of_lt hfirst hfirst' hlt)
      · rw [Option.some.inj (hfirst.symm.trans hfirst')]
    rw [Nat.min_eq_left h]
    refine ⟨first, final, hfirst, hfinal, ?_⟩
    exact merge_of_le hle hstop

end Order

/-- Spans of the same tokens of two texts answer to each other. -/
def Correspondence.byTokens (source source' : String) (file : Nat) : Correspondence where
  name a a' :=
    ∃ k, ∃ t t' : Token, (tokenize source file)[k]? = some t ∧
    (tokenize source' file)[k]? = some t' ∧
    a = t.span ∧ a' = t'.span
  node := Span.SameTokens (tokenize source file) (tokenize source' file)
  near := Span.SameTokens (tokenize source file) (tokenize source' file)
  node_of_name := by
    rintro _ _ ⟨k, t, t', ht, ht', rfl, rfl⟩
    exact ⟨k, k, ⟨t, t, ht, ht, rfl⟩, ⟨t', t', ht', ht', rfl⟩⟩
  near_of_node h := h
  merge_name := by
    rintro a a' _ _ ⟨m, n, ha, ha'⟩ ⟨k, t, t', ht, ht', rfl, rfl⟩
    exact ⟨_, _, ha.merge ⟨t, t, ht, ht, rfl⟩, ha'.merge ⟨t', t', ht', ht', rfl⟩⟩
  merge_node := by
    rintro a a' b b' ⟨m, n, ha, ha'⟩ ⟨p, q, hb, hb'⟩
    exact ⟨_, _, ha.merge hb, ha'.merge hb'⟩

/-- Two tokens at one place are one token. -/
theorem index_eq_of_span {source : String} {file k l : Nat} {t t' : Token}
    (ht : (tokenize source file)[k]? = some t) (ht' : (tokenize source file)[l]? = some t')
    (h : t.span = t'.span) : k = l := by
  rcases Nat.lt_trichotomy k l with hlt | rfl | hlt
  · exact absurd (h ▸ start_lt_of_lt ht ht' hlt) (Nat.lt_irrefl _)
  · rfl
  · exact absurd (h ▸ start_lt_of_lt ht' ht hlt) (Nat.lt_irrefl _)

theorem Correspondence.byTokens_oneToOne (source source' : String) (file : Nat) :
    (byTokens source source' file).OneToOne := by
  rintro _ _ _ _ ⟨k, t, t', ht, ht', rfl, rfl⟩ ⟨l, s, s', hs, hs', rfl, rfl⟩
  constructor
  · intro h
    obtain rfl := index_eq_of_span ht hs h
    rw [Option.some.inj (ht'.symm.trans hs')]
  · intro h
    obtain rfl := index_eq_of_span ht' hs' h
    rw [Option.some.inj (ht.symm.trans hs)]

/-! ## Texts with the same tokens -/

/-- Two texts whose tokens have the same kinds and values, one by one. -/
def SameWording (source source' : String) : Prop :=
  (tokenize source' 0).map Token.symbol = (tokenize source 0).map Token.symbol

instance (source source' : String) : Decidable (SameWording source source') :=
  inferInstanceAs (Decidable (_ = _))

theorem SameWording.of_chars {source source' : String} {chars chars' : List Char}
    (hsource : source = String.ofList chars) (hsource' : source' = String.ofList chars')
    (h : (Scanner.untilEof (chars'.length + 1) ⟨0, .origin, chars'⟩).map Token.symbol =
      (Scanner.untilEof (chars.length + 1) ⟨0, .origin, chars⟩).map Token.symbol) :
    SameWording source source' := by
  rw [SameWording, hsource, hsource', tokenize_ofList, tokenize_ofList, h]

/-- Kinds and values do not depend on the number of the file. -/
theorem symbols_tokenize (source : String) (i : Nat) :
    (tokenize source i).map Token.symbol = (tokenize source 0).map Token.symbol := by
  rw [tokenize_refile source i 0, List.map_map]
  rfl

namespace SameWording

variable {source source' : String}

theorem tokens_resemble (h : SameWording source source') (i : Nat) :
    List.Forall₂ (Token.Resembles (.byTokens source source' i)) (tokenize source i)
      (tokenize source' i) := by
  have hsymbols : (tokenize source i).map Token.symbol = (tokenize source' i).map Token.symbol :=
    (symbols_tokenize source i).trans (h.symm.trans (symbols_tokenize source' i).symm)
  have hlength : (tokenize source i).length = (tokenize source' i).length := by
    simpa using congrArg List.length hsymbols
  refine List.forall₂_iff_get.2 ⟨hlength, fun k hk hk' => ?_⟩
  have ht := List.getElem?_eq_getElem hk
  have ht' := List.getElem?_eq_getElem hk'
  have hsymbol : ((tokenize source i).get ⟨k, hk⟩).symbol =
      ((tokenize source' i).get ⟨k, hk'⟩).symbol := by
    have hget := congrArg (·[k]?) hsymbols
    rw [List.getElem?_map, List.getElem?_map, ht, ht'] at hget
    exact Option.some.inj hget
  have hname := (⟨k, _, _, ht, ht', rfl, rfl⟩ :
    (Correspondence.byTokens source source' i).name _ _)
  exact ⟨.inl (congrArg Symbol.kind hsymbol).symm, (congrArg Symbol.value hsymbol).symm,
    Correspondence.near_of_name _ hname, fun _ => hname⟩

/-- Both texts are read, or neither is. -/
theorem parseSource_resembles (h : SameWording source source') (i : Nat) :
    Option.Rel (ExceptRel (List.Forall₂ (ParseError.Resembles (.byTokens source source' i)))
      (SourceFile.Resembles (.byTokens source source' i))) (parseSource source i)
        (parseSource source' i) :=
  parseTokens_mirrors rfl (h.tokens_resemble i)

end SameWording

/-! ## Bundles in two layouts -/

/-- A unit in two layouts. -/
structure SourceUnit.Relaid (u u' : SourceUnit) : Prop where
  tokens : u.tokens = tokenize u.source u.id
  tokens' : u'.tokens = tokenize u'.source u.id
  resembles : u.Resembles (.byTokens u.source u'.source u.id) u'

/-- A bundle in two layouts. -/
structure Bundle.Relaid (b b' : Bundle) : Prop where
  ids : ∀ i u, b.get? i = some u → u.id = i
  units : List.Forall₂ SourceUnit.Relaid b.units b'.units

theorem SourceFile.Resembles.importLinks {ρ : Correspondence} {f f' : SourceFile}
    (h : f.Resembles ρ f') :
    List.Forall₂ (ImportLink.Resembles ρ) (f.items.filterMap SourceUnit.importLink?)
      (f'.items.filterMap SourceUnit.importLink?) := by
  refine List.rel_filterMap (fun s s' hs => ?_) h.items
  cases hs with
  | importDecl _ hdecl => exact .some ⟨hdecl.localName.name, hdecl.path, rfl, hdecl.pathSpan⟩
  | _ => exact .none

theorem SourceUnit.relaid_fresh {i : Nat} {source source' : String} {tree tree' : SourceFile}
    (path : Path) (h : tree.Resembles (.byTokens source source' i) tree') :
    (fresh i path source (tokenize source i) tree).Relaid
      (fresh i path source' (tokenize source' i) tree') :=
  ⟨rfl, rfl, rfl, rfl, h, h.importLinks, rfl, rfl, rfl, .nil, rfl⟩

theorem findIdx?_of_forall₂ {α β : Type} {R : α → β → Prop} {p : α → Bool} {q : β → Bool}
    (hpq : ∀ a b, R a b → q b = p a) {xs : List α} {ys : List β} (h : List.Forall₂ R xs ys) :
    ys.findIdx? q = xs.findIdx? p := by
  induction h with
  | nil => rfl
  | cons hx _ ih => rw [List.findIdx?_cons, List.findIdx?_cons, hpq _ _ hx, ih]

namespace Bundle

variable {b b' : Bundle}

theorem relaid_empty : Bundle.empty.Relaid .empty := ⟨nofun, .nil⟩

theorem Relaid.size (h : b.Relaid b') : b'.size = b.size := h.units.length_eq.symm

theorem Relaid.indexOf? (h : b.Relaid b') (path : Path) : b'.indexOf? path = b.indexOf? path :=
  findIdx?_of_forall₂ (fun _ _ hu => congrArg (·.same path) hu.resembles.path) h.units

theorem Relaid.addUnit (h : b.Relaid b') {source source' : String} {tree tree' : SourceFile}
    (htree : tree.Resembles (.byTokens source source' b.size) tree') (path : Path) :
    (b.addUnit path source (tokenize source b.size) tree).2.Relaid
      (b'.addUnit path source' (tokenize source' b.size) tree').2 := by
  rw [Bundle.addUnit, Bundle.addUnit, h.indexOf?, h.size]
  cases b.indexOf? path with
  | some existing => exact h
  | none =>
    refine ⟨fun i u hu => ?_,
      List.rel_append h.units (.cons (SourceUnit.relaid_fresh path htree) .nil)⟩
    rcases get?_concat hu with hu | ⟨rfl, rfl⟩
    · exact h.ids i u hu
    · rfl

theorem Relaid.linkByPath (h : b.Relaid b') : b.linkByPath.Relaid b'.linkByPath := by
  refine ⟨fun i u hu => ?_, ?_⟩
  · rw [get?, Bundle.linkByPath, List.getElem?_map] at hu
    obtain ⟨v, hv, rfl⟩ := Option.map_eq_some_iff.1 hu
    exact h.ids i v hv
  · refine List.forall₂_map_left_iff.2
      (List.forall₂_map_right_iff.2 (h.units.imp fun u u' hu => ?_))
    refine ⟨hu.tokens, hu.tokens', { hu.resembles with imports := ?_ }⟩
    refine List.forall₂_map_left_iff.2 (List.forall₂_map_right_iff.2 ?_)
    refine hu.resembles.imports.imp fun l l' hl => ?_
    rw [hl.path, h.indexOf?]
    cases b.indexOf? ⟨l.path⟩ with
    | none => exact hl
    | some target => exact ⟨hl.localName, rfl, rfl, hl.span⟩

/-- Two lists of files with the same paths, whose texts have the same tokens. -/
def SameFiles (texts texts' : List (String × String)) : Prop :=
  List.Forall₂ (fun t t' => t'.1 = t.1 ∧ SameWording t.2 t'.2) texts texts'

theorem addTexts_relaid {texts texts' : List (String × String)} (h : SameFiles texts texts')
    (hb : b.Relaid b') : Option.Rel Relaid (addTexts texts b) (addTexts texts' b') := by
  induction h generalizing b b' with
  | nil => exact .some hb
  | @cons t t' texts texts' ht _ ih =>
    obtain ⟨path, source⟩ := t
    obtain ⟨_, source'⟩ := t'
    obtain ⟨rfl, hwording⟩ := ht
    have hread := hwording.parseSource_resembles b.size
    rw [addTexts, addTexts, hb.size]
    generalize parseSource source b.size = read at hread
    generalize parseSource source' b.size = read' at hread
    cases hread with
    | none => exact .none
    | some hread =>
      cases hread with
      | error herrors => exact .none
      | ok htree => exact ih (hb.addUnit htree _)

theorem ofTexts_relaid {texts texts' : List (String × String)} (h : SameFiles texts texts') :
    Option.Rel Relaid (ofTexts texts) (ofTexts texts') := by
  have hadded := addTexts_relaid h relaid_empty
  rw [ofTexts, ofTexts]
  generalize addTexts texts .empty = added at hadded
  generalize addTexts texts' .empty = added' at hadded
  cases hadded with
  | none => exact .none
  | some hb => exact .some hb.linkByPath

/-- Two bundles whose units have the same paths and texts with the same tokens, one by one, and
whose imports lead to the same units. -/
def LinkedAlike (b b' : Bundle) : Prop :=
  List.Forall₂ (fun u u' => u'.path = u.path ∧ SameWording u.source u'.source ∧
    u'.imports.map ImportLink.target = u.imports.map ImportLink.target) b.units b'.units

instance (b b' : Bundle) : Decidable (b.LinkedAlike b') :=
  inferInstanceAs (Decidable (List.Forall₂ ..))

/-- Links of the same imports are the same if they lead to the same units. -/
theorem importLinks_resemble {ρ : Correspondence} {links links' : List ImportLink}
    (h : List.Forall₂ (ImportLink.Resembles ρ) (links.map ImportLink.unresolved)
      (links'.map ImportLink.unresolved))
    (htargets : links'.map ImportLink.target = links.map ImportLink.target) :
    List.Forall₂ (ImportLink.Resembles ρ) links links' := by
  rw [List.forall₂_map_left_iff, List.forall₂_map_right_iff] at h
  induction h with
  | nil => exact .nil
  | cons hl _ ih =>
    obtain ⟨htarget, htargets⟩ := List.cons.inj htargets
    exact .cons ⟨hl.localName, hl.path, htarget, hl.span⟩ (ih htargets)

/-- Texts with the same tokens that are read, in two bundles, and linked alike. -/
theorem FromTexts.relaid (h : b.FromTexts) (h' : b'.FromTexts) (halike : b.LinkedAlike b') :
    b.Relaid b' := by
  refine ⟨fun i u hu => (h i u hu).undeclared.id, ?_⟩
  obtain ⟨hlength, hunits⟩ := List.forall₂_iff_get.1 halike
  refine List.forall₂_iff_get.2 ⟨hlength, fun i hi hi' => ?_⟩
  obtain ⟨hpath, hwording, htargets⟩ := hunits i hi hi'
  have hu : (b.units.get ⟨i, hi⟩).FromText i := h i _ (List.getElem?_eq_getElem hi)
  have hu' : (b'.units.get ⟨i, hi'⟩).FromText i := h' i _ (List.getElem?_eq_getElem hi')
  revert hpath hwording htargets hu hu'
  generalize b.units.get ⟨i, hi⟩ = u
  generalize b'.units.get ⟨i, hi'⟩ = u'
  intro hpath hwording htargets hu hu'
  obtain rfl := hu.undeclared.id
  have htree : u.file.Resembles (.byTokens u.source u'.source u.id) u'.file := by
    have hread := hwording.parseSource_resembles u.id
    rw [hu.tree.2, hu'.tree.2] at hread
    cases hread with
    | some hread =>
      cases hread with
      | ok htree => exact htree
  have himports := htree.importLinks
  rw [← hu.imports, ← hu'.imports] at himports
  refine ⟨hu.tokens, hu'.tokens, hu'.undeclared.id, hpath, htree,
    importLinks_resemble himports htargets, hu'.undeclared.types.trans hu.undeclared.types.symm,
    hu'.undeclared.functions.trans hu.undeclared.functions.symm,
    hu'.undeclared.namespaces.trans hu.undeclared.namespaces.symm, ?_,
    hu'.table.trans hu.table.symm⟩
  rw [hu.undeclared.structs, hu'.undeclared.structs]
  exact .nil

/-! ## Passes over two layouts -/

/-- Spans of the same tokens of the two units with one number answer to each other. -/
def tokenwise (b b' : Bundle) (i : Nat) : Correspondence :=
  .byTokens ((b.get? i).elim "" SourceUnit.source) ((b'.get? i).elim "" SourceUnit.source) i

/-- Every unit is there in the other layout. -/
theorem Relaid.unit (h : b.Relaid b') {i : Nat} {u : SourceUnit} (hu : b.get? i = some u) :
    ∃ u', b'.get? i = some u' ∧ u.Relaid u' ∧
      b.tokenwise b' i = .byTokens u.source u'.source u.id := by
  have hrel : Option.Rel SourceUnit.Relaid (b.get? i) (b'.get? i) :=
    rel_getElem?_of_forall₂ h.units i
  rw [hu] at hrel
  generalize hu' : b'.get? i = found at hrel
  cases hrel with
  | @some _ u' hunit =>
    refine ⟨u', rfl, hunit, ?_⟩
    rw [tokenwise, hu, hu', h.ids i u hu]
    rfl

theorem Relaid.resembles (h : b.Relaid b') : b.Resembles (b.tokenwise b') b' := by
  refine List.forall₂_iff_get.2 ⟨h.units.length_eq, fun k hk hk' => ?_⟩
  have hget : b.get? k = some (b.units.get ⟨k, hk⟩) := List.getElem?_eq_getElem hk
  have hget' : b'.get? k = some (b'.units.get ⟨k, hk'⟩) := List.getElem?_eq_getElem hk'
  obtain ⟨u', hu', hunit, htokens⟩ := h.unit hget
  obtain rfl := Option.some.inj (hget'.symm.trans hu')
  rw [h.ids k _ hget, htokens]
  exact hunit.resembles

end Bundle

/-- The same report about the same unit of two bundles, at the same tokens. -/
structure Report.Alike (b b' : Bundle) (r r' : Report) : Prop where
  stage : r'.stage = r.stage
  file : r'.file = r.file
  fault : r'.fault = r.fault
  places : ∃ i u u', b.get? i = some u ∧ b'.get? i = some u' ∧ u.path = r.file ∧
    r.span.SameTokens u.tokens u'.tokens r'.span ∧
    List.Forall₂ (fun n n' => n'.message = n.message ∧ n.span.SameTokens u.tokens u'.tokens n'.span)
      r.notes r'.notes

namespace Bundle

variable {b b' : Bundle}

theorem Relaid.alike (h : b.Relaid b') {r r' : Report}
    (hr : r.Answers (b.tokenwise b') b.owners r') : r.Alike b b' r' := by
  obtain ⟨i, howner, hr⟩ := hr
  obtain ⟨u, hmem, hsame⟩ := List.mem_map.1 howner
  obtain ⟨rfl, hpath⟩ := Prod.mk.inj hsame
  obtain ⟨j, hj⟩ := List.mem_iff_getElem?.1 hmem
  have hget : b.get? j = some u := hj
  obtain rfl := h.ids j u hget
  obtain ⟨u', hget', hunit, htokens⟩ := h.unit hget
  rw [htokens] at hr
  refine ⟨hr.stage, hr.file, hr.fault, u.id, u, u', hget, hget', hpath, ?_⟩
  rw [hunit.tokens, hunit.tokens']
  exact ⟨hr.span, hr.notes.imp fun n n' hn => ⟨hn.message, hn.span⟩⟩

/-- What the passes tell about a program in two layouts. -/
structure SameOutcome (b b' : Bundle) : Prop where
  trees : List.Forall₂ (fun u u' => u'.path = u.path ∧
    u.file.Resembles (.byTokens u.source u'.source u.id) u'.file) b.units b'.units
  declared : List.Forall₂ (Report.Alike b b') b.declare.2 b'.declare.2
  checked : List.Forall₂ (Report.Alike b b') b.declare.1.check.reports b'.declare.1.check.reports
  fault : Option.Rel (fun f f' => f'.message = f.message)
    b.declare.1.check.fault b'.declare.1.check.fault
  moves : List.Forall₂ (Report.Alike b b') b.declare.1.check.bundle.checkMoves
    b'.declare.1.check.bundle.checkMoves

theorem Relaid.sameOutcome (h : b.Relaid b') : b.SameOutcome b' := by
  obtain ⟨hdeclared, hreports⟩ := h.resembles.declare
  have hchecked := hdeclared.check
  have hmoves :=
    checkMoves_mirrors (fun _ => Correspondence.byTokens_oneToOne _ _ _) hchecked.bundle
  have howners : b.declare.1.owners = b.owners := owners_of_asRead (b.asRead_declareWith .direct ())
  have howners' : b.declare.1.check.bundle.owners = b.declare.1.owners :=
    owners_of_asRead (b.declare.1.asRead_checkWith .direct ())
  rw [howners', howners] at hmoves
  have hreports' := hchecked.reports
  rw [howners] at hreports'
  refine ⟨h.units.imp fun u u' hu => ⟨hu.resembles.path, hu.resembles.file⟩,
    hreports.imp fun _ _ => h.alike, hreports'.imp fun _ _ => h.alike, ?_, hmoves.imp fun _ _ =>
      h.alike⟩
  refine rel_imp ?_ hchecked.fault
  rintro fault fault' ⟨_, _, hfault⟩
  cases hfault <;> rfl

/-- Layout is unobservable. Two lists of files with the same paths, whose texts have the same tokens
but for their places, are read alike: each text is rejected with the same messages or read as the
same tree, with the same numbers of nodes. The passes then report the same in the same order, about
the same files, from the same tokens to the same tokens. So they do for any two bundles of units
that were read, as by a load, if the texts have the same tokens and the imports lead to the same
units. -/
theorem layout_unobservable :
    (∀ texts texts' : List (String × String), SameFiles texts texts' →
      List.Forall₂ (fun t t' => ∀ i, Option.Rel
        (ExceptRel (fun errors errors' =>
            errors'.map ParseError.message = errors.map ParseError.message)
          (SourceFile.Resembles (.byTokens t.2 t'.2 i)))
        (parseSource t.2 i) (parseSource t'.2 i)) texts texts' ∧
      Option.Rel SameOutcome (ofTexts texts) (ofTexts texts')) ∧
    ∀ b b' : Bundle, b.FromTexts → b'.FromTexts → b.LinkedAlike b' → b.SameOutcome b' := by
  refine ⟨fun texts texts' h => ⟨?_, ?_⟩,
    fun b b' hb hb' halike => (hb.relaid hb' halike).sameOutcome⟩
  · refine List.Forall₂.imp (fun t t' ht i => ?_) h
    refine rel_imp ?_ (ht.2.parseSource_resembles i)
    rintro _ _ (htree | herrors)
    · exact .ok htree
    · refine .error ?_
      induction herrors with
      | nil => rfl
      | cons he _ ih =>
        exact congrArg₂ List.cons (congrArg SyntaxFault.message (he.fault_eq rfl)) ih
  · exact rel_imp (fun _ _ hb => hb.sameOutcome) (ofTexts_relaid h)

section Texts

-- The characters of a text make a deep list.
set_option maxRecDepth 2000

/-- Two files with a mistake for each of the passes. -/
def plain : List (String × String) :=
  [("lib.liam", "fn take(p: ~u64) u64 { return 1u64; }"),
    ("main.liam", "import \"lib.liam\" l; struct S { } struct S { }
fn f(p: ~u64) bool { let n := l.take(p); l.take(p); return n; }")]

/-- The same files in another layout. -/
def spread : List (String × String) :=
  [("lib.liam", "// takes a pointer
fn take(p: ~u64) u64
  { return 1u64; }"),
    ("main.liam", "/* räumt auf */ import \"lib.liam\" l;
struct S {}
struct S {}
fn f (p : ~ u64) bool
{
  let n := l.take(p);
  l . take (p);
  return n;
}")]

/-- Such files in a directory, loaded from the last one on. -/
def loadedFrom (texts : List (String × String)) : Bundle :=
  let tree : FileTree :=
    { files := texts.map fun t => (["w", t.1], t.2.toUTF8), dirs := [], workingDir := ["w"] }
  (Loading.load (Compilation.unchanging tree.access) ⟨"main.liam"⟩ ()).1.1

theorem layout_unobservable_spread : SameFiles plain spread ∧
    (∃ b b', ofTexts plain = some b ∧ ofTexts spread = some b' ∧ b.declare.2.length = 1 ∧
      b.declare.1.check.reports.length = 1 ∧ b.declare.1.check.bundle.checkMoves.length = 1 ∧
      b.SameOutcome b') ∧
    (loadedFrom plain).declare.1.check.bundle.checkMoves.length = 1 ∧
    (loadedFrom plain).SameOutcome (loadedFrom spread) := by
  have hfiles : SameFiles plain spread :=
    .cons ⟨rfl, .of_chars rfl rfl (by decide +kernel)⟩
      (.cons ⟨rfl, .of_chars rfl rfl (by decide +kernel)⟩ .nil)
  have hcounts : ((ofTexts plain).any fun b => b.declare.2.length = 1 ∧
      b.declare.1.check.reports.length = 1 ∧
      b.declare.1.check.bundle.checkMoves.length = 1) = true :=
    any_ofTexts (.cons rfl (.cons rfl .nil)) (by decide +kernel)
  obtain ⟨b, hb, hcounts⟩ := (Option.any_eq_true _ _).1 hcounts
  obtain ⟨hdeclared, hchecked, hmoves⟩ := of_decide_eq_true hcounts
  have hrel := (layout_unobservable.1 plain spread hfiles).2
  rw [hb] at hrel
  have hloaded (texts : List (String × String)) : (loadedFrom texts).FromTexts :=
    (Loading.load_leaves _ _ ()).bundle
  have houtcome := layout_unobservable.2 _ _ (hloaded plain) (hloaded spread) (by decide +kernel)
  generalize hb' : ofTexts spread = read at hrel
  cases hrel with
  | @some _ b' houtcome' =>
    exact ⟨hfiles, ⟨b, b', hb, rfl, hdeclared, hchecked, hmoves, houtcome'⟩, by decide +kernel,
      houtcome⟩

end Texts

end Bundle

end Custody
