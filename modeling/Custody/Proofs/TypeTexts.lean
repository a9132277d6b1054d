import Custody.Proofs.Respacing
import Custody.Proofs.SpelledExprs

/-!
# Types are read back from their texts

With whatever cannot extend a name behind it, a scanner takes the text of a type (`TypeExpr.text`)
as the plain spelling of the type (`TypeExpr.scans_text`), and from that spelling the type is read
back (`Grammar.typeExpr_text`). Of the names in the type it is enough that each, on its own, is a
name.
-/

set_option autoImplicit false

namespace Custody

open Style

/-! ## Names -/

/-- On its own, the name is one identifier that covers all of it. -/
def Ident.StandsAlone (name : Ident) : Prop :=
  (tokenize name.name 0).dropLast.map (fun t => (t.kind, t.slice name.name.toList)) =
    [(.identifier, name.name.toList)]

instance (name : Ident) : Decidable name.StandsAlone := inferInstanceAs (Decidable (_ = _))

namespace TypeExpr

mutual
/-- All names in a type, aliases too. -/
def names : TypeExpr → List Ident
  | named _ space name args => space.toList ++ name :: namesAll args
  | pointer _ _ pointee => pointee.names
  | array _ _ element => element.names
  | slice _ element => element.names

/-- All names in some types. -/
def namesAll : List TypeExpr → List Ident
  | [] => []
  | t :: ts => t.names ++ namesAll ts
end

theorem names_subset_namesAll {t : TypeExpr} {ts : List TypeExpr} (h : t ∈ ts) :
    t.names ⊆ namesAll ts := by
  induction ts with
  | nil => cases h
  | cons t' ts ih =>
    rcases List.mem_cons.1 h with rfl | h
    · exact List.subset_append_left _ _
    · exact List.subset_append_of_subset_right _ (ih h)

end TypeExpr

/-! ## Scanning the parts of a type -/

/-- What follows cannot extend a name. -/
def EndsName (rest : List Char) : Prop := ∀ c ∈ rest.head?, Text.isWordChar c = false

variable {rest : List Char}

theorem endsName_cons {c : Char} (h : Text.isWordChar c = false) : EndsName (c :: rest) := by
  rintro _ ⟨⟩
  exact h

theorem skipGap_stop {c : Char} {cs : List Char} (hblank : Text.isBlank c = false)
    (hslash : c ≠ '/') (p : Pos) : skipGap .blanks p (c :: cs) = .clear p (c :: cs) := by
  rw [skipGap, if_neg (by simp [hblank])]
  · exact fun _ h => absurd h hslash
  · exact fun _ h => absurd h hslash

theorem Ident.StandsAlone.word {name : Ident} (h : name.StandsAlone) :
    Word name.name.toList name.symbol := by
  obtain ⟨front, eof, htokens, heof, -⟩ := tokenize_ends name.name 0
  rw [StandsAlone, htokens, List.dropLast_concat, List.map_eq_singleton_iff] at h
  obtain ⟨t, rfl, ht⟩ := h
  obtain ⟨hkind, hslice⟩ := Prod.mk.inj ht
  have herror : ∀ t ∈ tokenize name.name 0, t.kind ≠ .error := by simp [htokens, hkind, heof]
  have hmem : t ∈ tokenize name.name 0 := by simp [htokens]
  have hsymbol : t.symbol.kind = .identifier := hkind
  rcases Scanner.untilEof_words [] rfl herror t hmem with ⟨hend, -⟩ | hw
  · rw [hkind] at hend
    cases hend
  · have hword : Word (t.slice name.name.toList) t.symbol := hw
    rw [hslice] at hword
    have hvalue := hword.plain (by rw [hsymbol]; nofun) (by rw [hsymbol]; nofun)
    rw [String.ofList_toList] at hvalue
    rwa [show t.symbol = name.symbol from congrArg₂ Symbol.mk hkind hvalue] at hword

/-- A name that stands alone is read as that name, in front of whatever cannot extend it. -/
theorem Ident.StandsAlone.read {name : Ident} (h : name.StandsAlone) :
    ∃ c tail, name.name.toList = c :: tail ∧ Text.isBlank c = false ∧ Text.isWordChar c = true ∧
      ∀ rest, EndsName rest →
        Lexeme.read c (tail ++ rest) = ⟨.identifier, name.name, c :: tail, rest⟩ := by
  obtain ⟨c, tail, hname, hblank, -, hread⟩ := h.word.reads
  have hread := hread [] nofun
  rw [List.append_nil, hname] at hread
  have hword := Lexeme.read_eq_word (congrArg Lexeme.kind hread)
  rw [hword] at hread
  have htext : (c :: tail).takeWhile Text.isWordChar = c :: tail := congrArg Lexeme.text hread
  refine ⟨c, tail, hname, hblank,
    List.all_eq_true.1 List.all_takeWhile c (htext ▸ List.mem_cons_self), ?_⟩
  intro rest hrest
  have happend := Lexeme.word_append (c :: tail) hrest
  rw [hread] at happend
  rw [hword]
  exact happend

theorem scans_name {name : Ident} (h : name.StandsAlone) (hrest : EndsName rest) :
    Scans (name.name.toList ++ rest) (plain.name name) rest := by
  obtain ⟨c, tail, hname, hblank, hword, hread⟩ := h.read
  have hslash : c ≠ '/' := by
    rintro rfl
    exact absurd hword (by decide)
  rw [hname]
  exact .read (skipGap_stop hblank hslash) (hread rest hrest)

/-- A sign of one character, if what follows makes it no sign of two. -/
theorem scans_sign {c : Char} {kind : TokenKind} (hkind : Lexeme.single? c = some kind)
    (hc : Lexeme.StartsSign c ∧ Text.isBlank c = false ∧ c ≠ '/')
    (hdouble : ∀ d ∈ rest.head?, Lexeme.double? c d = none) :
    Scans (c :: rest) (plain.kind kind) rest := by
  obtain ⟨hsign, hblank, hslash⟩ := hc
  have hread : Lexeme.read c ([] ++ rest) = ⟨kind.symbol.kind, kind.symbol.value, [c], rest⟩ := by
    rw [TokenKind.symbol, Lexeme.spelling?_of_single? hkind]
    exact hsign.read_single (Lexeme.doubleAt?_eq_none hdouble) hkind
  exact .read (skipGap_stop hblank hslash) hread

/-- The signs of a type but the dot, which starts no sign of two characters with any of them. -/
theorem scans_delimiter {c : Char} {kind : TokenKind}
    (h : (c, kind) ∈ [('[', .lBracket), (']', .rBracket), (',', .comma), ('~', .tilde),
      ('^', .caret)]) :
    Scans (c :: rest) (plain.kind kind) rest := by
  simp only [List.mem_cons, List.not_mem_nil, or_false, Prod.mk.injEq] at h
  rcases h with ⟨rfl, rfl⟩ | ⟨rfl, rfl⟩ | ⟨rfl, rfl⟩ | ⟨rfl, rfl⟩ | ⟨rfl, rfl⟩ <;>
    exact scans_sign rfl ⟨⟨by decide, by decide, by decide⟩, by decide, by decide⟩ fun _ _ => rfl

/-- The length of an array, in front of the bracket that follows it. -/
theorem scans_length (n : Nat) :
    Scans ((toString n).toList ++ ']' :: rest) (plain.numeral "" n) (']' :: rest) := by
  obtain ⟨digits, htext, hne, hdigits⟩ : ∃ digits, toString n = String.ofList digits ∧ digits ≠ [] ∧
      ∀ d ∈ digits, d.isDigit = true :=
    ⟨_, Nat.toString_eq_ofList_toDigits, Nat.toDigits_ne_nil, fun d =>
      Nat.isDigit_of_mem_toDigits (b := 10) (by decide) (by decide)⟩
  obtain ⟨c, tail, rfl⟩ := List.exists_cons_of_ne_nil hne
  have hparts : Lexeme.NumberParts (c :: tail) [] [] :=
    ⟨fun d hd => by simp [Lexeme.isDigitOrGap, hdigits d hd], .inl rfl, nofun, nofun⟩
  have hvalue : (c :: tail).filter (· != '_') = c :: tail := by
    refine List.filter_eq_self.2 fun d hd => bne_iff_ne.2 ?_
    rintro rfl
    exact absurd (hdigits '_' hd) (by decide)
  have hdigit := hdigits c List.mem_cons_self
  have hother : c ≠ '/' ∧ c ≠ '"' := by
    constructor <;> rintro rfl <;> exact absurd hdigit (by decide)
  have hblank : Text.isBlank c = false := by
    have hrange : 48 ≤ c.toNat ∧ c.toNat ≤ 57 := Char.isDigit_iff_toNat.1 hdigit
    simp [Text.isBlank, Text.inRanges]
    omega
  have hread : Lexeme.read c (tail ++ ']' :: rest) =
      ⟨.number, "" ++ toString n, c :: tail, ']' :: rest⟩ := by
    have hnumber : Lexeme.number (c :: tail ++ [] ++ [] ++ ']' :: rest) = _ :=
      Lexeme.number_append hparts (by simp)
    rw [Lexeme.read, if_neg hother.2, if_pos hdigit, htext, String.empty_append]
    simpa [Lexeme.numberOf, hvalue] using hnumber
  rw [htext, String.toList_ofList]
  exact .read (skipGap_stop hblank hother.1) hread

/-! ## Scanning types -/

/-- A name with its alias, if it has one. -/
theorem scans_named {space : Option Ident} (hspace : ∀ s ∈ space, s.StandsAlone) {name : Ident}
    (hname : name.StandsAlone) (hrest : EndsName rest) :
    Scans ((TypeExpr.spaceText space).toList ++ (name.name.toList ++ rest))
      (space.elim 1 (fun s => plain.name s * plain.kind .dot) * plain.name name) rest := by
  refine .trans ?_ (scans_name hname hrest)
  cases space with
  | none => exact .done _
  | some s =>
    -- The dot in front of the name starts no range.
    have hdot : ∀ d ∈ (name.name.toList ++ rest).head?, Lexeme.double? '.' d = none := by
      obtain ⟨c, tail, hlist, -, hword, -⟩ := hname.read
      rw [hlist]
      rintro _ ⟨⟩
      unfold Lexeme.double?
      split <;> simp_all +decide
    rw [TypeExpr.spaceText, String.toList_append, List.append_assoc]
    exact (scans_name (hspace s rfl) (endsName_cons (c := '.') (by decide))).trans
      (scans_sign rfl ⟨⟨by decide, by decide, by decide⟩, by decide, by decide⟩ hdot)

/-- Types with commas between them. -/
theorem scans_listed {t : TypeExpr} {ts : List TypeExpr} (ht : ∀ rest, EndsName rest →
      Scans (t.text.toList ++ rest) (t.write plain) rest)
    (hts : ∀ u ∈ ts, ∀ rest, EndsName rest → Scans (u.text.toList ++ rest) (u.write plain) rest)
    (hrest : EndsName rest) :
    Scans (t.text.toList ++ ((TypeExpr.tailText ts).toList ++ rest))
      (plain.listed ((t :: ts).map (TypeExpr.write plain))) rest := by
  induction ts generalizing t with
  | nil => exact (ht rest hrest).trans (.done rest)
  | cons u ts ih =>
    obtain ⟨hu, hts⟩ := List.forall_mem_cons.1 hts
    simp only [TypeExpr.tailText, String.toList_append, List.append_assoc]
    exact (ht _ (endsName_cons (c := ',') (by decide))).trans
      ((scans_delimiter (c := ',') (by decide)).trans (ih hu hts).blank)

/-- The text of a type is taken as its plain spelling. -/
theorem TypeExpr.scans_text (t : TypeExpr) (hnames : ∀ name ∈ t.names, name.StandsAlone)
    (hrest : EndsName rest) : Scans (t.text.toList ++ rest) (t.write plain) rest := by
  induction t using TypeExpr.induction_on_children generalizing rest with
  | step t ih =>
    cases t with
    | named mark space name args =>
      rw [names, List.forall_mem_append, List.forall_mem_cons] at hnames
      obtain ⟨hspace, hname, hargs⟩ := hnames
      have hspace : ∀ s ∈ space, s.StandsAlone := fun s hs => hspace s (Option.mem_toList.2 hs)
      cases args with
      | nil =>
        rw [text, String.toList_append, List.append_assoc]
        exact (scans_named hspace hname hrest).trans (.done rest)
      | cons arg args =>
        have hall (t : TypeExpr) (ht : t ∈ arg :: args) (rest : List Char)
            (hrest : EndsName rest) :=
          ih t ht (fun x hx => hargs x (names_subset_namesAll ht hx)) hrest
        obtain ⟨harg, hargs⟩ := List.forall_mem_cons.1 hall
        simp only [text, String.toList_append, List.append_assoc]
        rw [write, writeAll_eq_map, typeArgs, one_mul]
        exact (scans_named hspace hname (endsName_cons (c := '[') (by decide))).trans
          (((scans_delimiter (c := '[') (by decide)).trans
            (scans_listed harg hargs (endsName_cons (by decide)))).trans
              (scans_delimiter (by decide)))
    | pointer mark kind pointee =>
      have hpointee := ih pointee (List.mem_singleton.2 rfl) hnames hrest
      rw [text, String.toList_append, List.append_assoc]
      cases kind with
      | owned => exact (scans_delimiter (c := '~') (by decide)).trans hpointee
      | weak => exact (scans_delimiter (c := '^') (by decide)).trans hpointee
    | array mark length element =>
      have helement := ih element (List.mem_singleton.2 rfl) hnames hrest
      simp only [text, String.toList_append, List.append_assoc]
      exact (((scans_delimiter (c := '[') (by decide)).trans (scans_length length)).trans
        (scans_delimiter (by decide))).trans helement
    | slice mark element =>
      have helement := ih element (List.mem_singleton.2 rfl) hnames hrest
      rw [text, String.toList_append, List.append_assoc]
      exact ((scans_delimiter (c := '[') (by decide)).trans
        (scans_delimiter (c := ']') (by decide))).trans helement

theorem TypeExpr.tokenize_text {t : TypeExpr} (hnames : ∀ name ∈ t.names, name.StandsAlone)
    (file : Nat) :
    (tokenize t.text file).map Token.symbol = (t.write plain).toList ++ [Scanner.endSymbol] := by
  have h : Scans (t.text.toList ++ []) (t.write plain) [] := t.scans_text hnames nofun
  rw [List.append_nil] at h
  exact h.untilEof rfl rfl (Nat.lt_succ_self _)

/-! ## Reading types from their texts -/

/-- From the tokens of its text a type is read back up to spans and numbers, and no token but the
end is left. -/
theorem Grammar.typeExpr_text {t : TypeExpr} (hnames : ∀ name ∈ t.names, name.StandsAlone)
    (hshape : t.wellShaped = true) {file fuel : Nat} {c : Cursor}
    (hc : c.rest = tokenize t.text file) (hfuel : c.rest.length ≤ fuel) :
    ∃ t' c' eof, typeExpr fuel c = some (.ok t', c') ∧ t'.bare = t.bare ∧ c'.rest = [eof] ∧
      eof.kind = .eof := by
  obtain ⟨tokens, last, htokens, hspelled, hlast⟩ :=
    List.map_eq_append_iff.1 (t.tokenize_text hnames file)
  obtain ⟨eof, rfl, heof⟩ := List.map_eq_singleton_iff.1 hlast
  have hkind : eof.kind = .eof := congrArg Symbol.kind heof
  rw [htokens] at hc
  rw [hc, List.length_append] at hfuel
  have hlenient : Spelled tokens (t.write lenient) := by
    rw [Spelled, hspelled]
    exact Among.typeExpr t
  obtain ⟨q, c', ⟨t', hbare, rfl⟩, hrest, hread⟩ :=
    typeExpr_yields t hshape fuel tokens [eof] hlenient
    (Nat.le_of_add_right_le hfuel) (closes_cons hkind (by decide)) c hc
  exact ⟨t', c', eof, hread, hbare, hrest, hkind⟩

/-- A type with an alias, nested arguments, pointers of both kinds, slices, and arrays of the
smallest and the largest length. -/
def nestedType : TypeExpr :=
  let type (name : String) (args : List TypeExpr) : TypeExpr :=
    .named default none ⟨name, default⟩ args
  let entry : TypeExpr := .named default (some ⟨"m", default⟩) ⟨"Entry", default⟩
    [.slice default (type "é" []), .pointer default .weak (type "u8" [type "_0" []])]
  .array default 18446744073709551615
    (.pointer default .owned (type "Map" [entry, .array default 0 (type "T" [])]))

theorem Grammar.typeExpr_text_nestedType :
    nestedType.text = "[18446744073709551615]~Map[m.Entry[[]é, ^u8[_0]], [0]T]" ∧
    (∀ name ∈ nestedType.names, name.StandsAlone) ∧ nestedType.wellShaped = true ∧
    ∃ t' c' eof, typeExpr 30 ⟨⟨.eof, default, ""⟩, tokenize nestedType.text 7, 0⟩ =
      some (.ok t', c') ∧ t'.bare = nestedType.bare ∧ c'.rest = [eof] ∧ eof.kind = .eof := by
  have hnames : ∀ name ∈ nestedType.names, name.StandsAlone := by decide +kernel
  exact ⟨by decide +kernel, hnames, rfl, typeExpr_text hnames rfl rfl (by decide +kernel)⟩

end Custody
