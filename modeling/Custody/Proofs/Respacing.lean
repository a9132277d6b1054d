import Custody.Proofs.StringSpellings
import Custody.Proofs.Tiling

/-!
# Words with single spaces between them

Each lexeme but an error is a word of its own: with a space behind it, or at the end of a text, the
same characters are read as the same lexeme (`Lexeme.word_read`). So nothing of what stands between
the tokens of a text matters for them. Its words with single spaces between them have the same
symbols (`tokenize_respaced`).
-/

set_option autoImplicit false

namespace Custody

/-- A text that ends here or goes on with a space. -/
def Spaced (rest : List Char) : Prop := ∀ c ∈ rest.head?, c = ' '

namespace Lexeme

variable {c : Char} {cs rest : List Char}

/-- Characters of a sort are taken up to the first one of another sort. -/
theorem span_append {p : Char → Bool} {taken rest : List Char} (htaken : ∀ c ∈ taken, p c = true)
    (hrest : ∀ c ∈ rest.head?, p c = false) :
    (taken ++ rest).takeWhile p = taken ∧ (taken ++ rest).dropWhile p = rest := by
  rw [List.takeWhile_append_of_pos htaken, List.dropWhile_append_of_pos htaken]
  cases rest with
  | nil => simp
  | cons c rest => simp [hrest c rfl]

/-! ## Strings -/

/-- A string is read up to its closing quote, whatever follows. -/
theorem string_append (h : (string cs).kind ≠ .error) {tail : List Char}
    (htail : (string cs).text = '"' :: tail)
    (rest : List Char) : string (tail ++ rest) = { string cs with rest := rest } := by
  obtain ⟨value, text, behind, hspelling, rfl⟩ := exists_string_spelling h
  rw [string_spelling hspelling] at htail ⊢
  obtain rfl : text ++ ['"'] = tail := (List.cons.inj htail).2
  rw [List.append_assoc]
  exact string_spelling hspelling rest

/-! ## Numbers -/

/-- The parts of a number literal. Digits belong to what stands in front of the format. -/
structure NumberParts (whole part format : List Char) : Prop where
  whole : ∀ c ∈ whole, isDigitOrGap c = true
  part : part = [] ∨ ∃ d more, part = '.' :: d :: more ∧ d.isDigit = true ∧
    ∀ c ∈ d :: more, isDigitOrGap c = true
  alphanum : ∀ c ∈ format, c.isAlphanum = true
  head : ∀ c ∈ format.head?, isDigitOrGap c = false

/-- The number literal of some parts, with a text behind it. -/
def numberOf (whole part format rest : List Char) : Lexeme :=
  ⟨.number, String.ofList ((whole ++ part).filter (· != '_') ++ format),
    whole ++ part ++ format, rest⟩

theorem not_mem_head?_dropWhile {p : Char → Bool} : ∀ c ∈ (cs.dropWhile p).head?, p c = false := by
  intro c hc
  have hhead := List.head?_dropWhile_not p cs
  rwa [hc] at hhead

/-- A number literal has such parts. -/
theorem number_parts (cs : List Char) :
    ∃ whole part format rest, NumberParts whole part format ∧
      number cs = numberOf whole part format rest := by
  have hwhole := @List.all_takeWhile _ isDigitOrGap cs
  have hafter := @not_mem_head?_dropWhile cs isDigitOrGap
  unfold number
  generalize cs.takeWhile isDigitOrGap = whole at hwhole ⊢
  generalize cs.dropWhile isDigitOrGap = after at hafter ⊢
  have hpart : ∃ part behind, fraction after = (part, behind) ∧
      (part = [] ∨ ∃ d more, part = '.' :: d :: more ∧
      d.isDigit = true ∧ ∀ c ∈ d :: more, isDigitOrGap c = true) ∧
        ∀ c ∈ behind.head?, isDigitOrGap c = false := by
    fun_cases fraction after with
    | case1 d cs hdigit =>
      have htake : (d :: cs).takeWhile isDigitOrGap = d :: cs.takeWhile isDigitOrGap := by
        simp [isDigitOrGap, hdigit]
      refine ⟨_, _, rfl, .inr ⟨d, cs.takeWhile isDigitOrGap, congrArg _ htake, hdigit, ?_⟩,
        not_mem_head?_dropWhile⟩
      rw [← htake]
      exact List.all_eq_true.1 List.all_takeWhile
    | case2 | case3 => exact ⟨_, _, rfl, .inl rfl, hafter⟩
  obtain ⟨part, behind, hfraction, hpart, hbehind⟩ := hpart
  refine ⟨whole, part, behind.takeWhile Char.isAlphanum, behind.dropWhile Char.isAlphanum,
    ⟨List.all_eq_true.1 hwhole, hpart, List.all_eq_true.1 List.all_takeWhile, ?_⟩, ?_⟩
  · intro c hc
    rw [List.head?_takeWhile] at hc
    exact hbehind c (Option.mem_filter_iff.1 hc).1
  · rw [hfraction]
    rfl

/-- The parts of a number literal are read as that literal, if what follows has no letter, digit,
underscore or dot at its start. -/
theorem number_append {whole part format : List Char} (h : NumberParts whole part format)
    (hrest : ∀ c ∈ rest.head?, c.isAlphanum = false ∧ c ≠ '_' ∧ c ≠ '.') :
    number (whole ++ part ++ format ++ rest) = numberOf whole part format rest := by
  -- No part goes on into the next one: each starts with a character that the one before it does not
  -- take.
  have hbehind : ∀ c ∈ (format ++ rest).head?, isDigitOrGap c = false ∧ c ≠ '.' := by
    intro c hc
    cases format with
    | nil =>
      obtain ⟨halphanum, hgap, hdot⟩ := hrest c hc
      rw [Char.isAlphanum, Bool.or_eq_false_iff] at halphanum
      exact ⟨by simp [isDigitOrGap, halphanum.2, hgap], hdot⟩
    | cons d format =>
      cases hc
      refine ⟨h.head c rfl, ?_⟩
      rintro rfl
      exact absurd (h.alphanum '.' List.mem_cons_self) (by decide)
  have hfraction : fraction (part ++ (format ++ rest)) = (part, format ++ rest) ∧
      ∀ c ∈ (part ++ (format ++ rest)).head?, isDigitOrGap c = false := by
    rcases h.part with rfl | ⟨d, more, rfl, hdigit, hmore⟩
    · refine ⟨?_, fun c hc => (hbehind c hc).1⟩
      rw [List.nil_append]
      generalize format ++ rest = text at hbehind
      fun_cases fraction text with
      | case1 d cs hdigit => exact absurd rfl (hbehind '.' rfl).2
      | case2 | case3 => rfl
    · obtain ⟨htake, hdrop⟩ := span_append hmore fun c hc => (hbehind c hc).1
      constructor
      · show fraction ('.' :: d :: (more ++ (format ++ rest))) = _
        rw [fraction, if_pos hdigit, ← List.cons_append, htake, hdrop]
      · intro c hc
        cases hc
        decide
  obtain ⟨htake, hdrop⟩ := span_append h.whole hfraction.2
  obtain ⟨htake', hdrop'⟩ := span_append h.alphanum fun c hc => (hrest c hc).1
  rw [number, List.append_assoc, List.append_assoc, htake, hdrop, hfraction.1]
  dsimp only
  rw [htake', hdrop']
  rfl

/-! ## Words -/

/-- A name or reserved word is read up to the first character that belongs to no name. -/
theorem word_append (cs : List Char) (hrest : ∀ c ∈ rest.head?, Text.isWordChar c = false) :
    word ((word cs).text ++ rest) = { word cs with rest := rest } := by
  obtain ⟨htake, hdrop⟩ :=
    span_append (List.all_eq_true.1 (@List.all_takeWhile _ Text.isWordChar cs)) hrest
  show word (cs.takeWhile Text.isWordChar ++ rest) = _
  rw [word, htake, hdrop]
  rfl

/-- What starts an operator of two characters is one of its own, and no space belongs to one. -/
theorem double?_cases {d : Char} {kind : TokenKind} (h : double? c d = some kind) :
    single? c ≠ none ∧ d ≠ ' ' := by
  unfold double? at h
  split at h <;> cases h <;> decide

theorem doubleAt?_eq_none (h : ∀ d ∈ cs.head?, double? c d = none) : doubleAt? c cs = none := by
  cases cs with
  | nil => rfl
  | cons d cs => rw [doubleAt?, h d rfl, Option.map_none]

/-- A character that starts no string, no number and no name of plain letters. -/
structure StartsSign (c : Char) : Prop where
  quote : c ≠ '"'
  digit : ¬ c.isDigit = true
  letter : ¬ (c.isAlpha || c == '_') = true

namespace StartsSign

theorem read_double (hc : StartsSign c) {lexeme : Lexeme} (h : doubleAt? c cs = some lexeme) :
    read c cs = lexeme := by
  rw [read, if_neg hc.quote, if_neg hc.digit, if_neg hc.letter, h]

theorem read_single (hc : StartsSign c) (h : doubleAt? c cs = none) {kind : TokenKind}
    (hkind : single? c = some kind) : read c cs = fixed kind [c] cs := by
  rw [read, if_neg hc.quote, if_neg hc.digit, if_neg hc.letter, h, hkind]

theorem read_letter (hc : StartsSign c) (h : single? c = none) : read c cs =
    if Text.isLetter c then word (c :: cs) else ⟨.error,
      "Unexpected character: " ++ c.toString, [c], cs⟩ := by
  have hnone : doubleAt? c cs = none := by
    refine doubleAt?_eq_none fun d _ => ?_
    cases hkind : double? c d with
    | none => rfl
    | some => exact absurd h (double?_cases hkind).1
  rw [read, if_neg hc.quote, if_neg hc.digit, if_neg hc.letter, hnone, h]

/-- An operator or delimiter is read again from its characters. -/
theorem read_append (hc : StartsSign c) {kind : TokenKind} (hkind : single? c = some kind)
    {tail : List Char} (htail : (read c cs).text = c :: tail) (hrest : Spaced rest) :
    read c (tail ++ rest) = { read c cs with rest := rest } := by
  cases hdouble : doubleAt? c cs with
  | none =>
    rw [hc.read_single hdouble hkind] at htail ⊢
    obtain rfl : tail = [] := (List.cons.inj htail).2.symm
    refine hc.read_single (doubleAt?_eq_none fun d hd => ?_) hkind
    cases hsecond : double? c d with
    | none => rfl
    | some => exact absurd (hrest d hd) (double?_cases hsecond).2
  | some lexeme =>
    cases cs with
    | nil => cases hdouble
    | cons d cs =>
      obtain ⟨kind', hsecond, rfl⟩ := Option.map_eq_some_iff.1 hdouble
      rw [hc.read_double hdouble] at htail ⊢
      obtain rfl : tail = [d] := (List.cons.inj htail).2.symm
      refine hc.read_double ?_
      rw [List.singleton_append, doubleAt?, hsecond]
      rfl

end StartsSign

/-- The first character of a lexeme decides on its sort, but for operators of one or two
characters. -/
theorem read_sort (c : Char) :
    (c = '"' ∧ ∀ cs, read c cs = string cs) ∨ (∀ cs, read c cs = number (c :: cs)) ∨
      (∀ cs, read c cs = word (c :: cs)) ∨ (StartsSign c ∧ ∃ kind, single? c = some kind) ∨
      ∀ cs, (read c cs).kind = .error := by
  by_cases hquote : c = '"'
  · exact .inl ⟨hquote, fun cs => if_pos hquote⟩
  by_cases hdigit : c.isDigit = true
  · exact .inr (.inl fun cs => by rw [read, if_neg hquote, if_pos hdigit])
  by_cases hletter : (c.isAlpha || c == '_') = true
  · exact .inr (.inr (.inl fun cs => by rw [read, if_neg hquote, if_neg hdigit, if_pos hletter]))
  have hc : StartsSign c := ⟨hquote, hdigit, hletter⟩
  cases hsingle : single? c with
  | some kind => exact .inr (.inr (.inr (.inl ⟨hc, kind, rfl⟩)))
  | none =>
    by_cases hunicode : Text.isLetter c = true
    · exact .inr (.inr (.inl fun cs => by rw [hc.read_letter hsingle, if_pos hunicode]))
    · exact .inr (.inr (.inr (.inr fun cs => by rw [hc.read_letter hsingle, if_neg hunicode])))

/-- A lexeme but an error is read again from its characters alone, with a space behind them or at
the end. -/
theorem read_append (h : (read c cs).kind ≠ .error) {tail : List Char}
    (htail : (read c cs).text = c :: tail)
    (hrest : Spaced rest) : read c (tail ++ rest) = { read c cs with rest := rest } := by
  rcases read_sort c with ⟨rfl, hread⟩ | hread | hread | ⟨hc, kind, hkind⟩ | hread
  · rw [hread] at h htail
    rw [hread, hread]
    exact string_append h htail rest
  · obtain ⟨whole, part, format, rest', hparts, hnumber⟩ := number_parts (c :: cs)
    rw [hread, hnumber] at htail
    rw [hread, hread, hnumber, ← List.cons_append, ← htail]
    exact number_append hparts fun d hd => hrest d hd ▸ by decide
  · rw [hread] at htail
    rw [hread, hread, ← List.cons_append, ← htail]
    exact word_append (c :: cs) fun d hd => hrest d hd ▸ by decide
  · exact hc.read_append hkind htail hrest
  · exact absurd (hread cs) h

/-- What starts one name starts names and reserved words only. -/
theorem read_eq_word (h : (read c cs).kind = .identifier) (cs' : List Char) :
    read c cs' = word (c :: cs') := by
  rcases read_sort c with ⟨-, hread⟩ | hread | hread | ⟨hc, kind, hkind⟩ | hread
  · rw [hread] at h
    unfold string at h
    dsimp only at h
    split at h <;> cases h
  · rw [hread] at h
    cases h
  · exact hread cs'
  · cases hdouble : doubleAt? c cs with
    | none =>
      rw [hc.read_single hdouble hkind] at h
      obtain rfl : kind = .identifier := h
      cases spelling?_of_single? hkind
    | some lexeme =>
      cases cs with
      | nil => cases hdouble
      | cons d cs =>
        rw [hc.read_double hdouble] at h
        obtain ⟨kind', hsecond, rfl⟩ := Option.map_eq_some_iff.1 hdouble
        obtain rfl : kind' = .identifier := h
        cases spelling?_of_double? hsecond
  · rw [hread] at h
    cases h

/-- The value of a lexeme is its text, but for strings and numbers. A number has its text without
underscores. -/
theorem read_value (c : Char) (cs : List Char) (h : (read c cs).kind ≠ .error) :
    ((read c cs).kind ≠ .string → (read c cs).kind ≠ .number →
      (read c cs).value = String.ofList (read c cs).text) ∧
      ((read c cs).kind = .number →
        (read c cs).value = String.ofList ((read c cs).text.filter (· != '_'))) := by
  have hspelled {kind : TokenKind} {text : String} (hkind : kind.spelling? = some text) :
      kind ≠ .number := by
    rintro rfl
    cases hkind
  rcases read_cases c cs with
      ⟨-, hread⟩ | ⟨-, hread⟩ | ⟨-, hread⟩ | ⟨kind, text, rest, hkind, -, hread⟩ | ⟨_, hread⟩ <;>
    rw [hread] at h ⊢
  · have hkind : (string cs).kind = .string := by
      unfold string at h ⊢
      dsimp only at h ⊢
      split
      · rfl
      · rename_i hopen
        simp [hopen] at h
    exact ⟨fun hstring => absurd hkind hstring,
      fun hnumber => by rw [hkind] at hnumber; cases hnumber⟩
  · obtain ⟨whole, part, format, rest, hparts, hnumber⟩ := number_parts (c :: cs)
    refine ⟨fun _ hkind => absurd rfl hkind, fun _ => ?_⟩
    have hformat : format.filter (· != '_') = format := by
      refine List.filter_eq_self.2 fun d hd => bne_iff_ne.2 ?_
      rintro rfl
      exact absurd (hparts.alphanum '_' hd) (by decide)
    simp [hnumber, numberOf, hformat]
  · refine ⟨fun _ _ => rfl, fun hnumber => ?_⟩
    cases hkeyword : TokenKind.keyword? (String.ofList ((c :: cs).takeWhile Text.isWordChar)) with
    | none =>
      rw [word, hkeyword] at hnumber
      cases hnumber
    | some kind =>
      rw [word, hkeyword] at hnumber
      exact absurd hnumber (hspelled (TokenKind.spelling?_of_keyword? hkeyword))
  · exact ⟨fun _ _ => rfl, fun hnumber => absurd hnumber (hspelled hkind)⟩
  · exact absurd rfl h

end Lexeme

/-! ## Words of a text -/

/-- A word with its symbol. With a space behind it or at the end of a text, it is read as that
symbol. -/
structure Word (w : List Char) (s : Symbol) : Prop where
  reads : ∃ c tail, w = c :: tail ∧ Text.isBlank c = false ∧ (c = '/' → tail = []) ∧
    ∀ rest, Spaced rest → Lexeme.read c (tail ++ rest) = ⟨s.kind, s.value, w, rest⟩
  kind : s.kind ≠ .eof
  plain : s.kind ≠ .string → s.kind ≠ .number → s.value = String.ofList w
  number : s.kind = .number → s.value = String.ofList (w.filter (· != '_'))

theorem Lexeme.word_read {c : Char} {cs : List Char} (hblank : Text.isBlank c = false)
    (h : (read c cs).kind ≠ .error) : Word (read c cs).text (read c cs).symbol := by
  obtain ⟨tail, htail⟩ : ∃ tail, (read c cs).text = c :: tail := by
    have htext := read_text_append_rest c cs
    cases hlexeme : (read c cs).text with
    | nil => exact absurd hlexeme (read_text_ne_nil c cs)
    | cons d tail =>
      rw [hlexeme] at htext
      exact ⟨tail, by rw [(List.cons.inj htext).1]⟩
  obtain ⟨hplain, hnumber⟩ := read_value c cs h
  refine ⟨⟨c, tail, htail, hblank, ?_, fun rest hrest => read_append h htail hrest⟩,
    read_kind_ne_eof c cs, hplain, hnumber⟩
  rintro rfl
  have hslash : StartsSign '/' := ⟨by decide, by decide, by decide⟩
  rw [hslash.read_single (doubleAt?_eq_none fun d _ => rfl) rfl] at htail
  exact (List.cons.inj htail).2.symm

/-- What a gap ends in front of is no blank. -/
theorem skipGap_head {mode : GapMode} {p q : Pos} {c : Char} {cs rest : List Char}
    (h : skipGap mode p cs = .clear q (c :: rest)) : Text.isBlank c = false := by
  fun_induction skipGap mode p cs with
  | case1 | case6 | case8 => cases h
  | case2 p cs ih | case3 p cs ih | case4 p d cs _ _ _ ih | case7 p d cs ih | case9 opened p cs ih
  | case10 opened p d cs _ ih => exact ih h
  | case5 p d cs _ _ hblank =>
    cases h
    simpa using hblank

namespace Scanner

variable {s : Scanner}

/-- A token but `eof` and an error is a word of the text. -/
theorem next_word (heof : s.next.1.kind ≠ .eof) (herror : s.next.1.kind ≠ .error) :
    ∃ gap w, s.rest = gap ++ (w ++ s.next.2.rest) ∧ s.next.2.pos = (s.pos.pass gap).pass w ∧
      s.next.1.span = (s.pos.pass gap).spanTo ((s.pos.pass gap).pass w) s.file ∧
        Word w s.next.1.symbol := by
  have hskips := skipGap_skips .blanks s.pos s.rest
  unfold next at heof herror ⊢
  cases hskip : skipGap .blanks s.pos s.rest with
  | unclosed opened stop =>
    rw [hskip] at herror
    exact absurd rfl herror
  | clear q rest =>
    rw [hskip] at hskips heof herror
    obtain ⟨gap, hrest, rfl, -⟩ := hskips
    cases rest with
    | nil => exact absurd rfl heof
    | cons c cs =>
      exact ⟨gap, (Lexeme.read c cs).text, by rw [Lexeme.read_text_append_rest, hrest], rfl, rfl,
        Lexeme.word_read (skipGap_head hskip) herror⟩

/-- The symbol at the end of every text. -/
def endSymbol : Symbol := ⟨.eof, ""⟩

theorem next_eof (h : s.next.1.kind = .eof) :
    s.next.1.symbol = endSymbol ∧ s.next.1.span.start = s.next.1.span.stop := by
  rcases s.next_cases with ⟨gap, -, -, hnext⟩ | ⟨gap, word, -, -, -, hkind, -⟩
  · rw [hnext]
    exact ⟨rfl, rfl⟩
  · exact absurd h hkind

theorem untilEof_last (h : s.next.1.kind = .eof) (fuel : Nat) :
    s.untilEof (fuel + 1) = [s.next.1] := if_pos h

theorem untilEof_more (h : s.next.1.kind ≠ .eof) (fuel : Nat) :
    s.untilEof (fuel + 1) = s.next.1 :: s.next.2.untilEof fuel := if_neg h

/-- A space in front changes nothing but places. -/
theorem next_blank {cs : List Char} (hs : s.rest = ' ' :: cs) :
    s.next = next { s with pos := s.pos.step ' ', rest := cs } := by
  unfold next
  rw [hs, skipGap, if_pos (by decide)]
  · exact fun _ h => absurd h (by decide)
  · exact fun _ h => absurd h (by decide)

end Scanner

/-! ## Rows of symbols -/

/-- In front of the first text a scanner takes the row of symbols, and then it stands in front of
the second. -/
inductive Scans : List Char → FreeMonoid Symbol → List Char → Prop where
  | done (rest : List Char) : Scans rest 1 rest
  | blank {cs rest : List Char} {row : FreeMonoid Symbol} (h : Scans cs row rest) : Scans
      (' ' :: cs) row rest
  | lexeme {c : Char} {cs rest : List Char} {row : FreeMonoid Symbol}
      (hstart : ∀ p, skipGap .blanks p (c :: cs) = .clear p (c :: cs))
      (h : Scans (Lexeme.read c cs).rest row rest) :
      Scans (c :: cs) (.of (Lexeme.read c cs).symbol * row) rest

namespace Scans

variable {cs mid rest : List Char} {row row' : FreeMonoid Symbol}

theorem trans (h : Scans cs row mid) (h' : Scans mid row' rest) : Scans cs (row * row') rest := by
  induction h with
  | done => rwa [one_mul]
  | blank _ ih => exact (ih h').blank
  | lexeme hstart _ ih =>
    rw [mul_assoc]
    exact (ih h').lexeme hstart

theorem read {c : Char} {tail text : List Char} {symbol : Symbol}
    (hstart : ∀ p, skipGap .blanks p (c :: (tail ++ rest)) = .clear p (c :: (tail ++ rest)))
    (hread : Lexeme.read c (tail ++ rest) = ⟨symbol.kind, symbol.value, text, rest⟩) :
    Scans (c :: (tail ++ rest)) (.of symbol) rest := by
  have h := Scans.lexeme hstart (.done _)
  rwa [hread, mul_one] at h

/-- To the end of the text, a scanner takes the row and then the end. -/
theorem untilEof (h : Scans cs row rest) (hrest : rest = []) {s : Scanner} (hs : s.rest = cs)
    {fuel : Nat} (hfuel : cs.length < fuel) :
    (s.untilEof fuel).map Token.symbol = row.toList ++ [Scanner.endSymbol] := by
  obtain ⟨fuel, rfl⟩ : ∃ n, fuel = n + 1 := ⟨fuel - 1, by omega⟩
  induction h generalizing s fuel with
  | done =>
    have hkind : s.next.1.kind = .eof := by rw [Scanner.next, hs, hrest, skipGap]
    rw [Scanner.untilEof_last hkind, List.map_singleton, (Scanner.next_eof hkind).1]
    rfl
  | @blank cs _ _ _ ih =>
    rw [Scanner.untilEof, Scanner.next_blank hs]
    exact ih hrest (s := { s with pos := s.pos.step ' ', rest := cs }) rfl fuel
      (Nat.lt_of_succ_lt hfuel)
  | @lexeme c cs rest row hstart _ ih =>
    have hnext : s.next.1.symbol = (Lexeme.read c cs).symbol ∧
        s.next.2.rest = (Lexeme.read c cs).rest := by
      rw [Scanner.next, hs, hstart]
      exact ⟨rfl, rfl⟩
    have hkind : s.next.1.symbol.kind ≠ .eof := by
      rw [hnext.1]
      exact Lexeme.read_kind_ne_eof c cs
    have hlt := s.next_rest_lt hkind
    rw [hs, hnext.2] at hlt
    obtain ⟨fuel, rfl⟩ : ∃ n, fuel = n + 1 := ⟨fuel - 1, by omega⟩
    rw [Scanner.untilEof_more hkind, List.map_cons, hnext.1, ih hrest hnext.2 _ (by omega)]
    rfl

end Scans

theorem spaced_words (words : List (List Char)) : Spaced (words.flatMap (' ' :: ·)) := by
  cases words with
  | nil => exact fun c hc => by cases hc
  | cons w words => exact fun c hc => (Option.some.inj hc).symm

theorem Scanner.intercalate_space (words : List (List Char)) :
    [' '].intercalate words = (words.flatMap (' ' :: ·)).tail := by
  induction words with
  | nil => rfl
  | cons w words ih =>
    cases words with
    | nil => simp
    | cons w' words =>
      rw [List.intercalate_cons_cons, ih]
      simp

/-- A word with a space behind it, or at the end, is taken as its symbol. -/
theorem Word.scans {w rest : List Char} {symbol : Symbol} (h : Word w symbol)
    (hrest : Spaced rest) : Scans (w ++ rest) (.of symbol) rest := by
  obtain ⟨c, tail, rfl, hblank, hslash, hread⟩ := h.reads
  refine .read (fun p => ?_) (hread rest hrest)
  -- A slash stands alone, so that it opens no comment.
  have hcomment {d : Char} {cs : List Char} (hd : d ≠ ' ') (hc : c = '/') : tail ++
      rest ≠ d :: cs := by
    rw [hslash hc]
    rintro rfl
    exact hd (hrest d rfl)
  rw [skipGap, if_neg (by simp [hblank])]
  · exact fun cs => hcomment (by decide)
  · exact fun cs => hcomment (by decide)

theorem scans_spaced {words : List (List Char)} {symbols : List Symbol}
    (h : List.Forall₂ Word words symbols) :
    Scans (words.flatMap (' ' :: ·)) (.ofList symbols) [] := by
  induction h with
  | nil => exact .done []
  | cons hw _ ih => exact ((hw.scans (spaced_words _)).trans ih).blank

/-- From words with single spaces in front of them, the first of which may be left out, a scanner
takes one after the other. -/
theorem Scanner.untilEof_of_words {s : Scanner} {words : List (List Char)} {symbols : List Symbol}
    (h : List.Forall₂ Word words symbols) {fuel : Nat}
    (hs : s.rest = (words.flatMap (' ' :: ·)).tail ∨ s.rest = words.flatMap (' ' :: ·))
    (hfuel : s.rest.length < fuel) :
    (s.untilEof fuel).map Token.symbol = symbols ++ [endSymbol] := by
  rcases hs with hs | hs <;> rw [hs] at hfuel
  · cases h with
    | nil => exact (Scans.done []).untilEof rfl hs hfuel
    | cons hw h => exact ((hw.scans (spaced_words _)).trans (scans_spaced h)).untilEof rfl hs hfuel
  · exact (scans_spaced h).untilEof rfl hs hfuel

/-! ## Texts -/

/-- The characters that a token covers. -/
def Token.slice (text : List Char) (t : Token) : List Char :=
  textBetween text t.span.start t.span.stop

/-- Tokens cover words of the text. What a scanner has passed before is `passed`. -/
theorem Scanner.untilEof_words (passed : List Char) {s : Scanner} {fuel : Nat}
    (hpos : s.pos = .pass .origin passed)
    (herror : ∀ t ∈ s.untilEof fuel, t.kind ≠ .error) : ∀ t ∈ s.untilEof fuel,
      t.kind = .eof ∧ t.symbol = endSymbol ∧ t.slice (passed ++ s.rest) = [] ∨
        Word (t.slice (passed ++ s.rest)) t.symbol := by
  induction fuel generalizing s passed with
  | zero => exact fun t ht => absurd ht List.not_mem_nil
  | succ fuel ih =>
    by_cases hkind : s.next.1.kind = .eof
    · rw [untilEof_last hkind, List.forall_mem_singleton]
      obtain ⟨hsymbol, hspan⟩ := next_eof hkind
      refine .inl ⟨hkind, hsymbol, ?_⟩
      rw [Token.slice, textBetween, hspan, List.drop_length]
    · rw [untilEof_more hkind] at herror ⊢
      obtain ⟨hfirst, hbehind⟩ := List.forall_mem_cons.1 herror
      obtain ⟨gap, w, hrest, hpos', hspan, hw⟩ := next_word hkind hfirst
      rw [hrest, ← List.append_assoc]
      have hstart : s.pos.pass gap = .pass .origin (passed ++ gap) := by rw [Pos.pass_append, hpos]
      refine List.forall_mem_cons.2 ⟨.inr ?_, ?_⟩
      · rw [Token.slice, hspan, hstart]
        show Word (textBetween _ (Pos.origin.pass (passed ++ gap)).offset
          ((Pos.origin.pass (passed ++ gap)).pass w).offset) _
        rw [textBetween_append]
        exact hw
      · rw [← List.append_assoc]
        exact ih _ (by rw [hpos', hstart, ← Pos.pass_append]) hbehind

/-- The texts of all tokens but `eof`, with a single space between each two of them. -/
def respaced (source : String) (file : Nat) : String :=
  String.ofList ([' '].intercalate
    (((tokenize source file).filter fun t => t.kind != .eof).map (Token.slice source.toList)))

/-- In a text without errors, what stands between the tokens does not matter: their texts with
single spaces between them have the same symbols. The value of a token is its text, but for strings,
and for numbers, which leave underscores out. -/
theorem tokenize_respaced {source : String} {file : Nat}
    (h : ∀ t ∈ tokenize source file, t.kind ≠ .error) (file' : Nat) :
    (tokenize (respaced source file) file').map Token.symbol =
      (tokenize source file).map Token.symbol ∧
    ∀ t ∈ tokenize source file,
      (t.kind ≠ .string → t.kind ≠ .number → t.value = String.ofList (t.slice source.toList)) ∧
      (t.kind = .number → t.value = String.ofList ((t.slice source.toList).filter (· != '_'))) := by
  have hwords : ∀ t ∈ tokenize source file,
      t.kind = .eof ∧ t.symbol = Scanner.endSymbol ∧ t.slice source.toList = [] ∨
        Word (t.slice source.toList) t.symbol := Scanner.untilEof_words [] rfl h
  obtain ⟨front, eof, hsource, heof, hfront⟩ := tokenize_ends source file
  rw [respaced]
  rw [hsource] at hwords ⊢
  constructor
  · have hfilter : (front ++ [eof]).filter (fun t => t.kind != .eof) = front := by
      rw [List.filter_append, List.filter_eq_self.2 fun t ht => bne_iff_ne.2 (hfront t ht).1]
      simp [heof]
    -- Each slice is a word of its own, whatever follows behind a space.
    have hforall : List.Forall₂ Word (front.map (Token.slice source.toList))
        (front.map Token.symbol) := by
      rw [List.forall₂_map_left_iff, List.forall₂_map_right_iff, List.forall₂_same]
      intro t ht
      rcases hwords t (List.mem_append_left _ ht) with ⟨hkind, -⟩ | hw
      · exact absurd hkind (hfront t ht).1
      · exact hw
    have hend : eof.symbol = Scanner.endSymbol := by
      rcases hwords eof (List.mem_append_right _ List.mem_cons_self) with ⟨-, hsymbol, -⟩ | hw
      · exact hsymbol
      · exact absurd heof hw.kind
    rw [hfilter, Scanner.intercalate_space, List.map_append, List.map_singleton, hend]
    exact Scanner.untilEof_of_words hforall (.inl String.toList_ofList) (Nat.lt_succ_self _)
  · intro t ht
    rcases hwords t ht with ⟨hkind, hsymbol, hslice⟩ | hw
    · rw [hslice]
      refine ⟨fun _ _ => congrArg Symbol.value hsymbol, fun hnumber => ?_⟩
      rw [hkind] at hnumber
      cases hnumber
    · exact ⟨hw.plain, hw.number⟩

/-- Tokens right behind each other: a range, a number with a format, names, comments, a string and
operators. -/
def cramped : String := "0..1_0.5u8_x/*/*/é\"\\\"\"<==//c"

/-- With spaces between them the tokens of the text are the same. -/
theorem tokenize_respaced_cramped :
    respaced cramped 0 = "0 .. 1_0.5u8 _x é \"\\\"\" <= =" ∧
      (tokenize (respaced cramped 0) 1).map Token.symbol =
        (tokenize cramped 0).map Token.symbol := by
  have hclean : ∀ t ∈ tokenize cramped 0, t.kind ≠ .error := by decide +kernel
  exact ⟨by decide +kernel, (tokenize_respaced hclean 1).1⟩

end Custody
