import Custody.Proofs.Gaps
import Custody.Proofs.Writing

/-!
# The values of tokens

What the value of a token says about its text, and the other way round. A number is read from a
numeral with any number of zeros in front, and from nothing else once signs are ruled out
(`readBelow?_eq_some_iff`); so a literal is read from each of its spellings
(`numberLiteral_of_mem_write`) and from nothing else (`mem_write_of_numberLiteral`).

The tokens of a text are `Faithful`: those of a kind with one spelling have it as their value, and a
number has no sign. What one step of a scanner does is said once (`Scanner.next_cases`); so each
step takes some text, and the tokens end with the only `eof` (`tokenize_ends`).
-/

set_option autoImplicit false

namespace Custody

variable {text : List Char} {c : Char} {literal : NumberLiteral} {value : String} {kind : TokenKind}

/-! ## Numerals -/

theorem decimalValue_eq (digits : List Char) : decimalValue digits = Nat.ofDigitChars 10 digits 0 :=
  rfl

theorem digitChar_of_isDigit {d : Char} (h : d.isDigit = true) :
    d.toNat - '0'.toNat < 10 ∧ Nat.digitChar (d.toNat - '0'.toNat) = d := by
  obtain ⟨hlow, hhigh⟩ := Char.isDigit_iff_toNat.1 h
  have hzero : '0'.toNat = 48 := rfl
  have hnine : '9'.toNat = 57 := rfl
  have hlt : d.toNat - '0'.toNat < 10 := by omega
  refine ⟨hlt, Char.toNat_inj.1 ?_⟩
  rw [Nat.toNat_digitChar_of_lt_ten hlt]
  omega

/-- A run of digits is the numeral of its value with zeros in front. -/
theorem exists_zeros_of_digits {digits : List Char} (hne : digits ≠ [])
    (hdigits : ∀ d ∈ digits, d.isDigit = true) :
    ∃ zeros, digits = List.replicate zeros '0' ++ Nat.toDigits 10 (decimalValue digits) := by
  induction digits using List.reverseRecOn with
  | nil => exact absurd rfl hne
  | append_singleton front d ih =>
    obtain ⟨hlt, hd⟩ := digitChar_of_isDigit (hdigits d (by simp))
    have hvalue : decimalValue (front ++ [d]) =
        10 * decimalValue front + (d.toNat - '0'.toNat) := by
      rw [decimalValue_eq, Nat.ofDigitChars_append, Nat.ofDigitChars_cons, Nat.ofDigitChars_nil,
        decimalValue_eq]
    rw [hvalue]
    cases front with
    | nil =>
      refine ⟨0, ?_⟩
      rw [show decimalValue [] = 0 from rfl, Nat.mul_zero, Nat.zero_add,
        Nat.toDigits_of_lt_base hlt, hd]
      rfl
    | cons c cs =>
      obtain ⟨zeros, hfront⟩ := ih nofun fun x hx => hdigits x (List.mem_append_left _ hx)
      by_cases hzero : decimalValue (c :: cs) = 0
      -- Nothing but zeros stands in front of the last digit.
      · rw [hzero, Nat.toDigits_zero] at hfront
        refine ⟨zeros + 1, ?_⟩
        rw [hzero, Nat.mul_zero, Nat.zero_add, Nat.toDigits_of_lt_base hlt, hd, hfront,
          ← List.replicate_append_replicate]
        rfl
      · refine ⟨zeros, ?_⟩
        rw [← Nat.toDigits_append_toDigits (by decide) (Nat.pos_of_ne_zero hzero) hlt,
          Nat.toDigits_of_lt_base hlt, hd, ← List.append_assoc, ← hfront]

/-- A number is read from its numeral with zeros in front, and from nothing else that has no
sign. -/
theorem readBelow?_eq_some_iff {limit n : Nat} (hsign : '+' ∉ text) :
    readBelow? limit text = some n ↔
      n < limit ∧ ∃ zeros, text = List.replicate zeros '0' ++ Nat.toDigits 10 n := by
  -- Without a sign the whole text has to be digits.
  have hread : readBelow? limit text =
      if text.isEmpty || !text.all Char.isDigit then none
      else if decimalValue text < limit then some (decimalValue text) else none := by
    unfold readBelow?
    cases text with
    | nil => rfl
    | cons c cs =>
      have hc : c ≠ '+' := fun hc => hsign (hc ▸ List.mem_cons_self)
      simp [hc]
  rw [hread]
  constructor
  · intro h
    by_cases hdigits : (text.isEmpty || !text.all Char.isDigit) = true
    · rw [if_pos hdigits] at h
      cases h
    · rw [if_neg hdigits] at h
      by_cases hlt : decimalValue text < limit
      · rw [if_pos hlt] at h
        obtain rfl := Option.some.inj h
        simp only [Bool.or_eq_true, List.isEmpty_iff, Bool.not_eq_true', not_or,
          Bool.not_eq_false, List.all_eq_true] at hdigits
        exact ⟨hlt, exists_zeros_of_digits hdigits.1 hdigits.2⟩
      · rw [if_neg hlt] at h
        cases h
  · rintro ⟨hlt, zeros, rfl⟩
    have hvalue : decimalValue (List.replicate zeros '0' ++ Nat.toDigits 10 n) = n := by
      rw [decimalValue_eq, Nat.ofDigitChars_append, Nat.ofDigitChars_replicate_zero, Nat.mul_zero,
        Nat.ofDigitChars_ten_toDigits]
    have hdigits : ∀ d ∈ List.replicate zeros '0' ++ Nat.toDigits 10 n, d.isDigit = true := by
      intro d hd
      rcases List.mem_append.1 hd with hd | hd
      · rw [List.eq_of_mem_replicate hd]
        rfl
      · exact Nat.isDigit_of_mem_toDigits (by decide) (by decide) hd
    rw [if_neg, hvalue, if_pos hlt]
    simp only [Bool.or_eq_true, List.isEmpty_iff, List.append_eq_nil_iff, Bool.not_eq_true', not_or,
      Bool.not_eq_false, List.all_eq_true]
    exact ⟨fun h => Nat.toDigits_ne_nil h.2, hdigits⟩

/-- The characters of a numeral with something in front. -/
theorem toList_numeral (text : String) (zeros n : Nat) :
    (text ++ String.ofList (List.replicate zeros '0') ++ toString n).toList =
      text.toList ++ (List.replicate zeros '0' ++ Nat.toDigits 10 n) := by
  rw [String.toList_append, String.toList_append, String.toList_ofList,
    Nat.toString_eq_ofList_toDigits, String.toList_ofList, List.append_assoc]

theorem plus_not_mem_numeral (zeros n : Nat) :
    '+' ∉ List.replicate zeros '0' ++ Nat.toDigits 10 n := by
  intro h
  rcases List.mem_append.1 h with h | h
  · exact absurd (List.eq_of_mem_replicate h) (by decide)
  · exact absurd (Nat.isDigit_of_mem_toDigits (by decide) (by decide) h) (by decide)

/-! ## Literals -/

theorem NumberKind.ofLetter?_eq_some_iff {kind : NumberKind} :
    NumberKind.ofLetter? c = some kind ↔ c = kind.letter := by
  constructor
  · unfold NumberKind.ofLetter?
    split <;> rintro ⟨⟩ <;> rfl
  · rintro rfl
    cases kind <;> rfl

/-- A format is read from its letter and its width, which may have zeros in front. -/
theorem NumberFormat.parse?_eq_some_iff {format : NumberFormat} (hsign : '+' ∉ text) :
    NumberFormat.parse? text = some format ↔ format.isStandard = true ∧
      ∃ zeros, text =
        format.kind.letter :: (List.replicate zeros '0' ++ Nat.toDigits 10 format.width) := by
  cases text with
  | nil => simp [NumberFormat.parse?]
  | cons c digits =>
    have hdigits : '+' ∉ digits := fun h => hsign (List.mem_cons_of_mem c h)
    simp only [NumberFormat.parse?, Option.bind_eq_bind, Option.bind_eq_some_iff,
      NumberKind.ofLetter?_eq_some_iff, readBelow?_eq_some_iff hdigits]
    constructor
    · rintro ⟨kind, rfl, width, ⟨-, zeros, rfl⟩, h⟩
      split at h
      · rename_i hstandard
        obtain rfl := Option.some.inj h
        exact ⟨hstandard, zeros, rfl⟩
      · cases h
    · rintro ⟨hstandard, zeros, htext⟩
      obtain ⟨rfl, rfl⟩ := List.cons.inj htext
      -- The widths that a literal may name are all below 256.
      have hwidth : format.width < 256 := by
        unfold NumberFormat.isStandard at hstandard
        split at hstandard <;> simp at hstandard <;> omega
      exact ⟨format.kind, rfl, format.width, ⟨hwidth, zeros, rfl⟩, if_pos hstandard⟩

/-- Where the text of a literal has no letter, the format is what stands from the first letter
on. -/
theorem split_at_letter (htext : ∀ c ∈ text, c.isAlpha = false) (suffix : List Char)
    (hsuffix : ∀ c ∈ suffix.head?, c.isAlpha = true) :
    (text ++ suffix).takeWhile (fun c => !c.isAlpha) = text ∧
      (text ++ suffix).dropWhile (fun c => !c.isAlpha) = suffix := by
  have hall : ∀ c ∈ text, (!c.isAlpha) = true := fun c hc => by rw [htext c hc]; rfl
  rw [List.takeWhile_append_of_pos hall, List.dropWhile_append_of_pos hall]
  cases suffix with
  | nil => simp
  | cons c cs => simp [hsuffix c rfl]

theorem NumberKind.isAlpha_letter (kind : NumberKind) : kind.letter.isAlpha = true := by
  cases kind <;> rfl

/-- The characters of a literal that names a format. -/
theorem toList_literal (text : String) (format : NumberFormat) (zeros : Nat) :
    (text ++ format.kind.letter.toString ++ String.ofList (List.replicate zeros '0') ++
      toString format.width).toList =
      text.toList ++
        format.kind.letter :: (List.replicate zeros '0' ++ Nat.toDigits 10 format.width) := by
  rw [toList_numeral, String.toList_append, List.append_assoc]
  simp

/-- A literal that can be written is read from each of its spellings. -/
theorem numberLiteral_of_mem_write (hshape : literal.wellShaped = true)
    {row : List Symbol} (h : row ∈ literal.write Style.lenient) :
    ∃ value, row = [⟨.number, value⟩] ∧ Grammar.numberLiteral value = .ok literal := by
  obtain ⟨text, format⟩ := literal
  simp only [NumberLiteral.wellShaped, Bool.and_eq_true, List.all_eq_true,
    Bool.not_eq_true'] at hshape
  obtain ⟨htext, hformat⟩ := hshape
  cases format with
  | none =>
    refine ⟨text, h, ?_⟩
    obtain ⟨htake, hdrop⟩ := split_at_letter htext [] nofun
    rw [List.append_nil] at htake hdrop
    simp only [Grammar.numberLiteral, htake, hdrop, String.ofList_toList]
  | some format =>
    obtain ⟨zeros, rfl⟩ := h
    refine ⟨_, rfl, ?_⟩
    simp only [Option.all_some, Bool.and_eq_true, Bool.or_eq_true, Bool.not_eq_true',
      beq_iff_eq] at hformat
    have hletter : '+' ≠ format.kind.letter := by cases format.kind <;> decide
    have hsign : '+' ∉ format.kind.letter ::
        (List.replicate zeros '0' ++ Nat.toDigits 10 format.width) :=
      fun h => (List.mem_cons.1 h).elim hletter (plus_not_mem_numeral zeros format.width)
    obtain ⟨htake, hdrop⟩ := split_at_letter htext
      (format.kind.letter :: (List.replicate zeros '0' ++ Nat.toDigits 10 format.width))
      fun c hc => Option.some.inj hc ▸ format.kind.isAlpha_letter
    have hparse := (NumberFormat.parse?_eq_some_iff hsign).2 ⟨hformat.1, zeros, rfl⟩
    simp only [Grammar.numberLiteral, toList_literal, htake, hdrop, String.ofList_toList, hparse]
    rw [if_neg]
    simp only [Bool.and_eq_true, bne_iff_ne, not_and, not_not]
    exact fun hdecimal => hformat.2.resolve_left (by simp [hdecimal])

/-- What a literal that was read says about its characters. -/
theorem numberLiteral_cases
    (h : Grammar.numberLiteral value = .ok literal) :
    ∃ suffix, value.toList = literal.text.toList ++ suffix ∧
      literal.text.toList.all (!·.isAlpha) = true ∧ (suffix = [] ∧ literal.format = none ∨
        ∃ format, NumberFormat.parse? suffix = some format ∧ literal.format = some format ∧
          (literal.isDecimal = true → format.kind = .float)) := by
  have hsplit : value.toList.takeWhile (fun c => !c.isAlpha) ++
      value.toList.dropWhile (fun c => !c.isAlpha) =
      value.toList := List.takeWhile_append_dropWhile
  have htext : (value.toList.takeWhile fun c => !c.isAlpha).all (!·.isAlpha) = true :=
    List.all_takeWhile
  unfold Grammar.numberLiteral at h
  generalize value.toList.takeWhile (fun c => !c.isAlpha) = text at hsplit htext h
  generalize value.toList.dropWhile (fun c => !c.isAlpha) = suffix at hsplit h
  cases suffix with
  | nil =>
    obtain rfl := Except.ok.inj h
    exact ⟨[], by rw [← hsplit, String.toList_ofList], by rw [String.toList_ofList, htext],
      .inl ⟨rfl, rfl⟩⟩
  | cons c cs =>
    cases hparse : NumberFormat.parse? (c :: cs) with
    | none => simp [hparse] at h
    | some format =>
      simp only [hparse] at h
      split at h
      · cases h
      · rename_i hdecimal
        obtain rfl := Except.ok.inj h
        simp only [Bool.and_eq_true, bne_iff_ne, ne_eq, not_and, not_not] at hdecimal
        exact ⟨c :: cs, by rw [← hsplit, String.toList_ofList], by rw [String.toList_ofList, htext],
          .inr ⟨format, hparse, rfl, hdecimal⟩⟩

theorem NumberFormat.isStandard_of_parse? {format : NumberFormat}
    (h : NumberFormat.parse? text = some format) : format.isStandard = true := by
  cases text with
  | nil => cases h
  | cons c digits =>
    simp only [NumberFormat.parse?, Option.bind_eq_bind, Option.bind_eq_some_iff] at h
    obtain ⟨kind, -, width, -, h⟩ := h
    split at h
    · rename_i hstandard
      obtain rfl := Option.some.inj h
      exact hstandard
    · cases h

theorem wellShaped_of_numberLiteral
    (h : Grammar.numberLiteral value = .ok literal) : literal.wellShaped = true := by
  obtain ⟨suffix, -, htext, ⟨-, hformat⟩ | ⟨format, hparse, hformat, hdecimal⟩⟩ :=
    numberLiteral_cases h
  · rw [NumberLiteral.wellShaped, htext, hformat]
    rfl
  · simp only [NumberLiteral.wellShaped, htext, hformat, Option.all_some,
      NumberFormat.isStandard_of_parse? hparse, Bool.true_and, Bool.or_eq_true,
      Bool.not_eq_true', beq_iff_eq]
    exact (Bool.eq_false_or_eq_true _).elim (fun h => .inr (hdecimal h)) .inl

/-- A literal is read from its spellings only, if it has no sign. -/
theorem mem_write_of_numberLiteral (hsign : '+' ∉ value.toList) {literal : NumberLiteral}
    (h : Grammar.numberLiteral value = .ok literal) :
    [⟨.number, value⟩] ∈ literal.write Style.lenient := by
  obtain ⟨suffix, hvalue, -, ⟨rfl, hformat⟩ | ⟨format, hparse, hformat, -⟩⟩ := numberLiteral_cases h
  · rw [List.append_nil, String.toList_inj] at hvalue
    rw [NumberLiteral.write, hformat, hvalue]
    rfl
  · have hsuffix : '+' ∉ suffix := fun hmem => hsign (hvalue ▸ List.mem_append_right _ hmem)
    obtain ⟨-, zeros, hspelled⟩ := (NumberFormat.parse?_eq_some_iff hsuffix).1 hparse
    rw [NumberLiteral.write, hformat]
    refine ⟨zeros, ?_⟩
    rw [List.singleton_inj, Symbol.mk.injEq, ← String.toList_inj, toList_literal,
      ← hspelled, hvalue]
    exact ⟨rfl, rfl⟩

/-- The length of an array is read from its spellings only, if it has no sign. -/
theorem mem_numeral_of_readBelow? {limit length : Nat} (hsign : '+' ∉ value.toList)
    (h : readBelow? limit value.toList = some length) :
    [⟨.number, value⟩] ∈ Style.lenient.numeral "" length := by
  obtain ⟨-, zeros, hspelled⟩ := (readBelow?_eq_some_iff hsign).1 h
  refine ⟨zeros, ?_⟩
  rw [List.singleton_inj, Symbol.mk.injEq, ← String.toList_inj, toList_numeral, hspelled]
  exact ⟨rfl, rfl⟩

theorem lt_of_readBelow? {limit n : Nat} (h : readBelow? limit text = some n) :
    n < limit := by
  unfold readBelow? at h
  extract_lets digits at h
  split at h
  · cases h
  · split at h
    · obtain rfl := Option.some.inj h
      assumption
    · cases h

/-- The length of an array is read from each of its spellings. -/
theorem readBelow?_of_mem_numeral {limit length : Nat} (hlt : length < limit) {row : List Symbol}
    (h : row ∈ Style.lenient.numeral "" length) :
    ∃ value, row = [⟨.number, value⟩] ∧ readBelow? limit value.toList = some length := by
  obtain ⟨zeros, rfl⟩ := h
  refine ⟨_, rfl, ?_⟩
  rw [toList_numeral, String.toList_empty, List.nil_append,
    readBelow?_eq_some_iff (plus_not_mem_numeral zeros length)]
  exact ⟨hlt, zeros, rfl⟩

/-! ## Tokens of a text -/

/-- A token whose value is what its kind says: the one spelling of the kind, or a number without a
sign. -/
structure Symbol.Faithful (s : Symbol) : Prop where
  spelled : ∀ text, s.kind.spelling? = some text → s.value = text
  unsigned : s.kind = .number → '+' ∉ s.value.toList

theorem Symbol.faithful_of_spelled {text : String} (h : kind.spelling? = some text) :
    Symbol.Faithful ⟨kind, text⟩ where
  spelled _ h' := Option.some.inj (h.symm.trans h')
  unsigned hnumber := by
    rw [show kind = .number from hnumber] at h
    cases h

theorem Symbol.faithful_of_free {s : Symbol} (hfixed : s.kind.spelling? = none)
    (hnumber : s.kind ≠ .number) : s.Faithful where
  spelled text h := by
    rw [hfixed] at h
    cases h
  unsigned h := absurd h hnumber

theorem TokenKind.spelling?_of_keyword? {text : String}
    (h : TokenKind.keyword? text = some kind) : kind.spelling? = some text := by
  unfold TokenKind.keyword? at h
  split at h <;> cases h <;> rfl

namespace Lexeme

/-- The kind and value of a lexeme. -/
def symbol (l : Lexeme) : Symbol := ⟨l.kind, l.value⟩

theorem spelling?_of_single? (h : single? c = some kind) :
    kind.spelling? = some (String.ofList [c]) := by
  unfold single? at h
  split at h <;> cases h <;> rfl

theorem spelling?_of_double? {c d : Char} (h : double? c d = some kind) :
    kind.spelling? = some (String.ofList [c, d]) := by
  unfold double? at h
  split at h <;> cases h <;> rfl

/-- What a lexeme can be. -/
theorem read_cases (c : Char) (cs : List Char) :
    (c = '"' ∧ read c cs = string cs) ∨
    (c.isDigit = true ∧ read c cs = number (c :: cs)) ∨
    (Text.isWordChar c = true ∧ read c cs = word (c :: cs)) ∨
    (∃ kind text rest, kind.spelling? = some (String.ofList (c :: text)) ∧ cs = text ++ rest ∧
      read c cs = fixed kind (c :: text) rest) ∨
    ∃ message, read c cs = ⟨.error, message, [c], cs⟩ := by
  unfold read
  split
  · rename_i hquote
    exact .inl ⟨hquote, rfl⟩
  · split
    · rename_i hdigit
      exact .inr (.inl ⟨hdigit, rfl⟩)
    · split
      · rename_i hword
        refine .inr (.inr (.inl ⟨?_, rfl⟩))
        rcases (Bool.or_eq_true _ _).mp hword with h | h
        · simp [Text.isWordChar, Text.isLetter, h]
        · simp [Text.isWordChar, h]
      -- A symbol of two characters wins over its first character alone.
      · cases hdouble : doubleAt? c cs with
        | some lexeme =>
          cases cs with
          | nil => cases hdouble
          | cons d cs =>
            simp only [doubleAt?, Option.map_eq_some_iff] at hdouble
            obtain ⟨kind, hkind, rfl⟩ := hdouble
            exact .inr (.inr (.inr (.inl ⟨kind, [d], cs, spelling?_of_double? hkind, rfl, rfl⟩)))
        | none =>
          dsimp only
          cases hsingle : single? c with
          | some kind =>
            exact .inr (.inr (.inr (.inl ⟨kind, [], cs, spelling?_of_single? hsingle, rfl, rfl⟩)))
          | none =>
            dsimp only
            split
            · rename_i hletter
              exact .inr (.inr (.inl ⟨by simp [Text.isWordChar, hletter], rfl⟩))
            · exact .inr (.inr (.inr (.inr ⟨_, rfl⟩)))

theorem word_faithful (cs : List Char) : (word cs).symbol.Faithful := by
  let value := String.ofList (cs.takeWhile Text.isWordChar)
  change Symbol.Faithful ⟨(TokenKind.keyword? value).getD .identifier, value⟩
  cases hkeyword : TokenKind.keyword? value with
  | none => exact Symbol.faithful_of_free rfl nofun
  | some kind => exact Symbol.faithful_of_spelled (TokenKind.spelling?_of_keyword? hkeyword)

theorem string_faithful (cs : List Char) : (string cs).symbol.Faithful := by
  unfold string
  dsimp only
  split <;> exact Symbol.faithful_of_free rfl nofun

theorem plus_not_mem_fraction (cs : List Char) : '+' ∉ (fraction cs).1 := by
  unfold fraction
  split
  · split
    · rw [List.mem_cons, not_or]
      exact ⟨by decide, fun h => absurd (List.all_eq_true.1 List.all_takeWhile _ h) (by decide)⟩
    · exact List.not_mem_nil
  · exact List.not_mem_nil

theorem number_faithful (cs : List Char) : (number cs).symbol.Faithful where
  spelled _ h := nomatch h
  unsigned _ := by
    unfold number symbol
    simp only [String.toList_ofList, List.mem_append, List.mem_filter, not_or, not_and]
    refine ⟨fun h => ?_, fun h => absurd (List.all_eq_true.1 List.all_takeWhile _ h) (by decide)⟩
    rcases h with h | h
    · exact absurd (List.all_eq_true.1 List.all_takeWhile _ h) (by decide)
    · exact absurd h (plus_not_mem_fraction _)

theorem read_faithful (c : Char) (cs : List Char) : (read c cs).symbol.Faithful := by
  rcases read_cases c cs with
    ⟨-, h⟩ | ⟨-, h⟩ | ⟨-, h⟩ | ⟨kind, text, rest, hspelling, -, h⟩ | ⟨message, h⟩ <;>
    rw [h]
  · exact string_faithful cs
  · exact number_faithful _
  · exact word_faithful _
  · exact Symbol.faithful_of_spelled hspelling
  · exact Symbol.faithful_of_free rfl nofun

/-! ## Texts of lexemes -/

theorem stringBody_text_append_rest (cs : List Char) :
    (stringBody cs).text ++ (stringBody cs).rest = cs := by
  fun_induction stringBody cs with
  | case1 => rfl
  | case2 cs => rfl
  | case3 => rfl
  | case4 c cs ih => exact congrArg (fun tail => '\\' :: c :: tail) ih
  | case5 cs => rfl
  | case6 c cs _ _ _ _ ih => exact congrArg (List.cons c) ih

theorem fraction_append (cs : List Char) : (fraction cs).1 ++ (fraction cs).2 = cs := by
  fun_cases fraction cs with
  | case1 d cs hdigit => exact congrArg (List.cons '.') List.takeWhile_append_dropWhile
  | case2 d cs hdigit => rfl
  | case3 cs _ => rfl

theorem number_text_append_rest (cs : List Char) : (number cs).text ++ (number cs).rest = cs := by
  change cs.takeWhile isDigitOrGap ++ (fraction (cs.dropWhile isDigitOrGap)).1 ++
    (fraction (cs.dropWhile isDigitOrGap)).2.takeWhile Char.isAlphanum ++
      (fraction (cs.dropWhile isDigitOrGap)).2.dropWhile Char.isAlphanum = cs
  rw [List.append_assoc, List.takeWhile_append_dropWhile, List.append_assoc, fraction_append,
    List.takeWhile_append_dropWhile]

/-- What a lexeme covers and what follows it are the text. -/
theorem read_text_append_rest (c : Char) (cs : List Char) :
    (read c cs).text ++ (read c cs).rest = c :: cs := by
  rcases read_cases c cs with
    ⟨rfl, h⟩ | ⟨-, h⟩ | ⟨-, h⟩ | ⟨kind, text, rest, -, rfl, h⟩ | ⟨message, h⟩ <;>
    rw [h]
  · have hbody := congrArg (List.cons '"') (stringBody_text_append_rest cs)
    unfold string
    dsimp only
    split <;> exact hbody
  · exact number_text_append_rest (c :: cs)
  · exact List.takeWhile_append_dropWhile
  · rfl
  · rfl

/-- Every lexeme covers its first character. -/
theorem read_text_ne_nil (c : Char) (cs : List Char) : (read c cs).text ≠ [] := by
  rcases read_cases c cs with
    ⟨-, h⟩ | ⟨hdigit, h⟩ | ⟨hword, h⟩ | ⟨kind, text, rest, -, -, h⟩ | ⟨message, h⟩ <;>
    rw [h]
  · unfold string
    dsimp only
    split <;> simp
  · simp [number, isDigitOrGap, hdigit]
  · simp [word, hword]
  · simp [fixed]
  · simp

theorem read_kind_ne_eof (c : Char) (cs : List Char) : (read c cs).kind ≠ .eof := by
  rcases read_cases c cs with
    ⟨-, h⟩ | ⟨-, h⟩ | ⟨-, h⟩ | ⟨kind, text, rest, hspelling, -, h⟩ | ⟨message, h⟩ <;>
    rw [h]
  · unfold string
    dsimp only
    split <;> nofun
  · nofun
  · unfold word
    dsimp only
    cases hkeyword : TokenKind.keyword? (String.ofList ((c :: cs).takeWhile Text.isWordChar)) with
    | none => nofun
    | some kind =>
      intro heof
      have hspelling := TokenKind.spelling?_of_keyword? hkeyword
      rw [show kind = .eof from heof] at hspelling
      cases hspelling
  · intro heof
    rw [show kind = .eof from heof] at hspelling
    cases hspelling
  · nofun

end Lexeme

/-! ## The steps of a scanner -/

namespace Scanner

/-- What one step of a scanner does: it skips a gap and gives a token that covers what it takes
then. At the end of the text it gives `eof` and stays there. -/
theorem next_cases (s : Scanner) :
    (∃ gap, Gap true gap ∧ s.rest = gap ∧
      s.next = (⟨.eof, (s.pos.pass gap).spanTo (s.pos.pass gap) s.file, ""⟩,
        ⟨s.file, s.pos.pass gap, []⟩)) ∨
    ∃ gap word, Gap false gap ∧ word ≠ [] ∧ s.rest = gap ++ (word ++ s.next.2.rest) ∧
      s.next.1.kind ≠ .eof ∧
      s.next.1.span = (s.pos.pass gap).spanTo ((s.pos.pass gap).pass word) s.file ∧
      s.next.2.pos = (s.pos.pass gap).pass word := by
  have hskips := skipGap_skips .blanks s.pos s.rest
  unfold next
  cases hskip : skipGap .blanks s.pos s.rest with
  | unclosed opened stop =>
    rw [hskip] at hskips
    rcases hskips with ⟨hmode, -⟩ | ⟨gap, comment, hrest, rfl, rfl, hgap⟩
    · cases hmode
    · refine .inr ⟨gap, comment, hgap, ?_, by rw [List.append_nil, hrest], nofun, rfl, rfl⟩
      -- A comment that is left open covers what opens it.
      rintro rfl
      exact Nat.lt_irrefl _ (offset_lt_of_unclosed hskip fun _ hmode => by cases hmode)
  | clear q rest =>
    rw [hskip] at hskips
    obtain ⟨gap, hrest, rfl, hgap⟩ := hskips
    cases rest with
    | nil => exact .inl ⟨gap, hgap, by rw [hrest, List.append_nil], rfl⟩
    | cons c cs =>
      exact .inr ⟨gap, (Lexeme.read c cs).text, hgap, Lexeme.read_text_ne_nil c cs,
        by rw [Lexeme.read_text_append_rest, hrest], Lexeme.read_kind_ne_eof c cs, rfl, rfl⟩

/-- Each token but `eof` takes some text. -/
theorem next_rest_lt (s : Scanner) (h : s.next.1.kind ≠ .eof) :
    s.next.2.rest.length < s.rest.length := by
  rcases s.next_cases with ⟨gap, -, -, hnext⟩ | ⟨gap, word, -, hword, hrest, -, -, -⟩
  · rw [hnext] at h
    exact absurd rfl h
  · have hpos := List.length_pos_iff.2 hword
    have hlength := congrArg List.length hrest
    rw [List.length_append, List.length_append] at hlength
    omega

theorem next_faithful (s : Scanner) : s.next.1.symbol.Faithful := by
  unfold next
  cases skipGap .blanks s.pos s.rest with
  | unclosed opened stop => exact Symbol.faithful_of_free rfl nofun
  | clear p rest =>
    cases rest with
    | nil => exact Symbol.faithful_of_free rfl nofun
    | cons c cs => exact Lexeme.read_faithful c cs

/-- With enough steps a scanner reaches `eof`, and stops right behind the first one. -/
theorem untilEof_ends {fuel : Nat} {s : Scanner} (h : s.rest.length < fuel) :
    ∃ tokens eof, s.untilEof fuel = tokens ++ [eof] ∧ eof.kind = .eof ∧
      ∀ t ∈ tokens, t.kind ≠ .eof ∧ t.symbol.Faithful := by
  induction fuel generalizing s with
  | zero => exact absurd h (Nat.not_lt_zero _)
  | succ fuel ih =>
    simp only [untilEof]
    by_cases hkind : s.next.1.kind = .eof
    · exact ⟨[], s.next.1, if_pos hkind, hkind, fun t ht => absurd ht List.not_mem_nil⟩
    · have hlt := Nat.lt_of_lt_of_le (s.next_rest_lt hkind) (Nat.le_of_lt_succ h)
      obtain ⟨tokens, eof, heq, heof, hall⟩ := ih hlt
      refine ⟨s.next.1 :: tokens, eof, ?_, heof, ?_⟩
      · rw [if_neg hkind, heq]
        rfl
      · rintro t ht
        rcases List.mem_cons.1 ht with rfl | ht
        · exact ⟨hkind, s.next_faithful⟩
        · exact hall t ht

end Scanner

/-- The tokens of a text are faithful and end with the only `eof`. -/
theorem tokenize_ends (source : String) (file : Nat) :
    ∃ tokens eof, tokenize source file = tokens ++ [eof] ∧ eof.kind = .eof ∧
      ∀ t ∈ tokens, t.kind ≠ .eof ∧ t.symbol.Faithful :=
  Scanner.untilEof_ends (Nat.lt_succ_self _)

end Custody
