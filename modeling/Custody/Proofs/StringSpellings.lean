import Custody.Proofs.TokenPlaces

/-!
# Spellings of strings

A character of a string is written as itself or behind a backslash (`CharSpelling`), and a string
character by character (`Spelling`). The reader of string bodies takes off one spelled character at
a time (`Lexeme.stringBody_char`), so it decodes every spelling up to the closing quote, whatever
follows (`Lexeme.stringBody_spelling`), and it closes a body only behind a spelling
(`Lexeme.exists_spelling`). Hence a text in quotes is the first token of a text exactly if it is a
spelling (`tokenize_quoted_iff`).
-/

set_option autoImplicit false

namespace Custody

/-- How a character may be written between the quotes of a string. -/
inductive CharSpelling : Char → List Char → Prop where
  | plain {c : Char} (hquote : c ≠ '"') (hbackslash : c ≠ '\\') (hfeed : c ≠ '\n') :
      CharSpelling c [c]
  | escaped {c : Char} (hn : c ≠ 'n') (hr : c ≠ 'r') (ht : c ≠ 't') (hzero : c ≠ '0') :
      CharSpelling c ['\\', c]
  | lineFeed : CharSpelling '\n' ['\\', 'n']
  | carriageReturn : CharSpelling '\r' ['\\', 'r']
  | tab : CharSpelling '\t' ['\\', 't']
  | nul : CharSpelling '\x00' ['\\', '0']

/-- How a row of characters may be written between the quotes of a string. -/
inductive Spelling : List Char → List Char → Prop where
  | nil : Spelling [] []
  | cons {c : Char} {word value text : List Char} (hc : CharSpelling c word)
      (h : Spelling value text) :
      Spelling (c :: value) (word ++ text)

namespace Lexeme

variable {c : Char} {cs value text : List Char}

/-- Whatever stands behind a backslash, the two are the spelling of a character. -/
theorem charSpelling_unescape (c : Char) : CharSpelling (unescape c) ['\\', c] := by
  fun_cases unescape c with
  | case1 => exact .lineFeed
  | case2 => exact .carriageReturn
  | case3 => exact .tab
  | case4 => exact .nul
  | case5 c hn hr ht hzero => exact .escaped hn hr ht hzero

/-- One spelled character is taken off, whatever follows. -/
theorem stringBody_char {word : List Char} (h : CharSpelling c word) (cs : List Char) :
    stringBody (word ++ cs) = (stringBody cs).push c word := by
  cases h with
  | plain hquote hbackslash hfeed =>
    rw [List.singleton_append, stringBody]
    · exact hquote
    · exact fun hc _ => hbackslash hc
    · exact fun _ _ hc _ => hbackslash hc
    · exact hfeed
  | escaped hn hr ht hzero =>
    have hself : unescape c = c := by rw [unescape] <;> assumption
    show (stringBody cs).push (unescape c) _ = _
    rw [hself]
  | lineFeed | carriageReturn | tab | nul => rfl

/-- A spelling is decoded up to the quote behind it. -/
theorem stringBody_spelling (h : Spelling value text) (rest : List Char) :
    stringBody (text ++ '"' :: rest) = ⟨true, value, text ++ ['"'], rest⟩ := by
  induction h with
  | nil => rfl
  | cons hc _ ih =>
    rw [List.append_assoc, stringBody_char hc, ih, StringBody.push, List.append_assoc]

/-- Only a quote behind a spelling closes a string. -/
theorem exists_spelling (h : (stringBody cs).closed = true) :
    ∃ text, Spelling (stringBody cs).value text ∧ cs = text ++ '"' :: (stringBody cs).rest := by
  fun_induction stringBody cs with
  | case1 | case3 | case5 => cases h
  | case2 => exact ⟨[], .nil, rfl⟩
  | case4 c cs ih =>
    obtain ⟨text, hspelling, hcs⟩ := ih h
    exact ⟨_, .cons (charSpelling_unescape c) hspelling, congrArg ('\\' :: c :: ·) hcs⟩
  | case6 c cs hquote hlast hescape hfeed ih =>
    obtain ⟨text, hspelling, hcs⟩ := ih h
    -- A backslash takes the character behind it along, or it is the last one.
    have hbackslash : c ≠ '\\' := by
      rintro rfl
      cases cs with
      | nil => exact hlast rfl rfl
      | cons d cs => exact hescape d cs rfl rfl
    exact ⟨_, .cons (.plain hquote hbackslash hfeed) hspelling, congrArg (c :: ·) hcs⟩

theorem string_spelling (h : Spelling value text) (rest : List Char) :
    string (text ++ '"' :: rest) =
      ⟨.string, String.ofList value, '"' :: (text ++ ['"']), rest⟩ := by
  rw [string, stringBody_spelling h]
  rfl

/-- A string is read only from a spelling with a quote behind it. -/
theorem exists_string_spelling (h : (string cs).kind ≠ .error) :
    ∃ value text rest, Spelling value text ∧ cs = text ++ '"' :: rest := by
  have hclosed : (stringBody cs).closed = true := by
    by_contra hopen
    exact h (congrArg Lexeme.kind (if_neg hopen))
  obtain ⟨text, hspelling, hcs⟩ := exists_spelling hclosed
  exact ⟨_, text, _, hspelling, hcs⟩

end Lexeme

/-- The first token of a text that starts with a quote is its string. -/
theorem head?_tokenize_quote {source : String} {cs : List Char} (h : source.toList = '"' :: cs)
    (file : Nat) :
    (tokenize source file).head? = some ⟨(Lexeme.string cs).kind,
      Pos.origin.spanTo (Pos.origin.pass (Lexeme.string cs).text) file,
      (Lexeme.string cs).value⟩ := by
  have hnext : (Scanner.ofSource source file).next.1 = ⟨(Lexeme.string cs).kind,
      Pos.origin.spanTo (Pos.origin.pass (Lexeme.string cs).text) file,
      (Lexeme.string cs).value⟩ := by
    rw [Scanner.ofSource, h]
    rfl
  rw [tokenize, Scanner.untilEof, ← hnext]
  dsimp only
  split <;> rfl

/-- Two texts at the start of a third one are the same if they have equally many bytes. -/
theorem eq_of_utf8ByteSize_eq {a b rest rest' : List Char} (h : a ++ rest = b ++ rest')
    (hsize : (String.ofList a).utf8ByteSize = (String.ofList b).utf8ByteSize) : a = b := by
  rw [← textBefore_append a rest, h, hsize, textBefore_append]

/-- Between quotes and in front of any text, exactly the spellings of a string are read as that
string. Its token stops right behind the closing quote. -/
theorem tokenize_quoted_iff (value text rest : String) (file : Nat) :
    (tokenize ("\"" ++ text ++ "\"" ++ rest) file).head? =
        some ⟨.string, ⟨0, ("\"" ++ text ++ "\"").utf8ByteSize, 1, 1, file⟩, value⟩ ↔
      Spelling value.toList text.toList := by
  have hsource : ("\"" ++ text ++ "\"" ++ rest).toList =
      '"' :: (text.toList ++ '"' :: rest.toList) := by simp
  have hquoted : "\"" ++ text ++ "\"" = String.ofList ('"' :: (text.toList ++ ['"'])) := by
    rw [← String.toList_inj]
    simp
  have hstop (text : List Char) : (Pos.origin.pass text).offset =
      (String.ofList text).utf8ByteSize := by
    rw [Pos.pass_origin]
  rw [head?_tokenize_quote hsource, hquoted]
  constructor
  · intro htoken
    obtain ⟨hkind, hspan, hvalue⟩ := Token.mk.inj (Option.some.inj htoken)
    obtain ⟨value', text', rest', hspelling, hcs⟩ :=
      Lexeme.exists_string_spelling (by rw [hkind]; decide)
    rw [hcs, Lexeme.string_spelling hspelling] at hspan hvalue
    -- Both texts start the same source, and the span says that they have equally many bytes.
    have happend : '"' :: (text' ++ ['"']) ++ rest' = '"' :: (text.toList ++ ['"']) ++
        rest.toList := by simp [hcs]
    have htext : '"' :: (text' ++ ['"']) = '"' :: (text.toList ++ ['"']) := by
      refine eq_of_utf8ByteSize_eq happend ?_
      rw [← hstop]
      exact (Span.mk.inj hspan).2.1
    obtain rfl : text' = text.toList := List.append_cancel_right (List.cons.inj htext).2
    rwa [← hvalue, String.toList_ofList]
  · intro hspelling
    rw [Lexeme.string_spelling hspelling, String.ofList_toList, Pos.spanTo, hstop]
    rfl

/-- Backslashes in a row, an escaped quote, line feeds in both spellings, a plain tab and characters
of more than one byte. -/
def knotted : String := "é\\\\\\\"\\n\\\n\t\\0\\λ"

/-- Behind the closing quote another one follows. -/
theorem tokenize_quoted_iff_knotted :
    (tokenize ("\"" ++ knotted ++ "\"" ++ "\"n") 0).head? =
      some ⟨.string, ⟨0, 18, 1, 1, 0⟩, "é\\\"\n\n\t\x00λ"⟩ := by
  have hvalue : "é\\\"\n\n\t\x00λ".toList = ['é', '\\', '"', '\n', '\n', '\t', '\x00', 'λ'] := by
    decide
  have htext : knotted.toList =
      ['é'] ++ (['\\', '\\'] ++ (['\\', '"'] ++ (['\\', 'n'] ++ (['\\', '\n'] ++
      (['\t'] ++ (['\\', '0'] ++ (['\\', 'λ'] ++ []))))))) := by decide
  have hspelling : Spelling "é\\\"\n\n\t\x00λ".toList knotted.toList := by
    rw [hvalue, htext]
    refine .cons (.plain ?_ ?_ ?_) <| .cons (.escaped ?_ ?_ ?_ ?_) <|
      .cons (.escaped ?_ ?_ ?_ ?_) <| .cons .lineFeed <|
      .cons (.escaped ?_ ?_ ?_ ?_) <| .cons (.plain ?_ ?_ ?_) <| .cons .nul <|
      .cons (.escaped ?_ ?_ ?_ ?_) .nil
    all_goals decide
  have hsize : ("\"" ++ knotted ++ "\"").utf8ByteSize = 18 := by decide
  exact hsize ▸ (tokenize_quoted_iff _ knotted "\"n" 0).2 hspelling

end Custody
