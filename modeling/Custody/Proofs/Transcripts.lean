import Custody.Proofs.FileReadings

/-!
# What is read was written

The tokens of a text that is read without an error spell the file that it is read as
(`parseSource_transcribes`).
-/

set_option autoImplicit false

namespace Custody

open Style

/-- Up to the first `eof`, a row of tokens can be split in one way only. -/
theorem eq_of_append_eof {tokens taken rest : List Token} {eof : Token} (heof : eof.kind = .eof)
    (htokens : ∀ t ∈ tokens, t.kind ≠ .eof) (htaken : ∀ t ∈ taken, t.kind ≠ .eof)
    (hrest : ∀ t ∈ rest.head?, t.kind = .eof) (h : tokens ++ [eof] = taken ++ rest) :
    tokens = taken := by
  have hcut {front back : List Token} (hfront : ∀ t ∈ front, t.kind ≠ .eof)
      (hback : ∀ t ∈ back.head?, t.kind = .eof) :
      (front ++ back).takeWhile (fun t => t.kind != .eof) = front := by
    rw [List.takeWhile_append_of_pos fun t ht => bne_iff_ne.2 (hfront t ht)]
    cases back with
    | nil => simp
    | cons t ts => simp [hback t rfl]
  have hleft : (tokens ++ [eof]).takeWhile (fun t => t.kind != .eof) = tokens :=
    hcut htokens fun t ht => Option.some.inj ht ▸ heof
  rw [← hleft, h, hcut htaken hrest]

/-- A file that was read stands on the tokens in front of their `eof`, which spell it. -/
theorem SourceFile.ReadFrom.taken_front {tokens : List Token} {eof : Token} {f : SourceFile}
    (h : f.ReadFrom (tokens ++ [eof])) (htokens : ∀ t ∈ tokens, t.kind ≠ .eof)
    (heof : eof.kind = .eof) : ∃ c c', Cursor.Taken c c' (f.write lenient) f.pieces tokens := by
  obtain ⟨first, c', -, htakes, hend, -⟩ := h.taken
  obtain ⟨row, hrow⟩ := htakes ⟨eof, by simp, heof⟩
  have hstop : ∀ t ∈ c'.rest.head?, t.kind = .eof := by
    intro t ht
    unfold Cursor.atEnd at hend
    cases hrest : c'.rest with
    | nil => simp [hrest] at ht
    | cons t' ts =>
      rw [hrest] at hend ht
      exact Option.some.inj ht ▸ beq_iff_eq.1 hend
  obtain rfl := eq_of_append_eof heof htokens hrow.way.kinds hstop hrow.way.rest
  exact ⟨_, c', hrow⟩

/-- What is known of the tokens of a text that is read without an error. -/
theorem taken_of_parseSource {source : String} {file : Nat} {f : SourceFile}
    (h : parseSource source file = some (.ok f)) :
    ∃ tokens eof, tokenize source file = tokens ++ [eof] ∧ eof.kind = .eof ∧
      (∀ t ∈ tokens, t.symbol.Faithful) ∧
      f.ReadFrom (tokens ++ [eof]) ∧
        ∃ c c', Cursor.Taken c c' (f.write lenient) f.pieces tokens := by
  obtain ⟨tokens, eof, hsource, heof, htokens⟩ := tokenize_ends source file
  have hread := readFrom_of_parseTokens ⟨eof, by simp [hsource], heof⟩ h
  rw [hsource] at hread
  exact ⟨tokens, eof, hsource, heof, fun t ht => (htokens t ht).2, hread,
    hread.taken_front (fun t ht => (htokens t ht).1) heof⟩

/-- A text whose reading gives a file that passes a test. -/
theorem exists_of_parseSource_any {source : String} {file : Nat} {test : SourceFile → Bool}
    (h : ((parseSource source file).bind Except.toOption).any test = true) :
    ∃ f, parseSource source file = some (.ok f) ∧ test f = true := by
  obtain ⟨f, hf, htest⟩ := (Option.any_eq_true _ _).1 h
  obtain ⟨r, hr, hok⟩ := Option.bind_eq_some_iff.1 hf
  cases r with
  | error errors => cases hok
  | ok f' =>
    obtain rfl := Option.some.inj hok
    exact ⟨f', hr, htest⟩

/-- A text that is read without an error has no error token, and its tokens without `eof` spell the
file that it is read as: nothing is left out, put in or nested in another way. All operators of the
file bind by their levels. -/
theorem parseSource_transcribes {source : String} {file : Nat} {f : SourceFile}
    (h : parseSource source file = some (.ok f)) :
    (∀ t ∈ tokenize source file, t.kind ≠ .error) ∧
    (∃ tokens eof, tokenize source file = tokens ++ [eof] ∧ eof.kind = .eof ∧
      tokens.map Token.symbol ∈ f.write lenient) ∧
    f.wellShaped = true := by
  obtain ⟨tokens, eof, hsource, heof, htokens⟩ := tokenize_ends source file
  have hread := readFrom_of_parseTokens ⟨eof, by simp [hsource], heof⟩ h
  rw [hsource] at hread
  obtain ⟨c, c', hrow⟩ := hread.taken_front (fun t ht => (htokens t ht).1) heof
  refine ⟨fun t ht => ?_, ⟨tokens, eof, hsource, heof, hrow.spelled fun t ht => (htokens t ht).2⟩,
    hread.wellShaped⟩
  rw [hsource] at ht
  rcases List.mem_append.1 ht with ht | ht
  · exact hrow.sound t ht
  · rw [List.mem_singleton.1 ht, heof]
    nofun

/-- A text with every freedom of spelling: commas behind last items, empty type arguments and zeros
in front of numbers. -/
def freelySpelled : String :=
  "struct S[A,] { a: A, b: [007]m.T[], }
fn f(x: ^u64,) { x = 1 - g:[](-2u008, a[00],) - 3 * b == c..d and e; }"

/-- The text is read without an error, and without `eof` it has nine tokens more than the plain
spelling of what is read. -/
theorem parseSource_transcribes_freelySpelled :
    ∃ f, parseSource freelySpelled 0 = some (.ok f) ∧
      (tokenize freelySpelled 0).length = (f.write plain).toList.length + 9 + 1 ∧
      (∃ tokens eof, tokenize freelySpelled 0 = tokens ++ [eof] ∧ eof.kind = .eof ∧
        tokens.map Token.symbol ∈ f.write lenient) ∧
      f.wellShaped = true := by
  have hread : ((parseSource freelySpelled 0).bind Except.toOption).any (fun f =>
      (tokenize freelySpelled 0).length == (f.write plain).toList.length + 9 + 1) = true := by
    decide +kernel
  obtain ⟨f, hf, hlength⟩ := (Option.any_eq_true _ _).1 hread
  obtain ⟨r, hr, hok⟩ := Option.bind_eq_some_iff.1 hf
  cases r with
  | error errors => cases hok
  | ok f' =>
    obtain rfl := Option.some.inj hok
    exact ⟨f', hr, beq_iff_eq.1 hlength, (parseSource_transcribes hr).2⟩

end Custody
