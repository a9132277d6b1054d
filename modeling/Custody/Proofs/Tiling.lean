import Custody.Proofs.TokenPlaces

/-!
# Tokens tile their text

A scanner skips a gap and then takes one lexeme, so a text is a row of gaps and lexemes up to its
end (`Tiled`), and the tokens that a scanner gives are the lexemes of that row
(`Scanner.untilEof_tiled`).

What this says about the spans of tokens is put together in `Tiles`. Behind the end a scanner gives
the last token again and again, so that its tokens can also be asked for one by one
(`tokenize_tiles`).
-/

set_option autoImplicit false

namespace Custody

/-! ## Rows of gaps and lexemes -/

/-- The text from a place on is a row of gaps and tokens: in front of each token stands a gap, each
token but the last covers some text, and the last one is `eof` behind all of the text. -/
inductive Tiled (file : Nat) : Pos → List Char → List Token → Prop
  | eof {p : Pos} {gap : List Char} (hgap : Gap true gap) :
      Tiled file p gap [⟨.eof, (p.pass gap).spanTo (p.pass gap) file, ""⟩]
  | token {p : Pos} {gap word rest : List Char} {t : Token} {ts : List Token} (hgap : Gap false gap)
      (hword : word ≠ []) (hkind : t.kind ≠ .eof)
      (hspan : t.span = (p.pass gap).spanTo ((p.pass gap).pass word) file)
      (h : Tiled file ((p.pass gap).pass word) rest ts) :
        Tiled file p (gap ++ (word ++ rest)) (t :: ts)

namespace Scanner

/-- With enough steps, the tokens of a scanner tile the text ahead of it. -/
theorem untilEof_tiled {fuel : Nat} {s : Scanner} (h : s.rest.length < fuel) :
    Tiled s.file s.pos s.rest (s.untilEof fuel) := by
  induction fuel generalizing s with
  | zero => exact absurd h (Nat.not_lt_zero _)
  | succ fuel ih =>
    simp only [untilEof]
    rcases s.next_cases with
      ⟨gap, hgap, hrest, hnext⟩ | ⟨gap, word, hgap, hword, hrest, hkind, hspan, hpos⟩
    · rw [hnext, hrest]
      exact .eof hgap
    · have hlt := Nat.lt_of_lt_of_le (s.next_rest_lt hkind) (Nat.le_of_lt_succ h)
      have htail := ih hlt
      rw [file_next, hpos] at htail
      rw [if_neg hkind, hrest]
      exact .token hgap hword hkind hspan htail

/-! ## One token after the other -/

/-- Behind `eof` a scanner stays where it is and gives the same token again. -/
theorem take_of_eof {s : Scanner} (h : s.next.1.kind = .eof) (n : Nat) :
    s.take n = List.replicate n s.next.1 := by
  have hagain : s.next.2.next = s.next := by
    rcases s.next_cases with ⟨gap, -, -, hnext⟩ | ⟨gap, word, -, -, -, hkind, -⟩
    · rw [hnext]
      rfl
    · exact absurd h hkind
  induction n generalizing s with
  | zero => rfl
  | succ n ih =>
    rw [take, List.replicate_succ]
    have hrest := ih (s := s.next.2) (by rw [hagain]; exact h) (by rw [hagain, hagain])
    rw [hrest, hagain]

/-- Asked one by one, a scanner gives its tokens up to `eof`, and then `eof` for ever. -/
theorem take_eq {fuel n m : Nat} {s : Scanner} {front : List Token} {eof : Token}
    (heof : eof.kind = .eof) (hfront : ∀ t ∈ front, t.kind ≠ .eof)
    (h : s.untilEof fuel = front ++ [eof]) (hle : n ≤ m) :
    s.take n = (front ++ List.replicate m eof).take n := by
  induction n generalizing s fuel front with
  | zero => rfl
  | succ n ih =>
    cases fuel with
    | zero => simp [untilEof] at h
    | succ fuel =>
      simp only [untilEof] at h
      cases front with
      | nil =>
        have hnext : s.next.1 = eof := by
          split at h
          · exact (List.cons.inj h).1
          · exact (List.cons.inj h).1
        rw [take_of_eof (hnext ▸ heof), hnext, List.nil_append, List.take_replicate,
          Nat.min_eq_left hle]
      | cons t front =>
        obtain ⟨hkind, hfront⟩ := List.forall_mem_cons.1 hfront
        by_cases hlast : s.next.1.kind = .eof
        · rw [if_pos hlast] at h
          exact absurd ((List.cons.inj h).1 ▸ hlast) hkind
        · rw [if_neg hlast] at h
          obtain ⟨hnext, htail⟩ := List.cons.inj h
          rw [take, hnext, ih hfront htail (Nat.le_of_succ_le hle), List.cons_append,
            List.take_succ_cons]

end Scanner

/-! ## The tokens of a text -/

/-- The characters between two byte offsets. -/
def textBetween (text : List Char) (start stop : Nat) : List Char :=
  (textBefore text stop).drop (textBefore text start).length

theorem textBetween_append (before between rest : List Char) :
    textBetween (before ++ (between ++ rest)) (Pos.origin.pass before).offset
      ((Pos.origin.pass before).pass between).offset = between := by
  have hstart : textBefore (before ++ (between ++ rest))
      (Pos.origin.pass before).offset = before := by
    rw [Pos.pass_origin]
    exact textBefore_append before (between ++ rest)
  have hstop : textBefore (before ++ (between ++ rest))
      ((Pos.origin.pass before).pass between).offset =
      before ++ between := by
    rw [← Pos.pass_append, Pos.pass_origin, ← List.append_assoc]
    exact textBefore_append (before ++ between) rest
  rw [textBetween, hstart, hstop, List.drop_left]

/-- Where the last of some tokens stops; without tokens this is the start of the text. -/
def lastStop (tokens : List Token) : Nat := (tokens.getLast?.map fun t => t.span.stop).getD 0

/-- What tokens that tile a text have to do with it. -/
structure Tiles (source : String) (file : Nat) (tokens : List Token) : Prop where
  /-- The last token is the only `eof`, and it stands behind all of the text. -/
  ends : ∃ front eof, tokens = front ++ [eof] ∧ eof.kind = .eof ∧ (∀ t ∈ front, t.kind ≠ .eof) ∧
    eof.span.start = source.utf8ByteSize ∧ eof.span.stop = source.utf8ByteSize
  /-- All other tokens cover some text. -/
  covers : ∀ t ∈ tokens, t.kind ≠ .eof → t.span.start < t.span.stop
  /-- Tokens start and stop between characters of the text. -/
  boundaries : ∀ t ∈ tokens, (⟨t.span.start⟩ : String.Pos.Raw).IsValid source ∧
    (⟨t.span.stop⟩ : String.Pos.Raw).IsValid source
  /-- Each token starts where the one in front of it stops, or behind. -/
  ordered : tokens.Pairwise fun t t' => t.span.stop ≤ t'.span.start
  /-- In front of each token stands a gap. -/
  gaps : ∀ before t after, tokens = before ++ t :: after →
    Gap (t.kind == .eof) (textBetween source.toList (lastStop before) t.span.start)
  file : ∀ t ∈ tokens, t.span.file = file
  line : ∀ t ∈ tokens, t.span.line = 1 + (textBefore source.toList t.span.start).count '\n'
  column : ∀ t ∈ tokens,
    t.span.column =
    1 + ((textBefore source.toList t.span.start).reverse.takeWhile (· ≠ '\n')).length

namespace Tiled

variable {file : Nat} {p : Pos} {cs : List Char} {ts : List Token}

/-- The gaps of a row, read off the spans of its tokens. What stands in front of the row is
`passed`. -/
theorem gap (h : Tiled file p cs ts) (passed : List Char) (hp : p = Pos.origin.pass passed)
    {before after : List Token} {t : Token} (hts : ts = before ++ t :: after) :
    Gap (t.kind == .eof) (textBetween (passed ++ cs)
      ((before.getLast?.map fun t => t.span.stop).getD p.offset) t.span.start) := by
  induction h generalizing passed before with
  | @eof p gap hgap =>
    cases before with
    | nil =>
      cases hts
      subst hp
      have hbetween := textBetween_append passed gap []
      rw [List.append_nil] at hbetween
      show Gap true (textBetween (passed ++ gap) (Pos.origin.pass passed).offset
        ((Pos.origin.pass passed).pass gap).offset)
      rw [hbetween]
      exact hgap
    | cons t' before => simp at hts
  | @token p gap word rest t' ts hgap hword hkind hspan htail ih =>
    cases before with
    | nil =>
      cases hts
      subst hp
      have hkind' : (t.kind == .eof) = false := by simpa using hkind
      rw [hkind', hspan]
      show Gap false
          (textBetween (passed ++ (gap ++ (word ++ rest))) (Pos.origin.pass passed).offset
        ((Pos.origin.pass passed).pass gap).offset)
      rw [textBetween_append]
      exact hgap
    | cons first before =>
      obtain ⟨rfl, hbehind⟩ := List.cons.inj hts
      -- The row behind the first token starts where that token stops.
      have hpassed : (p.pass gap).pass word = Pos.origin.pass (passed ++ (gap ++ word)) := by
        rw [Pos.pass_append, Pos.pass_append, hp]
      have hrow := ih (passed ++ (gap ++ word)) hpassed hbehind
      have hstop : t'.span.stop = ((p.pass gap).pass word).offset := by
        rw [hspan]
        rfl
      rw [List.append_assoc, List.append_assoc] at hrow
      rw [List.getLast?_cons, Option.map_some, Option.getD_some]
      cases hlast : before.getLast? with
      | none =>
        rw [hlast] at hrow
        rw [Option.getD_none, hstop]
        exact hrow
      | some t'' =>
        rw [hlast] at hrow
        exact hrow

/-- The last token of a row stands behind all of the text. -/
theorem last_span (h : Tiled file p cs ts) {front : List Token} {eof : Token}
    (hts : ts = front ++ [eof]) : eof.span = (p.pass cs).spanTo (p.pass cs) file := by
  induction h generalizing front with
  | @eof p gap hgap =>
    cases front with
    | nil =>
      cases hts
      rfl
    | cons t front => simp at hts
  | @token p gap word rest t ts hgap hword hkind hspan htail ih =>
    cases front with
    | nil =>
      obtain ⟨-, rfl⟩ := List.cons.inj hts
      cases htail
    | cons t' front =>
      rw [Pos.pass_append, Pos.pass_append]
      exact ih (List.cons.inj hts).2

end Tiled

/-- The tokens of a text tile it: between them stands nothing but blanks and comments, and their
spans say where they stand. The same tokens come one by one from a scanner, which then gives `eof`
for ever. -/
theorem tokenize_tiles (source : String) (file : Nat) :
    Tiles source file (tokenize source file) ∧
      ∃ front eof, tokenize source file = front ++ [eof] ∧
        ∀ n, (Scanner.ofSource source file).take n = (front ++ List.replicate n eof).take n := by
  have htiled : Tiled file .origin source.toList (tokenize source file) :=
    (Scanner.ofSource source file).untilEof_tiled (Nat.lt_succ_self _)
  obtain ⟨front, eof, htokens, heof, hfront⟩ := tokenize_ends source file
  obtain ⟨hplaces, hordered⟩ := tokenize_places source file
  have hplace : ∀ t ∈ tokenize source file, ∃ p q : Pos, p.In source.toList ∧ q.In source.toList ∧
      t.span = p.spanTo q file := by
    intro t ht
    obtain ⟨⟨p, q, hp, hq, -, hspan⟩, -⟩ := hplaces t ht
    exact ⟨p, q, hp, hq, hspan⟩
  have hspan := htiled.last_span htokens
  have hsize : (Pos.origin.pass source.toList).offset = source.utf8ByteSize := by
    rw [Pos.pass_origin, String.ofList_toList]
  refine ⟨⟨?_, ?_, ?_, hordered, ?_, ?_, ?_, ?_⟩, ?_⟩
  · exact ⟨front, eof, htokens, heof, fun t ht => (hfront t ht).1, by rw [hspan]; exact hsize,
      by rw [hspan]; exact hsize⟩
  · intro t ht
    exact (hplaces t ht).2
  · intro t ht
    obtain ⟨p, q, hp, hq, hspan⟩ := hplace t ht
    rw [hspan]
    exact ⟨hp.isValid, hq.isValid⟩
  · intro before t after hts
    exact htiled.gap [] rfl hts
  · intro t ht
    obtain ⟨p, q, hp, hq, hspan⟩ := hplace t ht
    rw [hspan]
    rfl
  · intro t ht
    obtain ⟨p, q, hp, hq, hspan⟩ := hplace t ht
    rw [hspan]
    exact hp.line
  · intro t ht
    obtain ⟨p, q, hp, hq, hspan⟩ := hplace t ht
    rw [hspan]
    exact hp.column
  · refine ⟨front, eof, htokens, ?_⟩
    intro n
    exact Scanner.take_eq heof (fun t ht => (hfront t ht).1) htokens (Nat.le_refl n)

end Custody
