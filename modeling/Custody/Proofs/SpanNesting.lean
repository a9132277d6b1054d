import Custody.Proofs.Tiling
import Custody.Proofs.Transcripts

/-!
# Spans nest as trees do

The tokens of a text stand in it one behind the other (`InOrder`), so the span of a row of tokens
starts where the first of them does and stops where the last one does (`InOrder.eq_upTo`), spans of
rows nest as the rows do, and spans of rows behind each other do not overlap.

Every piece of a file that was read stands on a row of tokens. From that follows where its span lies
(`parseSource_laidOut`).
-/

set_option autoImplicit false

namespace Custody

namespace Span

/-- The span from the start of one span to the stop of another. -/
def upTo (first last : Span) : Span :=
  ⟨first.start, last.stop, first.line, first.column, first.file⟩

/-- A span lies in another one. -/
structure Within (s outer : Span) : Prop where
  start : outer.start ≤ s.start
  stop : s.stop ≤ outer.stop

theorem merge_eq_upTo {a b : Span} (hstart : a.start ≤ b.start) (hstop : a.stop ≤ b.stop) :
    a.merge b = a.upTo b := by
  rw [merge, Nat.min_eq_left hstart, Nat.max_eq_right hstop, if_pos hstart, if_pos hstart]
  rfl

end Span

/-! ## Rows of tokens -/

/-- Tokens of a file that stand one behind the other. -/
structure InOrder (file : Nat) (row : List Token) : Prop where
  file : ∀ t ∈ row, t.span.file = file
  forward : ∀ t ∈ row, t.span.start ≤ t.span.stop
  apart : row.Pairwise fun t t' => t.span.stop ≤ t'.span.start

theorem tokenize_inOrder (source : String) (file : Nat) : InOrder file (tokenize source file) := by
  obtain ⟨hplaces, hapart⟩ := tokenize_places source file
  refine ⟨fun t ht => (hplaces t ht).1.file_eq, fun t ht => ?_, hapart⟩
  obtain ⟨p, q, -, -, hle, hspan⟩ := (hplaces t ht).1
  rw [hspan]
  exact hle

namespace InOrder

variable {file : Nat} {row row' front back : List Token} {first last : Token} {s s' : Span}

theorem part (h : InOrder file row) (hpart : row' <:+: row) : InOrder file row' :=
  ⟨fun t ht => h.file t (hpart.subset ht), fun t ht => h.forward t (hpart.subset ht),
    h.apart.sublist hpart.sublist⟩

/-- No token starts or stops before the first one does. -/
theorem first_le (h : InOrder file row) (hfirst : row.head? = some first) {t : Token}
    (ht : t ∈ row) : first.span.start ≤ t.span.start ∧ first.span.stop ≤ t.span.stop := by
  cases row with
  | nil => cases hfirst
  | cons first' row =>
    cases hfirst
    rcases List.mem_cons.1 ht with rfl | hbehind
    · exact ⟨Nat.le_refl _, Nat.le_refl _⟩
    · have hfirst := h.forward first List.mem_cons_self
      have ht' := h.forward t ht
      have hle := (List.pairwise_cons.1 h.apart).1 t hbehind
      omega

/-- No token stops behind the last one. -/
theorem le_last (h : InOrder file row) (hlast : row.getLast? = some last) {t : Token}
    (ht : t ∈ row) : t.span.stop ≤ last.span.stop := by
  obtain ⟨front, rfl⟩ := List.getLast?_eq_some_iff.1 hlast
  rcases List.mem_append.1 ht with hfront | hlast
  · have hle := (List.pairwise_append.1 h.apart).2.2 t hfront last List.mem_cons_self
    exact Nat.le_trans hle (h.forward last (List.mem_append_right _ List.mem_cons_self))
  · rw [List.mem_singleton.1 hlast]

/-- The span of a row starts with the first of its tokens and stops with the last one. -/
theorem eq_upTo (h : InOrder file row) (hs : Region.Spans row s) :
    ∃ first last, row.head? = some first ∧ row.getLast? = some last ∧
      s = first.span.upTo last.span := by
  obtain ⟨first, last, hfirst, hlast, rfl⟩ := hs
  obtain ⟨hstart, hstop⟩ := h.first_le hfirst (List.mem_of_getLast? hlast)
  exact ⟨first, last, hfirst, hlast, Span.merge_eq_upTo hstart hstop⟩

/-- The span of a part of a row lies in the span of the row. -/
theorem within (h : InOrder file row) (hs : Region.Spans row s) (hpart : row' <:+: row)
    (hs' : Region.Spans row' s') : s'.Within s := by
  obtain ⟨first, last, hfirst, hlast, rfl⟩ := h.eq_upTo hs
  obtain ⟨first', last', hfirst', hlast', rfl⟩ := (h.part hpart).eq_upTo hs'
  constructor
  · exact (h.first_le hfirst (hpart.subset (List.mem_of_head? hfirst'))).1
  · exact h.le_last hlast (hpart.subset (List.mem_of_getLast? hlast'))

/-- No part of a row starts or stops before its first token does. -/
theorem first_le_part (h : InOrder file row) (hfirst : row.head? = some first)
    (hpart : row' <:+: row)
    (hs' : Region.Spans row' s') : first.span.start ≤ s'.start ∧ first.span.stop ≤ s'.stop := by
  obtain ⟨first', last', hfirst', hlast', rfl⟩ := (h.part hpart).eq_upTo hs'
  constructor
  · exact (h.first_le hfirst (hpart.subset (List.mem_of_head? hfirst'))).1
  · exact (h.first_le hfirst (hpart.subset (List.mem_of_getLast? hlast'))).2

theorem start_le_stop (h : InOrder file row) (hs : Region.Spans row s) : s.start ≤ s.stop := by
  obtain ⟨first, last, hfirst, hlast, rfl⟩ := h.eq_upTo hs
  have hmem := List.mem_of_getLast? hlast
  exact Nat.le_trans (h.first_le hfirst hmem).1 (h.forward last hmem)

/-- What stands behind a row starts where the row stops, or behind. -/
theorem stop_le_start (h : InOrder file (front ++ back)) (hs : Region.Spans front s)
    (hpart : row' <:+: back) (hs' : Region.Spans row' s') : s.stop ≤ s'.start := by
  have hback : back <:+: front ++ back := (List.suffix_append _ _).isInfix
  obtain ⟨-, last, -, hlast, rfl⟩ := (h.part (List.prefix_append _ _).isInfix).eq_upTo hs
  obtain ⟨first', -, hfirst', -, rfl⟩ := (h.part (hpart.trans hback)).eq_upTo hs'
  exact (List.pairwise_append.1 h.apart).2.2 last (List.mem_of_getLast? hlast) first'
    (hpart.subset (List.mem_of_head? hfirst'))

end InOrder

/-! ## Pieces -/

namespace Piece

variable {file : Nat} {p : Piece} {ps : List Piece} {row tokens : List Token}

/-- A piece stops where another one starts, or before. -/
def Before (p q : Piece) : Prop := p.span.stop ≤ q.span.start

/-- Where a piece lies in the tokens of a file. Its span is that of a row of tokens that spells it,
the parts lie in it one behind the other, and a name is a token. -/
structure LaidOut (p : Piece) (file : Nat) (tokens : List Token) : Prop where
  row : ∃ row first last, row <:+: tokens ∧ row.map Token.symbol ∈ p.spelling ∧
    row.head? = some first ∧ row.getLast? = some last ∧ p.span = first.span.upTo last.span
  file : p.span.file = file
  within : ∀ q ∈ p.parts, q.span.Within p.span
  order : p.parts.Pairwise Before
  name : ∀ x, p = .name x → ∃ t ∈ tokens, t.kind = .identifier ∧ t.value = x.name ∧ t.span = x.span

/-- Pieces that stand in a row do not overlap, and are in order. -/
theorem AllStand.order (h : AllStand ps row) (hrow : InOrder file row) : ps.Pairwise Before := by
  induction ps generalizing row with
  | nil => exact .nil
  | cons p ps ih =>
    obtain ⟨gap, row', rest, rfl, hp, hrest⟩ := allStand_cons.1 h
    have hbehind : InOrder file (row' ++ rest) := hrow.part (List.suffix_append _ _).isInfix
    apply List.pairwise_cons.2 ⟨_, ih hrest (hbehind.part (List.suffix_append _ _).isInfix)⟩
    intro q hq
    obtain ⟨row'', hpart, hq⟩ := hrest.mem hq
    exact hbehind.stop_le_start hp.spans hpart hq.spans

theorem AllStand.stop_le_last (h : AllStand ps row) (hrow : InOrder file row) (hp : p ∈ ps)
    {q : Piece} (hq : ps.getLast? = some q) : p.span.stop ≤ q.span.stop := by
  obtain ⟨row', hpart, hstands⟩ := h.mem (List.mem_of_getLast? hq)
  have hforward := (hrow.part hpart).start_le_stop hstands.spans
  obtain ⟨front, rfl⟩ := List.getLast?_eq_some_iff.1 hq
  rcases List.mem_append.1 hp with hfront | hlast
  · have hbefore := (List.pairwise_append.1 (h.order hrow)).2.2 p hfront q List.mem_cons_self
    exact Nat.le_trans hbefore hforward
  · rw [List.mem_singleton.1 hlast]

theorem Stands.spelled (h : p.Stands row) (hrow : ∀ t ∈ row, t.symbol.Faithful) :
    row.map Token.symbol ∈ p.spelling := by
  cases h with
  | token hsymbol hspan =>
    cases p with
    | name x | path d => exact congrArg (fun s => [s]) (Option.some.inj hsymbol).symm
    | _ => cases hsymbol
  | tree htree hspelled hspan hparts => exact hspelled hrow

/-- A piece that stands on a part of the tokens of a file is laid out in them. -/
theorem Stands.laidOut (h : p.Stands row) (hpart : row <:+: tokens) (htokens : InOrder file tokens)
    (hfaithful : ∀ t ∈ row, t.symbol.Faithful) : p.LaidOut file tokens := by
  have hrow : InOrder file row := htokens.part hpart
  obtain ⟨first, last, hfirst, hlast, hspan⟩ := hrow.eq_upTo h.spans
  refine ⟨⟨row, first, last, hpart, h.spelled hfaithful, hfirst, hlast, hspan⟩, ?_, ?_,
    h.parts.order hrow, ?_⟩
  · rw [hspan]
    exact hrow.file first (List.mem_of_head? hfirst)
  · intro q hq
    obtain ⟨row', hpart', hstands⟩ := h.parts.mem hq
    exact hrow.within h.spans hpart' hstands.spans
  · rintro x rfl
    cases h with
    | @token t hsymbol hspan =>
      have hsymbol : x.symbol = t.symbol := Option.some.inj hsymbol
      exact ⟨t, hpart.subset List.mem_cons_self, congrArg Symbol.kind hsymbol.symm,
        congrArg Symbol.value hsymbol.symm, hspan.symm⟩
    | tree htree => cases htree

end Piece

/-! ## Files -/

/-- Where the spans of a file lie in its tokens. Its items and all that is inside them stand on rows
of tokens, each on its own part of the row that it is inside of. The file runs from the first token
to the stop of the last item; without items it is the token that ends the text. -/
structure SourceFile.LaidOut (f : SourceFile) (file : Nat) (tokens : List Token) : Prop where
  stands : Piece.AllStand f.pieces tokens
  number : f.span.file = file
  inside : ∀ p : Piece, p.Inside f.pieces → p.LaidOut file tokens
  within : ∀ p ∈ f.pieces, p.span.Within f.span
  order : f.pieces.Pairwise Piece.Before
  span : ∃ first, tokens.head? = some first ∧
    (f.items = [] → first.kind = .eof ∧ f.span = first.span) ∧
    ∀ s, f.items.getLast? = some s → f.span = first.span.upTo s.span

/-- In a text that is read without an error, every type, expression, statement and block has the
span from the first to the last of the tokens that spell it, with the semicolon of a statement but
none for the clauses of a counted loop. Names have the spans of their tokens, parts lie inside their
wholes, and parts of one whole lie one behind the other. -/
theorem parseSource_laidOut {source : String} {file : Nat} {f : SourceFile}
    (h : parseSource source file = some (.ok f)) : f.LaidOut file (tokenize source file) := by
  obtain ⟨front, eof, hsource, heof, hfront⟩ := tokenize_ends source file
  have horder := tokenize_inOrder source file
  have hread := readFrom_of_parseTokens ⟨eof, by simp [hsource], heof⟩ h
  obtain ⟨first, -, hfirst, -, -, hspan⟩ := hread.taken
  rw [hsource] at horder hread hfirst ⊢
  obtain ⟨c, c', htaken⟩ := hread.taken_front (fun t ht => (hfront t ht).1) heof
  have hpart : front <:+: front ++ [eof] := (List.prefix_append _ _).isInfix
  have hstands {p : Piece} (hp : p.Inside f.pieces) : ∃ row,
      row <:+: front ++ [eof] ∧ p.Stands row ∧
      ∀ t ∈ row, t.symbol.Faithful := by
    obtain ⟨row, hrow, hstands⟩ := hp.stands htaken.stands
    exact ⟨row, hrow.trans hpart, hstands, fun t ht => (hfront t (hrow.subset ht)).2⟩
  have hitems : f.pieces.Pairwise Piece.Before := htaken.stands.order (horder.part hpart)
  -- No item starts before the first token, so joining the two spans only moves the end.
  have hlast {s : Stmt} (hs : f.items.getLast? = some s) : f.span = first.span.upTo s.span := by
    obtain ⟨row, hrow, hstmt, -⟩ := hstands (.top (List.mem_map_of_mem (List.mem_of_getLast? hs)))
    obtain ⟨hstart, hstop⟩ := horder.first_le_part hfirst hrow hstmt.spans
    rw [hspan, hs]
    exact Span.merge_eq_upTo hstart hstop
  refine ⟨?_, ?_, ?_, ?_, hitems, first, hfirst, ?_, fun s => hlast⟩
  · simpa using htaken.stands.append (.nil [eof])
  · rw [hspan]
    cases f.items.getLast? <;> exact horder.file first (List.mem_of_head? hfirst)
  · intro p hp
    obtain ⟨row, hrow, hstands, hfaithful⟩ := hstands hp
    exact hstands.laidOut hrow horder hfaithful
  · intro p hp
    obtain ⟨row, hrow, hp', -⟩ := hstands (.top hp)
    obtain ⟨s, hs, rfl⟩ := List.mem_map.1 hp
    obtain ⟨s', hs'⟩ := Option.isSome_iff_exists.1 (List.getLast?_isSome.2 (List.ne_nil_of_mem hs))
    have hpieces : f.pieces.getLast? = some (.stmt s') := by simp [SourceFile.pieces, hs']
    rw [hlast hs']
    exact ⟨(horder.first_le_part hfirst hrow hp'.spans).1,
      htaken.stands.stop_le_last (horder.part hpart) hp hpieces⟩
  · intro hempty
    have hspelled := htaken.spelled fun t ht => (hfront t ht).2
    rw [SourceFile.write, hempty] at hspelled
    obtain rfl : front = [] := List.map_eq_nil_iff.1 hspelled
    cases hfirst
    refine ⟨heof, ?_⟩
    rw [hspan, hempty]
    rfl

/-- A counted loop, whose clauses have no semicolons of their own. -/
def countedLoop : String := "fn f() { for let i := 0; i < 3; i = i + 1 { } }"

/-- The file of the loop runs up to its last brace, and all that is inside it is laid out. -/
theorem parseSource_laidOut_countedLoop :
    ∃ f, parseSource countedLoop 7 = some (.ok f) ∧ f.span = ⟨0, 47, 1, 1, 7⟩ ∧
      f.LaidOut 7 (tokenize countedLoop 7) := by
  have hread : ((parseSource countedLoop 7).bind Except.toOption).any (fun f =>
      f.span == ⟨0, 47, 1, 1, 7⟩) = true := by
    decide +kernel
  obtain ⟨f, hf, hspan⟩ := (Option.any_eq_true _ _).1 hread
  obtain ⟨r, hr, hok⟩ := Option.bind_eq_some_iff.1 hf
  cases r with
  | error errors => cases hok
  | ok f' =>
    obtain rfl := Option.some.inj hok
    exact ⟨f', hr, beq_iff_eq.1 hspan, parseSource_laidOut hr⟩

end Custody
