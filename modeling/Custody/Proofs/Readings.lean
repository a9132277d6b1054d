import Custody.Proofs.Pieces

/-!
# How readers end

What every reader of the grammar does. `Parse.Settles` says it of a reader at a cursor: it ends
there, either with a value and a cursor of which something is known, behind at least so many tokens,
or with an error that stands on tokens it has taken or on the one where it stopped.

What is known of a value is mostly `Cursor.Takes`: in front of an `eof`, the tokens on the way spell
the tree, its pieces stand on them, and its nodes have the numbers that were handed out on the way.
Operators come out nested by their levels since of the operator behind an expression it is always
known that its level is not above that of the expression (`climb_settles`).

A cursor stops at the end of its list, where it shows the last token again and again. A reader that
goes on there without taking a token would have no end, so a reader is only asked to end where the
list has an `eof` or a last token behind which none goes on (`Cursor.Grounded`), and the bound on
its recursion has to be a little above the number of tokens ahead.

* `typeExpr_settles` and `expr_settles` say how types and expressions are read.
-/

set_option autoImplicit false

namespace Custody

open Style

/-- The kinds behind which an expression goes on without a look at the end of the list: the
operators in front of an operand and the opening parenthesis. -/
def TokenKind.opensExpr : TokenKind → Bool
  | .bang | .minus | .amp | .star | .kwOwn | .lParen => true
  | _ => false

/-- The kinds behind which a type goes on without a look at the end of the list: the signs of
pointers. -/
def TokenKind.opensType : TokenKind → Bool
  | .caret | .tilde => true
  | _ => false

/-- The kinds behind which a reader goes on without a look at the end of the list. -/
def TokenKind.opens (kind : TokenKind) : Bool := kind.opensExpr || kind.opensType

/-- The kinds of tokens behind which a type may have to stand, or a list of generic parameters
ends. -/
def TokenKind.leadsToType : TokenKind → Bool
  | .colon | .rParen | .lBracket | .comma | .rBracket | .caret | .tilde | .kwNew => true
  | _ => false

/-- The kinds of tokens that are expressions by themselves, names apart. A reader has a value there
even at the end of the list, where it takes nothing. -/
def TokenKind.isLeaf : TokenKind → Bool
  | .number | .string | .kwTrue | .kwFalse | .kwNull | .kwZero => true
  | _ => false

/-! ## Ways of a cursor -/

namespace Cursor

variable {c d c' : Cursor} {row row' : List Token} {kind : TokenKind}

/-- How many tokens can be taken: those in front of an `eof`, or all of them. -/
def ahead (c : Cursor) : Nat := (c.rest.takeWhile (·.kind != .eof)).length

/-- The last token of the list. -/
def last (c : Cursor) : Token := c.rest.getLast?.getD c.previous

/-- There is an `eof` ahead. -/
def Bounded (c : Cursor) : Prop := ∃ t ∈ c.rest, t.kind = .eof

/-- The list has an end where every reader stops: an `eof`, or a last token behind which none goes
on. -/
def Grounded (c : Cursor) : Prop := c.Bounded ∨ c.last.kind.opens = false

/-- The cursor behind a node that was finished there. -/
def numbered (c : Cursor) : Cursor := { c with nextId := c.nextId + 1 }

/-- The way from one cursor to another takes a row of tokens, and no `eof`. -/
structure Way (c c' : Cursor) (row : List Token) : Prop where
  rest : c.rest = row ++ c'.rest
  kinds : ∀ t ∈ row, t.kind ≠ .eof
  previous : c'.previous = row.getLast?.getD c.previous

theorem Way.refl (c : Cursor) : c.Way c [] := ⟨rfl, nofun, rfl⟩

theorem Way.trans (h : c.Way d row) (h' : d.Way c' row') : c.Way c' (row ++ row') := by
  refine ⟨by rw [h.rest, h'.rest, List.append_assoc], fun t ht => ?_, ?_⟩
  · exact (List.mem_append.1 ht).elim (h.kinds t) (h'.kinds t)
  -- The last token is that of the second way, if it took one.
  · rw [h'.previous, h.previous, List.getLast?_append]
    cases row'.getLast? with
    | none => rfl
    | some t => rfl

theorem Way.ahead_eq (h : c.Way d row) : c.ahead = row.length + d.ahead := by
  rw [ahead, h.rest, List.takeWhile_append_of_pos fun t ht => bne_iff_ne.2 (h.kinds t ht),
    List.length_append]
  rfl

theorem Way.last_eq (h : c.Way d row) : d.last = c.last := by
  rw [last, last, h.previous, h.rest, List.getLast?_append]
  cases d.rest.getLast? with
  | none => rfl
  | some t => rfl

theorem Way.bounded (h : c.Way d row) (hbounded : c.Bounded) : d.Bounded := by
  obtain ⟨t, ht, heof⟩ := hbounded
  rw [h.rest] at ht
  exact ⟨t, (List.mem_append.1 ht).resolve_left fun ht => h.kinds t ht heof, heof⟩

theorem Way.grounded (h : c.Way d row) (hc : c.Grounded) : d.Grounded := by
  rcases hc with hbounded | hlast
  · exact .inl (h.bounded hbounded)
  · exact .inr (h.last_eq ▸ hlast)

/-- Where nothing can be taken, a way stays in front of the same token. -/
theorem Way.current_eq (h : c.Way d row) (hend : c.ahead = 0) : d.current = c.current := by
  have hnone : row = [] := List.length_eq_zero_iff.1 (by have := h.ahead_eq; omega)
  subst hnone
  unfold Cursor.current
  rw [h.rest, h.previous]
  rfl

/-- A way that takes a token has the span from the token at its start to the one before its end. -/
theorem Way.spans (h : c.Way d row) (hmoves : d.ahead < c.ahead) :
    Region.Spans row (c.current.span.merge d.previous.span) := by
  cases row with
  | nil =>
    have := h.ahead_eq
    exact absurd hmoves (by simp_all)
  | cons first row =>
    have hcurrent : c.current = first := by
      unfold Cursor.current
      rw [h.rest]
      rfl
    have hprevious := h.previous
    rw [List.getLast?_cons, Option.getD_some] at hprevious
    exact ⟨first, d.previous, rfl, by rw [List.getLast?_cons, hprevious], by rw [hcurrent]⟩

theorem atEnd_iff : c.atEnd = true ↔ c.ahead = 0 := by
  unfold atEnd ahead
  cases c.rest with
  | nil => simp
  | cons t ts => by_cases heof : t.kind = .eof <;> simp [heof]

theorem ahead_pos (h : c.atEnd = false) : 0 < c.ahead := by
  refine Nat.pos_of_ne_zero fun hend => ?_
  rw [atEnd_iff.2 hend] at h
  cases h

theorem ahead_pos_of_check (h : c.check kind = true) : 0 < c.ahead := by
  unfold check at h
  exact ahead_pos (by simpa using (Bool.and_eq_true_iff.1 h).1)

theorem kind_of_check (h : c.check kind = true) : c.current.kind = kind := by
  unfold check at h
  exact beq_iff_eq.1 (Bool.and_eq_true_iff.1 h).2

/-- A step takes the current token, unless nothing can be taken. -/
theorem way_advance (h : 0 < c.ahead) : c.Way c.advance [c.current] := by
  unfold ahead at h
  unfold advance Cursor.current
  cases hrest : c.rest with
  | nil => simp [hrest] at h
  | cons t ts =>
    by_cases heof : t.kind = .eof
    · simp [hrest, heof] at h
    · dsimp only
      rw [if_neg heof]
      exact ⟨hrest, by simpa using heof, rfl⟩

theorem advance_eq_self (h : c.ahead = 0) : c.advance = c := by
  unfold ahead at h
  unfold advance
  cases hrest : c.rest with
  | nil => rfl
  | cons t ts =>
    by_cases heof : t.kind = .eof
    · exact if_pos heof
    · simp [hrest, heof] at h

theorem nextId_advance (c : Cursor) : c.advance.nextId = c.nextId := by
  unfold advance
  split
  · rfl
  · split <;> rfl

theorem rest_of_ahead (h : c.ahead = 0) (hkind : c.current.kind ≠ .eof) : c.rest = [] := by
  unfold ahead at h
  unfold Cursor.current at hkind
  cases hrest : c.rest with
  | nil => rfl
  | cons t ts =>
    rw [hrest] at hkind
    simp [hrest, hkind] at h

theorem Bounded.ahead_pos (hc : c.Bounded) (h : c.current.kind ≠ .eof) : 0 < c.ahead := by
  refine Nat.pos_of_ne_zero fun hend => ?_
  obtain ⟨t, ht, -⟩ := hc
  rw [rest_of_ahead hend h] at ht
  cases ht

/-- At an end where every reader stops, none goes on behind the current token. -/
theorem Grounded.ahead_pos (hc : c.Grounded) (h : c.current.kind.opens = true) : 0 < c.ahead := by
  have heof : c.current.kind ≠ .eof := fun heof => by rw [heof] at h; cases h
  rcases hc with hbounded | hlast
  · exact hbounded.ahead_pos heof
  · refine Nat.pos_of_ne_zero fun hend => ?_
    have hrest := rest_of_ahead hend heof
    unfold Cursor.current at h
    unfold last at hlast
    rw [hrest] at h hlast
    exact Bool.false_ne_true (hlast.symm.trans h)

/-- An error token stands only behind a token that leads to a type. -/
def AwaitsType (c : Cursor) : Prop := c.current.kind = .error → c.previous.kind.leadsToType = true

theorem awaitsType_of_ne (h : c.current.kind ≠ .error) : c.AwaitsType :=
  fun herror => absurd herror h

theorem awaitsType_of_previous (h : c.previous.kind = kind) (hkind : kind.leadsToType = true) :
    c.AwaitsType :=
  fun _ => h ▸ hkind

/-- How many tokens a reader of an expression takes at least. At the end of the list it takes none,
and has a value only if the last token is an expression by itself. -/
def least (c : Cursor) : Nat := if c.current.kind.isLeaf then min 1 c.ahead else 1

theorem least_le_one (c : Cursor) : c.least ≤ 1 := by
  unfold least
  split <;> omega

theorem least_of_pos (h : 0 < c.ahead) : c.least = 1 := by
  unfold least
  split <;> omega

theorem least_of_leaf (h : c.current.kind.isLeaf = true) : c.least = min 1 c.ahead := if_pos h

theorem least_of_not_leaf (h : c.current.kind.isLeaf = false) : c.least = 1 := if_neg (by simp [h])

/-- Where a reader need not take a token, there is none to take and the last one is an
expression. -/
theorem least_pos_or (c : Cursor) : c.least = 1 ∨ c.ahead = 0 ∧ c.current.kind.isLeaf = true := by
  unfold least
  split
  · rename_i hleaf
    by_cases hend : c.ahead = 0
    · exact .inr ⟨hend, hleaf⟩
    · exact .inl (by omega)
  · exact .inl rfl

/-! ## What a way takes -/

variable {L M : Language Symbol} {p : Piece} {ps ps' : List Piece}

/-- The way from one cursor to another takes a row of tokens without errors. The row is one of the
language if its tokens are faithful, the pieces stand in it, and their nodes have the numbers handed
out on the way. -/
structure Taken (c c' : Cursor) (L : Language Symbol) (ps : List Piece) (row : List Token) :
    Prop where
  way : c.Way c' row
  sound : ∀ t ∈ row, t.kind ≠ .error
  spelled : (∀ t ∈ row, t.symbol.Faithful) → row.map Token.symbol ∈ L
  stands : Piece.AllStand ps row
  numbers : Piece.ids ps = List.range' c.nextId (Piece.ids ps).length
  nextId : c'.nextId = c.nextId + (Piece.ids ps).length

/-- In front of an `eof`, the way from one cursor to another takes a row of the language with the
pieces. -/
def Takes (c c' : Cursor) (L : Language Symbol) (ps : List Piece) : Prop :=
  c.Bounded → ∃ row, c.Taken c' L ps row

theorem takes_nothing (c : Cursor) : c.Takes c 1 [] :=
  fun _ => ⟨[], .refl c, nofun, fun _ => rfl, .nil [], rfl, rfl⟩

theorem Takes.trans (h : c.Takes d L ps) (h' : d.Takes c' M ps') :
    c.Takes c' (L * M) (ps ++ ps') := by
  intro hc
  obtain ⟨row, hrow⟩ := h hc
  obtain ⟨row', hrow'⟩ := h' (hrow.way.bounded hc)
  refine ⟨row ++ row', hrow.way.trans hrow'.way, fun t ht => ?_, fun hfaithful => ?_,
    hrow.stands.append hrow'.stands, ?_, ?_⟩
  · exact (List.mem_append.1 ht).elim (hrow.sound t) (hrow'.sound t)
  · rw [List.map_append]
    exact Language.append_mem_mul
      (hrow.spelled fun t ht => hfaithful t (List.mem_append_left row' ht))
      (hrow'.spelled fun t ht => hfaithful t (List.mem_append_right row ht))
  -- The second way numbers from where the first one stopped.
  · have hsecond := hrow'.numbers
    rw [hrow.nextId] at hsecond
    rw [Piece.ids_append, List.length_append, ← List.range'_append_1, ← hrow.numbers, ← hsecond]
  · rw [hrow'.nextId, hrow.nextId, Piece.ids_append, List.length_append, Nat.add_assoc]

/-- Tokens of no piece may follow. -/
theorem Takes.skip (h : c.Takes d L ps) (h' : d.Takes c' M []) : c.Takes c' (L * M) ps := by
  have htrans := h.trans h'
  rwa [List.append_nil] at htrans

theorem Takes.mono (h : c.Takes c' L ps) (hle : ∀ row ∈ L, row ∈ M) : c.Takes c' M ps := by
  intro hc
  obtain ⟨row, hrow⟩ := h hc
  exact ⟨row, { hrow with spelled := fun hfaithful => hle _ (hrow.spelled hfaithful) }⟩

theorem Takes.optional (h : c.Takes c' L ps) : c.Takes c' (lenient.optional L) ps :=
  h.mono fun _ => .inr

theorem takes_omitted (c : Cursor) (L : Language Symbol) : c.Takes c (lenient.optional L) [] :=
  c.takes_nothing.mono fun _ => .inl

/-- A way with a piece on it takes a token. -/
theorem Takes.moves (h : c.Takes d L (p :: ps)) (hc : c.Bounded) : d.ahead < c.ahead := by
  obtain ⟨row, hrow⟩ := h hc
  have hlength := List.length_pos_of_ne_nil hrow.stands.ne_nil
  have := hrow.way.ahead_eq
  omega

/-- A step takes the current token. -/
theorem takes_step (hkind : c.current.kind = kind) (heof : kind ≠ .eof) (herror : kind ≠ .error)
    (hspelled : c.current.symbol.Faithful → [c.current.symbol] ∈ L)
    (hstands : Piece.AllStand ps [c.current])
    (hids : Piece.ids ps = []) : c.Takes c.advance L ps := by
  intro hc
  refine ⟨[c.current], way_advance (hc.ahead_pos (hkind ▸ heof)), ?_, fun hfaithful => ?_,
    hstands, ?_, ?_⟩
  · rw [List.forall_mem_singleton, hkind]
    exact herror
  · exact hspelled (hfaithful _ (List.mem_singleton.2 rfl))
  · rw [hids]
    rfl
  · rw [hids]
    exact c.nextId_advance

/-- A step takes the current token, if its kind has only one spelling. -/
theorem takes_kind (hkind : c.current.kind = kind) (hspelling : kind.spelling?.isSome = true) :
    c.Takes c.advance (lenient.kind kind) [] := by
  obtain ⟨text, htext⟩ := Option.isSome_iff_exists.1 hspelling
  have hkinds : kind ≠ .eof ∧ kind ≠ .error := by
    constructor <;> (rintro rfl; cases htext)
  refine takes_step hkind hkinds.1 hkinds.2 (fun hfaithful => ?_) (.nil _) rfl
  have hvalue : c.current.value = text := hfaithful.spelled text (by rw [← htext, ← hkind]; rfl)
  rw [Style.kind, TokenKind.symbol, htext, Option.getD_some, ← hvalue, ← hkind]
  rfl

/-- The pieces on a way become the parts of one piece with the span of the way. -/
theorem Taken.enclose (h : c.Taken d L ps row) (hmoves : d.ahead < c.ahead)
    (htree : p.symbol? = none) (hparts : p.parts = ps)
    (hspan : p.span = c.current.span.merge d.previous.span)
    (hspelled : ∀ row ∈ L, row ∈ p.spelling) : p.Stands row := by
  refine .tree htree (fun hfaithful => hspelled _ (h.spelled hfaithful)) ?_ (hparts ▸ h.stands)
  rw [hspan]
  exact h.way.spans hmoves

/-- A node is finished behind its parts. -/
theorem Takes.node (h : c.Takes d L ps) (hmoves : c.Bounded → d.ahead < c.ahead)
    (hmark : p.mark? = some ⟨d.nextId, c.current.span.merge d.previous.span⟩)
    (hparts : p.parts = ps)
    (hspelled : ∀ row ∈ L, row ∈ p.spelling) : c.Takes d.numbered L [p] := by
  intro hc
  obtain ⟨row, hrow⟩ := h hc
  have htree : p.symbol? = none ∧ p.span = c.current.span.merge d.previous.span := by
    cases p with
    | type | expr | stmt | clause => exact ⟨rfl, congrArg Mark.span (Option.some.inj hmark)⟩
    | block | name | path => cases hmark
  have hstands := hrow.enclose (hmoves hc) htree.1 hparts htree.2 hspelled
  have hids : Piece.ids [p] = Piece.ids ps ++ [d.nextId] := hparts ▸ Piece.ids_node hmark
  refine ⟨row, ⟨hrow.way.rest, hrow.way.kinds, hrow.way.previous⟩, hrow.sound, hrow.spelled,
    hstands.single, ?_, ?_⟩
  · rw [hids, List.length_append, List.length_singleton, List.range'_concat,
      ← hrow.numbers, hrow.nextId, Nat.one_mul]
  · rw [hids, List.length_append, List.length_singleton, ← Nat.add_assoc, ← hrow.nextId]
    rfl

/-- A block is finished behind its statements, without a number. -/
theorem Takes.block {b : Block} (h : c.Takes d (b.write lenient) (b.stmts.map .stmt))
    (hmoves : c.Bounded → d.ahead < c.ahead)
    (hspan : c.Bounded → b.span = c.current.span.merge d.previous.span) :
    c.Takes d (b.write lenient) [.block b] := by
  intro hc
  obtain ⟨row, hrow⟩ := h hc
  have hstands :=
    @Taken.enclose c d row _ (.block b) _ hrow (hmoves hc) rfl rfl (hspan hc) fun _ => id
  refine ⟨row, hrow.way, hrow.sound, hrow.spelled, hstands.single, ?_, ?_⟩
  · rw [Piece.ids_block]
    exact hrow.numbers
  · rw [Piece.ids_block]
    exact hrow.nextId

/-- A token of a kind stands at a cursor, and a step gives it and leads to another cursor. -/
structure Took (kind : TokenKind) (c : Cursor) (t : Token) (d : Cursor) : Prop where
  kind : c.current.kind = kind
  token : t = c.advance.previous
  cursor : d = c.advance

namespace Took

variable {t : Token}

theorem takes (h : Took kind c t d) (hspelling : kind.spelling?.isSome = true) :
    c.Takes d (lenient.kind kind) [] := by
  rw [h.cursor]
  exact takes_kind h.kind hspelling

theorem previous_kind (h : Took kind c t d) (hpos : 0 < c.ahead) : d.previous.kind = kind := by
  rw [h.cursor, (way_advance hpos).previous]
  exact h.kind

/-- In front of an `eof`, the token is the one that stood at the cursor. -/
theorem eq_current (h : Took kind c t d) (hc : c.Bounded) (heof : kind ≠ .eof) :
    t = c.current ∧ d.previous = c.current := by
  have hprevious := (way_advance (hc.ahead_pos (h.kind ▸ heof))).previous
  rw [h.token, h.cursor]
  exact ⟨hprevious, hprevious⟩

/-- A token that is a piece of its own stands for that piece. -/
theorem takes_token (h : Took kind c t d) (hkinds : kind ≠ .eof ∧ kind ≠ .error)
    (hsymbol : p.symbol? = some ⟨kind, t.value⟩) (hspan : p.span = t.span)
    (hids : Piece.ids [p] = []) : c.Takes d (lenient.symbol ⟨kind, t.value⟩) [p] := by
  intro hc
  obtain ⟨rfl, -⟩ := h.eq_current hc hkinds.1
  have hcurrent : c.current.symbol = ⟨kind, c.current.value⟩ := by rw [Token.symbol, h.kind]
  rw [h.cursor]
  refine takes_step h.kind hkinds.1 hkinds.2 (fun _ => ?_) ?_ hids hc
  · rw [hcurrent]
    rfl
  · exact Piece.Stands.single (.token (hcurrent ▸ hsymbol) hspan)

end Took

end Cursor

/-! ## Readers that end -/

/-- An error stands on a row of the given tokens. -/
def ParseError.StandsIn (tokens : List Token) (e : ParseError) : Prop :=
  ∃ row, row <:+: tokens ∧ Region.Spans row e.span

theorem ParseError.StandsIn.of_row {tokens tokens' : List Token} {e : ParseError}
    (h : e.StandsIn tokens) (hpart : tokens <:+: tokens') : e.StandsIn tokens' := by
  obtain ⟨row, hrow, hspan⟩ := h
  exact ⟨row, hrow.trans hpart, hspan⟩

theorem ParseError.standsIn_token (t : Token) (fault : SyntaxFault) :
    (⟨fault, t.span⟩ : ParseError).StandsIn [t] :=
  ⟨[t], List.infix_rfl, t, t, rfl, rfl, by simp [Span.merge]⟩

/-- An error at the current token of a cursor. If that is an error token, the error says what the
token says. Only a missing type and an empty list of generic parameters are told instead, behind
tokens that lead to them. -/
structure ParseError.RaisedAt (c : Cursor) (e : ParseError) : Prop where
  span : e.span = c.current.span
  fault : c.current.kind = .error → e.fault = .lexical c.current.value ∨
    c.previous.kind.leadsToType = true ∧ (e.fault = .expectedType .error ∨ e.fault = .emptyGenerics)

theorem ParseError.standsIn_of_raised {row : List Token} {d : Cursor} {e : ParseError}
    (h : e.StandsIn row ∨ e.RaisedAt d) : e.StandsIn (row ++ [d.current]) := by
  rcases h with h | h
  · exact h.of_row (List.prefix_append row _).isInfix
  · obtain ⟨fault, span⟩ := e
    obtain rfl : span = d.current.span := h.span
    exact (standsIn_token _ fault).of_row (List.suffix_append row _).isInfix

/-- The token that a step takes is one that an error may stand on. -/
theorem Cursor.Took.standsIn {c d : Cursor} {t : Token} {kind : TokenKind} {row : List Token}
    (h : Took kind c t d) (hc : c.Bounded) (way : c.Way d row) (heof : kind ≠ .eof)
    {fault : SyntaxFault} : (⟨fault, t.span⟩ : ParseError).StandsIn row := by
  have hstep := way_advance (hc.ahead_pos (h.kind ▸ heof))
  rw [h.cursor] at way
  rw [List.append_cancel_right (way.rest.symm.trans hstep.rest), (h.eq_current hc heof).1]
  exact ParseError.standsIn_token _ _

namespace Parse

variable {α β : Type} {c : Cursor} {least least' : Nat}

/-- How a reading from a cursor ends: with a value, behind at least so many tokens, or with an
error. In front of an `eof`, an error stands on the tokens taken or is raised at the one behind
them. -/
inductive Ending (least : Nat) (c : Cursor) (Q : α → Cursor → Prop) :
    Option (Except ParseError α × Cursor) → Prop
  | value {a : α} {d : Cursor} {row : List Token} (way : c.Way d row) (htaken : least ≤ row.length)
      (h : Q a d) :
      Ending least c Q (some (.ok a, d))
  | error {e : ParseError} {d : Cursor} {row : List Token} (way : c.Way d row)
      (place : c.Bounded → e.StandsIn row ∨ e.RaisedAt d) : Ending least c Q (some (.error e, d))

/-- In a list with an end the reader ends, and what is asked of its value holds. -/
def Settles (least : Nat) (p : Parse α) (c : Cursor) (Q : α → Cursor → Prop) : Prop :=
  c.Grounded → Ending least c Q (p c)

namespace Settles

variable {p p' : Parse α} {f : α → Parse β} {a : α} {P Q : α → Cursor → Prop}
  {R : β → Cursor → Prop} {kind : TokenKind}

/-- Weaker promises are kept too. What is known of the value may use the way to it. -/
theorem imp (h : Settles least p c P) (hle : least' ≤ least)
    (himp : ∀ a d row, c.Way d row → P a d → Q a d) : Settles least' p c Q := by
  intro hc
  have hend := h hc
  generalize p c = x at hend ⊢
  cases hend with
  | value way htaken ha => exact .value way (Nat.le_trans hle htaken) (himp _ _ _ way ha)
  | error way place => exact .error way place

theorem mono (h : Settles least p c Q) (hle : least' ≤ least) : Settles least' p c Q :=
  h.imp hle fun _ _ _ _ ha => ha

theorem of_grounded (h : c.Grounded → Settles least p c Q) : Settles least p c Q :=
  fun hc => h hc hc

/-- The second reader starts where the first one stopped, and has fewer tokens to take. It may also
fail at what the first one took. -/
theorem bind_or_fail (h : Settles least p c P)
    (hf : ∀ a d, P a d → d.ahead + least ≤ c.ahead → Settles (least' - least) (f a) d R ∨
      ∃ fault span, f a = Parse.failAt fault span ∧
        (c.Bounded → ∀ row, c.Way d row → (⟨fault, span⟩ : ParseError).StandsIn row)) :
    Settles least' (p >>= f) c R := by
  intro hc
  change Ending least' c R (Parse.bind p f c)
  unfold Parse.bind
  have hend := h hc
  generalize p c = x at hend
  -- The way goes on only behind a value; an error of the first reader is one of both.
  cases hend with
  | error way place => exact .error way place
  | @value a d row way htaken ha =>
    have hahead := way.ahead_eq
    dsimp only
    rcases hf a d ha (by omega) with hsecond | ⟨fault, span, hfail, place⟩
    · have hend' := hsecond (way.grounded hc)
      generalize f a d = x' at hend' ⊢
      cases hend' with
      | value way' htaken' hb =>
        refine .value (way.trans way') ?_ hb
        rw [List.length_append]
        omega
      | error way' place =>
        exact .error (way.trans way') fun hbounded => (place (way.bounded hbounded)).imp_left
          fun h => h.of_row (List.suffix_append row _).isInfix
    · rw [hfail]
      exact .error way fun hbounded => .inl (place hbounded row way)

theorem bind (h : Settles least p c P)
    (hf : ∀ a d, P a d → d.ahead + least ≤ c.ahead → Settles (least' - least) (f a) d R) :
    Settles least' (p >>= f) c R :=
  h.bind_or_fail fun a d ha hd => .inl (hf a d ha hd)

theorem pure (h : Q a c) : Settles 0 (Pure.pure a) c Q :=
  fun _ => .value (.refl c) (Nat.zero_le _) h

theorem fail {fault : SyntaxFault} (h : c.current.kind = .error → fault = .lexical c.current.value ∨
      c.previous.kind.leadsToType = true ∧
        (fault = .expectedType .error ∨ fault = .emptyGenerics)) :
    Settles least (Parse.fail fault) c Q :=
  fun _ => .error (.refl c) fun _ => .inr ⟨rfl, h⟩

theorem fail_of_ne {fault : SyntaxFault} (hkind : c.current.kind = kind) (h : kind ≠ .error) :
    Settles least (Parse.fail fault) c Q :=
  fail fun herror => absurd (hkind.symm.trans herror) h

theorem look {view : Cursor → α} (h : Settles least (f (view c)) c R) :
    Settles least (Parse.look view >>= f) c R := h

theorem ite {b : Bool} (hyes : b = true → Settles least p c Q)
    (hno : b = false → Settles least p' c Q) : Settles least (if b = true then p else p') c Q := by
  cases b with
  | true => exact hyes rfl
  | false => exact hno rfl

theorem advance (hkind : c.current.kind = kind) :
    Settles (min 1 c.ahead) Parse.advance c (Cursor.Took kind c) := by
  intro _
  by_cases hend : c.ahead = 0
  · have hstay : c.Way c.advance [] := by
      rw [c.advance_eq_self hend]
      exact .refl c
    exact .value hstay (by simp [hend]) ⟨hkind, rfl, rfl⟩
  · exact .value (c.way_advance (Nat.pos_of_ne_zero hend)) (Nat.min_le_left _ _) ⟨hkind, rfl, rfl⟩

/-- Where a token can be taken, a step takes it. -/
theorem step (hkind : c.current.kind = kind) (h : 0 < c.ahead) :
    Settles 1 Parse.advance c (Cursor.Took kind c) :=
  (advance hkind).mono (Nat.le_min.2 ⟨Nat.le_refl 1, h⟩)

theorem checked (h : c.check kind = true) : Settles 1 Parse.advance c (Cursor.Took kind c) :=
  step (Cursor.kind_of_check h) (Cursor.ahead_pos_of_check h)

theorem expect : Settles 1 (Parse.expect kind) c (Cursor.Took kind c) := by
  intro hc
  unfold Parse.expect
  split
  · rename_i hcheck
    exact checked hcheck hc
  · split
    · exact fail (fun _ => .inl rfl) hc
    · next hkind => exact fail_of_ne rfl hkind hc

/-- A name stands on the token that was taken for it. -/
theorem ident : Settles 1 Parse.ident c fun x d => c.Takes d (lenient.name x) [.name x] :=
  expect.bind fun _ _ htook _ => pure (htook.takes_token (by decide) rfl rfl rfl)

/-- To finish a node takes nothing. -/
theorem finish {start : Span} {f : Mark → Parse β}
    (h : Settles least (f ⟨c.nextId, start.merge c.previous.span⟩) c.numbered R) :
    Settles least (Parse.finish start >>= f) c R := by
  intro hc
  have hend := h hc
  change Ending least c R (f ⟨c.nextId, start.merge c.previous.span⟩ c.numbered)
  generalize f ⟨c.nextId, start.merge c.previous.span⟩ c.numbered = x at hend ⊢
  cases hend with
  | value way htaken hb => exact .value ⟨way.rest, way.kinds, way.previous⟩ htaken hb
  | error way place => exact .error ⟨way.rest, way.kinds, way.previous⟩ place

section Items

variable {item : Parse α} {write : α → Language Symbol} {pieces : α → List Piece} {fits : α → Bool}
  {close : TokenKind} {fuel : Nat}

/-- Every item of a list takes a token, so that a list ends with as many steps as there are tokens
ahead. The items are taken with the commas between them, so that each but the first starts behind a
comma. -/
theorem items (hitem : ∀ d, 0 < d.ahead → d.ahead ≤ c.ahead →
      d.previous.kind = c.previous.kind ∨ d.previous.kind = .comma →
        Settles 1 item d fun x e => d.Takes e (write x) (pieces x) ∧
          fits x = true) (h : c.ahead < fuel) :
    Settles 0 (Parse.items close item fuel) c fun xs d =>
      c.Takes d (lenient.listed (xs.map write)) (xs.flatMap pieces) ∧ xs.all fits = true := by
  induction fuel generalizing c with
  | zero => exact absurd h (Nat.not_lt_zero _)
  | succ fuel ih =>
    refine look (ite (fun _ => pure ⟨c.takes_nothing, rfl⟩) fun hgo => ?_)
    have hpos : 0 < c.ahead := Cursor.ahead_pos (Bool.or_eq_false_iff.1 hgo).2
    refine (hitem c hpos (Nat.le_refl _) (.inl rfl)).bind fun x d hx hd =>
      look (ite (fun hclose => ?_) fun _ => ?_)
    -- Without a comma the list ends, and the rest of it is empty.
    · have hlast : Settles 0 (Parse.items close item fuel) d fun xs e => xs = [] ∧ e = d := by
        cases fuel with
        | zero => omega
        | succ fuel =>
          refine look (ite (fun _ => pure ⟨rfl, rfl⟩) fun hgo => ?_)
          rw [hclose] at hgo
          cases hgo
      refine hlast.bind fun xs e hxs _ => ?_
      obtain ⟨rfl, rfl⟩ := hxs
      exact pure ⟨hx.1.trans (Cursor.takes_omitted _ _), by rw [List.all_cons, hx.2]; rfl⟩
    · refine expect.bind fun _ e hcomma he => ?_
      have hprevious := hcomma.previous_kind (by omega)
      refine (ih (fun e' hpos' hle hbehind => hitem e' hpos' (by omega)
        (.inr (hbehind.elim (·.trans hprevious) id))) (by omega)).bind fun xs e' hxs _ => pure ?_
      refine ⟨hx.1.trans ?_, by rw [List.all_cons, hx.2, hxs.2]; rfl⟩
      have hrest := (hcomma.takes rfl).trans hxs.1
      cases xs with
      | nil =>
        rw [show lenient.listed (List.map write []) = 1 from rfl, mul_one] at hrest
        exact hrest.optional
      | cons x' xs => exact hrest

theorem itemsTo (hspelling : close.spelling?.isSome = true) {opening : TokenKind} {c₀ : Cursor}
    (hopen : c₀.Takes c (lenient.kind opening) [])
    (hitem : ∀ d, 0 < d.ahead → d.ahead ≤ c.ahead →
      d.previous.kind = c.previous.kind ∨ d.previous.kind = .comma →
      Settles 1 item d fun x e => d.Takes e (write x) (pieces x) ∧
        fits x = true) (h : c.ahead < fuel) :
    Settles 1 (Parse.itemsTo close item fuel) c fun xs d =>
      c₀.Takes d (lenient.enclosed opening close (xs.map write)) (xs.flatMap pieces) ∧
        xs.all fits = true ∧ d.previous.kind = close := by
  refine (items hitem h).bind fun xs d hxs _ => expect.bind fun _ e hclose he =>
    pure ⟨?_, hxs.2, ?_⟩
  · exact (hopen.trans hxs.1).skip (hclose.takes hspelling)
  · exact hclose.previous_kind (by omega)

end Items

end Settles

end Parse

/-! ## Types -/

namespace Grammar

open Parse

variable {c d : Cursor} {fuel : Nat}

/-- A type is taken between two cursors, and it can be written. -/
structure TypeTaken (c : Cursor) (t : TypeExpr) (d : Cursor) : Prop where
  takes : c.Takes d (t.write lenient) [.type t]
  wellShaped : t.wellShaped = true

/-- The last step of the reader of a type. -/
theorem TypeTaken.node {t : TypeExpr} {ps : List Piece} (h : c.Takes d (t.write lenient) ps)
    (hmoves : d.ahead < c.ahead) (hmark : t.mark = ⟨d.nextId, c.current.span.merge d.previous.span⟩)
    (hparts : t.pieces = ps) (hshape : t.wellShaped = true) : TypeTaken c t d.numbered :=
  ⟨h.node (fun _ => hmoves) (congrArg some hmark) hparts fun _ => id, hshape⟩

section Types

variable {type : Parse TypeExpr}

/-- Type arguments are taken with what stands in front of them. -/
theorem typeArgs_settles (htype : ∀ d, d.ahead < c.ahead → d.AwaitsType →
    Settles 1 type d (TypeTaken d)) (h : c.ahead ≤ fuel)
    {c₀ : Cursor} {front : Language Symbol} (hfront : c₀.Takes c front []) :
    Settles 1 (typeArgs type fuel) c fun ts d =>
      c₀.Takes d (lenient.typeArgs front (TypeExpr.writeAll lenient ts)) (ts.map .type) ∧
        ts.all TypeExpr.wellShaped = true := by
  refine Settles.expect.bind fun _ d hopen hd => ?_
  have hitem (e : Cursor) (_ : 0 < e.ahead) (he : e.ahead ≤ d.ahead)
      (hbehind : e.previous.kind = d.previous.kind ∨ e.previous.kind = .comma) :
        Settles 1 type e fun t e' =>
        e.Takes e' (t.write lenient) [.type t] ∧ t.wellShaped = true := by
    have hawaits : e.AwaitsType := by
      rcases hbehind with hfirst | hcomma
      · exact e.awaitsType_of_previous (hfirst.trans (hopen.previous_kind (by omega))) rfl
      · exact e.awaitsType_of_previous hcomma rfl
    exact (htype e (by omega) hawaits).imp (Nat.le_refl 1) fun _ _ _ _ ht =>
      ⟨ht.takes, ht.wellShaped⟩
  refine (Settles.itemsTo rfl (hopen.takes rfl) hitem (by omega)).imp (Nat.zero_le _)
    fun ts e _ _ hts => ?_
  have htaken := hfront.trans hts.1
  rw [List.nil_append, ← List.map_eq_flatMap] at htaken
  rw [TypeExpr.writeAll_eq_map, Style.typeArgs]
  refine ⟨?_, hts.2.1⟩
  split
  · exact htaken.optional
  · exact htaken

theorem namedType_settles (htype : ∀ d, d.ahead < c.ahead → d.AwaitsType →
    Settles 1 type d (TypeTaken d)) (h : c.ahead ≤ fuel) :
    Settles 1 (namedType type fuel) c (TypeTaken c) := by
  refine Settles.look (Settles.ident.bind fun first d hfirst hd => ?_)
  -- What follows the name, once the name is read.
  have hargs (space : Option Ident) (name : Ident) (e : Cursor) (he : e.ahead < c.ahead)
      (hname : c.Takes e
        (space.elim 1 (fun s => lenient.name s * lenient.kind .dot) * lenient.name name)
        (space.toList.map .name ++ [.name name])) :
      Settles 0
        (check .lBracket >>= fun bracket => if bracket then
            typeArgs type fuel >>= fun args =>
              finish c.current.span >>= fun mark => pure (TypeExpr.named mark space name args)
          else finish c.current.span >>= fun mark => pure (TypeExpr.named mark space name [])) e
        (TypeTaken c) := by
    refine Settles.look (Settles.ite (fun _ => ?_) fun _ => Settles.finish (Settles.pure ?_))
    · refine (typeArgs_settles (fun e' he' => htype e' (by omega)) (by omega) e.takes_nothing).bind
        fun args e' hargs he' => Settles.finish (Settles.pure ?_)
      refine .node (hname.trans hargs.1) (by omega) rfl rfl ?_
      rw [TypeExpr.wellShaped, TypeExpr.wellShapedAll_eq_all]
      exact hargs.2
    · exact .node (hname.trans (e.takes_omitted _)) he rfl rfl rfl
  refine Settles.look (Settles.ite (fun hdot => ?_) fun _ => ?_)
  · refine (Settles.checked hdot).bind fun _ e htook he =>
      Settles.ident.bind fun name e' hname he' => ?_
    refine (hargs (some first) name e' (by omega) ?_).mono (by omega)
    exact (hfirst.skip (htook.takes rfl)).trans hname
  · exact hargs none first d hd (c.takes_nothing.trans hfirst)

theorem arrayLength_settles : Settles 1 arrayLength c fun length d =>
    c.Takes d (lenient.numeral "" length) [] ∧ length < lengthLimit := by
  refine Settles.expect.bind_or_fail fun t d htook _ => ?_
  cases hlength : readBelow? lengthLimit t.value.toList with
  | some length =>
    refine .inl (Settles.pure ⟨fun hc => ?_, lt_of_readBelow? hlength⟩)
    obtain ⟨rfl, -⟩ := htook.eq_current hc (by decide)
    rw [htook.cursor]
    refine Cursor.takes_step htook.kind (by decide) (by decide) (fun hfaithful => ?_)
      (.nil _) rfl hc
    rw [Token.symbol, htook.kind]
    exact mem_numeral_of_readBelow? (hfaithful.unsigned htook.kind) hlength
  | none =>
    refine .inr ⟨_, _, rfl, fun hc row way => ?_⟩
    exact htook.standsIn hc way (by decide)

theorem bracketType_settles (htype : ∀ d, d.ahead < c.ahead → d.AwaitsType →
    Settles 1 type d (TypeTaken d))
    (hkind : c.current.kind = .lBracket) : Settles 1 (bracketType type) c (TypeTaken c) := by
  refine Settles.look ((Settles.advance hkind).bind fun _ d hopen hd => ?_)
  refine Settles.look (Settles.ite (fun hclose => ?_) fun _ => ?_)
  · refine ((Settles.checked hclose).bind fun _ e hclose he => ?_).mono (Nat.sub_le _ _)
    refine (htype e (by omega)
      (e.awaitsType_of_previous (hclose.previous_kind (by omega)) rfl)).bind
      fun element e' helement he' => Settles.finish (Settles.pure ?_)
    exact .node (((hopen.takes rfl).trans (hclose.takes rfl)).trans helement.takes)
      (by omega) rfl rfl
      helement.wellShaped
  · refine (arrayLength_settles.bind fun length e hlength he =>
      Settles.expect.bind fun _ e' hclose he' => ?_).mono
      (Nat.sub_le _ _)
    refine (htype e' (by omega)
      (e'.awaitsType_of_previous (hclose.previous_kind (by omega)) rfl)).bind
      fun element e'' helement _ => Settles.finish (Settles.pure ?_)
    refine .node
      ((((hopen.takes rfl).trans hlength.1).trans (hclose.takes rfl)).trans
        helement.takes) (by omega)
      rfl rfl ?_
    rw [TypeExpr.wellShaped, helement.wellShaped, Bool.and_true]
    exact decide_eq_true hlength.2

theorem pointerType_settles (htype : ∀ d, d.ahead < c.ahead → d.AwaitsType →
    Settles 1 type d (TypeTaken d))
    {kind : PointerKind} (hkind : c.current.kind = kind.kind) :
    Settles 1 (pointerType kind type) c (TypeTaken c) := by
  refine Settles.of_grounded fun hc => ?_
  have hpos : 0 < c.ahead := hc.ahead_pos (by rw [hkind]; cases kind <;> rfl)
  refine Settles.look ((Settles.step hkind hpos).bind fun _ d hsign hd => ?_)
  have hawaits := d.awaitsType_of_previous (hsign.previous_kind hpos) (by cases kind <;> rfl)
  refine (htype d hd hawaits).bind fun pointee e hpointee he => Settles.finish (Settles.pure ?_)
  exact .node ((hsign.takes (by cases kind <;> rfl)).trans hpointee.takes) (by omega) rfl rfl
    hpointee.wellShaped

end Types

/-- A type is read with more nesting allowed than there are tokens ahead. -/
theorem typeExpr_settles (h : c.ahead < fuel) (hc : c.AwaitsType) :
    Settles 1 (typeExpr fuel) c (TypeTaken c) := by
  induction fuel generalizing c with
  | zero => exact absurd h (Nat.not_lt_zero _)
  | succ fuel ih =>
    have hnested (d : Cursor) (hd : d.ahead < c.ahead) : d.AwaitsType →
        Settles 1 (typeExpr fuel) d (TypeTaken d) :=
      ih (by omega)
    refine Settles.look ?_
    cases hkind : c.current.kind with
    | caret => exact pointerType_settles hnested hkind
    | tilde => exact pointerType_settles hnested hkind
    | lBracket => exact bracketType_settles hnested hkind
    | identifier => exact namedType_settles hnested (by omega)
    | error => exact Settles.fail fun herror => .inr ⟨hc herror, .inl rfl⟩
    | _ => exact Settles.fail_of_ne hkind (by decide)

/-! ## Operators -/

theorem InfixOp.level_binary (op : BinaryOp) :
    (InfixOp.binary op).level = op.level := by cases op <;> rfl

theorem InfixOp.level_lt_unaryLevel (op : InfixOp) : op.level < unaryLevel := by
  cases op with
  | range => decide
  | binary op => cases op <;> decide

/-- The token of an operator. -/
def InfixOp.kind : InfixOp → TokenKind
  | .range => .dotDot
  | .binary op => op.kind

theorem InfixOp.ofKind?_eq_some_iff {kind : TokenKind} {op : InfixOp} :
    InfixOp.ofKind? kind = some op ↔ kind = op.kind := by
  constructor
  · unfold InfixOp.ofKind?
    split <;> rintro ⟨⟩ <;> rfl
  · rintro rfl
    cases op with
    | range => rfl
    | binary op => cases op <;> rfl

/-- The token of an operator has one spelling, and it is no expression by itself. -/
theorem InfixOp.kind_fixed (op : InfixOp) :
    op.kind.spelling?.isSome = true ∧ op.kind.isLeaf = false := by
  cases op with
  | range => exact ⟨rfl, rfl⟩
  | binary op => cases op <;> exact ⟨rfl, rfl⟩

theorem InfixOp.write_build (op : InfixOp) (mark : Mark) (left right : Expr) :
    (op.build mark left right).write lenient =
      left.write lenient * lenient.kind op.kind * right.write lenient := by
  cases op <;> rfl

theorem InfixOp.level_build (op : InfixOp) (mark : Mark) (left right : Expr) :
    (op.build mark left right).level = op.level := by
  cases op with
  | range => rfl
  | binary op => exact (InfixOp.level_binary op).symm

theorem InfixOp.wellShaped_build {op : InfixOp} {mark : Mark} {left right : Expr} :
    (op.build mark left right).wellShaped = true ↔ op.level ≤ left.level ∧ op.level < right.level ∧
      left.wellShaped = true ∧ right.wellShaped = true := by
  cases op with
  | range => exact Expr.wellShaped_range.trans (and_iff_right left.level_pos).symm
  | binary op =>
    rw [InfixOp.level_binary]
    exact Expr.wellShaped_binary

theorem unaryOp?_eq_some_iff {kind : TokenKind} {op : UnaryOp} :
    unaryOp? kind = some op ↔ kind = op.kind := by
  constructor
  · unfold unaryOp?
    split <;> rintro ⟨⟩ <;> rfl
  · rintro rfl
    cases op <;> rfl

/-! ## Expressions -/

/-- An expression of at least the given level is taken between two cursors, and it can be
written. -/
structure ExprTaken (level : Nat) (c : Cursor) (e : Expr) (d : Cursor) : Prop where
  takes : c.Takes d (e.write lenient) [.expr e]
  wellShaped : e.wellShaped = true
  level : level ≤ e.level

theorem ExprTaken.of_le {level level' : Nat} {e : Expr} (h : ExprTaken level c e d)
    (hle : level' ≤ level) :
    ExprTaken level' c e d := ⟨h.takes, h.wellShaped, Nat.le_trans hle h.level⟩

/-- The last step of the reader of an expression. -/
theorem ExprTaken.node {level : Nat} {e : Expr} {ps : List Piece}
    (h : c.Takes d (e.write lenient) ps) (hmoves : c.Bounded → d.ahead < c.ahead)
    (hmark : e.mark = ⟨d.nextId, c.current.span.merge d.previous.span⟩) (hparts : e.pieces = ps)
    (hshape : e.wellShaped = true) (hlevel : level ≤ e.level) : ExprTaken level c e d.numbered :=
  ⟨h.node hmoves (congrArg some hmark) hparts fun _ => id, hshape, hlevel⟩

/-- An operator that stands at a cursor has a level below the given one. -/
def OperatorBelow (level : Nat) (c : Cursor) : Prop :=
  ∀ op, InfixOp.ofKind? c.current.kind = some op → op.level < level

/-- A reader takes an expression of at least the given level, up to an operator of a lower one. -/
def SettlesExpr (level : Nat) (p : Parse Expr) (c : Cursor) : Prop :=
  Settles c.least p c fun e d => ExprTaken level c e d ∧ OperatorBelow level d

section Expressions

variable {nested : Parse Expr}

theorem exprs_settles (hnested : ∀ d, d.ahead ≤ c.ahead → SettlesExpr 1 nested d)
    {opening close : TokenKind} (hspelling : close.spelling?.isSome = true) {c₀ : Cursor}
    (hopen : c₀.Takes c (lenient.kind opening) []) (h : c.ahead < fuel) :
    Settles 1 (itemsTo close nested fuel) c fun es d =>
      c₀.Takes d (lenient.enclosed opening close (Expr.writeAll lenient es)) (es.map .expr) ∧
        es.all Expr.wellShaped = true := by
  have hitem (e : Cursor) (hpos : 0 < e.ahead) (he : e.ahead ≤ c.ahead)
      (_ : e.previous.kind = c.previous.kind ∨ e.previous.kind = .comma) :
        Settles 1 nested e fun x e' =>
        e.Takes e' (x.write lenient) [.expr x] ∧ x.wellShaped = true :=
    (hnested e he).imp (e.least_of_pos hpos).ge fun _ _ _ _ hx => ⟨hx.1.takes, hx.1.wellShaped⟩
  refine (Settles.itemsTo hspelling hopen hitem h).imp (Nat.le_refl 1) fun es d _ _ hes => ?_
  rw [Expr.writeAll_eq_map, @List.map_eq_flatMap _ _ Piece.expr]
  exact ⟨hes.1, hes.2.1⟩

theorem arguments_settles (hnested : ∀ d, d.ahead < c.ahead → SettlesExpr 1 nested d)
    (h : c.ahead ≤ fuel) : Settles 1 (arguments nested fuel) c fun args d =>
      c.Takes d (lenient.enclosed .lParen .rParen (Expr.writeAll lenient args)) (args.map .expr) ∧
        args.all Expr.wellShaped = true := by
  refine Settles.expect.bind fun _ d hopen hd => ?_
  exact (exprs_settles (fun e he => hnested e (by omega)) rfl (hopen.takes rfl) (by omega)).mono
    (Nat.zero_le _)

theorem fieldInit_settles (hnested : ∀ d, d.ahead < c.ahead → SettlesExpr 1 nested d) :
    Settles 1 (fieldInit nested) c fun f d =>
      c.Takes d (lenient.field f) (fieldPieces f) ∧ f.2.wellShaped = true := by
  refine Settles.ident.bind fun name d hname hd => Settles.expect.bind fun _ e hcolon he => ?_
  refine ((hnested e (by omega)).mono (Nat.zero_le _)).bind fun value e' hvalue _ => Settles.pure ?_
  exact ⟨(hname.skip (hcolon.takes rfl)).trans hvalue.1.takes, hvalue.1.wellShaped⟩

theorem groupExpr_settles (hnested : ∀ d, d.ahead < c.ahead → SettlesExpr 1 nested d)
    (hkind : c.current.kind = .lParen) : Settles 1 (groupExpr nested) c (ExprTaken 9 c) := by
  refine Settles.of_grounded fun hc => ?_
  have hpos : 0 < c.ahead := hc.ahead_pos (by rw [hkind]; rfl)
  refine Settles.look ((Settles.step hkind hpos).bind fun _ d hopen hd => ?_)
  refine ((hnested d hd).mono (Nat.zero_le _)).bind fun inner e hinner he => ?_
  refine Settles.expect.bind fun _ e' hclose he' => Settles.finish (Settles.pure ?_)
  exact .node (((hopen.takes rfl).trans hinner.1.takes).skip (hclose.takes rfl))
    (fun _ => by omega) rfl rfl
    hinner.1.wellShaped (Nat.le_refl 9)

theorem newExpr_settles (hnested : ∀ d, d.ahead < c.ahead → SettlesExpr 1 nested d)
    (hkind : c.current.kind = .kwNew) (h : c.ahead < fuel) :
    Settles 1 (newExpr nested fuel) c (ExprTaken 9 c) := by
  refine Settles.look
    ((Settles.advance hkind).bind fun _ d hword hd => Settles.mono ?_ (Nat.sub_le _ _))
  have hawaits : d.AwaitsType := by
    by_cases hend : c.ahead = 0
    · rw [hword.cursor, c.advance_eq_self hend]
      exact c.awaitsType_of_ne (by rw [hkind]; decide)
    · exact d.awaitsType_of_previous (hword.previous_kind (Nat.pos_of_ne_zero hend)) rfl
  refine (typeExpr_settles (by omega) hawaits).bind fun type e htype he =>
    Settles.expect.bind fun _ e' hopen he' => ?_
  have hitem (d' : Cursor) (_ : 0 < d'.ahead) (hd' : d'.ahead ≤ e'.ahead)
      (_ : d'.previous.kind = e'.previous.kind ∨ d'.previous.kind = .comma) :=
    @fieldInit_settles d' nested fun d'' hd'' => hnested d'' (by omega)
  refine ((Settles.itemsTo rfl (hopen.takes rfl) hitem (by omega)).mono (Nat.zero_le _)).bind
    fun fields d' hfields hd' => Settles.finish (Settles.pure ?_)
  refine .node ?_ (fun _ => by omega) rfl rfl
    (Expr.wellShaped_new.2 ⟨htype.wellShaped, hfields.2.1⟩) (Nat.le_refl 9)
  rw [Expr.write, Expr.writeFields_eq_map]
  exact ((hword.takes rfl).trans htype.takes).trans hfields.1

/-- An array without a length is an error at its type. -/
theorem arrayExpr_settles (hnested : ∀ d, d.ahead < c.ahead → SettlesExpr 1 nested d)
    (hkind : c.current.kind = .lBracket) (h : c.ahead < fuel) :
    Settles 1 (arrayExpr nested fuel) c (ExprTaken 9 c) := by
  have hawaits := c.awaitsType_of_ne (by rw [hkind]; decide)
  refine Settles.look ((typeExpr_settles h hawaits).bind_or_fail fun type d htype hd => ?_)
  have hplace {fault : SyntaxFault} (hc : c.Bounded) (row : List Token) (way : c.Way d row) :
      (⟨fault, type.span⟩ : ParseError).StandsIn row := by
    obtain ⟨row', hrow'⟩ := htype.takes hc
    obtain rfl : row = row' := List.append_cancel_right (way.rest.symm.trans hrow'.way.rest)
    obtain ⟨place, hpart, hstands⟩ := hrow'.stands.mem (List.mem_singleton.2 rfl)
    exact ⟨place, hpart, hstands.spans⟩
  cases type with
  | array mark length element =>
    refine .inl (Settles.expect.bind fun _ e hopen he => ?_)
    refine ((exprs_settles (fun d' hd' => hnested d' (by omega)) rfl (hopen.takes rfl)
      (by omega)).mono
      (Nat.zero_le _)).bind fun elements e' helements he' => Settles.finish (Settles.pure ?_)
    exact .node (htype.takes.trans helements.1) (fun _ => by omega) rfl rfl
      (Expr.wellShaped_staticArray.2 ⟨rfl, htype.wellShaped, helements.2⟩) (Nat.le_refl 9)
  | named | pointer | slice => exact .inr ⟨_, _, rfl, hplace⟩

/-- An expression of one token. -/
theorem leaf_settles {node : Token → Mark → Expr} {kind : TokenKind} (hkind : c.current.kind = kind)
    (hkinds : kind ≠ .eof ∧ kind ≠ .error)
    (hnode : ∀ mark, (c.current.symbol.Faithful →
      [c.current.symbol] ∈ (node c.current mark).write lenient))
    (hparts : ∀ t mark, (node t mark).mark = mark ∧ (node t mark).pieces = [] ∧
      (node t mark).wellShaped = true ∧ (node t mark).level = 9) :
    Settles (min 1 c.ahead) (leaf node) c (ExprTaken 9 c) := by
  refine Settles.look ((Settles.advance hkind).bind fun t d htook hd => ?_)
  rw [Nat.sub_self]
  refine Settles.finish (Settles.pure ?_)
  obtain ⟨hmark, hpieces, hshape, hlevel⟩ :=
    hparts t ⟨d.nextId, c.current.span.merge d.previous.span⟩
  refine .node (fun hc => ?_) (fun hc => ?_) hmark hpieces hshape hlevel.ge
  · obtain ⟨rfl, -⟩ := htook.eq_current hc hkinds.1
    rw [htook.cursor]
    exact Cursor.takes_step hkind hkinds.1 hkinds.2 (hnode _) (.nil _) rfl hc
  · have := hc.ahead_pos (hkind ▸ hkinds.1)
    omega

theorem number_settles (hkind : c.current.kind = .number) :
    Settles (min 1 c.ahead) number c fun literal d =>
      c.Takes d (literal.write lenient) [] ∧ literal.wellShaped = true := by
  refine (Settles.advance hkind).bind_or_fail fun t d htook _ => ?_
  cases hliteral : numberLiteral t.value with
  | ok literal =>
    rw [Nat.sub_self]
    refine .inl (Settles.pure ⟨fun hc => ?_, wellShaped_of_numberLiteral hliteral⟩)
    obtain ⟨rfl, -⟩ := htook.eq_current hc (by decide)
    rw [htook.cursor]
    refine Cursor.takes_step hkind (by decide) (by decide) (fun hfaithful => ?_) (.nil _) rfl hc
    rw [Token.symbol, hkind]
    exact mem_write_of_numberLiteral (hfaithful.unsigned hkind) hliteral
  | error fault => exact .inr ⟨_, _, rfl, fun hc row way => htook.standsIn hc way (by decide)⟩

theorem primary_settles (hnested : ∀ d, d.ahead < c.ahead → SettlesExpr 1 nested d)
    (h : c.ahead < fuel) : Settles c.least (primary nested fuel) c (ExprTaken 9 c) := by
  have hleaf {kind : TokenKind} (hkind : c.current.kind = kind) (hleaf : kind.isLeaf = true) :
      c.least = min 1 c.ahead := c.least_of_leaf (hkind ▸ hleaf)
  -- A word that is an expression has only one spelling.
  have hword {kind : TokenKind} (hkind : c.current.kind = kind) {text : String}
      (htext : kind.spelling? = some text) (hfaithful : c.current.symbol.Faithful) :
      [c.current.symbol] ∈ lenient.kind kind := by
    rw [Style.kind, TokenKind.symbol, htext, Option.getD_some, ← hkind,
      ← hfaithful.spelled text (by rw [← htext, ← hkind]; rfl)]
    rfl
  refine Settles.look ?_
  cases hkind : c.current.kind with
  | number =>
    rw [hleaf hkind rfl]
    refine Settles.look ((number_settles hkind).bind fun literal d hliteral hd => ?_)
    rw [Nat.sub_self]
    refine Settles.finish
      (Settles.pure (.node hliteral.1 (fun hc => ?_) rfl rfl hliteral.2 (Nat.le_refl 9)))
    have := hc.ahead_pos (by simp [hkind])
    omega
  | string =>
    rw [hleaf hkind rfl]
    refine leaf_settles hkind (by decide) (fun _ _ => ?_) fun _ _ => ⟨rfl, rfl, rfl, rfl⟩
    rw [Token.symbol, hkind]
    rfl
  | kwTrue | kwFalse | kwNull | kwZero =>
    rw [hleaf hkind rfl]
    exact leaf_settles hkind (by decide) (fun _ => hword hkind rfl) fun _ _ => ⟨rfl, rfl, rfl, rfl⟩
  | identifier =>
    refine Settles.mono (Settles.look (Settles.ident.bind fun name d hname hd => ?_)) c.least_le_one
    exact Settles.finish (Settles.pure (.node hname (fun _ => hd) rfl rfl rfl (Nat.le_refl 9)))
  | lParen => exact (groupExpr_settles hnested hkind).mono c.least_le_one
  | kwNew => exact (newExpr_settles hnested hkind h).mono c.least_le_one
  | lBracket => exact (arrayExpr_settles hnested hkind h).mono c.least_le_one
  | error => exact Settles.fail fun _ => .inl rfl
  | _ => exact Settles.fail_of_ne hkind (by decide)

/-- What is taken behind an operand makes it a larger one, which starts where the operand does. Each
part of it takes a token. At the end of the list nothing is nested behind an operand that is the
last token. -/
theorem suffixes_settles {c₀ : Cursor} {e : Expr} (he : ExprTaken 9 c₀ e c)
    (hnested : 0 < c.ahead ∨ c.current.kind.isLeaf = false → ∀ d, d.ahead ≤ c.ahead →
      SettlesExpr 1 nested d)
    (h : c.ahead < fuel) :
    Settles 0 (suffixes nested c₀.current.span fuel e) c (ExprTaken 9 c₀) := by
  induction fuel generalizing c e with
  | zero => exact absurd h (Nat.not_lt_zero _)
  | succ fuel ih =>
    have hlevel : e.level = 9 := Nat.le_antisymm e.level_le he.level
    -- All forms end alike: a node is made, and the reading goes on behind it.
    have hrest {node : Mark → Expr} {d : Cursor} (hd : d.ahead < c.ahead) {ps : List Piece}
        (htakes : ∀ mark, c₀.Takes d ((node mark).write lenient) ps)
        (hnode : ∀ mark, (node mark).mark = mark ∧ (node mark).pieces = ps ∧
          (node mark).wellShaped = true ∧ (node mark).level = 9) :
        Settles 0 (finish c₀.current.span >>=
          fun mark => suffixes nested c₀.current.span fuel (node mark)) d
          (ExprTaken 9 c₀) := by
      refine Settles.finish (ih ?_ (fun _ d' hd' => hnested (.inl (by omega)) d' ?_) ?_)
      · obtain ⟨hmark, hpieces, hshape, hlevel⟩ :=
          hnode ⟨d.nextId, c₀.current.span.merge d.previous.span⟩
        refine .node (htakes _) (fun hc => ?_) hmark hpieces hshape hlevel.ge
        have := he.takes.moves hc
        omega
      · exact Nat.le_trans hd' (Nat.le_of_lt hd)
      · exact Nat.lt_of_lt_of_le hd (Nat.le_of_lt_succ h)
    refine Settles.look ?_
    cases hkind : c.current.kind with
    | lParen =>
      have hinner := hnested (.inr (by rw [hkind]; rfl))
      refine ((arguments_settles (fun d hd => hinner d (by omega)) (by omega)).bind
        fun args d hargs hd => ?_).mono (Nat.zero_le 1)
      exact hrest hd (fun _ => (he.takes.trans (c.takes_omitted _)).trans hargs.1) fun _ =>
        ⟨rfl, rfl, Expr.wellShaped_call.2 ⟨hlevel, he.wellShaped, rfl, hargs.2⟩, rfl⟩
    | colon =>
      refine Settles.ite (fun _ => ?_) fun _ => Settles.pure he
      have hinner := hnested (.inr (by rw [hkind]; rfl))
      refine ((Settles.advance hkind).mono (Nat.zero_le _)).bind fun _ d hcolon hd => ?_
      refine (typeArgs_settles (fun d' hd' => typeExpr_settles (by omega)) (by omega)
        (hcolon.takes rfl)).bind fun types d' htypes hd' => ?_
      refine (arguments_settles (fun e' he' => hinner e' (by omega)) (by omega)).bind
        fun args e' hargs he' => ?_
      exact hrest (by omega) (fun _ => (he.takes.trans htypes.1).trans hargs.1) fun _ =>
        ⟨rfl, rfl, Expr.wellShaped_call.2 ⟨hlevel, he.wellShaped, htypes.2, hargs.2⟩, rfl⟩
    | dot =>
      refine ((Settles.advance hkind).mono (Nat.zero_le _)).bind fun _ d hdot hd => ?_
      refine Settles.ident.bind fun member d' hmember hd' => ?_
      exact hrest (by omega) (fun _ => (he.takes.skip (hdot.takes rfl)).trans hmember) fun _ =>
        ⟨rfl, rfl, Expr.wellShaped_get.2 ⟨hlevel, he.wellShaped⟩, rfl⟩
    | lBracket =>
      have hinner := hnested (.inr (by rw [hkind]; rfl))
      refine ((Settles.advance hkind).mono (Nat.zero_le _)).bind fun _ d hopen hd => ?_
      refine ((hinner d (by omega)).mono (Nat.zero_le _)).bind fun index d' hindex hd' => ?_
      refine Settles.expect.bind fun _ e' hclose he' => ?_
      exact hrest (by omega)
        (fun _ => ((he.takes.skip (hopen.takes rfl)).trans hindex.1.takes).skip
          (hclose.takes rfl)) fun _ =>
        ⟨rfl, rfl, Expr.wellShaped_subscript.2 ⟨hlevel, he.wellShaped, hindex.1.wellShaped⟩, rfl⟩
    | _ => exact Settles.pure he

end Expressions

section Operators

variable {nested : Nat → Parse Expr}

/-- What follows an operand may use nested expressions wherever fewer tokens are ahead than in front
of the operand, and it uses none if there was nothing to take. -/
theorem nested_behind (hnested : ∀ level ≤ unaryLevel, ∀ d, d.ahead < c.ahead →
    SettlesExpr level (nested level) d)
    {row : List Token} (way : c.Way d row) (hd : d.ahead + c.least ≤ c.ahead)
    (hgo : 0 < d.ahead ∨ d.current.kind.isLeaf = false) (level : Nat) (hlevel : level ≤ unaryLevel)
    (d' : Cursor) (hd' : d'.ahead ≤ d.ahead) : SettlesExpr level (nested level) d' := by
  rcases c.least_pos_or with hleast | ⟨hend, hleaf⟩
  · exact hnested level hlevel d' (by omega)
  · rw [way.current_eq hend, hleaf] at hgo
    rcases hgo with hpos | hleaf
    · omega
    · cases hleaf

theorem operand_settles
    (hnested : ∀ level ≤ unaryLevel, ∀ d, d.ahead < c.ahead → SettlesExpr level (nested level) d)
    (h : c.ahead < fuel) : Settles c.least (operand nested fuel) c (ExprTaken unaryLevel c) := by
  refine Settles.look (Settles.look ?_)
  cases hop : unaryOp? c.current.kind with
  | some op =>
    refine Settles.of_grounded fun hc => ?_
    have hkind := unaryOp?_eq_some_iff.1 hop
    have hpos : 0 < c.ahead := hc.ahead_pos (by rw [hkind]; cases op <;> rfl)
    refine Settles.mono ((Settles.step hkind hpos).bind fun _ d hsign hd => ?_) c.least_le_one
    refine ((hnested unaryLevel (Nat.le_refl _) d hd).mono (Nat.zero_le _)).bind
      fun inner e hinner he => ?_
    refine Settles.finish (Settles.pure ?_)
    exact .node ((hsign.takes (by cases op <;> rfl)).trans hinner.1.takes)
      (fun _ => by omega) rfl rfl
      (Expr.wellShaped_unary.2 ⟨hinner.1.level, hinner.1.wellShaped⟩) (Nat.le_refl 8)
  | none =>
    have hprimary := (primary_settles (hnested 1 (by decide)) h).imp (Nat.le_refl _)
      fun e d row way he => (⟨he, row, way⟩ : ExprTaken 9 c e d ∧ ∃ row, c.Way d row)
    refine hprimary.bind fun e d he hd => ?_
    obtain ⟨he, row, way⟩ := he
    rw [Nat.sub_self]
    exact (suffixes_settles he (fun hgo => nested_behind hnested way hd hgo 1 (by decide))
      (by omega)).imp
      (Nat.le_refl 0) fun _ _ _ _ ha => ha.of_le (by decide)

theorem InfixOp.mark_build (op : InfixOp) (mark : Mark) (left right : Expr) :
    (op.build mark left right).mark = mark ∧
      (op.build mark left right).pieces = [.expr left, .expr right] := by
  cases op <;> exact ⟨rfl, rfl⟩

/-- What is taken behind a left operand makes it a larger one, as long as operators have the level
that is asked for. The operator behind the left operand never binds tighter than the operand, since
the operand was read up to an operator of a lower level than its own right part. Where the last
token of the list is an operator, there is no right operand. -/
theorem climb_settles {level : Nat} {left : Expr} {c₀ : Cursor} (hleft : ExprTaken level c₀ left c)
    (hnext : OperatorBelow (left.level + 1) c)
    (hnested : 0 < c.ahead ∨ c.current.kind.isLeaf = false →
      ∀ level ≤ unaryLevel, ∀ d, d.ahead ≤ c.ahead → SettlesExpr level (nested level) d)
    (h : c.ahead < fuel) :
    Settles 0 (climb nested c₀.current.span level fuel left) c fun e d =>
      ExprTaken level c₀ e d ∧ OperatorBelow level d := by
  induction fuel generalizing c left with
  | zero => exact absurd h (Nat.not_lt_zero _)
  | succ fuel ih =>
    refine Settles.look ?_
    cases hop : InfixOp.ofKind? c.current.kind with
    | none =>
      refine Settles.pure ⟨hleft, fun op h => ?_⟩
      rw [hop] at h
      cases h
    | some op =>
      dsimp only
      by_cases hlow : op.level < level
      · rw [if_pos hlow]
        refine Settles.pure ⟨hleft, fun op' h => ?_⟩
        rw [hop] at h
        exact Option.some.inj h ▸ hlow
      · rw [if_neg hlow]
        have hkind := InfixOp.ofKind?_eq_some_iff.1 hop
        have hleaf : c.current.kind.isLeaf = false := hkind ▸ op.kind_fixed.2
        refine (Settles.advance hkind).bind fun _ d hsign hd => ?_
        refine (hnested (.inr hleaf) (op.level + 1) op.level_lt_unaryLevel d (by omega)).bind
          fun right d' hright hd' => ?_
        -- The operator is taken; at the end, where it is not, no operand starts with it.
        have hlt : d'.ahead < c.ahead := by
          by_cases hend : c.ahead = 0
          · rw [hsign.cursor, c.advance_eq_self hend, c.least_of_not_leaf hleaf] at hd'
            omega
          · omega
        refine Settles.finish
          ((ih ?_ ?_ (fun _ => ?_) (by change d'.ahead < fuel; omega)).mono (by omega))
        · obtain ⟨hmark, hpieces⟩ :=
            op.mark_build ⟨d'.nextId, c₀.current.span.merge d'.previous.span⟩ left right
          refine .node ?_ (fun hc => ?_) hmark hpieces ?_ ?_
          · rw [InfixOp.write_build]
            exact (hleft.takes.skip (hsign.takes op.kind_fixed.1)).trans hright.1.takes
          · have := hleft.takes.moves hc
            omega
          · exact op.wellShaped_build.2 ⟨Nat.le_of_lt_succ (hnext op hop), hright.1.level,
              hleft.wellShaped, hright.1.wellShaped⟩
          · rw [InfixOp.level_build]
            exact Nat.le_of_not_lt hlow
        · rw [InfixOp.level_build]
          exact hright.2
        · exact fun level hlevel e he =>
            hnested (.inr hleaf) level hlevel e (Nat.le_trans he hlt.le)

/-- An expression is read with a nesting allowed that is above the number of tokens ahead by two. -/
theorem expr_settles {level : Nat} (hlevel : level ≤ unaryLevel) (h : c.ahead + 2 ≤ fuel) :
    SettlesExpr level (expr fuel level) c := by
  induction fuel generalizing c level with
  | zero => omega
  | succ fuel ih =>
    have hnested (level : Nat) (hlevel : level ≤ unaryLevel) (d : Cursor) (hd : d.ahead < c.ahead) :
        SettlesExpr level (expr fuel level) d := ih hlevel (by omega)
    have hoperand := (operand_settles hnested (show c.ahead < fuel by omega)).imp (Nat.le_refl _)
      fun e d row way he => (⟨he, row, way⟩ : ExprTaken unaryLevel c e d ∧ ∃ row, c.Way d row)
    refine Settles.look (hoperand.bind fun left d hleft hd => ?_)
    obtain ⟨hleft, row, way⟩ := hleft
    rw [Nat.sub_self]
    refine climb_settles (hleft.of_le hlevel) (fun op _ => ?_)
      (nested_behind hnested way hd) (by omega)
    exact Nat.lt_of_lt_of_le op.level_lt_unaryLevel (Nat.le_succ_of_le hleft.level)

end Operators

/-- Without a promise about the tokens that it takes, a whole expression is read. -/
theorem fullExpr_settles (h : c.ahead + 2 ≤ fuel) : Settles 0 (expr fuel 1) c (ExprTaken 1 c) :=
  (expr_settles (by decide) h).imp (Nat.zero_le _) fun _ _ _ _ he => he.1

end Grammar

end Custody
