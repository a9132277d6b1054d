import Custody.Proofs.SpanNesting

/-!
# Reading goes on behind an error

When a declaration cannot be read, the reader leaves the token where it gave up and goes on at the
next word that may start a declaration. `Grammar.Attempted` lists the attempts that fail on the way
through a file. Each of them starts behind the token where the one before it gave up, so that errors
come in the order of the text and none of them is given twice (`parseSource_recovers`).
-/

set_option autoImplicit false

namespace Custody

/-- A declaration that cannot be read: where its reader starts, the error, and where the reader
gives up. -/
structure Attempt where
  start : Cursor
  error : ParseError
  stop : Cursor

/-! ## Places -/

namespace Cursor

variable {tokens row : List Token} {c d : Cursor}

/-- How many of the tokens are behind a cursor. -/
def place (tokens : List Token) (c : Cursor) : Nat := tokens.length - c.rest.length

/-- A way through the tokens takes a cursor forward by its length. -/
theorem Way.place_eq (h : c.Way d row) (hc : c.rest <:+ tokens) :
    d.rest <:+ tokens ∧ d.place tokens = c.place tokens + row.length := by
  have hlength := congrArg List.length h.rest
  have hle := hc.length_le
  rw [List.length_append] at hlength
  refine ⟨List.IsSuffix.trans ⟨row, h.rest.symm⟩ hc, ?_⟩
  rw [place, place]
  omega

end Cursor

/-- Where an attempt stands in tokens. The span of its error starts at a token from the start of the
attempt on, but not behind the token where the reader gives up. -/
structure Attempt.PlacedIn (tokens : List Token) (a : Attempt) : Prop where
  start : a.start.rest <:+ tokens
  stop : a.stop.rest <:+ a.start.rest
  error : ∃ i first last, a.start.place tokens ≤ i ∧ i ≤ a.stop.place tokens ∧
    tokens[i]? = some first ∧
    last ∈ tokens ∧ a.error.span = first.span.upTo last.span

theorem Attempt.placedIn_of_way {file : Nat} {tokens row : List Token} {c d : Cursor}
    {e : ParseError} (way : c.Way d row) (he : e.StandsIn (row ++ [d.current])) (hc : c.Bounded)
    (hrest : c.rest <:+ tokens)
    (horder : InOrder file tokens) : Attempt.PlacedIn tokens ⟨c, e, d⟩ := by
  refine ⟨hrest, ⟨row, way.rest.symm⟩, ?_⟩
  obtain ⟨-, hstop⟩ := way.place_eq hrest
  obtain ⟨place, ⟨front, back, hcut⟩, hspans⟩ := he
  -- The tokens around the place of the error, from the first one on.
  obtain ⟨before, after, hbefore, htokens⟩ : ∃ before after, before.length = c.place tokens ∧
      tokens = before ++ front ++ place ++ (back ++ after) := by
    obtain ⟨before, hbefore⟩ := hrest
    obtain ⟨t, ht, -⟩ := way.bounded hc
    cases hd : d.rest with
    | nil =>
      rw [hd] at ht
      cases ht
    | cons current after =>
      have hcurrent : d.current = current := by rw [Cursor.current, hd]
      refine ⟨before, after, ?_, ?_⟩
      · rw [Cursor.place, ← hbefore, List.length_append, Nat.add_sub_cancel]
      · rw [hcurrent] at hcut
        rw [← hbefore, way.rest, hd, List.append_cons, ← hcut]
        simp only [List.append_assoc]
  have hpart : place <:+: tokens := ⟨before ++ front, back ++ after, htokens.symm⟩
  obtain ⟨first, last, hfirst, hlast, hspan⟩ := (horder.part hpart).eq_upTo hspans
  refine ⟨c.place tokens + front.length, first, last, Nat.le_add_right _ _, ?_, ?_,
    hpart.subset (List.mem_of_getLast? hlast), hspan⟩
  · have hlength := congrArg List.length hcut
    have hpos : 0 < place.length := List.length_pos_of_mem (List.mem_of_head? hfirst)
    simp only [List.length_append, List.length_singleton] at hlength
    show _ ≤ d.place tokens
    omega
  · cases place with
    | nil => cases hfirst
    | cons first' place =>
      cases hfirst
      rw [← hbefore, htokens]
      simp

/-- How an attempt is made on the way from a cursor: the tokens up to it, those that it takes
itself, and whether its error is about one of these or raised where it gives up. -/
structure Attempt.MadeFrom (c : Cursor) (a : Attempt) : Prop where
  start : ∃ row, c.Way a.start row
  error : ∃ row, a.start.Way a.stop row ∧ (a.error.StandsIn row ∨ a.error.RaisedAt a.stop)

theorem Attempt.MadeFrom.behind {c d : Cursor} {row : List Token} {a : Attempt} (h : a.MadeFrom d)
    (way : c.Way d row) : a.MadeFrom c := by
  obtain ⟨⟨row', hstart⟩, herror⟩ := h
  exact ⟨⟨row ++ row', way.trans hstart⟩, herror⟩

theorem Attempt.MadeFrom.placedIn {c : Cursor} {a : Attempt} {file : Nat} {tokens : List Token}
    (h : a.MadeFrom c) (hc : c.Bounded) (hrest : c.rest <:+ tokens) (horder : InOrder file tokens) :
    a.PlacedIn tokens := by
  obtain ⟨⟨before, hstart⟩, row, way, hraised⟩ := h
  exact Attempt.placedIn_of_way way (ParseError.standsIn_of_raised hraised) (hstart.bounded hc)
    (hstart.place_eq hrest).1 horder

namespace Grammar

variable {item : Parse Stmt} {c : Cursor} {fuel : Nat} {items : List Stmt}
  {errors : List ParseError} {attempts : List Attempt} {tokens : List Token}

/-- The attempts that fail when declarations are read from a cursor on, up to the end. -/
inductive Attempted (item : Parse Stmt) : Cursor → List Attempt → Prop
  | done {c : Cursor} (hend : c.atEnd = true) : Attempted item c []
  | item {c d : Cursor} {s : Stmt} {attempts : List Attempt} (hmore : c.atEnd = false)
      (h : item c = some (.ok s, d)) (hrest : Attempted item d attempts) : Attempted item c attempts
  | error {c d : Cursor} {e : ParseError} {attempts : List Attempt} (hmore : c.atEnd = false)
      (h : item c = some (.error e, d)) (hrest : Attempted item (resume d) attempts) :
      Attempted item c (⟨c, e, d⟩ :: attempts)

/-- The errors of a file are those of the attempts that fail. -/
theorem itemsAndErrors_attempted (h : itemsAndErrors item fuel c = some (items, errors)) :
    ∃ attempts, Attempted item c attempts ∧ errors = attempts.map Attempt.error := by
  induction fuel generalizing c items errors with
  | zero => simp [itemsAndErrors] at h
  | succ fuel ih =>
    unfold itemsAndErrors at h
    by_cases hend : c.atEnd = true
    · rw [if_pos hend] at h
      cases h
      exact ⟨[], .done hend, rfl⟩
    · rw [if_neg hend] at h
      have hmore : c.atEnd = false := by simpa using hend
      cases hread : item c with
      | none => simp [hread] at h
      | some result =>
        rw [hread] at h
        obtain ⟨r, d⟩ := result
        cases r with
        | ok s =>
          obtain ⟨⟨items', errors'⟩, hrest, hsplit⟩ := Option.map_eq_some_iff.1 h
          cases hsplit
          obtain ⟨attempts, hattempts, herrors⟩ := ih hrest
          exact ⟨attempts, .item hmore hread hattempts, herrors⟩
        | error e =>
          obtain ⟨⟨items', errors'⟩, hrest, hsplit⟩ := Option.map_eq_some_iff.1 h
          cases hsplit
          obtain ⟨attempts, hattempts, herrors⟩ := ih hrest
          exact ⟨⟨c, e, d⟩ :: attempts, .error hmore hread hattempts,
            by rw [List.map_cons, herrors]⟩

theorem Attempted.eq_nil (h : Attempted item c attempts) (hend : c.atEnd = true) :
    attempts = [] := by
  cases h with
  | done => rfl
  | item hmore | error hmore =>
    rw [hend] at hmore
    cases hmore

theorem Attempted.read_of_mem (h : Attempted item c attempts) :
    ∀ a ∈ attempts, item a.start = some (.error a.error, a.stop) := by
  induction h with
  | done => exact fun a ha => absurd ha List.not_mem_nil
  | item _ _ _ ih => exact ih
  | error _ h _ ih => exact List.forall_mem_cons.2 ⟨h, ih⟩

/-- Attempts are made on the way from the start, and their errors are about tokens that they have
taken or raised where they give up. -/
theorem Attempted.made (h : Attempted (Grammar.item fuel) c attempts) (hc : c.Bounded)
    (hfuel : c.ahead ≤ fuel) : ∀ a ∈ attempts, a.MadeFrom c := by
  induction h with
  | done hend => exact fun a ha => absurd ha List.not_mem_nil
  | @item c d s attempts hmore h _ ih =>
    have hread := item_settles hfuel (.inl hc)
    rw [h] at hread
    cases hread with
    | value way htaken hs =>
      have hahead := way.ahead_eq
      exact fun a ha => (ih (way.bounded hc) (by omega) a ha).behind way
  | @error c d e attempts hmore h _ ih =>
    have hread := item_settles hfuel (.inl hc)
    rw [h] at hread
    cases hread with
    | error way place =>
      obtain ⟨skipped, way', -⟩ := way_resume d
      have hahead := way.ahead_eq
      have hahead' := way'.ahead_eq
      refine List.forall_mem_cons.2 ⟨⟨⟨[], .refl c⟩, _, way, place hc⟩, fun a ha => ?_⟩
      exact (ih (way'.bounded (way.bounded hc)) (by omega) a ha).behind (way.trans way')

/-- Attempts stand in the tokens, and each starts behind the token where the one before it gave
up. -/
theorem Attempted.progress {file : Nat} (h : Attempted (Grammar.item fuel) c attempts)
    (hc : c.Bounded) (hfuel : c.ahead ≤ fuel) (hrest : c.rest <:+ tokens)
    (horder : InOrder file tokens) :
    (∀ a ∈ attempts, a.PlacedIn tokens) ∧
      attempts.Pairwise fun a b => a.stop.place tokens < b.start.place tokens := by
  refine ⟨fun a ha => (h.made hc hfuel a ha).placedIn hc hrest horder, ?_⟩
  induction h with
  | done hend => exact .nil
  | @item c d s attempts hmore h _ ih =>
    have hread := item_settles hfuel (.inl hc)
    rw [h] at hread
    cases hread with
    | value way htaken hs =>
      have hahead := way.ahead_eq
      exact ih (way.bounded hc) (by omega) (way.place_eq hrest).1
  | @error c d e attempts hmore h hattempts ih =>
    have hread := item_settles hfuel (.inl hc)
    rw [h] at hread
    cases hread with
    | error way place =>
      obtain ⟨skipped, way', hskipped⟩ := way_resume d
      have hahead := way.ahead_eq
      have hahead' := way'.ahead_eq
      have hbounded := way'.bounded (way.bounded hc)
      obtain ⟨hresume, hplace'⟩ := way'.place_eq (way.place_eq hrest).1
      refine List.pairwise_cons.2 ⟨fun a ha => ?_, ih hbounded (by omega) hresume⟩
      obtain ⟨⟨row, hstart⟩, -⟩ := hattempts.made hbounded (by omega) a ha
      have hplace := (hstart.place_eq hresume).2
      -- There is a further attempt, so this one did not give up at the end of the tokens.
      have hmore : 0 < d.ahead := by
        apply Nat.pos_of_ne_zero
        intro hend
        rw [hattempts.eq_nil (Cursor.atEnd_iff.2 (by omega))] at ha
        cases ha
      show d.place tokens < _
      omega

end Grammar

/-! ## Errors of a text -/

/-- How errors come from the tokens of a text. They are those of the attempts to read a declaration
that fail on the way through the tokens, and each attempt starts behind the token where the one
before it gave up. -/
structure Recovers (tokens : List Token) (errors : List ParseError) (attempts : List Attempt) :
    Prop where
  errors : errors = attempts.map Attempt.error
  made : ∃ first, tokens.head? = some first ∧
    Grammar.Attempted (Grammar.item (tokens.length + 2)) ⟨first, tokens, 0⟩ attempts
  placed : ∀ a ∈ attempts, a.PlacedIn tokens
  progress : attempts.Pairwise fun a b => a.stop.place tokens < b.start.place tokens

/-- Errors of attempts that go forward through a text start one behind the other. -/
theorem Recovers.increasing {source : String} {file : Nat} {errors : List ParseError}
    {attempts : List Attempt} (h : Recovers (tokenize source file) errors attempts) :
    errors.Pairwise fun e e' => e.span.start < e'.span.start := by
  have hstarts : (tokenize source file).Pairwise fun t t' => t.span.start < t'.span.start :=
    (Scanner.untilEof_start _ _).2
  rw [h.errors, List.pairwise_map]
  apply h.progress.imp_of_mem
  intro a b ha hb hprogress
  obtain ⟨i, first, last, -, hi, hfirst, -, hspan⟩ := (h.placed a ha).error
  obtain ⟨j, first', last', hj, -, hfirst', -, hspan'⟩ := (h.placed b hb).error
  have hlt : first.span.start < first'.span.start := by
    obtain ⟨hilt, rfl⟩ := List.getElem?_eq_some_iff.1 hfirst
    obtain ⟨hjlt, rfl⟩ := List.getElem?_eq_some_iff.1 hfirst'
    exact List.pairwise_iff_getElem.1 hstarts i j hilt hjlt (by omega)
  rw [hspan, hspan']
  exact hlt

/-- The reading of a text as a run of attempts. -/
theorem exists_recovers (source : String) (file : Nat) :
    ∃ f errors attempts, Recovers (tokenize source file) errors attempts ∧
      parseSource source file = some (if errors.isEmpty then .ok f else .error errors) := by
  obtain ⟨front, eof, hsource, heof, -⟩ := tokenize_ends source file
  have hend : ∃ t ∈ tokenize source file, t.kind = .eof := ⟨eof, by simp [hsource], heof⟩
  have horder := tokenize_inOrder source file
  rw [parseSource]
  generalize tokenize source file = tokens at hsource hend horder ⊢
  cases tokens with
  | nil => simp at hsource
  | cons first rest =>
    have hbounded : (⟨first, first :: rest, 0⟩ : Cursor).Bounded := hend
    have hahead := (⟨first, first :: rest, 0⟩ : Cursor).ahead_le
    dsimp only at hahead
    obtain ⟨⟨items, errors⟩, hread⟩ : ∃ result,
        Grammar.itemsAndErrors (Grammar.item ((first :: rest).length + 2))
        ((first :: rest).length + 2) ⟨first, first :: rest, 0⟩ = some result :=
      Grammar.itemsAndErrors_isSome (fun d hd => Grammar.item_settles (by omega))
        (.inl hbounded) (by omega)
    obtain ⟨attempts, hattempts, herrors⟩ := Grammar.itemsAndErrors_attempted hread
    obtain ⟨hplaced, hprogress⟩ := hattempts.progress hbounded (by omega) List.suffix_rfl horder
    have hrecovers : Recovers (first :: rest) errors attempts :=
      ⟨herrors, ⟨first, rfl, hattempts⟩, hplaced, hprogress⟩
    exact ⟨_, errors, attempts, hrecovers, by rw [parseTokens, parseTokensWithin, hread]; rfl⟩

/-- Every text is read as a file, or its reading gives errors. Then there is at least one, they
start one behind the other in the text, and each comes from an attempt to read a declaration that
starts behind the token at which the attempt with the error before it gave up. -/
theorem parseSource_recovers (source : String) (file : Nat) :
    (∃ f, parseSource source file = some (.ok f)) ∨
    ∃ errors attempts, parseSource source file = some (.error errors) ∧ errors ≠ [] ∧
      errors.Pairwise (fun e e' => e.span.start < e'.span.start) ∧
      Recovers (tokenize source file) errors attempts := by
  obtain ⟨f, errors, attempts, hrecovers, hparse⟩ := exists_recovers source file
  cases errors with
  | nil => exact .inl ⟨f, hparse⟩
  | cons e errors =>
    exact .inr ⟨e :: errors, attempts, hparse, List.cons_ne_nil _ _,
      hrecovers.increasing, hrecovers⟩

end Custody
