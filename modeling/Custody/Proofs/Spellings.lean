import Custody.Proofs.Readings

/-!
# Readers over spelled tokens

`Spelled` says that tokens make up a row of a language of symbols, whatever their spans are.

`Parse.Leads` follows a reader over such tokens: behind them, reading goes on with another reader. A
reader that `Yields` a value there has nothing left to do. A reader is followed token by token, and
`Leads.bind` and `Leads.trans` put the steps together.
-/

set_option autoImplicit false

namespace Custody

open Style

/-! ## Spelled tokens -/

/-- The tokens make up a row of the language. -/
def Spelled (tokens : List Token) (L : Language Symbol) : Prop := tokens.map Token.symbol ∈ L

section Spelled

variable {tokens : List Token} {L M : Language Symbol}

theorem spelled_one : Spelled tokens 1 ↔ tokens = [] := List.map_eq_nil_iff

theorem spelled_optional : Spelled tokens (lenient.optional L) ↔ tokens = [] ∨ Spelled tokens L :=
  or_congr_left spelled_one

theorem spelled_mul :
    Spelled tokens (L * M) ↔ ∃ front back, tokens = front ++ back ∧ Spelled front L ∧
      Spelled back M := by
  unfold Spelled
  rw [Language.mem_mul]
  constructor
  · rintro ⟨a, ha, b, hb, hab⟩
    obtain ⟨front, back, rfl, rfl, rfl⟩ := List.map_eq_append_iff.1 hab.symm
    exact ⟨front, back, rfl, ha, hb⟩
  · rintro ⟨front, back, rfl, ha, hb⟩
    exact ⟨_, ha, _, hb, List.map_append.symm⟩

theorem spelled_symbol {s : Symbol} :
    Spelled tokens (lenient.symbol s) ↔ ∃ t, tokens = [t] ∧ t.symbol = s := by
  refine Iff.trans (b := tokens.map Token.symbol = [s]) Iff.rfl ?_
  rw [List.map_eq_singleton_iff]

theorem spelled_kind {kind : TokenKind} (h : Spelled tokens (lenient.kind kind)) :
    ∃ t, tokens = [t] ∧ t.kind = kind := by
  obtain ⟨t, rfl, ht⟩ := spelled_symbol.1 h
  exact ⟨t, rfl, congrArg Symbol.kind ht⟩

theorem spelled_name {name : Ident} (h : Spelled tokens (lenient.name name)) :
    ∃ t, tokens = [t] ∧ t.kind = .identifier ∧ t.value = name.name := by
  obtain ⟨t, rfl, ht⟩ := spelled_symbol.1 h
  exact ⟨t, rfl, congrArg Symbol.kind ht, congrArg Symbol.value ht⟩

theorem spelled_kind_mul {kind : TokenKind} (h : Spelled tokens (lenient.kind kind * L)) :
    ∃ t rest, tokens = t :: rest ∧ t.kind = kind ∧ Spelled rest L := by
  obtain ⟨front, back, rfl, hfront, hback⟩ := spelled_mul.1 h
  obtain ⟨t, rfl, ht⟩ := spelled_kind hfront
  exact ⟨t, back, rfl, ht, hback⟩

theorem spelled_name_mul {name : Ident} (h : Spelled tokens (lenient.name name * L)) :
    ∃ t rest, tokens = t :: rest ∧ t.kind = .identifier ∧ t.value = name.name ∧ Spelled rest L := by
  obtain ⟨front, back, rfl, hfront, hback⟩ := spelled_mul.1 h
  obtain ⟨t, rfl, ht, hvalue⟩ := spelled_name hfront
  exact ⟨t, back, rfl, ht, hvalue, hback⟩

/-- The tokens that a type or a whole expression ends in front of. -/
def closers : List TokenKind :=
  [.comma, .rParen, .rBracket, .rBrace, .semicolon, .eq, .lBrace, .eof]

/-- The tokens start with one that a type or a whole expression ends in front of. -/
def Closes (tokens : List Token) : Prop := ∃ t rest, tokens = t :: rest ∧ t.kind ∈ closers

theorem closes_cons {t : Token} {kind : TokenKind} (ht : t.kind = kind) (hkind : kind ∈ closers) :
    Closes (t :: tokens) := ⟨t, tokens, rfl, ht ▸ hkind⟩

/-- Every row of the language starts with a symbol of one of the kinds. -/
def Opens (kinds : List TokenKind) (L : Language Symbol) : Prop :=
  ∀ row ∈ L, ∃ s ∈ row.head?, s.kind ∈ kinds

section Opens

variable {kinds : List TokenKind}

theorem Opens.head (h : Opens kinds L) (hspelled : Spelled tokens L) :
    ∃ t rest, tokens = t :: rest ∧ t.kind ∈ kinds := by
  obtain ⟨s, hs, hkind⟩ := h _ hspelled
  cases tokens with
  | nil => simp at hs
  | cons t tokens =>
    obtain rfl := Option.some.inj hs
    exact ⟨t, tokens, rfl, hkind⟩

theorem Opens.mono {kinds' : List TokenKind} (h : Opens kinds L)
    (hle : ∀ kind ∈ kinds, kind ∈ kinds') : Opens kinds' L := by
  intro row hrow
  obtain ⟨s, hs, hkind⟩ := h row hrow
  exact ⟨s, hs, hle _ hkind⟩

theorem opens_symbol {kind : TokenKind} (h : kind ∈ kinds) (value : String) :
    Opens kinds (lenient.symbol ⟨kind, value⟩) := by
  rintro row rfl
  exact ⟨⟨kind, value⟩, rfl, h⟩

theorem opens_mul (h : Opens kinds L) : Opens kinds (L * M) := by
  rintro row ⟨front, hfront, back, -, rfl⟩
  obtain ⟨s, hs, hkind⟩ := h front hfront
  exact ⟨s, by simp [Option.mem_def.1 hs], hkind⟩

end Opens

end Spelled

/-! ## Readers over tokens -/

namespace Parse

variable {α β : Type}

/-- In front of the tokens, reading comes down to reading the rest with a reader that has the
property. -/
def Leads (p : Parse α) (tokens rest : List Token) (Q : Parse α → Prop) : Prop :=
  ∀ c : Cursor, c.rest = tokens ++ rest → ∃ q c', Q q ∧ c'.rest = rest ∧ p c = q c'

/-- The reader is done with a value that has the property. -/
def Done (P : α → Prop) (p : Parse α) : Prop := ∃ a, P a ∧ p = pure a

/-- In front of the tokens, the reader takes them and gives a value that has the property. -/
abbrev Yields (p : Parse α) (tokens rest : List Token) (P : α → Prop) : Prop :=
  p.Leads tokens rest (Done P)

variable {p : Parse α} {f : α → Parse β} {tokens tokens' rest : List Token} {P : α → Prop}
  {Q Q' : Parse α → Prop} {R : Parse β → Prop} {t : Token} {kind : TokenKind}

theorem leads_nothing (h : Q p) : p.Leads [] rest Q := fun c hc => ⟨p, c, h, hc, rfl⟩

theorem yields_pure {a : α} (h : P a) : (pure a : Parse α).Yields [] rest P :=
  leads_nothing ⟨a, h, rfl⟩

theorem Leads.trans (h : p.Leads tokens (tokens' ++ rest) Q)
    (h' : ∀ q, Q q → q.Leads tokens' rest Q') : p.Leads (tokens ++ tokens') rest Q' := by
  intro c hc
  rw [List.append_assoc] at hc
  obtain ⟨q, d, hq, hd, heq⟩ := h c hc
  obtain ⟨q', c', hq', hc', heq'⟩ := h' q hq d hd
  exact ⟨q', c', hq', hc', heq.trans heq'⟩

/-- The reader that was led to takes no more tokens. -/
theorem Leads.trans_last (h : p.Leads tokens rest Q) (h' : ∀ q, Q q → q.Leads [] rest Q') :
    p.Leads tokens rest Q' := by
  have htrans : p.Leads (tokens ++ []) rest Q' := Leads.trans h h'
  rwa [List.append_nil] at htrans

theorem Leads.mono (h : p.Leads tokens rest Q) (hQ : ∀ q, Q q → Q' q) : p.Leads tokens rest Q' := by
  intro c hc
  obtain ⟨q, c', hq, hc', heq⟩ := h c hc
  exact ⟨q, c', hQ q hq, hc', heq⟩

theorem Leads.bind (h : p.Yields tokens (tokens' ++ rest) P)
    (hf : ∀ a, P a → (f a).Leads tokens' rest R) : (p >>= f).Leads (tokens ++ tokens') rest R := by
  intro c hc
  rw [List.append_assoc] at hc
  obtain ⟨q, d, ⟨a, ha, rfl⟩, hd, heq⟩ := h c hc
  obtain ⟨r, c', hr, hc', heq'⟩ := hf a ha d hd
  refine ⟨r, c', hr, hc', ?_⟩
  change Parse.bind p f c = _
  rw [Parse.bind, heq]
  exact heq'

/-- The reader behind the last tokens takes none. -/
theorem Leads.bind_last (h : p.Yields tokens rest P) (hf : ∀ a, P a → (f a).Leads [] rest R) :
    (p >>= f).Leads tokens rest R := by
  have hbind : (p >>= f).Leads (tokens ++ []) rest R := Leads.bind h hf
  rwa [List.append_nil] at hbind

theorem leads_pure {a : α} (h : (f a).Leads tokens rest R) : (pure a >>= f).Leads tokens rest R := h

theorem leads_cursor {f : Cursor → Parse β}
    (hf : ∀ c, c.rest = tokens ++ rest → (f c).Leads tokens rest R) :
    ((look fun c => c) >>= f).Leads tokens rest R := fun c hc => hf c hc c hc

theorem leads_here {f : Span → Parse β} (hf : ∀ span, (f span).Leads tokens rest R) :
    (here >>= f).Leads tokens rest R := fun c hc => hf _ c hc

theorem leads_finish {start : Span} {f : Mark → Parse β}
    (hf : ∀ mark, (f mark).Leads tokens rest R) :
    (finish start >>= f).Leads tokens rest R :=
  fun c hc => hf _ { c with nextId := c.nextId + 1 } hc

/-- A node is finished behind its last token. -/
theorem node_yields {start : Span} {node : Mark → α} (h : ∀ mark, P (node mark)) :
    (finish start >>= fun mark => pure (node mark)).Yields [] rest P :=
  leads_finish fun mark => yields_pure (h mark)

theorem rest_of_head {c : Cursor} (hc : c.rest = tokens ++ rest)
    (ht : (tokens ++ rest).head? = some t) : ∃ ts, c.rest = t :: ts :=
  List.head?_eq_some_iff.1 (hc ▸ ht)

theorem current_of_head {c : Cursor} (hc : c.rest = tokens ++ rest)
    (ht : (tokens ++ rest).head? = some t) : c.current = t := by
  obtain ⟨ts, hrest⟩ := rest_of_head hc ht
  rw [Cursor.current, hrest]

theorem leads_current {f : Token → Parse β} (ht : (tokens ++ rest).head? = some t)
    (hf : (f t).Leads tokens rest R) : (current >>= f).Leads tokens rest R := by
  intro c hc
  rw [← current_of_head hc ht] at hf
  exact hf c hc

theorem check_of_head {c : Cursor} (hc : c.rest = tokens ++ rest)
    (ht : (tokens ++ rest).head? = some t)
    (hkind : kind ≠ .eof) : c.check kind = (t.kind == kind) := by
  obtain ⟨ts, hrest⟩ := rest_of_head hc ht
  rw [Cursor.check, current_of_head hc ht, Cursor.atEnd, hrest]
  by_cases heq : t.kind = kind
  · simp [heq, hkind]
  · simp [heq]

theorem leads_check {f : Bool → Parse β} (ht : (tokens ++ rest).head? = some t)
    (hkind : kind ≠ .eof)
    (hf : (f (t.kind == kind)).Leads tokens rest R) : (check kind >>= f).Leads tokens rest R := by
  intro c hc
  rw [← check_of_head hc ht hkind] at hf
  exact hf c hc

theorem leads_end {f : Bool → Parse β} (ht : (tokens ++ rest).head? = some t) (hkind : kind ≠ .eof)
    (hf : (f (t.kind == kind || t.kind == .eof)).Leads tokens rest R) :
    ((look fun c => c.check kind || c.atEnd) >>= f).Leads tokens rest R := by
  intro c hc
  have hend : c.atEnd = (t.kind == .eof) := by
    obtain ⟨ts, hrest⟩ := rest_of_head hc ht
    rw [Cursor.atEnd, hrest]
  rw [← check_of_head hc ht hkind, ← hend] at hf
  exact hf c hc

theorem advance_of_cons {c : Cursor} (hc : c.rest = t :: tokens) (ht : t.kind ≠ .eof) :
    c.advance.previous = t ∧ c.advance.rest = tokens := by
  unfold Cursor.advance
  rw [hc]
  dsimp only
  rw [if_neg ht]
  exact ⟨rfl, rfl⟩

theorem leads_advance {f : Token → Parse β} (ht : t.kind ≠ .eof) (hf : (f t).Leads tokens rest R) :
    (advance >>= f).Leads (t :: tokens) rest R := by
  intro c hc
  obtain ⟨hprevious, hrest⟩ := advance_of_cons hc ht
  rw [← hprevious] at hf
  exact hf c.advance hrest

theorem leads_expect {f : Token → Parse β} (ht : t.kind = kind) (hkind : kind ≠ .eof)
    (hf : (f t).Leads tokens rest R) : (expect kind >>= f).Leads (t :: tokens) rest R := by
  intro c hc
  have hcheck : c.check kind = true := by
    rw [check_of_head hc rfl hkind, ht]
    exact beq_self_eq_true kind
  obtain ⟨r, c', hr, hc', heq⟩ := leads_advance (ht ▸ hkind) hf c hc
  refine ⟨r, c', hr, hc', heq ▸ ?_⟩
  change Parse.bind (expect kind) f c = Parse.bind advance f c
  unfold Parse.bind expect
  rw [if_pos hcheck]

/-- A name is read from its token. -/
theorem ident_yields {name : Ident} (ht : t.kind = .identifier) (hvalue : t.value = name.name) :
    ident.Yields [t] rest fun name' => name'.bare = name.bare :=
  leads_expect ht (by decide) (yields_pure (by rw [Ident.bare, hvalue]; rfl))

theorem leads_ident {f : Ident → Parse β} {name : Ident} (ht : t.kind = .identifier)
    (hvalue : t.value = name.name)
    (hf : ∀ name', name'.bare = name.bare → (f name').Leads tokens rest R) :
    (ident >>= f).Leads (t :: tokens) rest R := (ident_yields ht hvalue).bind hf

/-- What may be missing in front of a token is read unless the token is there. -/
theorem leads_optional {write : α → Language Symbol} {bare : α → α} {x : Option α}
    {f : Option α → Parse β} {kinds : List TokenKind} (h : Spelled tokens (x.elim 1 write))
    (hopens : ∀ a ∈ x, Opens kinds (write a)) (ht : t.kind = kind) (hkind : kind ∉ kinds)
    (heof : kind ≠ .eof)
    (hread : ∀ a ∈ x, p.Yields tokens (t :: tokens' ++ rest) fun a' => bare a' = bare a)
    (hf : ∀ x', x'.map bare = x.map bare → (f x').Leads (t :: tokens') rest R) :
    (check kind >>= fun missing =>
      if missing = true then pure none >>= f else p >>= fun a => pure (some a) >>= f).Leads
      (tokens ++ t :: tokens') rest R := by
  cases x with
  | none =>
    obtain rfl := spelled_one.1 h
    refine leads_check (t := t) rfl heof ?_
    rw [ht, beq_self_eq_true, if_pos rfl]
    exact leads_pure (hf none rfl)
  | some a =>
    -- What is there starts with another token, so that the reader does not take it for missing.
    obtain ⟨first, tokens₁, htokens, hfirst⟩ := (hopens a rfl).head h
    refine leads_check (t := first) (by rw [htokens]; rfl) heof ?_
    have hthere : (first.kind == kind) = false :=
      beq_eq_false_iff_ne.2 fun heq => hkind (heq ▸ hfirst)
    rw [hthere, if_neg Bool.false_ne_true]
    exact (hread a rfl).bind fun a' ha' => leads_pure (hf (some a') (congrArg some ha'))

/-! ## Lists -/

section Items

variable {item : Parse α} {write : α → Language Symbol} {bare : α → α} {kinds : List TokenKind}
  {opening close : TokenKind} {fuel bound : Nat} {xs : List α}

/-- The token ends a list whose items start with tokens of the given kinds. -/
def EndsList (kinds : List TokenKind) (close : TokenKind) : Prop :=
  close ∈ closers ∧ close ≠ .comma ∧ close ∉ kinds ∧ .eof ∉ close :: kinds

instance : Decidable (EndsList kinds close) := inferInstanceAs (Decidable (_ ∧ _))

theorem EndsList.ne_eof (h : EndsList kinds close) : close ≠ .eof :=
  (List.ne_of_not_mem_cons h.2.2.2).symm

/-- At its end a list gives nothing more. -/
theorem items_yields_nil (ht : t.kind = close) (hclose : close ≠ .eof) :
    (items close item (fuel + 1)).Yields [] (t :: rest) fun ys => ys = [] := by
  rw [items]
  refine leads_end rfl hclose ?_
  rw [ht, beq_self_eq_true, Bool.true_or, if_pos rfl]
  exact yields_pure rfl

/-- The items of a list are read from a spelling of the list, if each is read from its own. -/
theorem items_yields (hspelled : Spelled tokens (lenient.listed (xs.map write)))
    (hitem : ∀ x ∈ xs, ∀ tokens rest, Spelled tokens (write x) →
      tokens.length < bound → Closes rest → item.Yields tokens rest fun y => bare y = bare x)
    (hopens : ∀ x ∈ xs, Opens kinds (write x)) (hclose : EndsList kinds close)
    (hbound : tokens.length < bound) (hfuel : tokens.length < fuel) (ht : t.kind = close) :
    (items close item fuel).Yields tokens (t :: rest) fun ys => ys.map bare = xs.map bare := by
  have heof := hclose.ne_eof
  obtain ⟨hclose, hcomma, hkinds⟩ := hclose
  induction xs generalizing tokens fuel with
  | nil =>
    obtain ⟨fuel, rfl⟩ := Nat.exists_eq_succ_of_ne_zero (Nat.ne_zero_of_lt hfuel)
    obtain rfl := spelled_one.1 hspelled
    have hnil : (items close item (fuel + 1)).Yields [] (t :: rest) fun ys => ys = [] :=
      items_yields_nil ht heof
    refine hnil.mono fun q hq => ?_
    obtain ⟨ys, rfl, rfl⟩ := hq
    exact ⟨[], rfl, rfl⟩
  | cons x xs ih =>
    obtain ⟨fuel, rfl⟩ := Nat.exists_eq_succ_of_ne_zero (Nat.ne_zero_of_lt hfuel)
    obtain ⟨front, back, rfl, hfront, hback⟩ := spelled_mul.1 hspelled
    obtain ⟨t₀, front', hfront', ht₀⟩ := (hopens x List.mem_cons_self).head hfront
    rw [List.length_append] at hfuel hbound
    have hlength : 0 < front.length := by rw [hfront']; exact Nat.succ_pos _
    have hx := hitem x List.mem_cons_self front
    rw [items]
    refine leads_end (t := t₀) (by rw [hfront']; rfl) heof ?_
    -- No item starts with the token that ends the list.
    have hgoes : (t₀.kind == close || t₀.kind == .eof) = false := by
      rw [Bool.or_eq_false_iff, beq_eq_false_iff_ne, beq_eq_false_iff_ne]
      exact ⟨fun h => hkinds.1 (h ▸ ht₀), fun h => hkinds.2 (.tail _ (h ▸ ht₀))⟩
    rw [hgoes]
    simp only [Bool.false_eq_true, if_false]
    -- The last item may have no comma behind it.
    have hcases : (xs = [] ∧ back = []) ∨
        ∃ comma back', back = comma :: back' ∧ comma.kind = .comma ∧
          Spelled back' (lenient.listed (xs.map write)) := by
      cases xs with
      | nil =>
        rcases spelled_optional.1 hback with rfl | hback
        · exact .inl ⟨rfl, rfl⟩
        · obtain ⟨comma, rfl, hkind⟩ := spelled_kind hback
          exact .inr ⟨comma, [], rfl, hkind, spelled_one.2 rfl⟩
      | cons x' xs' => exact .inr (spelled_kind_mul hback)
    rcases hcases with ⟨rfl, rfl⟩ | ⟨comma, back', rfl, hcommaKind, hback'⟩
    · refine Leads.bind (hx _ hfront (by omega) ⟨t, rest, rfl, ht ▸ hclose⟩) fun y hy => ?_
      refine leads_check rfl heof ?_
      rw [ht, beq_self_eq_true, if_pos rfl]
      obtain ⟨fuel, rfl⟩ : ∃ n, fuel = n + 1 := ⟨fuel - 1, by omega⟩
      exact (items_yields_nil ht heof).bind_last fun ys hys => yields_pure (by simp [hy, hys])
    · refine Leads.bind
        (hx _ hfront (by omega) ⟨comma, _, rfl, by rw [hcommaKind]; decide⟩) fun y hy => ?_
      refine leads_check rfl heof ?_
      have hnext : (comma.kind == close) = false := by
        rw [hcommaKind, beq_eq_false_iff_ne]
        exact hcomma.symm
      rw [hnext, if_neg Bool.false_ne_true]
      rw [List.length_cons] at hfuel hbound
      have hxs : (items close item fuel).Yields back' (t :: rest) fun ys =>
        ys.map bare = xs.map bare :=
        ih hback' (fun x' hx' => hitem x' (List.mem_cons_of_mem x hx'))
          (fun x' hx' => hopens x' (List.mem_cons_of_mem x hx')) (by omega) (by omega)
      refine leads_expect hcommaKind (by decide) (hxs.bind_last fun ys hys => yields_pure ?_)
      rw [List.map_cons, List.map_cons, hy, hys]

/-- A list between two delimiters, behind the first of them. -/
theorem itemsTo_yields (hspelled : Spelled tokens (lenient.enclosed opening close (xs.map write)))
    (hitem : ∀ x ∈ xs, ∀ tokens rest, Spelled tokens (write x) →
      tokens.length < bound → Closes rest → item.Yields tokens rest fun y => bare y = bare x)
    (hopens : ∀ x ∈ xs, Opens kinds (write x)) (hclose : EndsList kinds close)
    (hbound : tokens.length ≤ bound) (hfuel : tokens.length ≤ fuel) :
    ∃ t tokens', tokens = t :: tokens' ∧ t.kind = opening ∧ ∀ rest,
      (itemsTo close item fuel).Yields tokens' rest fun ys => ys.map bare = xs.map bare := by
  rw [Style.enclosed, mul_assoc] at hspelled
  obtain ⟨t, tokens', rfl, ht, hspelled⟩ := spelled_kind_mul hspelled
  obtain ⟨inner, last, rfl, hinner, hlast⟩ := spelled_mul.1 hspelled
  obtain ⟨t', rfl, ht'⟩ := spelled_kind hlast
  simp only [List.length_cons, List.length_append] at hfuel hbound
  refine ⟨t, _, rfl, ht, fun rest => ?_⟩
  have hitems : (items close item fuel).Yields inner (t' :: rest) fun ys =>
    ys.map bare = xs.map bare :=
    items_yields hinner hitem hopens hclose (by omega) (by omega) ht'
  refine hitems.bind fun ys hys => ?_
  exact leads_expect ht' hclose.ne_eof (yields_pure hys)

end Items

end Parse

end Custody
