import Custody.Grammar.File
import Custody.Proofs.Resemblance

/-!
# Two readings side by side

The grammar looks at the kinds and the values of tokens and never at their spans. So two lists of
the same tokens, at places that answer to each other, are read alike: both fail, with the same
faults at places that answer to each other, or both give trees that resemble each other. If error
tokens answer to commas, that is so up to the first error token that is told of.

`Parse.Mirrors ρ R p q` says this of two readers, with values that are related by `R`. There is one
lemma for each reader of the grammar; `parseTokens_mirrors` is about whole files.
-/

set_option autoImplicit false

namespace Custody

variable {ρ : Correspondence}

/-! ## Tokens and cursors -/

section Resembles

variable (ρ)

/-- The same token, at places that answer to each other. An error token may answer to a comma. -/
structure Token.Resembles (t t' : Token) : Prop where
  kind : t'.kind = t.kind ∨ ρ.mends = true ∧ t.kind = .error ∧ t'.kind = .comma
  value : t'.value = t.value
  near : ρ.near t.span t'.span
  name : t.kind ≠ .eof → ρ.name t.span t'.span

/-- The same place in two lists of the same tokens. The token before it is not `eof`, which no
reader leaves. -/
structure Cursor.Resembles (c c' : Cursor) : Prop where
  previous : c.previous.Resembles ρ c'.previous
  behind : ρ.name c.previous.span c'.previous.span
  rest : List.Forall₂ (Token.Resembles ρ) c.rest c'.rest
  nextId : c'.nextId = c.nextId

/-- The same error, at places that answer to each other. -/
structure ParseError.Resembles (e e' : ParseError) : Prop where
  fault : e'.fault = e.fault ∨
    ρ.mends = true ∧ e.fault = .expectedType .error ∧ e'.fault = .expectedType .comma
  span : ρ.near e.span e'.span

end Resembles

theorem ParseError.Resembles.fault_eq {e e' : ParseError} (h : e.Resembles ρ e')
    (hmends : ρ.mends = false) : e'.fault = e.fault :=
  h.fault.resolve_right fun hfault => by
    rw [hmends] at hfault
    cases hfault.1

/-- What does not tell an error token from a comma does not tell the two tokens from each other. -/
theorem Token.Resembles.same {α : Type} {t t' : Token} (h : t.Resembles ρ t') (f : TokenKind → α)
    (hf : f .comma = f .error) : f t'.kind = f t.kind := by
  rcases h.kind with hkind | ⟨-, herror, hcomma⟩
  · rw [hkind]
  · rw [herror, hcomma, hf]

/-- Whether a kind is neither that of an error token nor that of the comma that stands for it. -/
def TokenKind.isCommon (kind : TokenKind) : Bool := kind != .comma && kind != .error

theorem TokenKind.ne_error_of_isCommon {kind : TokenKind} (h : kind.isCommon = true) :
    (kind == .error) = false :=
  eq_false_of_ne_true fun herror => by
    rw [eq_of_beq herror] at h
    cases h

theorem Token.Resembles.beq_kind {t t' : Token} (h : t.Resembles ρ t') {kind : TokenKind}
    (hkind : kind.isCommon = true) : (t'.kind == kind) = (t.kind == kind) := by
  refine h.same (· == kind) ?_
  cases kind <;> first | rfl | cases hkind

namespace Cursor.Resembles

variable {c c' : Cursor}

theorem current (h : c.Resembles ρ c') : c.current.Resembles ρ c'.current := by
  obtain ⟨previous, rest, nextId⟩ := c
  obtain ⟨previous', rest', nextId'⟩ := c'
  obtain ⟨hprevious, -, hrest, -⟩ := h
  cases hrest with
  | nil => exact hprevious
  | cons htoken _ => exact htoken

theorem atEnd (h : c.Resembles ρ c') : c'.atEnd = c.atEnd := by
  obtain ⟨previous, rest, nextId⟩ := c
  obtain ⟨previous', rest', nextId'⟩ := c'
  obtain ⟨-, -, hrest, -⟩ := h
  cases hrest with
  | nil => rfl
  | cons htoken _ => exact htoken.beq_kind rfl

theorem check (h : c.Resembles ρ c') {kind : TokenKind} (hkind : kind.isCommon = true) :
    c'.check kind = c.check kind := by
  rw [Cursor.check, Cursor.check, h.atEnd, h.current.beq_kind hkind]

theorem peekIs (h : c.Resembles ρ c') {kind : TokenKind} (hkind : kind.isCommon = true) :
    c'.peekIs kind = c.peekIs kind := by
  obtain ⟨previous, rest, nextId⟩ := c
  obtain ⟨previous', rest', nextId'⟩ := c'
  obtain ⟨-, -, hrest, -⟩ := h
  cases hrest with
  | nil => rfl
  | cons _ hrest =>
    cases hrest with
    | nil => rfl
    | cons htoken _ => exact htoken.beq_kind hkind

theorem advance (h : c.Resembles ρ c') : c.advance.Resembles ρ c'.advance := by
  obtain ⟨previous, rest, nextId⟩ := c
  obtain ⟨previous', rest', nextId'⟩ := c'
  obtain ⟨hprevious, hbehind, hrest, hnextId⟩ := h
  cases hrest with
  | nil => exact ⟨hprevious, hbehind, .nil, hnextId⟩
  | @cons t t' ts ts' htoken hrest =>
    have heof : (t'.kind = .eof) = (t.kind = .eof) := htoken.same (· = .eof) (by simp)
    simp only [Cursor.advance, heof]
    split
    · exact ⟨hprevious, hbehind, .cons htoken hrest, hnextId⟩
    · next hreal => exact ⟨htoken, htoken.name hreal, hrest, hnextId⟩

end Cursor.Resembles

/-! ## Readers -/

namespace Parse

variable {α β γ δ : Type}

/-- The outcomes of two readers: both have no result, or the same error, or values that are related
by `R`. Where a comma stands for an error token, the second reader may go on while the first one
tells what the scanner has found. -/
inductive Outcome (ρ : Correspondence) (R : α → β → Prop) :
    Option (Except ParseError α × Cursor) → Option (Except ParseError β × Cursor) → Prop
  | none : Outcome ρ R none none
  | error {e e' : ParseError} {c c' : Cursor} (he : e.Resembles ρ e') (hc : c.Resembles ρ c') :
      Outcome ρ R (some (.error e, c)) (some (.error e', c'))
  | ok {a : α} {b : β} {c c' : Cursor} (h : R a b) (hc : c.Resembles ρ c') :
      Outcome ρ R (some (.ok a, c)) (some (.ok b, c'))
  | parted (hmends : ρ.mends = true) (message : String) (span : Span) (c : Cursor)
      (y : Option (Except ParseError β × Cursor)) :
      Outcome ρ R (some (.error ⟨.lexical message, span⟩, c)) y

/-- From the same place, the two readers have the same outcome, with values related by `R`. -/
def Mirrors (ρ : Correspondence) (R : α → β → Prop) (p : Parse α) (q : Parse β) : Prop :=
  ∀ c c', c.Resembles ρ c' → Outcome ρ R (p c) (q c')

variable {R : α → β → Prop} {S : γ → δ → Prop}

section Combining

variable {p p₁ p₂ : Parse α} {q q₁ q₂ : Parse β} {f : α → Parse γ} {f' : β → Parse δ}

theorem Mirrors.bind (h : Mirrors ρ R p q) (hf : ∀ a b, R a b → Mirrors ρ S (f a) (f' b)) :
    Mirrors ρ S (p >>= f) (q >>= f') := by
  intro c c' hc
  change Outcome ρ S (Parse.bind p f c) (Parse.bind q f' c')
  unfold Parse.bind
  have hread := h c c' hc
  revert hread
  generalize p c = x
  generalize q c' = y
  rintro (_ | ⟨he, hd⟩ | ⟨hab, hd⟩ | ⟨hmends⟩)
  · exact .none
  · exact .error he hd
  · exact hf _ _ hab _ _ hd
  · exact .parted hmends _ _ _ _

theorem Mirrors.mono {S : α → β → Prop} (h : Mirrors ρ R p q) (hRS : ∀ a b, R a b → S a b) :
    Mirrors ρ S p q := by
  intro c c' hc
  have hread := h c c' hc
  revert hread
  generalize p c = x
  generalize q c' = y
  rintro (_ | ⟨he, hd⟩ | ⟨hab, hd⟩ | ⟨hmends⟩)
  · exact .none
  · exact .error he hd
  · exact .ok (hRS _ _ hab) hd
  · exact .parted hmends _ _ _ _

theorem mirrors_pure {a : α} {b : β} (h : R a b) : Mirrors ρ R (pure a) (pure b) :=
  fun _ _ hc => .ok h hc

theorem mirrors_ite {b : Prop} [Decidable b] (h₁ : Mirrors ρ R p₁ q₁) (h₂ : Mirrors ρ R p₂ q₂) :
    Mirrors ρ R (if b then p₁ else p₂) (if b then q₁ else q₂) := by
  split
  · exact h₁
  · exact h₂

theorem mirrors_giveUp : Mirrors ρ R giveUp giveUp := fun _ _ _ => .none

theorem mirrors_failAt (fault : SyntaxFault) {span span' : Span} (h : ρ.near span span') :
    Mirrors ρ R (failAt fault span) (failAt fault span') := fun _ _ hc => .error ⟨.inl rfl, h⟩ hc

theorem mirrors_fail (fault : SyntaxFault) : Mirrors ρ R (fail fault) (fail fault) :=
  fun _ _ hc => .error ⟨.inl rfl, hc.current.near⟩ hc

/-- What tells of an error token need not be mirrored where a comma stands for it. -/
theorem mirrors_lexical (hmends : ρ.mends = true) (message : String) :
    Mirrors ρ R (fail (.lexical message)) q := fun c c' _ => .parted hmends message _ c (q c')

/-- A view of the place, and what follows it. -/
theorem look_then {view : Cursor → α} {view' : Cursor → β}
    (h : ∀ c c', c.Resembles ρ c' → R (view c) (view' c'))
    (hf : ∀ a b, R a b → Mirrors ρ S (f a) (f' b)) :
    Mirrors ρ S (look view >>= f) (look view' >>= f') :=
  Mirrors.bind (fun c c' hc => .ok (h c c' hc) hc) hf

end Combining

/-! ## Taking tokens -/

section Tokens

variable {kind : TokenKind}

theorem current_then {f : Token → Parse γ} {f' : Token → Parse δ}
    (hf : ∀ t t', t.Resembles ρ t' → Mirrors ρ S (f t) (f' t')) :
    Mirrors ρ S (current >>= f) (current >>= f') :=
  look_then (fun _ _ hc => hc.current) hf

theorem here_then {f : Span → Parse γ} {f' : Span → Parse δ}
    (hf : ∀ s s', ρ.near s s' → Mirrors ρ S (f s) (f' s')) :
    Mirrors ρ S (here >>= f) (here >>= f') :=
  look_then (fun _ _ hc => hc.current.near) hf

theorem check_then {f : Bool → Parse γ} {f' : Bool → Parse δ} (hkind : kind.isCommon = true)
    (hf : ∀ b, Mirrors ρ S (f b) (f' b)) : Mirrors ρ S (check kind >>= f) (check kind >>= f') := by
  refine look_then (R := fun a b => b = a) (fun _ _ hc => hc.check hkind) ?_
  rintro a b rfl
  exact hf b

/-- A test for the token that closes a list. -/
theorem closes_then {f : Bool → Parse γ} {f' : Bool → Parse δ} (hkind : kind.isCommon = true)
    (hf : ∀ b, Mirrors ρ S (f b) (f' b)) :
    Mirrors ρ S ((look fun c => c.check kind || c.atEnd) >>= f)
      ((look fun c => c.check kind || c.atEnd) >>= f') := by
  refine look_then (R := fun a b => b = a) (fun _ _ hc => ?_) ?_
  · rw [hc.check hkind, hc.atEnd]
  · rintro a b rfl
    exact hf b

/-- The same token with another span than that of `eof`. -/
def Taken (ρ : Correspondence) (t t' : Token) : Prop := t'.value = t.value ∧ ρ.name t.span t'.span

theorem mirrors_advance : Mirrors ρ (Taken ρ) advance advance := by
  intro c c' hc
  have hnext := hc.advance
  exact .ok ⟨hnext.previous.value, hnext.behind⟩ hnext

theorem advance_then {f : Token → Parse γ} {f' : Token → Parse δ}
    (hf : ∀ t t', Taken ρ t t' → Mirrors ρ S (f t) (f' t')) :
    Mirrors ρ S (advance >>= f) (advance >>= f') :=
  mirrors_advance.bind hf

theorem mirrors_expect (herror : (kind == .error) = false) :
    Mirrors ρ (Taken ρ) (expect kind) (expect kind) := by
  intro c c' hc
  rcases hc.current.kind with hkind | ⟨hmends, hkind, -⟩
  · unfold expect Cursor.check
    rw [hc.atEnd, hkind, hc.current.value]
    split
    · exact mirrors_advance c c' hc
    · split
      · exact mirrors_fail _ c c' hc
      · exact mirrors_fail _ c c' hc
  · have hfails : expect kind c = fail (.lexical c.current.value) c := by
      simp [expect, Cursor.check, hkind, Ne.symm (beq_eq_false_iff_ne.1 herror)]
    rw [hfails]
    exact mirrors_lexical hmends _ c c' hc

theorem expect_then {f : Token → Parse γ} {f' : Token → Parse δ} (herror : (kind == .error) = false)
    (hf : ∀ t t', Taken ρ t t' → Mirrors ρ S (f t) (f' t')) :
    Mirrors ρ S (expect kind >>= f) (expect kind >>= f') :=
  (mirrors_expect herror).bind hf

theorem mirrors_ident : Mirrors ρ (Ident.Resembles ρ) ident ident :=
  expect_then rfl fun _ _ ⟨hvalue, hspan⟩ => mirrors_pure ⟨hvalue, hspan⟩

theorem ident_then {f : Ident → Parse γ} {f' : Ident → Parse δ}
    (hf : ∀ x x', x.Resembles ρ x' → Mirrors ρ S (f x) (f' x')) :
    Mirrors ρ S (ident >>= f) (ident >>= f') :=
  mirrors_ident.bind hf

theorem finish_then {start start' : Span} (hstart : ρ.near start start') {f : Mark → Parse γ}
    {f' : Mark → Parse δ} (hf : ∀ m m', m.Resembles ρ m' → Mirrors ρ S (f m) (f' m')) :
    Mirrors ρ S (finish start >>= f) (finish start' >>= f') := by
  refine Mirrors.bind (fun c c' hc => ?_) hf
  exact .ok ⟨hc.nextId, ρ.merge_name hstart hc.behind⟩
    ⟨hc.previous, hc.behind, hc.rest, congrArg (· + 1) hc.nextId⟩

/-- The last step of a reader, the making of the node. -/
theorem mirrors_node {start start' : Span} (hstart : ρ.near start start') {node : Mark → γ}
    {node' : Mark → δ} (h : ∀ m m', m.Resembles ρ m' → S (node m) (node' m')) :
    Mirrors ρ S (finish start >>= fun m => pure (node m)) (finish start' >>=
      fun m => pure (node' m)) :=
  finish_then hstart fun m m' hm => mirrors_pure (h m m' hm)

theorem mirrors_items {item : Parse α} {item' : Parse β} (hitem : Mirrors ρ R item item')
    (fuel : Nat) (hkind : kind.isCommon = true) :
    Mirrors ρ (List.Forall₂ R) (items kind item fuel) (items kind item' fuel) := by
  induction fuel with
  | zero => exact mirrors_giveUp
  | succ fuel ih =>
    have hrest {x : α} {x' : β} (hx : R x x') : Mirrors ρ (List.Forall₂ R)
        (items kind item fuel >>= fun xs => pure (x :: xs))
        (items kind item' fuel >>= fun xs => pure (x' :: xs)) :=
      ih.bind fun xs xs' hxs => mirrors_pure (.cons hx hxs)
    refine closes_then hkind fun closed => mirrors_ite (mirrors_pure .nil) ?_
    refine hitem.bind fun x x' hx => check_then hkind fun last => ?_
    refine mirrors_ite ?_ ?_
    · exact hrest hx
    · exact expect_then rfl fun _ _ _ => hrest hx

theorem mirrors_itemsTo {item : Parse α} {item' : Parse β} (hkind : kind.isCommon = true)
    (hitem : Mirrors ρ R item item') (fuel : Nat) :
    Mirrors ρ (List.Forall₂ R) (itemsTo kind item fuel) (itemsTo kind item' fuel) :=
  (mirrors_items hitem fuel hkind).bind fun _ _ hxs =>
    expect_then (TokenKind.ne_error_of_isCommon hkind) fun _ _ _ => mirrors_pure hxs

end Tokens

end Parse

namespace Grammar

open Parse

/-! ## Types -/

section Types

variable {type : Parse TypeExpr} (htype : Mirrors ρ (TypeExpr.Resembles ρ) type type)

include htype

theorem typeArgs_mirrors (fuel : Nat) :
    Mirrors ρ (List.Forall₂ (TypeExpr.Resembles ρ)) (typeArgs type fuel) (typeArgs type fuel) :=
  expect_then rfl fun _ _ _ => mirrors_itemsTo rfl htype fuel

theorem namedType_mirrors (fuel : Nat) :
    Mirrors ρ (TypeExpr.Resembles ρ) (namedType type fuel) (namedType type fuel) := by
  refine here_then fun start start' hstart => ident_then fun first first' hfirst => ?_
  -- What follows the name, once the name is read.
  have hargs {space space' : Option Ident} {name name' : Ident}
      (hspace : Option.Rel (Ident.Resembles ρ) space space') (hname : name.Resembles ρ name') :
      Mirrors ρ (TypeExpr.Resembles ρ)
        (check .lBracket >>= fun bracket => if bracket then
            typeArgs type fuel >>= fun args =>
              finish start >>= fun mark => pure (.named mark space name args)
          else finish start >>= fun mark => pure (.named mark space name []))
        (check .lBracket >>= fun bracket => if bracket then
            typeArgs type fuel >>= fun args =>
              finish start' >>= fun mark => pure (.named mark space' name' args)
          else finish start' >>= fun mark => pure (.named mark space' name' [])) := by
    refine check_then rfl fun bracket => mirrors_ite ?_ ?_
    · exact (typeArgs_mirrors htype fuel).bind fun _ _ hargs =>
        mirrors_node hstart fun _ _ hmark => .named hmark hspace hname hargs
    · exact mirrors_node hstart fun _ _ hmark => .named hmark hspace hname .nil
  refine check_then rfl fun qualified => mirrors_ite ?_ ?_
  · exact advance_then fun _ _ _ => ident_then fun _ _ hname => hargs (.some hfirst) hname
  · exact hargs .none hfirst

theorem bracketType_mirrors :
    Mirrors ρ (TypeExpr.Resembles ρ) (bracketType type) (bracketType type) := by
  have hlength : Mirrors ρ Eq arrayLength arrayLength := by
    refine expect_then rfl fun token token' htoken => ?_
    obtain ⟨hvalue, hspan⟩ := htoken
    rw [hvalue]
    cases readBelow? lengthLimit token.value.toList with
    | some length => exact mirrors_pure rfl
    | none => exact mirrors_failAt _ (ρ.near_of_name hspan)
  refine here_then fun _ _ hstart => advance_then fun _ _ _ => check_then rfl fun closed =>
    mirrors_ite ?_ ?_
  · exact advance_then fun _ _ _ => htype.bind fun _ _ helement =>
      mirrors_node hstart fun _ _ hmark => .slice hmark helement
  · refine hlength.bind ?_
    rintro length _ rfl
    exact expect_then rfl fun _ _ _ => htype.bind fun _ _ helement =>
      mirrors_node hstart fun _ _ hmark => .array hmark length helement

theorem pointerType_mirrors (kind : PointerKind) :
    Mirrors ρ (TypeExpr.Resembles ρ) (pointerType kind type) (pointerType kind type) :=
  here_then fun _ _ hstart => advance_then fun _ _ _ => htype.bind fun _ _ hpointee =>
    mirrors_node hstart fun _ _ hmark => .pointer hmark kind hpointee

end Types

theorem typeExpr_mirrors (fuel : Nat) :
    Mirrors ρ (TypeExpr.Resembles ρ) (typeExpr fuel) (typeExpr fuel) := by
  induction fuel with
  | zero => exact mirrors_giveUp
  | succ fuel ih =>
    refine current_then fun t t' ht => ?_
    rcases ht.kind with hkind | ⟨hmends, herror, hcomma⟩
    · rw [hkind]
      split
      · exact pointerType_mirrors ih .weak
      · exact pointerType_mirrors ih .owned
      · exact bracketType_mirrors ih
      · exact namedType_mirrors ih fuel
      · exact mirrors_fail _
    · rw [herror, hcomma]
      exact fun _ _ hc => .error ⟨.inr ⟨hmends, rfl, rfl⟩, hc.current.near⟩ hc

/-! ## Expressions -/

section Exprs

variable {nested : Parse Expr} (hnested : Mirrors ρ (Expr.Resembles ρ) nested nested) {fuel : Nat}

theorem number_mirrors : Mirrors ρ Eq number number := by
  refine advance_then fun token token' htoken => ?_
  obtain ⟨hvalue, hspan⟩ := htoken
  rw [hvalue]
  cases numberLiteral token.value with
  | ok literal => exact mirrors_pure rfl
  | error fault => exact mirrors_failAt _ (ρ.near_of_name hspan)

theorem leaf_mirrors {node : Token → Mark → Expr}
    (h : ∀ t t' m m', t'.value = t.value → m.Resembles ρ m' → (node t m).Resembles ρ (node t' m')) :
    Mirrors ρ (Expr.Resembles ρ) (leaf node) (leaf node) :=
  here_then fun _ _ hstart => advance_then fun _ _ ht =>
    mirrors_node hstart fun _ _ hmark => h _ _ _ _ ht.1 hmark

include hnested

theorem arguments_mirrors :
    Mirrors ρ (List.Forall₂ (Expr.Resembles ρ)) (arguments nested fuel) (arguments nested fuel) :=
  expect_then rfl fun _ _ _ => mirrors_itemsTo rfl hnested fuel

theorem fields_mirrors : Mirrors ρ (Expr.ResembleFields ρ) (itemsTo .rBrace (fieldInit nested) fuel)
    (itemsTo .rBrace (fieldInit nested) fuel) := by
  have hfield : Mirrors ρ (fun f f' => f.1.Resembles ρ f'.1 ∧ f.2.Resembles ρ f'.2)
      (fieldInit nested) (fieldInit nested) :=
    ident_then fun _ _ hname => expect_then rfl fun _ _ _ => hnested.bind fun _ _ hvalue =>
      mirrors_pure ⟨hname, hvalue⟩
  -- A list of related fields is a list of the same fields.
  have hfields : ∀ fields fields' : List (Ident × Expr),
      List.Forall₂ (fun f f' => f.1.Resembles ρ f'.1 ∧ f.2.Resembles ρ f'.2) fields fields' →
        Expr.ResembleFields ρ fields fields' := by
    intro fields fields' h
    induction h with
    | nil => exact .nil
    | cons hf _ ih => exact .cons hf.1 hf.2 ih
  exact (mirrors_itemsTo rfl hfield fuel).mono hfields

theorem groupExpr_mirrors : Mirrors ρ (Expr.Resembles ρ) (groupExpr nested) (groupExpr nested) :=
  here_then fun _ _ hstart => advance_then fun _ _ _ => hnested.bind fun _ _ hinner =>
    expect_then rfl fun _ _ _ => mirrors_node hstart fun _ _ hmark => .group hmark hinner

theorem newExpr_mirrors :
    Mirrors ρ (Expr.Resembles ρ) (newExpr nested fuel) (newExpr nested fuel) :=
  here_then fun _ _ hstart => advance_then fun _ _ _ =>
    (typeExpr_mirrors fuel).bind fun _ _ htype =>
    expect_then rfl fun _ _ _ => (fields_mirrors hnested).bind fun _ _ hfields =>
      mirrors_node hstart fun _ _ hmark => .new hmark htype hfields

theorem arrayExpr_mirrors :
    Mirrors ρ (Expr.Resembles ρ) (arrayExpr nested fuel) (arrayExpr nested fuel) := by
  refine here_then fun start start' hstart =>
    (typeExpr_mirrors fuel).bind fun type type' htype => ?_
  have hspan := ρ.near_of_node htype.span
  cases htype with
  | array hmark length helement =>
    exact expect_then rfl fun _ _ _ => (mirrors_itemsTo rfl hnested fuel).bind fun _ _ helements =>
      mirrors_node hstart fun _ _ hnode =>
        .staticArray hnode (.array hmark length helement) helements
  | named hmark hspace hname hargs | pointer hmark kind hpointee | slice hmark helement =>
    exact mirrors_failAt _ hspan

theorem primary_mirrors :
    Mirrors ρ (Expr.Resembles ρ) (primary nested fuel) (primary nested fuel) := by
  refine current_then fun t t' ht => ?_
  rcases ht.kind with hkind | ⟨hmends, herror, -⟩
  case inr =>
    rw [herror]
    exact mirrors_lexical hmends _
  rw [hkind, ht.value]
  split
  · refine here_then fun _ _ hstart => number_mirrors.bind ?_
    rintro literal _ rfl
    exact mirrors_node hstart fun _ _ hmark => .number hmark literal
  · refine leaf_mirrors fun t t' m m' hvalue hmark => ?_
    rw [hvalue]
    exact .string hmark t.value
  · exact leaf_mirrors fun _ _ _ _ _ hmark => .bool hmark true
  · exact leaf_mirrors fun _ _ _ _ _ hmark => .bool hmark false
  · exact leaf_mirrors fun _ _ _ _ _ hmark => .null hmark
  · exact leaf_mirrors fun _ _ _ _ _ hmark => .zero hmark
  · exact here_then fun _ _ hstart => ident_then fun _ _ hname =>
      mirrors_node hstart fun _ _ hmark => .ident hmark hname
  · exact groupExpr_mirrors hnested
  · exact newExpr_mirrors hnested
  · exact arrayExpr_mirrors hnested
  · exact mirrors_fail _
  · exact mirrors_fail _

theorem suffixes_mirrors {start start' : Span} (hstart : ρ.near start start') {e e' : Expr}
    (he : e.Resembles ρ e') :
    Mirrors ρ (Expr.Resembles ρ) (suffixes nested start fuel e)
      (suffixes nested start' fuel e') := by
  induction fuel generalizing e e' with
  | zero => exact mirrors_giveUp
  | succ fuel ih =>
    refine look_then (R := fun c c' => c.Resembles ρ c') (fun _ _ hc => hc) fun c c' hc => ?_
    rcases hc.current.kind with hkind | ⟨-, herror, hcomma⟩
    case inr =>
      rw [herror, hcomma]
      exact mirrors_pure he
    rw [hkind, hc.peekIs rfl]
    split
    · exact (arguments_mirrors hnested).bind fun _ _ hargs => finish_then hstart fun _ _ hmark =>
        ih (.call hmark he .nil hargs)
    · refine mirrors_ite ?_ (mirrors_pure he)
      exact advance_then fun _ _ _ => (typeArgs_mirrors (typeExpr_mirrors fuel) fuel).bind
        fun _ _ htypes => (arguments_mirrors hnested).bind fun _ _ hargs =>
          finish_then hstart fun _ _ hmark => ih (.call hmark he htypes hargs)
    · exact advance_then fun _ _ _ => ident_then fun _ _ hmember =>
        finish_then hstart fun _ _ hmark => ih (.get hmark he hmember)
    · exact advance_then fun _ _ _ => hnested.bind fun _ _ hindex => expect_then rfl fun _ _ _ =>
        finish_then hstart fun _ _ hmark => ih (.subscript hmark he hindex)
    · exact mirrors_pure he

end Exprs

section Operators

variable {nested : Nat → Parse Expr}
  (hnested : ∀ level, Mirrors ρ (Expr.Resembles ρ) (nested level) (nested level)) {fuel : Nat}

theorem InfixOp.build_resembles (op : InfixOp) {mark mark' : Mark} {left left' right right' : Expr}
    (hmark : mark.Resembles ρ mark') (hleft : left.Resembles ρ left')
    (hright : right.Resembles ρ right') :
    (op.build mark left right).Resembles ρ (op.build mark' left' right') := by
  cases op with
  | range => exact .range hmark hleft hright
  | binary op => exact .binary hmark op hleft hright

include hnested

theorem operand_mirrors :
    Mirrors ρ (Expr.Resembles ρ) (operand nested fuel) (operand nested fuel) := by
  refine here_then fun start start' hstart => current_then fun t t' ht => ?_
  rw [ht.same unaryOp? rfl]
  cases unaryOp? t.kind with
  | some op =>
    exact advance_then fun _ _ _ => (hnested unaryLevel).bind fun _ _ hinner =>
      mirrors_node hstart fun _ _ hmark => .unary hmark op hinner
  | none =>
    exact (primary_mirrors (hnested 1)).bind fun _ _ he => suffixes_mirrors (hnested 1) hstart he

theorem climb_mirrors {start start' : Span} (hstart : ρ.near start start') (level : Nat)
    {left left' : Expr} (hleft : left.Resembles ρ left') :
    Mirrors ρ (Expr.Resembles ρ) (climb nested start level fuel left)
      (climb nested start' level fuel left') := by
  induction fuel generalizing left left' with
  | zero => exact mirrors_giveUp
  | succ fuel ih =>
    refine current_then fun t t' ht => ?_
    rw [ht.same InfixOp.ofKind? rfl]
    cases InfixOp.ofKind? t.kind with
    | none => exact mirrors_pure hleft
    | some op =>
      refine mirrors_ite (mirrors_pure hleft) ?_
      exact advance_then fun _ _ _ => (hnested _).bind fun _ _ hright =>
        finish_then hstart fun _ _ hmark => ih (op.build_resembles hmark hleft hright)

end Operators

theorem expr_mirrors (fuel level : Nat) :
    Mirrors ρ (Expr.Resembles ρ) (expr fuel level) (expr fuel level) := by
  induction fuel generalizing level with
  | zero => exact mirrors_giveUp
  | succ fuel ih =>
    exact here_then fun _ _ hstart => (operand_mirrors ih).bind fun _ _ hleft =>
      climb_mirrors ih hstart level hleft

/-! ## Statements -/

section Stmts

variable {fuel : Nat}

theorem stmts_mirrors {stmt : Parse Stmt} (hstmt : Mirrors ρ (Stmt.Resembles ρ) stmt stmt)
    (fuel : Nat) :
    Mirrors ρ (List.Forall₂ (Stmt.Resembles ρ)) (stmts stmt fuel) (stmts stmt fuel) := by
  induction fuel with
  | zero => exact mirrors_giveUp
  | succ fuel ih =>
    refine closes_then rfl fun closed => mirrors_ite (mirrors_pure .nil) ?_
    exact hstmt.bind fun _ _ hs => ih.bind fun _ _ hss => mirrors_pure (.cons hs hss)

theorem block_mirrors {stmt : Parse Stmt} (hstmt : Mirrors ρ (Stmt.Resembles ρ) stmt stmt)
    (fuel : Nat) : Mirrors ρ (Block.Resembles ρ) (block stmt fuel) (block stmt fuel) :=
  expect_then rfl fun _ _ hfirst => (stmts_mirrors hstmt fuel).bind fun _ _ hstmts =>
    expect_then rfl fun _ _ hlast =>
      mirrors_pure (.mk (ρ.merge_name (ρ.near_of_name hfirst.2) hlast.2) hstmts)

/-- A type that may be left out. -/
theorem optionalType_then {γ δ : Type} {S : γ → δ → Prop} {missing : Bool}
    {f : Option TypeExpr → Parse γ} {f' : Option TypeExpr → Parse δ}
    (hf : ∀ type type', Option.Rel (TypeExpr.Resembles ρ) type type' →
      Mirrors ρ S (f type) (f' type')) :
    Mirrors ρ S (if missing then pure none >>= f else typeExpr fuel >>=
      fun type => pure (some type) >>= f)
      (if missing then pure none >>= f' else typeExpr fuel >>=
        fun type => pure (some type) >>= f') :=
  mirrors_ite (hf none none .none)
    ((typeExpr_mirrors fuel).bind fun _ _ htype => hf _ _ (.some htype))

theorem binding_mirrors :
    Mirrors ρ (fun d d' => d.1.Resembles ρ d'.1 ∧ Option.Rel (TypeExpr.Resembles ρ) d.2.1 d'.2.1 ∧
      d.2.2.Resembles ρ d'.2.2) (binding fuel) (binding fuel) := by
  refine expect_then rfl fun _ _ _ => ident_then fun _ _ hname => expect_then rfl fun _ _ _ =>
    check_then rfl fun missing => ?_
  exact optionalType_then fun _ _ htype => expect_then rfl fun _ _ _ => (expr_mirrors fuel 1).bind
    fun _ _ hinit => mirrors_pure ⟨hname, htype, hinit⟩

/-- An assignment or expression makes resembling statements from resembling marks. -/
theorem effect_mirrors :
    Mirrors ρ (fun node node' => ∀ m m' : Mark, m.Resembles ρ m' → (node m).Resembles ρ (node' m'))
      (effect fuel) (effect fuel) := by
  refine (expr_mirrors fuel 1).bind fun _ _ htarget => check_then rfl fun assigns =>
    mirrors_ite ?_ ?_
  · exact advance_then fun _ _ _ => (expr_mirrors fuel 1).bind fun _ _ hvalue =>
      mirrors_pure fun _ _ hmark => .assign hmark htarget hvalue
  · exact mirrors_pure fun _ _ hmark => .expr hmark htarget

section Bodies

variable {body : Parse Block} (hbody : Mirrors ρ (Block.Resembles ρ) body body)

include hbody

theorem ifStmt_mirrors {cond : Parse Expr} (hcond : Mirrors ρ (Expr.Resembles ρ) cond cond)
    (fuel : Nat) :
    Mirrors ρ (Stmt.Resembles ρ) (ifStmt body cond fuel) (ifStmt body cond fuel) := by
  induction fuel with
  | zero => exact mirrors_giveUp
  | succ fuel ih =>
    refine expect_then rfl fun first first' hfirst =>
      hcond.bind fun condition condition' hcondition =>
      hbody.bind fun thenBlock thenBlock' hthen => ?_
    have hnode {branch branch' : Option Stmt}
        (hbranch : Option.Rel (Stmt.Resembles ρ) branch branch') :
        Mirrors ρ (Stmt.Resembles ρ)
          (finish first.span >>= fun mark => pure (.ifElse mark condition thenBlock branch))
          (finish first'.span >>= fun mark => pure (.ifElse mark condition' thenBlock' branch')) :=
      mirrors_node (ρ.near_of_name hfirst.2) fun _ _ hmark => .ifElse hmark hcondition hthen hbranch
    refine check_then rfl fun more => mirrors_ite ?_ (hnode .none)
    refine advance_then fun _ _ _ => check_then rfl fun again => mirrors_ite ?_ ?_
    · exact ih.bind fun _ _ hbranch => hnode (.some hbranch)
    · exact here_then fun _ _ hstart => hbody.bind fun _ _ helse =>
        finish_then hstart fun _ _ hmark =>
        hnode (.some (.scope hmark helse))

theorem forStmt_mirrors : Mirrors ρ (Stmt.Resembles ρ) (forStmt body fuel) (forStmt body fuel) := by
  refine here_then fun _ _ hstart => expect_then rfl fun _ _ _ => check_then rfl fun counted =>
    mirrors_ite ?_ ?_
  · refine here_then fun _ _ hinitStart => binding_mirrors.bind fun _ _ hinit => ?_
    obtain ⟨hname, htype, hvalue⟩ := hinit
    refine finish_then hinitStart fun _ _ hinitMark => expect_then rfl fun _ _ _ => ?_
    refine (expr_mirrors fuel 1).bind fun _ _ hcondition => expect_then rfl fun _ _ _ => ?_
    refine here_then fun _ _ hupdateStart => effect_mirrors.bind fun _ _ hupdate => ?_
    refine finish_then hupdateStart fun _ _ hupdateMark => hbody.bind fun _ _ hblock => ?_
    exact mirrors_node hstart fun _ _ hmark => .forCounted hmark
      (.letDecl hinitMark hname htype hvalue) hcondition (hupdate _ _ hupdateMark) hblock
  · exact ident_then fun _ _ hname => expect_then rfl fun _ _ _ => (expr_mirrors fuel 1).bind
      fun _ _ hiterable => hbody.bind fun _ _ hblock =>
        mirrors_node hstart fun _ _ hmark => .forEach hmark hname hiterable hblock

theorem scopeStmt_mirrors : Mirrors ρ (Stmt.Resembles ρ) (scopeStmt body) (scopeStmt body) :=
  here_then fun _ _ hstart => hbody.bind fun _ _ hblock =>
    mirrors_node hstart fun _ _ hmark => .scope hmark hblock

end Bodies

theorem returnStmt_mirrors :
    Mirrors ρ (Stmt.Resembles ρ) (returnStmt fuel) (returnStmt fuel) := by
  refine here_then fun start start' hstart => advance_then fun _ _ _ =>
    check_then rfl fun empty => ?_
  have hnode {value value' : Option Expr} (hvalue : Option.Rel (Expr.Resembles ρ) value value') :
      Mirrors ρ (Stmt.Resembles ρ)
        (expect .semicolon >>= fun _ => finish start >>= fun mark => pure (.returnStmt mark value))
        (expect .semicolon >>= fun _ => finish start' >>=
          fun mark => pure (.returnStmt mark value')) :=
    expect_then rfl fun _ _ _ => mirrors_node hstart fun _ _ hmark => .returnStmt hmark hvalue
  refine mirrors_ite (hnode .none) ?_
  exact (expr_mirrors fuel 1).bind fun _ _ hvalue => hnode (.some hvalue)

theorem wordStmt_mirrors {node : Mark → Stmt}
    (h : ∀ m m', m.Resembles ρ m' → (node m).Resembles ρ (node m')) :
    Mirrors ρ (Stmt.Resembles ρ) (wordStmt node) (wordStmt node) :=
  here_then fun _ _ hstart => advance_then fun _ _ _ => expect_then rfl fun _ _ _ =>
    mirrors_node hstart h

theorem letStmt_mirrors : Mirrors ρ (Stmt.Resembles ρ) (letStmt fuel) (letStmt fuel) :=
  here_then fun _ _ hstart => binding_mirrors.bind fun _ _ ⟨hname, htype, hinit⟩ =>
    expect_then rfl fun _ _ _ => mirrors_node hstart fun _ _ hmark =>
      .letDecl hmark hname htype hinit

theorem effectStmt_mirrors : Mirrors ρ (Stmt.Resembles ρ) (effectStmt fuel) (effectStmt fuel) :=
  here_then fun _ _ hstart => effect_mirrors.bind fun _ _ hnode => expect_then rfl fun _ _ _ =>
    mirrors_node hstart hnode

theorem stmt_mirrors (fuel : Nat) : Mirrors ρ (Stmt.Resembles ρ) (stmt fuel) (stmt fuel) := by
  induction fuel with
  | zero => exact mirrors_giveUp
  | succ fuel ih =>
    have hbody := block_mirrors ih fuel
    refine current_then fun t t' ht => ?_
    rcases ht.kind with hkind | ⟨-, herror, hcomma⟩
    case inr =>
      rw [herror, hcomma]
      exact effectStmt_mirrors
    rw [hkind]
    split
    · exact letStmt_mirrors
    · exact scopeStmt_mirrors hbody
    · exact returnStmt_mirrors
    · exact wordStmt_mirrors fun _ _ hmark => .breakStmt hmark
    · exact wordStmt_mirrors fun _ _ hmark => .continueStmt hmark
    · exact ifStmt_mirrors hbody (expr_mirrors fuel 1) fuel
    · exact forStmt_mirrors hbody
    · exact mirrors_fail _
    · exact mirrors_fail _
    · exact mirrors_fail _
    · exact effectStmt_mirrors

end Stmts

/-! ## Declarations -/

section Items

variable {fuel : Nat}

theorem generics_mirrors :
    Mirrors ρ (List.Forall₂ (Ident.Resembles ρ)) (generics fuel) (generics fuel) := by
  refine check_then rfl fun bracket => mirrors_ite ?_ (mirrors_pure .nil)
  refine advance_then fun _ _ _ =>
    (mirrors_itemsTo rfl mirrors_ident fuel).bind fun names names' hnames => ?_
  have hempty : names'.isEmpty = names.isEmpty := by
    cases hnames <;> rfl
  rw [hempty]
  exact mirrors_ite (mirrors_fail _) (mirrors_pure hnames)

theorem typedName_mirrors :
    Mirrors ρ (TypedName.Resembles ρ) (typedName fuel) (typedName fuel) :=
  ident_then fun _ _ hname => expect_then rfl fun _ _ _ =>
    (typeExpr_mirrors fuel).bind fun _ _ htype =>
    mirrors_pure ⟨hname, htype⟩

theorem importDecl_mirrors : Mirrors ρ (Stmt.Resembles ρ) importDecl importDecl :=
  here_then fun _ _ hstart => expect_then rfl fun _ _ _ => expect_then rfl fun _ _ hpath =>
    ident_then fun _ _ hname => expect_then rfl fun _ _ _ =>
      mirrors_node hstart fun _ _ hmark => .importDecl hmark ⟨hpath.1, hpath.2, hname⟩

theorem structDecl_mirrors : Mirrors ρ (Stmt.Resembles ρ) (structDecl fuel) (structDecl fuel) :=
  here_then fun _ _ hstart => expect_then rfl fun _ _ _ => ident_then fun _ _ hname =>
    generics_mirrors.bind fun _ _ hgenerics => expect_then rfl fun _ _ _ =>
      (mirrors_itemsTo rfl typedName_mirrors fuel).bind fun _ _ hmembers =>
        mirrors_node hstart fun _ _ hmark => .structDecl hmark ⟨hname, hgenerics, hmembers⟩

theorem fnDecl_mirrors : Mirrors ρ (Stmt.Resembles ρ) (fnDecl fuel) (fnDecl fuel) :=
  here_then fun _ _ hstart => expect_then rfl fun _ _ _ => ident_then fun _ _ hname =>
    generics_mirrors.bind fun _ _ hgenerics => expect_then rfl fun _ _ _ =>
      (mirrors_itemsTo rfl typedName_mirrors fuel).bind fun _ _ hparams => check_then rfl fun _ =>
        optionalType_then fun _ _ hreturn => (block_mirrors (stmt_mirrors fuel) fuel).bind
          fun _ _ hbody => mirrors_node hstart fun _ _ hmark =>
            .fnDecl hmark ⟨hname, hgenerics, hparams, hreturn⟩ hbody

theorem item_mirrors (fuel : Nat) : Mirrors ρ (Stmt.Resembles ρ) (item fuel) (item fuel) := by
  refine current_then fun t t' ht => ?_
  rcases ht.kind with hkind | ⟨hmends, herror, -⟩
  case inr =>
    rw [herror]
    exact mirrors_lexical hmends _
  rw [hkind, ht.value]
  split
  · exact importDecl_mirrors
  · exact structDecl_mirrors
  · exact fnDecl_mirrors
  · exact mirrors_fail _
  · exact mirrors_fail _

end Items

/-! ## Files -/

theorem nextItem_resembles {previous previous' : Token} {rest rest' : List Token}
    (hprevious : previous.Resembles ρ previous') (hbehind : ρ.name previous.span previous'.span)
    (hrest : List.Forall₂ (Token.Resembles ρ) rest rest') (nextId : Nat) :
    Cursor.Resembles ρ ⟨(nextItem previous rest).1, (nextItem previous rest).2, nextId⟩
      ⟨(nextItem previous' rest').1, (nextItem previous' rest').2, nextId⟩ := by
  induction hrest generalizing previous previous' with
  | nil => exact ⟨hprevious, hbehind, .nil, rfl⟩
  | @cons t t' ts ts' htoken hrest ih =>
    rw [nextItem, nextItem, htoken.same (fun kind => kind == .eof || startsItem kind) rfl]
    split
    · exact ⟨hprevious, hbehind, .cons htoken hrest, rfl⟩
    · next hgoes =>
        -- The search goes on only behind a token that is not `eof`.
        have hreal : t.kind ≠ .eof := by
          intro heof
          rw [heof] at hgoes
          exact hgoes rfl
        exact ih htoken (htoken.name hreal)

theorem resume_resembles {c c' : Cursor} (h : c.Resembles ρ c') :
    (resume c).Resembles ρ (resume c') := by
  have hnext := h.advance
  have hresumed := nextItem_resembles hnext.previous hnext.behind hnext.rest c.advance.nextId
  unfold resume
  dsimp only
  rw [hnext.nextId]
  exact hresumed

/-- Two readings of the same declarations: both have no result, or the same errors and declarations
that resemble each other. -/
def SameItems (ρ : Correspondence) :
    List Stmt × List ParseError → List Stmt × List ParseError → Prop :=
  fun r r' => List.Forall₂ (Stmt.Resembles ρ) r.1 r'.1 ∧
  List.Forall₂ (ParseError.Resembles ρ) r.2 r'.2

theorem itemsAndErrors_mirrors (hmends : ρ.mends = false) {item : Parse Stmt}
    (hitem : Mirrors ρ (Stmt.Resembles ρ) item item) (fuel : Nat) {c c' : Cursor}
    (hc : c.Resembles ρ c') :
    Option.Rel (SameItems ρ) (itemsAndErrors item fuel c) (itemsAndErrors item fuel c') := by
  induction fuel generalizing c c' with
  | zero => exact .none
  | succ fuel ih =>
    rw [itemsAndErrors, itemsAndErrors, hc.atEnd]
    split
    · exact .some ⟨.nil, .nil⟩
    · have hread := hitem c c' hc
      revert hread
      generalize item c = x
      generalize item c' = y
      rintro (_ | ⟨he, hd⟩ | ⟨hs, hd⟩ | ⟨hmends'⟩)
      · exact .none
      · have hrest := ih (resume_resembles hd)
        dsimp only
        revert hrest
        generalize itemsAndErrors item fuel _ = rest
        generalize itemsAndErrors item fuel _ = rest'
        rintro (h | _)
        · exact .some ⟨h.1, .cons he h.2⟩
        · exact .none
      · have hrest := ih hd
        dsimp only
        revert hrest
        generalize itemsAndErrors item fuel _ = rest
        generalize itemsAndErrors item fuel _ = rest'
        rintro (h | _)
        · exact .some ⟨.cons hs h.1, h.2⟩
        · exact .none
      · cases hmends.symm.trans hmends'

end Grammar

/-- The span of a file goes from its first token to the end of its last declaration. -/
theorem fileSpan_near {first first' : Span} (hfirst : ρ.near first first')
    {items items' : List Stmt} (h : List.Forall₂ (Stmt.Resembles ρ) items items') :
    ρ.near ((items.getLast?.map fun s => first.merge s.span).getD first)
      ((items'.getLast?.map fun s => first'.merge s.span).getD first') := by
  have hlast : Option.Rel (Stmt.Resembles ρ) items.getLast? items'.getLast? := by
    induction h with
    | nil => exact .none
    | cons hs hss ih =>
      cases hss with
      | nil => exact .some hs
      | cons hs' hss' =>
        rw [List.getLast?_cons_cons, List.getLast?_cons_cons]
        exact ih
  revert hlast
  generalize items.getLast? = last
  generalize items'.getLast? = last'
  rintro (hs | _)
  · exact ρ.merge_node hfirst hs.span
  · exact hfirst

/-- Lists of the same tokens are read alike: both give no result, or the same errors, or files that
resemble each other. -/
theorem parseTokens_mirrors (hmends : ρ.mends = false) {tokens tokens' : List Token}
    (h : List.Forall₂ (Token.Resembles ρ) tokens tokens') :
    Option.Rel (ExceptRel (List.Forall₂ (ParseError.Resembles ρ)) (SourceFile.Resembles ρ))
      (parseTokens tokens) (parseTokens tokens') := by
  cases h with
  | nil => exact .none
  | @cons first first' rest rest' hfirst hrest =>
    have hread : Option.Rel (Grammar.SameItems ρ)
        (Grammar.itemsAndErrors (Grammar.item (rest.length + 1 + 2)) (rest.length + 1 + 2)
          ⟨first, first :: rest, 0⟩)
        (Grammar.itemsAndErrors (Grammar.item (rest.length + 1 + 2)) (rest.length + 1 + 2)
          ⟨first', first' :: rest', 0⟩) := by
      by_cases heof : first.kind = .eof
      · -- Nothing is read, so that it does not matter that the token before the place is `eof`.
        have hend (t : Token) (ts : List Token) (ht : t.kind = .eof) :
            Grammar.itemsAndErrors (Grammar.item (rest.length + 1 + 2)) (rest.length + 1 + 2)
              ⟨t, t :: ts, 0⟩ = some ([], []) := by
          simp [Grammar.itemsAndErrors, Cursor.atEnd, ht]
        rw [hend first rest heof, hend first' rest' (hfirst.same (· = .eof) (by simp) ▸ heof)]
        exact .some ⟨.nil, .nil⟩
      · exact Grammar.itemsAndErrors_mirrors hmends (Grammar.item_mirrors _) _
          ⟨hfirst, hfirst.name heof, .cons hfirst hrest, rfl⟩
    rw [parseTokens, parseTokens, parseTokensWithin, parseTokensWithin, List.length_cons,
      List.length_cons, ← hrest.length_eq]
    revert hread
    generalize Grammar.itemsAndErrors _ _ ⟨first, _, 0⟩ = read
    generalize Grammar.itemsAndErrors _ _ ⟨first', _, 0⟩ = read'
    intro hread
    cases hread with
    | none => exact .none
    | @some r r' hr =>
      obtain ⟨items, errors⟩ := r
      obtain ⟨items', errors'⟩ := r'
      obtain ⟨hitems, herrors⟩ := hr
      cases herrors with
      | nil => exact .some (.ok ⟨hitems, fileSpan_near hfirst.near hitems⟩)
      | cons he hes => exact .some (.error (.cons he hes))

end Custody
