import Custody.Proofs.FileReadings

/-!
# Reading comes to an end

A list of tokens is read to an end if it has an `eof`, or a last token behind which no reader goes
on. Behind an operator, an opening parenthesis or the sign of a pointer a reader does go on: it
reads what has to follow without a look at the end of the list, where a cursor shows the last token
again and again. Each of these kinds ends lists that no bound on the recursion gives a result for
(`parseTokens_returns`).
-/

set_option autoImplicit false

namespace Custody

namespace Cursor

variable {c : Cursor}

/-- At the end of the list, or in front of its last token, a step changes nothing that a reader
sees. -/
theorem advance_near_end (h : c.rest.length ≤ 1) :
    c.advance.rest.length ≤ 1 ∧ c.advance.current = c.current := by
  unfold advance Cursor.current
  cases hrest : c.rest with
  | nil => simp [hrest]
  | cons t ts =>
    obtain rfl : ts = [] := List.length_eq_zero_iff.1 (by simpa [hrest] using h)
    by_cases heof : t.kind = .eof <;> simp [heof, hrest]

end Cursor

/-! ## Readers without a result -/

namespace Parse

variable {α β : Type} {c d : Cursor} {p : Parse α} {f : α → Parse β} {a : α}

theorem bind_eq_none (h : p c = none) : (p >>= f) c = none := by
  change Parse.bind p f c = none
  rw [Parse.bind, h]

/-- The first reader has a value, and the second has no result behind it. -/
theorem bind_eq_none_of_ok (h : p c = some (.ok a, d)) (hf : f a d = none) :
    (p >>= f) c = none := by
  change Parse.bind p f c = none
  rw [Parse.bind, h]
  exact hf

theorem ite_eq_none {b : Bool} {q : Parse α} (hyes : b = true → p c = none)
    (hno : b = false → q c = none) : (if b = true then p else q) c = none := by
  cases b with
  | true => exact hyes rfl
  | false => exact hno rfl

end Parse

namespace Grammar

open Parse

variable {c : Cursor} {fuel : Nat}

theorem pointerType_endless {type : Parse TypeExpr} (kind : PointerKind)
    (h : type c.advance = none) : pointerType kind type c = none :=
  bind_eq_none_of_ok rfl (bind_eq_none_of_ok rfl (bind_eq_none h))

/-- A pointer at the end of the list has no pointee and no end. -/
theorem typeExpr_endless (hrest : c.rest.length ≤ 1) (hkind : c.current.kind.opensType = true) :
    typeExpr fuel c = none := by
  induction fuel generalizing c with
  | zero => rfl
  | succ fuel ih =>
    obtain ⟨hrest', hcurrent⟩ := c.advance_near_end hrest
    have hpointee : typeExpr fuel c.advance = none := ih hrest' (hcurrent ▸ hkind)
    refine bind_eq_none_of_ok rfl ?_
    cases h : c.current.kind with
    | caret => exact pointerType_endless .weak hpointee
    | tilde => exact pointerType_endless .owned hpointee
    | _ => rw [h] at hkind; cases hkind

theorem groupExpr_endless {nested : Parse Expr} (h : nested c.advance = none) :
    groupExpr nested c = none :=
  bind_eq_none_of_ok rfl (bind_eq_none_of_ok rfl (bind_eq_none h))

theorem opensExpr_iff {kind : TokenKind} :
    kind.opensExpr = true ↔ kind = .lParen ∨ ∃ op, unaryOp? kind = some op := by
  cases kind <;> simp [TokenKind.opensExpr, unaryOp?]

theorem operand_endless {nested : Nat → Parse Expr} (hkind : c.current.kind.opensExpr = true)
    (h : ∀ level, nested level c.advance = none) : operand nested fuel c = none := by
  refine bind_eq_none_of_ok rfl (bind_eq_none_of_ok rfl ?_)
  rcases opensExpr_iff.1 hkind with hparen | ⟨op, hop⟩
  · rw [hparen]
    refine bind_eq_none (bind_eq_none_of_ok rfl ?_)
    rw [hparen]
    exact groupExpr_endless (h 1)
  · rw [hop]
    exact bind_eq_none_of_ok rfl (bind_eq_none (h unaryLevel))

/-- An operator or a parenthesis at the end of the list has no operand and no end. -/
theorem expr_endless {level : Nat} (hrest : c.rest.length ≤ 1)
    (hkind : c.current.kind.opensExpr = true) : expr fuel level c = none := by
  induction fuel generalizing c level with
  | zero => rfl
  | succ fuel ih =>
    obtain ⟨hrest', hcurrent⟩ := c.advance_near_end hrest
    refine bind_eq_none_of_ok rfl (bind_eq_none (operand_endless hkind fun level => ?_))
    exact ih hrest' (hcurrent ▸ hkind)

end Grammar

/-- A list of tokens where every reading comes to an end. -/
def Grounded (tokens : List Token) : Prop :=
  (∃ t ∈ tokens, t.kind = .eof) ∨ ∃ t ∈ tokens.getLast?, t.kind.opens = false

theorem Grounded.cursor {first : Token} {tokens : List Token} (h : Grounded tokens) (n : Nat) :
    (⟨first, tokens, n⟩ : Cursor).Grounded := by
  rcases h with ⟨t, ht, heof⟩ | ⟨t, ht, hopens⟩
  · exact .inl ⟨t, ht, heof⟩
  · refine .inr ?_
    rw [Cursor.last, Option.mem_def.1 ht]
    exact hopens

theorem Grounded.parseTokensWithin_isSome {tokens : List Token} (h : Grounded tokens)
    (hne : tokens ≠ []) {fuel : Nat} (hfuel : tokens.length < fuel) :
    ∃ result, parseTokensWithin fuel tokens = some result := by
  cases tokens with
  | nil => exact absurd rfl hne
  | cons first rest =>
    have hahead := (⟨first, first :: rest, 0⟩ : Cursor).ahead_le
    dsimp only at hahead
    obtain ⟨result, hresult⟩ := Grammar.itemsAndErrors_isSome
      (fun d hd => Grammar.item_settles (show d.ahead ≤ fuel by omega)) (h.cursor 0)
      (Nat.lt_of_le_of_lt hahead hfuel)
    exact ⟨_, congrArg (Option.map _) hresult⟩

/-! ## Lists without an end -/

namespace Grammar

open Parse

variable {c : Cursor} {fuel : Nat} {t : Token}

theorem stmt_endless (hrest : c.rest.length ≤ 1) (hkind : c.current.kind.opensExpr = true) :
    stmt fuel c = none := by
  cases fuel with
  | zero => rfl
  | succ fuel =>
    have heffect : effectStmt fuel c = none :=
      bind_eq_none_of_ok rfl (bind_eq_none (bind_eq_none (expr_endless hrest hkind)))
    refine bind_eq_none_of_ok rfl ?_
    cases h : c.current.kind with
    | bang | minus | amp | star | kwOwn | lParen => exact heffect
    | _ => rw [h] at hkind; cases hkind

theorem stmts_endless {stmt : Parse Stmt} (hgo : (c.check .rBrace || c.atEnd) = false)
    (h : stmt c = none) : stmts stmt fuel c = none := by
  cases fuel with
  | zero => rfl
  | succ fuel =>
    refine bind_eq_none_of_ok rfl (ite_eq_none (fun hstop => ?_) fun _ => bind_eq_none h)
    exact absurd (hgo.symm.trans hstop) Bool.false_ne_true

/-- The closing parenthesis of `fn f()`. -/
def closeParen : Token := ⟨.rParen, ⟨5, 6, 1, 6, 0⟩, ")"⟩

/-- The tokens of `fn f()`. -/
def fnHead : List Token :=
  [⟨.kwFn, ⟨0, 2, 1, 1, 0⟩, "fn"⟩, ⟨.identifier, ⟨3, 4, 1, 4, 0⟩, "f"⟩,
    ⟨.lParen, ⟨4, 5, 1, 5, 0⟩, "("⟩, closeParen]

/-- The opening brace of the body behind `fn f()`. -/
def openBrace : Token := ⟨.lBrace, ⟨7, 8, 1, 8, 0⟩, "\x7b"⟩

theorem block_endless {previous : Token} {n : Nat} (hkind : t.kind.opensExpr = true) :
    block (stmt fuel) fuel ⟨previous, [openBrace, t], n⟩ = none := by
  have hgo : ((⟨openBrace, [t], n⟩ : Cursor).check .rBrace ||
      (⟨openBrace, [t], n⟩ : Cursor).atEnd) = false := by
    unfold Cursor.check Cursor.atEnd Cursor.current
    cases h : t.kind with
    | bang | minus | amp | star | kwOwn | lParen => simp [h]
    | _ => rw [h] at hkind; cases hkind
  exact bind_eq_none_of_ok rfl
    (bind_eq_none (stmts_endless hgo (stmt_endless (Nat.le_refl 1) hkind)))

/-- Behind its head, a function has a result type or a body. -/
theorem item_endless {first : Token} {rest : List Token}
    (hbody : (⟨closeParen, rest, 0⟩ : Cursor).check .lBrace = true →
      block (stmt (fuel + 1)) (fuel + 1) ⟨closeParen, rest, 0⟩ = none)
    (htype : (⟨closeParen, rest, 0⟩ : Cursor).check .lBrace = false →
      typeExpr (fuel + 1) ⟨closeParen, rest, 0⟩ = none) :
    item (fuel + 1) ⟨first, fnHead ++ rest, 0⟩ = none := by
  refine bind_eq_none_of_ok rfl ?_
  refine bind_eq_none_of_ok rfl
    (bind_eq_none_of_ok rfl (bind_eq_none_of_ok rfl (bind_eq_none_of_ok rfl ?_)))
  refine bind_eq_none_of_ok rfl (bind_eq_none_of_ok rfl (bind_eq_none_of_ok rfl ?_))
  refine ite_eq_none (fun hbrace => ?_) fun hbrace => bind_eq_none (htype hbrace)
  exact bind_eq_none_of_ok rfl (bind_eq_none (hbody hbrace))

end Grammar

theorem parseTokensWithin_endless {first : Token} {rest : List Token}
    (h : ∀ fuel, Grammar.item (fuel + 1) ⟨first, first :: rest, 0⟩ = none)
    (heof : first.kind ≠ .eof) (fuel : Nat) : parseTokensWithin fuel (first :: rest) = none := by
  have hread : Grammar.itemsAndErrors (Grammar.item fuel) fuel ⟨first, first :: rest,
      0⟩ = none := by
    cases fuel with
    | zero => rfl
    | succ fuel =>
      unfold Grammar.itemsAndErrors
      rw [if_neg (by simpa [Cursor.atEnd] using heof), h]
  exact congrArg (Option.map _) hread

/-- `fn f() {` and an operator: the body never gets to its first operand. -/
theorem parseTokensWithin_openBody {t : Token} (hkind : t.kind.opensExpr = true) (fuel : Nat) :
    parseTokensWithin fuel (Grammar.fnHead ++ [Grammar.openBrace, t]) = none := by
  refine parseTokensWithin_endless (fun fuel => ?_) (by decide) fuel
  exact Grammar.item_endless (fun _ => Grammar.block_endless hkind) nofun

/-- `fn f()` and the sign of a pointer: the result type never gets to a name. -/
theorem parseTokensWithin_openType {t : Token} (hkind : t.kind.opensType = true) (fuel : Nat) :
    parseTokensWithin fuel (Grammar.fnHead ++ [t]) = none := by
  refine parseTokensWithin_endless (fun fuel => ?_) (by decide) fuel
  refine Grammar.item_endless (fun hbrace => ?_) fun _ =>
    Grammar.typeExpr_endless (Nat.le_refl 1) hkind
  have hopen : t.kind = .lBrace := Cursor.kind_of_check hbrace
  rw [hopen] at hkind
  cases hkind

/-- A list of tokens has a result, with every bound on nesting and steps that is above the number of
tokens, if it has an `eof` or if no reader goes on behind its last token. Otherwise its last token
ends some list that no bound gives a result for. -/
theorem parseTokens_returns (tokens : List Token) (hne : tokens ≠ []) :
    (Grounded tokens → (∃ result, parseTokens tokens = some result) ∧
      ∀ fuel, tokens.length < fuel → ∃ result, parseTokensWithin fuel tokens = some result) ∧
    parseTokens tokens = parseTokensWithin (tokens.length + 2) tokens ∧
    (¬ Grounded tokens → ∃ t, tokens.getLast? = some t ∧
      ∃ front, ∀ fuel, parseTokensWithin fuel (front ++ [t]) = none) := by
  refine ⟨fun hend => ⟨?_, fun fuel => hend.parseTokensWithin_isSome hne⟩, rfl, fun hopen => ?_⟩
  · exact hend.parseTokensWithin_isSome hne (by omega)
  · refine ⟨tokens.getLast hne, List.getLast?_eq_some_getLast hne, ?_⟩
    have hkind : (tokens.getLast hne).kind.opens = true := by
      by_contra hclosed
      exact hopen (.inr ⟨_, List.getLast?_eq_some_getLast hne, by simpa using hclosed⟩)
    rcases Bool.or_eq_true_iff.1 hkind with hexpr | htype
    · exact ⟨Grammar.fnHead ++ [Grammar.openBrace], parseTokensWithin_openBody hexpr⟩
    · exact ⟨Grammar.fnHead, parseTokensWithin_openType htype⟩

/-- A list that breaks off behind `+` has a result. -/
theorem parseTokens_returns_brokenSum :
    Grounded (tokenize "fn f() \x7b a +" 0).dropLast ∧
      ∃ result, parseTokens (tokenize "fn f() \x7b a +" 0).dropLast = some result := by
  have htokens : (tokenize "fn f() \x7b a +" 0).dropLast = Grammar.fnHead ++
      [Grammar.openBrace, ⟨.identifier, ⟨9, 10, 1, 10, 0⟩, "a"⟩,
        ⟨.plus, ⟨11, 12, 1, 12, 0⟩, "+"⟩] := by
    decide +kernel
  have hend : Grounded (tokenize "fn f() \x7b a +" 0).dropLast := by
    rw [htokens]
    exact .inr ⟨_, rfl, rfl⟩
  exact ⟨hend, ((parseTokens_returns _ (by rw [htokens]; decide)).1 hend).1⟩

/-- A list that breaks off behind `-` has none: the operand of the last token is looked for in that
token. -/
theorem parseTokens_endless :
    (tokenize "fn f() \x7b -" 0).dropLast ≠ [] ∧
      ∀ fuel, parseTokensWithin fuel (tokenize "fn f() \x7b -" 0).dropLast = none := by
  have htokens : (tokenize "fn f() \x7b -" 0).dropLast =
      Grammar.fnHead ++ [Grammar.openBrace, ⟨.minus, ⟨9, 10, 1, 10, 0⟩, "-"⟩] := by
    decide +kernel
  rw [htokens]
  exact ⟨by decide, parseTokensWithin_openBody rfl⟩

end Custody
