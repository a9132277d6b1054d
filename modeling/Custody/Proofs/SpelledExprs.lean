import Custody.Proofs.Spellings

/-!
# Expressions are read back

A type or an expression that can be written is read from each of its spellings, with spans and
numbers of its own.

The operands of an expression come one by one, so that a spelling is not read part by part as its
tree has them: what stands behind an operand and the operators that follow it are taken in by loops.
`Chains` and `Climbs` say of a tree that reading its spelling leads into the loop with this tree as
the operand so far.

Each reader is bounded by its fuel, and every step and every nesting takes a token. So it is enough
that there is as much fuel as there are tokens.
-/

set_option autoImplicit false

namespace Custody

open Style

/-! ## Types -/

namespace Grammar

open Parse

variable {e : Expr} {type : Parse TypeExpr} {ts : List TypeExpr} {mark : Mark} {start : Span}
variable {tokens rest : List Token} {t : Token} {fuel : Nat}

/-- What a type starts with. -/
def firstOfType : TypeExpr → TokenKind
  | .named _ _ _ _ => .identifier
  | .pointer _ kind _ => kind.kind
  | .array _ _ _ => .lBracket
  | .slice _ _ => .lBracket

theorem opens_typeExpr (t : TypeExpr) : Opens [firstOfType t] (t.write lenient) := by
  have hkind (kind : TokenKind) : kind ∈ [kind] := List.mem_singleton.2 rfl
  cases t with
  | named mark space name args =>
    cases space with
    | none =>
      rw [TypeExpr.write, Option.elim_none, one_mul]
      exact opens_mul (opens_symbol (hkind _) _)
    | some s => exact opens_mul (opens_mul (opens_mul (opens_symbol (hkind _) _)))
  | pointer mark kind pointee => exact opens_mul (opens_symbol (hkind _) _)
  | array mark length element => exact opens_mul (opens_mul (opens_mul (opens_symbol (hkind _) _)))
  | slice mark element => exact opens_mul (opens_mul (opens_symbol (hkind _) _))

/-- What types start with. -/
def typeKinds : List TokenKind := [.caret, .tilde, .lBracket, .identifier]

theorem firstOfType_mem (t : TypeExpr) : firstOfType t ∈ typeKinds := by
  cases t with
  | pointer mark kind pointee => cases kind <;> simp [firstOfType, PointerKind.kind, typeKinds]
  | named | array | slice => simp [firstOfType, typeKinds]

theorem opens_typeKinds (t : TypeExpr) : Opens typeKinds (t.write lenient) :=
  (opens_typeExpr t).mono fun _ h => List.mem_singleton.1 h ▸ firstOfType_mem t

/-- A type is read from each of its spellings of limited length. -/
def ReadsType (type : Parse TypeExpr) (bound : Nat) (t : TypeExpr) : Prop :=
  ∀ tokens rest, Spelled tokens (t.write lenient) → tokens.length ≤ bound → Closes rest →
    type.Yields tokens rest fun t' => t'.bare = t.bare

/-- If there are no type arguments, they may be missing with all that stands in front of them. -/
theorem spelled_typeArgs {front : Language Symbol}
    (h : Spelled tokens (lenient.typeArgs front (TypeExpr.writeAll lenient ts))) :
    (tokens = [] ∧ ts = []) ∨
      Spelled tokens
        (front * lenient.enclosed .lBracket .rBracket (ts.map (TypeExpr.write lenient))) := by
  rw [TypeExpr.writeAll_eq_map] at h
  cases ts with
  | nil => exact (spelled_optional.1 h).imp_left fun h => ⟨h, rfl⟩
  | cons t ts => exact .inr h

theorem typeArgs_yields
    (h : Spelled tokens (lenient.enclosed .lBracket .rBracket (ts.map (TypeExpr.write lenient))))
    (htypes : ∀ t ∈ ts, ReadsType type fuel t) (hfuel : tokens.length ≤ fuel) :
    ∃ t tokens', tokens = t :: tokens' ∧ t.kind = .lBracket ∧ ∀ rest,
      (typeArgs type fuel).Yields tokens rest fun ts' =>
        ts'.map TypeExpr.bare = ts.map TypeExpr.bare := by
  obtain ⟨t, tokens', rfl, ht, hitems⟩ := itemsTo_yields h
    (fun t ht tokens rest hspelled hlt => htypes t ht tokens rest hspelled (Nat.le_of_lt hlt))
    (fun t _ => opens_typeKinds t) (by decide) hfuel hfuel
  exact ⟨t, tokens', rfl, ht, fun rest => leads_expect ht (by decide) (hitems rest)⟩

/-- What follows the name of a type: its arguments, if there are any. -/
theorem nameArgs_yields
    {node : List TypeExpr → Mark → TypeExpr} {P : TypeExpr → Prop}
    (h : Spelled tokens (lenient.typeArgs 1 (TypeExpr.writeAll lenient ts)))
    (htypes : ∀ t ∈ ts, ReadsType type fuel t) (hfuel : tokens.length ≤ fuel) (hrest : Closes rest)
    (hnode : ∀ ts' mark, ts'.map TypeExpr.bare = ts.map TypeExpr.bare → P (node ts' mark)) :
    (do
      let args ← if ← check .lBracket then typeArgs type fuel else pure []
      return node args (← finish start) : Parse TypeExpr).Yields tokens rest P := by
  rcases spelled_typeArgs h with ⟨rfl, rfl⟩ | h
  · obtain ⟨t, rest, rfl, ht⟩ := hrest
    refine leads_check rfl (by decide) ?_
    have hnone : (t.kind == .lBracket) = false :=
      beq_eq_false_iff_ne.2 fun h => absurd (h ▸ ht) (by decide)
    rw [hnone]
    exact leads_pure (node_yields fun mark => hnode [] mark rfl)
  · rw [one_mul] at h
    obtain ⟨t, tokens', rfl, ht, hargs⟩ := typeArgs_yields h htypes hfuel
    refine leads_check rfl (by decide) ?_
    rw [ht]
    exact (hargs rest).bind_last fun ts' hts' => node_yields fun mark => hnode ts' mark hts'

/-- With its arguments or without them, a name is not followed by a dot. -/
theorem nameArgs_head
    (h : Spelled tokens (lenient.typeArgs 1 (TypeExpr.writeAll lenient ts))) (hrest : Closes rest) :
    ∃ t, (tokens ++ rest).head? = some t ∧ (t.kind == .dot) = false := by
  rcases spelled_typeArgs h with ⟨rfl, rfl⟩ | h
  · obtain ⟨t, rest, rfl, ht⟩ := hrest
    exact ⟨t, rfl, beq_eq_false_iff_ne.2 fun h => absurd (h ▸ ht) (by decide)⟩
  · rw [one_mul, Style.enclosed, mul_assoc] at h
    obtain ⟨t, tokens', rfl, ht, -⟩ := spelled_kind_mul h
    exact ⟨t, rfl, by rw [ht]; rfl⟩

theorem namedType_yields {space : Option Ident} {name : Ident} {args : List TypeExpr}
    (h : Spelled tokens ((TypeExpr.named mark space name args).write lenient))
    (hargs : ∀ t ∈ args, ReadsType type fuel t) (hfuel : tokens.length ≤ fuel + 1)
    (hrest : Closes rest) : (namedType type fuel).Yields tokens rest fun t' =>
      t'.bare = (TypeExpr.named mark space name args).bare := by
  rw [TypeExpr.write, mul_assoc] at h
  unfold namedType
  refine leads_here fun start => ?_
  cases space with
  | none =>
    rw [Option.elim_none, one_mul] at h
    obtain ⟨t, tokens', rfl, ht, hvalue, h⟩ := spelled_name_mul h
    -- No dot follows, or the name would be taken for an alias.
    obtain ⟨t', hhead, hdot⟩ := nameArgs_head h hrest
    refine leads_ident ht hvalue fun name' hname => leads_check hhead (by decide) ?_
    rw [hdot]
    refine leads_pure
      (nameArgs_yields h hargs (Nat.le_of_succ_le_succ hfuel) hrest fun ts' mark' hts => ?_)
    simp only [TypeExpr.bare, TypeExpr.bareAll_eq_map, hname, hts, Option.map_none]
  | some s =>
    rw [Option.elim_some, mul_assoc] at h
    obtain ⟨t₁, tokens₁, rfl, ht₁, hvalue₁, h⟩ := spelled_name_mul h
    obtain ⟨t₂, tokens₂, rfl, ht₂, h⟩ := spelled_kind_mul h
    obtain ⟨t₃, tokens₃, rfl, ht₃, hvalue₃, h⟩ := spelled_name_mul h
    simp only [List.length_cons] at hfuel
    refine leads_ident ht₁ hvalue₁ fun s' hs => leads_check rfl (by decide) ?_
    rw [ht₂]
    refine leads_advance (ht₂ ▸ by decide) (leads_ident ht₃ hvalue₃ fun name' hname => ?_)
    refine leads_pure (nameArgs_yields h hargs (by omega) hrest fun ts' mark' hts => ?_)
    simp only [TypeExpr.bare, TypeExpr.bareAll_eq_map, hs, hname, hts, Option.map_some]

theorem pointerType_yields {kind : PointerKind} {pointee : TypeExpr}
    (h : Spelled tokens ((TypeExpr.pointer mark kind pointee).write lenient))
    (hpointee : ReadsType type fuel pointee) (hfuel : tokens.length ≤ fuel + 1)
    (hrest : Closes rest) : (pointerType kind type).Yields tokens rest fun t' =>
      t'.bare = (TypeExpr.pointer mark kind pointee).bare := by
  obtain ⟨t, tokens', rfl, ht, h⟩ := spelled_kind_mul h
  unfold pointerType
  refine leads_here fun start => leads_advance (ht ▸ by cases kind <;> decide) ?_
  refine (hpointee _ _ h (Nat.le_of_succ_le_succ hfuel) hrest).bind_last fun pointee' hp => ?_
  exact node_yields fun mark' => by rw [TypeExpr.bare, TypeExpr.bare, hp]

theorem sliceType_yields {element : TypeExpr}
    (h : Spelled tokens ((TypeExpr.slice mark element).write lenient))
    (helement : ReadsType type fuel element) (hfuel : tokens.length ≤ fuel + 1)
    (hrest : Closes rest) :
    (bracketType type).Yields tokens rest fun t' =>
      t'.bare = (TypeExpr.slice mark element).bare := by
  rw [TypeExpr.write, mul_assoc] at h
  obtain ⟨t₁, tokens₁, rfl, ht₁, h⟩ := spelled_kind_mul h
  obtain ⟨t₂, tokens₂, rfl, ht₂, h⟩ := spelled_kind_mul h
  simp only [List.length_cons] at hfuel
  unfold bracketType
  refine leads_here fun start => leads_advance (ht₁ ▸ by decide) (leads_check rfl (by decide) ?_)
  rw [ht₂]
  refine leads_advance (ht₂ ▸ by decide) ?_
  refine (helement _ _ h (by omega) hrest).bind_last fun element' he => ?_
  exact node_yields fun mark' => by rw [TypeExpr.bare, TypeExpr.bare, he]

theorem arrayType_yields {length : Nat} {element : TypeExpr}
    (h : Spelled tokens ((TypeExpr.array mark length element).write lenient))
    (hlength : length < lengthLimit) (helement : ReadsType type fuel element)
    (hfuel : tokens.length ≤ fuel + 1) (hrest : Closes rest) :
    (bracketType type).Yields tokens rest fun t' =>
      t'.bare = (TypeExpr.array mark length element).bare := by
  rw [TypeExpr.write, mul_assoc, mul_assoc] at h
  obtain ⟨t₁, tokens₁, rfl, ht₁, h⟩ := spelled_kind_mul h
  obtain ⟨numeral, tokens₂, rfl, hnumeral, hback⟩ := spelled_mul.1 h
  obtain ⟨value, hvalue, hread⟩ := readBelow?_of_mem_numeral hlength hnumeral
  obtain ⟨t₂, rfl, ht₂⟩ := List.map_eq_singleton_iff.1 hvalue
  obtain ⟨t₃, tokens₃, rfl, ht₃, hback⟩ := spelled_kind_mul hback
  simp only [List.length_cons, List.length_append] at hfuel
  have hkind : t₂.kind = .number := congrArg Symbol.kind ht₂
  unfold bracketType
  refine leads_here fun start =>
    leads_advance (ht₁ ▸ by decide) (leads_check (t := t₂) rfl (by decide) ?_)
  rw [hkind]
  have hlengthRead : arrayLength.Yields [t₂] (t₃ :: tokens₃ ++ rest) fun n => n = length := by
    unfold arrayLength
    refine leads_expect hkind (by decide) ?_
    rw [show t₂.value = value from congrArg Symbol.value ht₂, hread]
    exact yields_pure rfl
  refine hlengthRead.bind fun n hn => leads_expect ht₃ (by decide) ?_
  refine (helement _ _ hback (by omega) hrest).bind_last fun element' he => ?_
  exact node_yields fun mark' => by rw [TypeExpr.bare, TypeExpr.bare, he, hn]

/-- A type that can be written is read from each of its spellings. -/
theorem typeExpr_yields (t : TypeExpr) (hshape : t.wellShaped = true) (fuel : Nat) :
    ReadsType (typeExpr fuel) fuel t := by
  induction t using TypeExpr.induction_on_children generalizing fuel with
  | step t ih =>
    intro tokens rest h hfuel hrest
    obtain ⟨first, tokens', htokens, hfirst⟩ := (opens_typeExpr t).head h
    obtain ⟨fuel, rfl⟩ : ∃ n, fuel = n + 1 :=
      ⟨fuel - 1, by rw [htokens, List.length_cons] at hfuel; omega⟩
    have hkind := List.mem_singleton.1 hfirst
    rw [typeExpr]
    refine leads_current (t := first) (by rw [htokens]; rfl) ?_
    rw [hkind]
    cases t with
    | named mark space name args =>
      rw [TypeExpr.wellShaped, TypeExpr.wellShapedAll_eq_all, List.all_eq_true] at hshape
      exact namedType_yields h (fun t ht => ih t ht (hshape t ht) fuel) hfuel hrest
    | pointer mark kind pointee =>
      have hpointee := ih pointee (List.mem_singleton.2 rfl) hshape fuel
      cases kind <;> exact pointerType_yields h hpointee hfuel hrest
    | array mark length element =>
      rw [TypeExpr.wellShaped, Bool.and_eq_true, decide_eq_true_iff] at hshape
      exact arrayType_yields h hshape.1
        (ih element (List.mem_singleton.2 rfl) hshape.2 fuel) hfuel hrest
    | slice mark element =>
      exact sliceType_yields h (ih element (List.mem_singleton.2 rfl) hshape fuel) hfuel hrest

/-! ## The ends of expressions -/

/-- What an expression of the highest level starts with. -/
def primaryKinds : List TokenKind :=
  [.number, .string, .kwTrue, .kwFalse, .kwNull, .kwZero, .identifier, .lParen, .kwNew, .lBracket]

/-- What an expression starts with. -/
def exprKinds : List TokenKind := primaryKinds ++ [.bang, .minus, .amp, .star, .kwOwn]

theorem opens_number (literal : NumberLiteral) : Opens primaryKinds (literal.write lenient) := by
  unfold NumberLiteral.write
  cases literal.format with
  | none => exact opens_symbol (by decide) _
  | some format =>
    rintro row ⟨zeros, rfl⟩
    exact ⟨_, rfl, (by decide : TokenKind.number ∈ primaryKinds)⟩

theorem opens_both {L : Language Symbol} (h : Opens primaryKinds L) {P : Prop} :
    Opens exprKinds L ∧ (P → Opens primaryKinds L) :=
  ⟨h.mono fun _ hkind => List.mem_append_left _ hkind, fun _ => h⟩

/-- An expression starts with its first operand or with an operator in front of it. -/
theorem opens_expr (e : Expr) (hshape : e.wellShaped = true) :
    Opens exprKinds (e.write lenient) ∧ (e.level = 9 → Opens primaryKinds (e.write lenient)) := by
  induction e using Expr.induction_on_children with
  | step e ih =>
    have hchildren (child : Expr) (h : child ∈ e.children) :=
      ih child h ((Expr.wellShaped_iff.1 hshape).2 child h)
    cases e with
    | binary mark op left right =>
      have hleft := hchildren left List.mem_cons_self
      refine ⟨opens_mul (opens_mul hleft.1), fun h => ?_⟩
      cases op <;> cases h
    | range mark first last =>
      have hfirst := hchildren first List.mem_cons_self
      exact ⟨opens_mul (opens_mul hfirst.1), nofun⟩
    | unary mark op operand => exact ⟨opens_mul (opens_symbol (by cases op <;> decide) _), nofun⟩
    | number mark literal => exact opens_both (opens_number literal)
    | call mark callee types args =>
      have hcallee := (hchildren callee List.mem_cons_self).2 (Expr.wellShaped_call.1 hshape).1
      exact opens_both (opens_mul (opens_mul hcallee))
    | get mark object member =>
      have hobject := (hchildren object List.mem_cons_self).2 (Expr.wellShaped_get.1 hshape).1
      exact opens_both (opens_mul (opens_mul hobject))
    | subscript mark object index =>
      have hobject := (hchildren object List.mem_cons_self).2 (Expr.wellShaped_subscript.1 hshape).1
      exact opens_both (opens_mul (opens_mul (opens_mul hobject)))
    | staticArray mark type elements =>
      have htype : firstOfType type = .lBracket := by
        cases type with
        | array => rfl
        | _ => cases (Expr.wellShaped_staticArray.1 hshape).1
      exact opens_both (opens_mul ((opens_typeExpr type).mono fun _ h => by
        rw [List.mem_singleton.1 h, htype]
        decide))
    | new mark type fields => exact opens_both (opens_mul (opens_mul (opens_symbol (by decide) _)))
    | group mark inner => exact opens_both (opens_mul (opens_mul (opens_symbol (by decide) _)))
    | bool mark value => exact opens_both (opens_symbol (by cases value <;> decide) _)
    | ident mark name => exact opens_both (opens_symbol (by decide) _)
    | string mark text => exact opens_both (opens_symbol (by decide) _)
    | null | zero => exact opens_both (opens_symbol (by decide) _)

/-- The tokens start with one that ends an operand, and if it is an operator, it has a level below
the given one. -/
def Stops (level : Nat) (tokens : List Token) : Prop :=
  ∃ t rest, tokens = t :: rest ∧ t.kind ∉ [.lParen, .colon, .dot, .lBracket] ∧
    ∀ op, InfixOp.ofKind? t.kind = some op → op.level < level

theorem Stops.mono {level level' : Nat} (h : Stops level tokens) (hle : level ≤ level') :
    Stops level' tokens := by
  obtain ⟨t, rest, rfl, ht, hop⟩ := h
  exact ⟨t, rest, rfl, ht, fun op h => Nat.lt_of_lt_of_le (hop op h) hle⟩

theorem Closes.stops (h : Closes tokens) (level : Nat) : Stops level tokens := by
  have hcloser : ∀ kind ∈ closers, kind ∉ [TokenKind.lParen, .colon, .dot, .lBracket] ∧
      InfixOp.ofKind? kind = none := by decide
  obtain ⟨t, rest, rfl, ht⟩ := h
  obtain ⟨hkind, hnone⟩ := hcloser _ ht
  refine ⟨t, rest, rfl, hkind, fun op h => ?_⟩
  rw [hnone] at h
  cases h

/-! ## Operands -/

/-- A whole expression is read from each of its spellings of limited length. -/
def ReadsExpr (nested : Parse Expr) (bound : Nat) (e : Expr) : Prop :=
  ∀ tokens rest, Spelled tokens (e.write lenient) → tokens.length < bound → Closes rest →
    nested.Yields tokens rest fun e' => e'.bare = e.bare

section Operands

variable {nested : Parse Expr} {m : Mark}

/-- Expressions with commas between two delimiters. -/
theorem exprs_yields {opening close : TokenKind} {es : List Expr} {bound : Nat}
    (h : Spelled tokens (lenient.enclosed opening close (Expr.writeAll lenient es)))
    (hes : ∀ e ∈ es, e.wellShaped = true ∧ ReadsExpr nested bound e)
    (hclose : EndsList exprKinds close) (hbound : tokens.length ≤ bound)
    (hfuel : tokens.length ≤ fuel) :
    ∃ t tokens', tokens = t :: tokens' ∧ t.kind = opening ∧ ∀ rest,
      (itemsTo close nested fuel).Yields tokens' rest fun es' =>
        es'.map Expr.bare = es.map Expr.bare := by
  rw [Expr.writeAll_eq_map] at h
  exact itemsTo_yields h (fun e he => (hes e he).2)
    (fun e he => (opens_expr e (hes e he).1).1) hclose hbound
    hfuel

theorem fieldInit_yields {field : Ident × Expr} (h : Spelled tokens (lenient.field field))
    (hvalue : ReadsExpr nested fuel field.2) (hfuel : tokens.length < fuel) (hrest : Closes rest) :
    (fieldInit nested).Yields tokens rest fun field' =>
      (field'.1.bare, field'.2.bare) = (field.1.bare, field.2.bare) := by
  rw [Style.field, mul_assoc] at h
  obtain ⟨t₁, tokens₁, rfl, ht₁, hname, h⟩ := spelled_name_mul h
  obtain ⟨t₂, tokens₂, rfl, ht₂, h⟩ := spelled_kind_mul h
  simp only [List.length_cons] at hfuel
  refine leads_ident ht₁ hname fun name' hname' => leads_expect ht₂ (by decide) ?_
  refine (hvalue _ _ h (by omega) hrest).bind_last fun value' hvalue' => yields_pure ?_
  rw [hname', hvalue']

theorem leaf_yields {node : Token → Mark → Expr} (ht : t.kind ≠ .eof)
    (hnode : ∀ mark, (node t mark).bare = e.bare) :
    (leaf node).Yields [t] rest fun e' => e'.bare = e.bare :=
  leads_here fun _ => leads_advance ht (node_yields hnode)

theorem number_yields {literal : NumberLiteral} (h : Spelled tokens (literal.write lenient))
    (hshape : literal.wellShaped = true) :
    ∃ t, tokens = [t] ∧ t.kind = .number ∧ ∀ rest, number.Yields tokens rest fun l =>
      l = literal := by
  obtain ⟨value, hvalue, hread⟩ := numberLiteral_of_mem_write hshape h
  obtain ⟨t, rfl, ht⟩ := List.map_eq_singleton_iff.1 hvalue
  have hkind : t.kind = .number := congrArg Symbol.kind ht
  refine ⟨t, rfl, hkind, fun rest => leads_advance (hkind ▸ by decide) ?_⟩
  rw [show t.value = value from congrArg Symbol.value ht, hread]
  exact yields_pure rfl

theorem groupExpr_yields {inner : Expr} (h : Spelled tokens ((Expr.group m inner).write lenient))
    (hinner : ReadsExpr nested fuel inner) (hfuel : tokens.length ≤ fuel) :
    ∃ t tokens', tokens = t :: tokens' ∧ t.kind = .lParen ∧ ∀ rest,
      (groupExpr nested).Yields tokens rest fun e' => e'.bare = (Expr.group m inner).bare := by
  rw [Expr.write, mul_assoc] at h
  obtain ⟨t₁, tokens₁, rfl, ht₁, h⟩ := spelled_kind_mul h
  obtain ⟨tokens₂, last, rfl, htokens₂, hlast⟩ := spelled_mul.1 h
  obtain ⟨t₃, rfl, ht₃⟩ := spelled_kind hlast
  simp only [List.length_cons, List.length_append] at hfuel
  refine ⟨t₁, _, rfl, ht₁, fun rest => leads_here fun start => leads_advance (ht₁ ▸ by decide) ?_⟩
  refine (hinner _ _ htokens₂ (by omega) (closes_cons ht₃ (by decide))).bind
    fun inner' hinner' => ?_
  exact leads_expect ht₃ (by decide) (node_yields fun mark => by rw [Expr.bare, Expr.bare, hinner'])

theorem newExpr_yields {type : TypeExpr} {fields : List (Ident × Expr)}
    (h : Spelled tokens ((Expr.new m type fields).write lenient)) (htype : type.wellShaped = true)
    (hfields : ∀ f ∈ fields, ReadsExpr nested fuel f.2) (hfuel : tokens.length ≤ fuel) :
    ∃ t tokens', tokens = t :: tokens' ∧ t.kind = .kwNew ∧ ∀ rest,
      (newExpr nested fuel).Yields tokens rest fun e' =>
        e'.bare = (Expr.new m type fields).bare := by
  rw [Expr.write, mul_assoc, Expr.writeFields_eq_map] at h
  obtain ⟨t₁, tokens₁, rfl, ht₁, h⟩ := spelled_kind_mul h
  obtain ⟨tokens₂, tokens₃, rfl, htokens₂, htokens₃⟩ := spelled_mul.1 h
  simp only [List.length_cons, List.length_append] at hfuel
  have hlength : tokens₃.length ≤ fuel := by omega
  obtain ⟨t₃, tokens₄, rfl, ht₃, hitems⟩ := itemsTo_yields htokens₃
    (fun f hf _ _ hspelled hlt hrest => fieldInit_yields hspelled (hfields f hf) hlt hrest)
    (fun f _ => opens_mul (opens_mul (opens_symbol (by decide) _)))
    (by decide : EndsList [.identifier] .rBrace) hlength hlength
  refine ⟨t₁, _, rfl, ht₁, fun rest => leads_here fun start => leads_advance (ht₁ ▸ by decide) ?_⟩
  refine (typeExpr_yields type htype fuel _ _ htokens₂ (by omega)
    (closes_cons ht₃ (by decide))).bind
    fun type' htype' => leads_expect ht₃ (by decide) ?_
  refine (hitems rest).bind_last fun fields' hfields' => node_yields fun mark => ?_
  rw [Expr.bare, Expr.bare, htype', Expr.bareFields_eq_map, Expr.bareFields_eq_map, hfields']

theorem arrayExpr_yields {type : TypeExpr} {elements : List Expr}
    (h : Spelled tokens ((Expr.staticArray m type elements).write lenient))
    (hsized : type.isArray = true) (htype : type.wellShaped = true)
    (helements : ∀ e ∈ elements, e.wellShaped = true ∧ ReadsExpr nested fuel e)
    (hfuel : tokens.length ≤ fuel) :
    ∃ t tokens', tokens = t :: tokens' ∧ t.kind = .lBracket ∧ ∀ rest,
      (arrayExpr nested fuel).Yields tokens rest fun e' =>
        e'.bare = (Expr.staticArray m type elements).bare := by
  obtain ⟨tokens₁, tokens₂, rfl, htokens₁, htokens₂⟩ := spelled_mul.1 h
  simp only [List.length_append] at hfuel
  have hlength : tokens₂.length ≤ fuel := by omega
  obtain ⟨t₂, tokens₃, rfl, ht₂, hitems⟩ :=
    exprs_yields htokens₂ helements (by decide) hlength hlength
  cases type with
  | named | pointer | slice => cases hsized
  | array typeMark length element =>
    obtain ⟨t₁, tokens₁', rfl, ht₁⟩ := (opens_typeExpr _).head htokens₁
    refine ⟨t₁, _, rfl, List.mem_singleton.1 ht₁, fun rest => leads_here fun start => ?_⟩
    refine (typeExpr_yields _ htype fuel _ _ htokens₁ (by omega) (closes_cons ht₂ (by decide))).bind
      fun type' htype' => ?_
    -- Without its marks the type is that of an array, so it was one with its marks.
    cases type' with
    | named | pointer | slice => cases htype'
    | array typeMark' length' element' =>
      refine leads_expect ht₂ (by decide) ((hitems rest).bind_last fun elements' helements' => ?_)
      refine node_yields fun mark => ?_
      rw [Expr.bare, Expr.bare, htype', Expr.bareAll_eq_map, Expr.bareAll_eq_map, helements']

/-- An expression that is made by no operator and stands behind no other operand. -/
def isAtom : Expr → Bool
  | .binary _ _ _ _ | .range _ _ _ | .unary _ _ _ | .call _ _ _ _ | .get _ _ _ | .subscript _ _ _ =>
    false
  | _ => true

/-- An operand without operators and without anything behind it is read from each of its spellings.
The first token picks the reader. -/
theorem atom_yields (hatom : isAtom e = true) (hshape : e.wellShaped = true)
    (hchildren : ∀ child ∈ e.children, ReadsExpr nested fuel child)
    (h : Spelled tokens (e.write lenient)) (hfuel : tokens.length ≤ fuel) :
    (primary nested fuel).Yields tokens rest fun e' => e'.bare = e.bare := by
  unfold primary
  cases e with
  | binary | range | unary | call | get | subscript => cases hatom
  | number mark literal =>
    obtain ⟨t, rfl, ht, hnumber⟩ := number_yields h hshape
    refine leads_current (t := t) rfl ?_
    rw [ht]
    refine leads_here fun start => (hnumber rest).bind_last fun literal' hliteral => ?_
    exact node_yields fun mark => by rw [Expr.bare, Expr.bare, hliteral]
  | string mark text =>
    obtain ⟨t, rfl, ht⟩ := spelled_symbol.1 h
    refine leads_current (t := t) rfl ?_
    rw [show t.kind = .string from congrArg Symbol.kind ht]
    refine leaf_yields (fun heof => ?_) fun mark => ?_
    · cases heof.symm.trans (congrArg Symbol.kind ht)
    · rw [Expr.bare, Expr.bare, show t.value = text from congrArg Symbol.value ht]
  | bool mark value =>
    obtain ⟨t, rfl, ht⟩ := spelled_kind h
    refine leads_current (t := t) rfl ?_
    rw [ht]
    cases value <;> exact leaf_yields (ht ▸ by decide) fun mark => rfl
  | null mark | zero mark =>
    obtain ⟨t, rfl, ht⟩ := spelled_kind h
    refine leads_current (t := t) rfl ?_
    rw [ht]
    exact leaf_yields (ht ▸ by decide) fun mark => rfl
  | ident mark name =>
    obtain ⟨t, rfl, ht, hvalue⟩ := spelled_name h
    refine leads_current (t := t) rfl ?_
    rw [ht]
    refine leads_here fun start => leads_ident ht hvalue fun name' hname => ?_
    exact node_yields fun mark => by rw [Expr.bare, Expr.bare, hname]
  | group mark inner =>
    obtain ⟨t, tokens', rfl, ht, hgroup⟩ :=
      groupExpr_yields h (hchildren inner List.mem_cons_self) hfuel
    refine leads_current (t := t) rfl ?_
    rw [ht]
    exact hgroup rest
  | new mark type fields =>
    obtain ⟨t, tokens', rfl, ht, hnew⟩ := newExpr_yields h (Expr.wellShaped_new.1 hshape).1
      (fun f hf => hchildren f.2 (List.mem_map_of_mem hf)) hfuel
    refine leads_current (t := t) rfl ?_
    rw [ht]
    exact hnew rest
  | staticArray mark type elements =>
    obtain ⟨hsized, htype, helements⟩ := Expr.wellShaped_staticArray.1 hshape
    obtain ⟨t, tokens', rfl, ht, harray⟩ := arrayExpr_yields h hsized htype
      (fun e he => ⟨List.all_eq_true.1 helements e he, hchildren e he⟩) hfuel
    refine leads_current (t := t) rfl ?_
    rw [ht]
    exact harray rest

/-! ## What stands behind an operand -/

/-- Reading a spelling leads into the loop that takes in what stands behind an operand, with the
whole tree as the operand. At most as much fuel as there are tokens was spent. -/
def Chains (nested : Parse Expr) (fuel : Nat) (e : Expr) : Prop :=
  ∀ tokens rest start, Spelled tokens (e.write lenient) → tokens.length ≤ fuel →
    (primary nested fuel >>= suffixes nested start fuel).Leads tokens rest fun q =>
      ∃ e' fuel', e'.bare = e.bare ∧ fuel < fuel' + tokens.length ∧
      q = suffixes nested start fuel' e'

/-- One step of the loop takes the spelling of what makes the second tree out of the first, which is
at least one token. -/
def Extends (nested : Parse Expr) (bound : Nat) (L : Language Symbol) (e e₂ : Expr) : Prop :=
  ∀ tokens rest start fuel e', Spelled tokens L → tokens.length ≤ bound → tokens.length ≤ fuel →
    e'.bare = e.bare →
    0 < tokens.length ∧ (suffixes nested start (fuel + 1) e').Leads tokens rest fun q =>
      ∃ e₂', e₂'.bare = e₂.bare ∧ q = suffixes nested start fuel e₂'

theorem atom_chains (hatom : isAtom e = true) (hshape : e.wellShaped = true)
    (hchildren : ∀ child ∈ e.children, ReadsExpr nested fuel child) : Chains nested fuel e := by
  intro tokens rest start h hfuel
  obtain ⟨t, tokens', htokens, -⟩ := (opens_expr e hshape).1.head h
  refine (atom_yields hatom hshape hchildren h hfuel).bind_last fun e' he' => leads_nothing ?_
  exact ⟨e', fuel, he', by rw [htokens, List.length_cons]; omega, rfl⟩

theorem Chains.extend {e e₂ : Expr} {L : Language Symbol} (h : Chains nested fuel e)
    (hstep : Extends nested fuel L e e₂) (hwrite : e₂.write lenient = e.write lenient * L) :
    Chains nested fuel e₂ := by
  intro tokens rest start hspelled hfuel
  rw [hwrite] at hspelled
  obtain ⟨front, back, rfl, hfront, hback⟩ := spelled_mul.1 hspelled
  rw [List.length_append] at hfuel
  -- At most the length of the front was spent, so that a step is left for the tokens behind it.
  refine (h front (back ++ rest) start hfront (by omega)).trans fun q hq => ?_
  obtain ⟨e', fuel', he', hlt, rfl⟩ := hq
  obtain ⟨fuel', rfl⟩ : ∃ n, fuel' = n + 1 := ⟨fuel' - 1, by omega⟩
  obtain ⟨hpos, hleads⟩ := hstep back rest start fuel' e' hback (by omega) (by omega) he'
  refine hleads.mono fun q hq => ?_
  obtain ⟨e₂', he₂, rfl⟩ := hq
  exact ⟨e₂', fuel', he₂, by rw [List.length_append]; omega, rfl⟩

theorem extends_member {object : Expr} {member : Ident} :
    Extends nested fuel (lenient.kind .dot * lenient.name member) object
      (.get m object member) := by
  intro tokens rest start fuel' object' h hbound hfuel hobject
  obtain ⟨t₁, tokens₁, rfl, ht₁, h⟩ := spelled_kind_mul h
  obtain ⟨t₂, rfl, ht₂, hvalue⟩ := spelled_name h
  rw [suffixes]
  refine ⟨Nat.succ_pos _, leads_cursor fun c hc => ?_⟩
  rw [current_of_head hc rfl, ht₁]
  refine leads_advance (ht₁ ▸ by decide) (leads_ident ht₂ hvalue fun member' hmember => ?_)
  refine leads_finish fun mark => leads_nothing ⟨_, ?_, rfl⟩
  rw [Expr.bare, Expr.bare, hobject, hmember]

theorem extends_index {object index : Expr} (hindex : ReadsExpr nested fuel index) :
    Extends nested fuel
      (lenient.kind .lBracket * (index.write lenient * lenient.kind .rBracket)) object
      (.subscript m object index) := by
  intro tokens rest start fuel' object' h hbound hfuel hobject
  obtain ⟨t₁, tokens₁, rfl, ht₁, h⟩ := spelled_kind_mul h
  obtain ⟨tokens₂, last, rfl, htokens₂, hlast⟩ := spelled_mul.1 h
  obtain ⟨t₃, rfl, ht₃⟩ := spelled_kind hlast
  simp only [List.length_cons, List.length_append] at hbound
  rw [suffixes]
  refine ⟨Nat.succ_pos _, leads_cursor fun c hc => ?_⟩
  rw [current_of_head hc rfl, ht₁]
  refine leads_advance (ht₁ ▸ by decide) ?_
  refine (hindex _ _ htokens₂ (by omega) (closes_cons ht₃ (by decide))).bind
    fun index' hindex' => ?_
  refine leads_expect ht₃ (by decide) (leads_finish fun mark => leads_nothing ⟨_, ?_, rfl⟩)
  rw [Expr.bare, Expr.bare, hobject, hindex']

theorem arguments_yields {args : List Expr} {bound : Nat}
    (h : Spelled tokens (lenient.enclosed .lParen .rParen (Expr.writeAll lenient args)))
    (hargs : ∀ e ∈ args, e.wellShaped = true ∧ ReadsExpr nested bound e)
    (hbound : tokens.length ≤ bound) (hfuel : tokens.length ≤ fuel) :
    ∃ t tokens', tokens = t :: tokens' ∧ t.kind = .lParen ∧ ∀ rest,
      (arguments nested fuel).Yields tokens rest fun args' =>
        args'.map Expr.bare = args.map Expr.bare := by
  obtain ⟨t, tokens', rfl, ht, hitems⟩ := exprs_yields h hargs (by decide) hbound hfuel
  exact ⟨t, tokens', rfl, ht, fun rest => leads_expect ht (by decide) (hitems rest)⟩

theorem extends_call {callee : Expr} {types : List TypeExpr} {args : List Expr}
    (htypes : types.all TypeExpr.wellShaped = true)
    (hargs : ∀ e ∈ args, e.wellShaped = true ∧ ReadsExpr nested fuel e) :
    Extends nested fuel (lenient.typeArgs (lenient.kind .colon) (TypeExpr.writeAll lenient types) *
      lenient.enclosed .lParen .rParen (Expr.writeAll lenient args)) callee
        (.call m callee types args) := by
  intro tokens rest start fuel' callee' h hbound hfuel hcallee
  obtain ⟨tokens₁, tokens₂, rfl, htokens₁, htokens₂⟩ := spelled_mul.1 h
  rw [List.length_append] at hbound hfuel
  have hlength : tokens₂.length ≤ fuel ∧ tokens₂.length ≤ fuel' := by omega
  obtain ⟨t₂, tokens₂', rfl, ht₂, harguments⟩ := arguments_yields htokens₂ hargs hlength.1 hlength.2
  rw [suffixes]
  have hpos :=
    List.length_pos_of_mem
      (List.mem_append_right tokens₁ (List.mem_cons_self : t₂ ∈ t₂ :: tokens₂'))
  refine ⟨hpos, leads_cursor fun c hc => ?_⟩
  rcases spelled_typeArgs htokens₁ with ⟨rfl, rfl⟩ | htokens₁
  · rw [current_of_head hc rfl, ht₂]
    refine (harguments rest).bind_last fun args' hargs' => leads_finish fun mark =>
      leads_nothing ⟨_, ?_, rfl⟩
    simp only [Expr.bare, hcallee, Expr.bareAll_eq_map, hargs']
  · obtain ⟨t₁, tokens₁', rfl, ht₁, htokens₁⟩ := spelled_kind_mul htokens₁
    rw [List.length_cons] at hbound hfuel
    obtain ⟨t₃, tokens₃, rfl, ht₃, htypeArgs⟩ := typeArgs_yields htokens₁
      (fun t ht => typeExpr_yields t (List.all_eq_true.1 htypes t ht) fuel') (by omega)
    rw [current_of_head hc rfl, ht₁]
    -- The colon belongs to the call because a bracket follows it.
    have hpeek : c.peekIs .lBracket = true := by
      unfold Cursor.peekIs
      rw [hc]
      simp [ht₃]
    dsimp only
    rw [if_pos hpeek]
    refine leads_advance (ht₁ ▸ by decide) ((htypeArgs _).bind fun types' htypes' => ?_)
    refine (harguments rest).bind_last fun args' hargs' => leads_finish fun mark =>
      leads_nothing ⟨_, ?_, rfl⟩
    simp only [Expr.bare, hcallee, Expr.bareAll_eq_map, TypeExpr.bareAll_eq_map, hargs', htypes']

/-- Behind an operand the loop stops in front of the tokens that end it. -/
theorem suffixes_yields {e e' : Expr} {level : Nat} (hfuel : 0 < fuel) (he : e'.bare = e.bare)
    (hrest : Stops level rest) :
    (suffixes nested start fuel e').Yields [] rest fun e' => e'.bare = e.bare := by
  obtain ⟨fuel, rfl⟩ := Nat.exists_eq_add_one.2 hfuel
  obtain ⟨t, rest, rfl, ht, -⟩ := hrest
  simp only [List.mem_cons, List.not_mem_nil, or_false, not_or] at ht
  rw [suffixes]
  refine leads_cursor fun c hc => ?_
  rw [current_of_head hc rfl]
  split
  · exact absurd ‹_› ht.1
  · exact absurd ‹_› ht.2.1
  · exact absurd ‹_› ht.2.2.1
  · exact absurd ‹_› ht.2.2.2
  · exact yields_pure he

end Operands

/-! ## Operators -/

section Operators

variable {nested : Nat → Parse Expr} {m : Mark}

/-- An expression is read at each level up to its own from each of its spellings of limited
length. -/
def ReadsAt (nested : Nat → Parse Expr) (bound : Nat) (e : Expr) : Prop :=
  ∀ tokens rest level, Spelled tokens (e.write lenient) → tokens.length < bound → level ≤ e.level →
    Stops level rest → (nested level).Yields tokens rest fun e' => e'.bare = e.bare

/-- Reading a spelling leads into the loop that takes in operators, with the whole tree as the left
operand. At most as much fuel as there are tokens was spent. -/
def Climbs (nested : Nat → Parse Expr) (fuel : Nat) (e : Expr) : Prop :=
  ∀ tokens rest start level, Spelled tokens (e.write lenient) → tokens.length ≤ fuel →
  level ≤ e.level →
    Stops (e.level + 1) rest →
    (operand nested fuel >>= climb nested start level fuel).Leads tokens rest fun q =>
      ∃ e' fuel', e'.bare = e.bare ∧ fuel < fuel' + tokens.length ∧
      q = climb nested start level fuel' e'

theorem ReadsAt.readsExpr (h : ReadsAt nested fuel e) : ReadsExpr (nested 1) fuel e :=
  fun tokens rest hspelled hfuel hrest =>
    h tokens rest 1 hspelled hfuel e.level_pos (Closes.stops hrest 1)

/-- The loop stops in front of the tokens that end an expression of the level. -/
theorem climb_yields {e e' : Expr} {level : Nat} (hfuel : 0 < fuel) (he : e'.bare = e.bare)
    (hrest : Stops level rest) :
    (climb nested start level fuel e').Yields [] rest fun e' => e'.bare = e.bare := by
  obtain ⟨fuel, rfl⟩ := Nat.exists_eq_add_one.2 hfuel
  obtain ⟨t, rest, rfl, -, hop⟩ := hrest
  rw [climb]
  refine leads_current (t := t) rfl ?_
  cases hkind : InfixOp.ofKind? t.kind with
  | none => exact yields_pure he
  | some op =>
    dsimp only
    rw [if_pos (hop op hkind)]
    exact yields_pure he

theorem ReadsAt.of_climbs (h : ∀ fuel, Climbs (expr fuel) fuel e) (fuel : Nat) :
    ReadsAt (expr fuel) fuel e := by
  intro tokens rest level hspelled hfuel hlevel hrest
  obtain ⟨fuel, rfl⟩ := Nat.exists_eq_succ_of_ne_zero (Nat.ne_zero_of_lt hfuel)
  have hlength := Nat.le_of_lt_succ hfuel
  have hstops : Stops (e.level + 1) rest := hrest.mono (by omega)
  rw [expr]
  refine leads_here fun start => ?_
  refine (h fuel tokens rest start level hspelled hlength hlevel hstops).trans_last fun q hq => ?_
  obtain ⟨e', fuel', he', hlt, rfl⟩ := hq
  exact climb_yields (by omega) he' hrest

/-- What is an operand on its own is the first left operand. -/
theorem Climbs.of_operand (hshape : e.wellShaped = true)
    (h : ∀ tokens rest, Spelled tokens (e.write lenient) → tokens.length ≤ fuel →
      Stops (e.level + 1) rest →
      (operand nested fuel).Yields tokens rest fun e' => e'.bare = e.bare) :
    Climbs nested fuel e := by
  intro tokens rest start level hspelled hfuel hlevel hrest
  obtain ⟨t, tokens', htokens, -⟩ := (opens_expr e hshape).1.head hspelled
  refine (h tokens rest hspelled hfuel hrest).bind_last fun e' he' => leads_nothing ?_
  exact ⟨e', fuel, he', by rw [htokens, List.length_cons]; omega, rfl⟩

theorem Climbs.of_chains (hshape : e.wellShaped = true) (hlevel : e.level = 9)
    (h : Chains (nested 1) fuel e) : Climbs nested fuel e := by
  refine Climbs.of_operand hshape fun tokens rest hspelled hfuel hrest => ?_
  obtain ⟨t, tokens', htokens, ht⟩ := ((opens_expr e hshape).2 hlevel).head hspelled
  -- The first token is no operator, so that the operand is read without one.
  have hnone : ∀ kind ∈ primaryKinds, unaryOp? kind = none := by decide
  unfold operand
  refine leads_here fun start => leads_current (t := t) (by rw [htokens]; rfl) ?_
  rw [hnone _ ht]
  refine (h tokens rest start hspelled hfuel).trans_last fun q hq => ?_
  obtain ⟨e', fuel', he', hlt, rfl⟩ := hq
  exact suffixes_yields (by omega) he' hrest

theorem climbs_unary {op : UnaryOp} {inner : Expr}
    (hshape : (Expr.unary m op inner).wellShaped = true)
    (hinner : ReadsAt nested fuel inner) : Climbs nested fuel (.unary m op inner) := by
  obtain ⟨hlevel, -⟩ := Expr.wellShaped_unary.1 hshape
  refine Climbs.of_operand hshape fun tokens rest hspelled hfuel hrest => ?_
  obtain ⟨t, tokens', rfl, ht, hspelled⟩ := spelled_kind_mul hspelled
  have heof : t.kind ≠ .eof := by
    rw [ht]
    cases op <;> decide
  unfold operand
  refine leads_here fun start => leads_current (t := t) rfl ?_
  rw [unaryOp?_eq_some_iff.2 ht]
  refine leads_advance heof ?_
  -- Operators between operands all have lower levels, so that any of them ends the operand.
  have hstops : Stops unaryLevel rest := by
    obtain ⟨t', rest, rfl, ht', -⟩ := hrest
    exact ⟨t', rest, rfl, ht', fun op _ => op.level_lt_unaryLevel⟩
  refine (hinner _ _ unaryLevel hspelled hfuel hlevel hstops).bind_last fun inner' hinner' => ?_
  exact node_yields fun mark => by rw [Expr.bare, Expr.bare, hinner']

theorem InfixOp.bare_build {op : InfixOp} {m m' : Mark} {left left' right right' : Expr}
    (hleft : left'.bare = left.bare) (hright : right'.bare = right.bare) :
    (op.build m' left' right').bare = (op.build m left right).bare := by
  cases op <;> simp only [InfixOp.build, Expr.bare, hleft, hright]

/-- With an operator and its right operand, the loop goes on with all of it as the left operand. -/
theorem climbs_build (op : InfixOp) {left right : Expr}
    (hshape : (op.build m left right).wellShaped = true) (hleft : Climbs nested fuel left)
    (hright : ReadsAt nested fuel right) :
    Climbs nested fuel (op.build m left right) := by
  obtain ⟨hle, hlt, -, -⟩ := InfixOp.wellShaped_build.1 hshape
  intro tokens rest start level hspelled hfuel hlevel hrest
  rw [InfixOp.write_build, mul_assoc] at hspelled
  rw [InfixOp.level_build] at hlevel hrest
  obtain ⟨front, back, rfl, hfront, hback⟩ := spelled_mul.1 hspelled
  obtain ⟨t, back, rfl, ht, hback⟩ := spelled_kind_mul hback
  have hop : InfixOp.ofKind? t.kind = some op := InfixOp.ofKind?_eq_some_iff.2 ht
  simp only [List.length_append, List.length_cons] at hfuel
  -- The operator ends the left operand: it does not bind tighter than the operators in there.
  have hstops : Stops (left.level + 1) (t :: back ++ rest) := by
    refine ⟨t, back ++ rest, rfl, ?_, fun op' hop' => ?_⟩
    · rw [ht]
      cases op with
      | range => decide
      | binary op => cases op <;> decide
    · obtain rfl := Option.some.inj (hop.symm.trans hop')
      omega
  refine (hleft front _ start level hfront (by omega) (by omega) hstops).trans fun q hq => ?_
  obtain ⟨left', fuel', hleft', hspent, rfl⟩ := hq
  obtain ⟨fuel', rfl⟩ : ∃ n, fuel' = n + 1 := ⟨fuel' - 1, by omega⟩
  rw [climb]
  refine leads_current (t := t) rfl ?_
  rw [hop]
  dsimp only
  rw [if_neg (Nat.not_lt.2 hlevel)]
  refine leads_advance (fun heof => ?_) ?_
  · rw [heof] at hop
    cases hop
  -- The right operand is read one level higher, so that it ends where the whole tree ends.
  refine (hright back rest (op.level + 1) hback (by omega) hlt hrest).bind_last
    fun right' hright' => ?_
  refine leads_finish fun mark =>
    leads_nothing ⟨_, fuel', InfixOp.bare_build hleft' hright', ?_, rfl⟩
  simp only [List.length_append, List.length_cons]
  omega

/-- Each expression that can be written leads, from each of its spellings, into the loops with
itself as the operand so far. -/
theorem expr_climbs (e : Expr) (hshape : e.wellShaped = true) (fuel : Nat) :
    (e.level = 9 → Chains (expr fuel 1) fuel e) ∧ Climbs (expr fuel) fuel e := by
  induction e using Expr.induction_on_children generalizing fuel with
  | step e ih =>
    have hchildren (child : Expr) (h : child ∈ e.children) :=
      ih child h ((Expr.wellShaped_iff.1 hshape).2 child h)
    -- Children are read by `expr` itself, one deeper, and `ReadsAt` has them at any level they
    -- allow.
    have hat (child : Expr) (h : child ∈ e.children) : ReadsAt (expr fuel) fuel child :=
      ReadsAt.of_climbs (fun fuel => (hchildren child h fuel).2) fuel
    have hwhole (child : Expr) (h : child ∈ e.children) : ReadsExpr (expr fuel 1) fuel child :=
      (hat child h).readsExpr
    -- A tree of the highest level is an operand with what stands behind it.
    have hchain (h : Chains (expr fuel 1) fuel e) (hlevel : e.level = 9) :
        (e.level = 9 → Chains (expr fuel 1) fuel e) ∧ Climbs (expr fuel) fuel e :=
      ⟨fun _ => h, .of_chains hshape hlevel h⟩
    cases e with
    | binary mark op left right =>
      have hleft := (hchildren left List.mem_cons_self fuel).2
      have hright := hat right (List.mem_cons_of_mem left List.mem_cons_self)
      refine ⟨fun h => ?_, climbs_build (.binary op) hshape hleft hright⟩
      cases op <;> cases h
    | range mark first last =>
      have hfirst := (hchildren first List.mem_cons_self fuel).2
      have hlast := hat last (List.mem_cons_of_mem first List.mem_cons_self)
      exact ⟨nofun, climbs_build .range hshape hfirst hlast⟩
    | unary mark op operand => exact ⟨nofun, climbs_unary hshape (hat operand List.mem_cons_self)⟩
    | call mark callee types args =>
      obtain ⟨hlevel, -, htypes, hargs⟩ := Expr.wellShaped_call.1 hshape
      have hcallee := (hchildren callee List.mem_cons_self fuel).1 hlevel
      exact hchain (hcallee.extend (extends_call htypes fun e he =>
        ⟨List.all_eq_true.1 hargs e he, hwhole e (List.mem_cons_of_mem callee he)⟩)
          (mul_assoc _ _ _)) rfl
    | get mark object member =>
      have hobject := (hchildren object List.mem_cons_self fuel).1 (Expr.wellShaped_get.1 hshape).1
      exact hchain (hobject.extend extends_member (mul_assoc _ _ _)) rfl
    | subscript mark object index =>
      have hobject :=
        (hchildren object List.mem_cons_self fuel).1 (Expr.wellShaped_subscript.1 hshape).1
      have hindex := hwhole index (List.mem_cons_of_mem object List.mem_cons_self)
      exact hchain
        (hobject.extend (extends_index hindex) (by rw [Expr.write, mul_assoc, mul_assoc])) rfl
    | number | string | bool | ident | null | zero | group | new | staticArray =>
      exact hchain (atom_chains rfl hshape hwhole) rfl

/-- An expression that can be written is read from each of its spellings. -/
theorem expr_yields (e : Expr) (hshape : e.wellShaped = true) (fuel : Nat) :
    ReadsExpr (expr fuel 1) fuel e :=
  (ReadsAt.of_climbs (fun fuel => (expr_climbs e hshape fuel).2) fuel).readsExpr

end Operators

end Grammar

end Custody
