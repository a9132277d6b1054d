import Custody.Proofs.FileReadings
import Custody.Proofs.SpelledExprs

/-!
# What was written is read back

A file that can be written is read from each of its spellings, with spans and numbers of its own.

A statement is followed by another one or by the end of its block. Only an `if` looks at what
follows it, and no statement starts with `else`.
-/

set_option autoImplicit false

namespace Custody

open Style Parse

namespace Grammar

variable {tokens rest : List Token} {t : Token} {fuel bound : Nat} {m : Mark}

/-! ## Statements and blocks -/

/-- What a statement starts with. -/
def stmtKinds : List TokenKind :=
  exprKinds ++ [.kwLet, .lBrace, .kwReturn, .kwBreak, .kwContinue, .kwIf, .kwFor]

theorem opens_block (b : Block) : Opens [.lBrace] (b.write lenient) := by
  cases b with
  | mk span stmts => exact opens_mul (opens_mul (opens_symbol (List.mem_singleton.2 rfl) _))

/-- The token that a statement starts with, unless it starts with an expression. -/
def leadingKind? : Stmt → Option TokenKind
  | .importDecl _ _ => some .kwImport
  | .structDecl _ _ => some .kwStruct
  | .fnDecl _ _ _ => some .kwFn
  | .letDecl _ _ _ _ => some .kwLet
  | .scope _ _ => some .lBrace
  | .returnStmt _ _ => some .kwReturn
  | .breakStmt _ => some .kwBreak
  | .continueStmt _ => some .kwContinue
  | .forEach _ _ _ _ => some .kwFor
  | .forCounted _ _ _ _ _ => some .kwFor
  | .ifElse _ _ _ _ => some .kwIf
  | .assign _ _ _ => none
  | .expr _ _ => none

theorem opens_leadingKind {s : Stmt} {kind : TokenKind} (h : leadingKind? s = some kind) :
    Opens [kind] (s.write lenient) := by
  have hkind : kind ∈ [kind] := List.mem_singleton.2 rfl
  cases s with
  | assign | expr => cases h
  | scope mark body =>
    obtain rfl := Option.some.inj h
    exact opens_block body
  | breakStmt | continueStmt =>
    obtain rfl := Option.some.inj h
    exact opens_mul (opens_symbol hkind _)
  | returnStmt =>
    obtain rfl := Option.some.inj h
    exact opens_mul (opens_mul (opens_symbol hkind _))
  | importDecl | structDecl | ifElse =>
    obtain rfl := Option.some.inj h
    exact opens_mul (opens_mul (opens_mul (opens_symbol hkind _)))
  | forEach =>
    obtain rfl := Option.some.inj h
    exact opens_mul (opens_mul (opens_mul (opens_mul (opens_symbol hkind _))))
  | fnDecl | forCounted =>
    obtain rfl := Option.some.inj h
    exact opens_mul (opens_mul (opens_mul (opens_mul (opens_mul (opens_symbol hkind _)))))
  | letDecl =>
    obtain rfl := Option.some.inj h
    exact opens_mul
      (opens_mul (opens_mul (opens_mul (opens_mul (opens_mul (opens_symbol hkind _))))))

theorem opens_effect {s : Stmt} (heffect : s.isEffect = true) (hshape : s.wellShaped = true) :
    Opens exprKinds (s.write lenient) := by
  cases s with
  | assign mark target value =>
    rw [Stmt.wellShaped, Bool.and_eq_true] at hshape
    exact opens_mul (opens_mul (opens_mul (opens_expr target hshape.1).1))
  | expr mark value => exact opens_mul (opens_expr value hshape).1
  | _ => cases heffect

theorem opens_stmt {s : Stmt} (hshape : s.wellShaped = true) :
    Opens stmtKinds (s.write lenient) := by
  have hleading {kind : TokenKind} (h : leadingKind? s = some kind) (hkind : kind ∈ stmtKinds) :
      Opens stmtKinds (s.write lenient) :=
    (opens_leadingKind h).mono fun _ h => List.mem_singleton.1 h ▸ hkind
  cases s with
  | importDecl | structDecl | fnDecl => cases hshape
  | assign | expr => exact (opens_effect rfl hshape).mono fun _ h => List.mem_append_left _ h
  | _ => exact hleading rfl (by decide)

/-- The tokens do not go on with an `else`. -/
def NoElse (tokens : List Token) : Prop := ∃ t rest, tokens = t :: rest ∧ t.kind ≠ .kwElse

/-- A statement is read from each of its spellings of limited length. -/
def ReadsStmt (reader : Parse Stmt) (bound : Nat) (s : Stmt) : Prop :=
  ∀ tokens rest, Spelled tokens (s.write lenient) → tokens.length < bound → NoElse rest →
    reader.Yields tokens rest fun s' => s'.bare = s.bare

/-- A block is read from each of its spellings of limited length. -/
def ReadsBlock (reader : Parse Block) (bound : Nat) (b : Block) : Prop :=
  ∀ tokens rest, Spelled tokens (b.write lenient) → tokens.length ≤ bound →
    reader.Yields tokens rest fun b' => b'.bare = b.bare

/-- Statements that are each read from their spellings are read one behind the other. -/
theorem stmts_yields {reader : Parse Stmt} {ss : List Stmt}
    (h : Spelled tokens (Stmt.writeAll lenient ss))
    (hss : ∀ s ∈ ss, s.wellShaped = true ∧ ReadsStmt reader bound s)
    (hbound : tokens.length < bound) (hfuel : tokens.length < fuel) (ht : t.kind = .rBrace) :
    (stmts reader fuel).Yields tokens (t :: rest) fun ss' =>
      Stmt.bareAll ss' = Stmt.bareAll ss := by
  induction ss generalizing tokens fuel with
  | nil =>
    obtain ⟨fuel, rfl⟩ := Nat.exists_eq_succ_of_ne_zero (Nat.ne_zero_of_lt hfuel)
    obtain rfl := spelled_one.1 h
    rw [stmts]
    refine leads_end (t := t) rfl (by decide) ?_
    rw [ht]
    exact yields_pure rfl
  | cons s ss ih =>
    obtain ⟨fuel, rfl⟩ := Nat.exists_eq_succ_of_ne_zero (Nat.ne_zero_of_lt hfuel)
    obtain ⟨front, back, rfl, hfront, hback⟩ := spelled_mul.1 h
    obtain ⟨hshape, hs⟩ := hss s List.mem_cons_self
    obtain ⟨first, front', hfront', hfirst⟩ := (opens_stmt hshape).head hfront
    have hpos : 0 < front.length := by rw [hfront']; exact Nat.succ_pos _
    rw [List.length_append] at hfuel hbound
    -- Behind the statement there is another one, or the end of the block.
    have hrest : NoElse (back ++ t :: rest) := by
      cases ss with
      | nil =>
        obtain rfl := spelled_one.1 hback
        exact ⟨t, rest, rfl, ht ▸ by decide⟩
      | cons s₂ ss =>
        obtain ⟨next, back', rfl, hnext⟩ :=
          (opens_mul (opens_stmt (hss s₂ (List.mem_cons_of_mem s List.mem_cons_self)).1)).head hback
        exact ⟨next, _, rfl, fun heq => absurd (heq ▸ hnext) (by decide)⟩
    have hss' : (stmts reader fuel).Yields back (t :: rest) fun ss' =>
      Stmt.bareAll ss' = Stmt.bareAll ss :=
      ih hback (fun s' hs' => hss s' (List.mem_cons_of_mem s hs')) (by omega) (by omega)
    rw [stmts]
    refine leads_end (t := first) (by rw [hfront']; rfl) (by decide) ?_
    have hgoes : (first.kind == .rBrace || first.kind == .eof) = false := by
      rw [Bool.or_eq_false_iff, beq_eq_false_iff_ne, beq_eq_false_iff_ne]
      exact ⟨fun heq => absurd (heq ▸ hfirst) (by decide),
        fun heq => absurd (heq ▸ hfirst) (by decide)⟩
    rw [hgoes]
    refine (hs front _ hfront (by omega) hrest).bind fun s' hs' => ?_
    refine hss'.bind_last fun ss' hss' => yields_pure ?_
    rw [Stmt.bareAll, Stmt.bareAll, hs', hss']

theorem block_yields {reader : Parse Stmt} {b : Block} (hshape : b.wellShaped = true)
    (h : ∀ s ∈ b.stmts, s.wellShaped = true → ReadsStmt reader fuel s) :
    ReadsBlock (block reader fuel) fuel b := by
  have hstmts (s : Stmt) (hs : s ∈ b.stmts) : s.wellShaped = true ∧ ReadsStmt reader fuel s :=
    have hwell := Block.wellShaped_iff.1 hshape s hs
    ⟨hwell, h s hs hwell⟩
  intro tokens rest hspelled hfuel
  cases b with
  | mk span ss =>
    rw [Block.write, mul_assoc] at hspelled
    obtain ⟨t₁, tokens₁, rfl, ht₁, hspelled⟩ := spelled_kind_mul hspelled
    obtain ⟨tokens₂, last, rfl, htokens₂, hlast⟩ := spelled_mul.1 hspelled
    obtain ⟨t₃, rfl, ht₃⟩ := spelled_kind hlast
    simp only [List.length_cons, List.length_append] at hfuel
    have hss : (stmts reader fuel).Yields tokens₂ (t₃ :: rest) fun ss' =>
        Stmt.bareAll ss' = Stmt.bareAll ss :=
      stmts_yields htokens₂ hstmts (by omega) (by omega) ht₃
    refine leads_expect ht₁ (by decide) (hss.bind fun ss' hss' => ?_)
    refine leads_expect ht₃ (by decide) (yields_pure ?_)
    rw [Block.bare, Block.bare, hss']

/-! ## Statements without blocks -/

/-- A `let` is read up to its semicolon. -/
theorem binding_yields {name : Ident} {type : Option TypeExpr} {init : Expr}
    (h : Spelled tokens ((Stmt.letDecl m name type init).write lenient))
    (hshape : (Stmt.letDecl m name type init).wellShaped = true) (hfuel : tokens.length ≤ fuel) :
    ∃ first front t, tokens = first :: front ++ [t] ∧ first.kind = .kwLet ∧
      t.kind = .semicolon ∧ ∀ rest, (binding fuel).Yields (first :: front) (t :: rest) fun b =>
        b.1.bare = name.bare ∧ b.2.1.map TypeExpr.bare = type.map TypeExpr.bare ∧
          b.2.2.bare = init.bare := by
  rw [Stmt.wellShaped, Bool.and_eq_true] at hshape
  obtain ⟨front, last, rfl, hfront, hlast⟩ := spelled_mul.1 h
  obtain ⟨t, rfl, ht⟩ := spelled_kind hlast
  simp only [mul_assoc] at hfront
  obtain ⟨t₁, tokens₁, rfl, ht₁, hfront⟩ := spelled_kind_mul hfront
  obtain ⟨t₂, tokens₂, rfl, ht₂, hvalue, hfront⟩ := spelled_name_mul hfront
  obtain ⟨t₃, tokens₃, rfl, ht₃, hfront⟩ := spelled_kind_mul hfront
  obtain ⟨tokens₄, tokens₅, rfl, htokens₄, hfront⟩ := spelled_mul.1 hfront
  obtain ⟨t₅, tokens₆, rfl, ht₅, hfront⟩ := spelled_kind_mul hfront
  simp only [List.length_cons, List.length_append] at hfuel
  refine ⟨t₁, _, t, rfl, ht₁, ht, fun rest => ?_⟩
  refine leads_expect ht₁ (by decide) (leads_ident ht₂ hvalue fun name' hname => ?_)
  refine leads_expect ht₃ (by decide) ?_
  -- The type may be missing; then `=` stands right behind the colon.
  have htype : ∀ type₁ ∈ type,
      (typeExpr fuel).Yields tokens₄ (t₅ :: tokens₆ ++ t :: rest) fun type' =>
      type'.bare = type₁.bare := by
    rintro type₁ rfl
    exact typeExpr_yields type₁ hshape.1 fuel _ _ htokens₄ (by omega) (closes_cons ht₅ (by decide))
  refine leads_optional htokens₄ (fun type _ => opens_typeKinds type) ht₅ (by decide)
    (by decide) htype
    fun type' htype' => leads_expect ht₅ (by decide) ?_
  exact (expr_yields init hshape.2 fuel _ _ hfront (by omega)
    (closes_cons ht (by decide))).bind_last
    fun init' hinit => yields_pure ⟨hname, htype', hinit⟩

theorem letStmt_yields {name : Ident} {type : Option TypeExpr} {init : Expr}
    (h : Spelled tokens ((Stmt.letDecl m name type init).write lenient))
    (hshape : (Stmt.letDecl m name type init).wellShaped = true) (hfuel : tokens.length ≤ fuel) :
    (letStmt fuel).Yields tokens rest fun s' => s'.bare = (Stmt.letDecl m name type init).bare := by
  obtain ⟨first, front, t, rfl, -, ht, hbinding⟩ := binding_yields h hshape hfuel
  refine leads_here fun start => (hbinding rest).bind fun b hb => ?_
  refine leads_expect ht (by decide) (node_yields fun mark => ?_)
  rw [Stmt.bare, Stmt.bare, hb.1, hb.2.1, hb.2.2]

/-- An assignment or an expression is read up to its end. -/
theorem effect_yields {s : Stmt} (heffect : s.isEffect = true) (hshape : s.wellShaped = true)
    (h : Spelled tokens (s.writeEffect lenient)) (hfuel : tokens.length < fuel)
    (ht : t.kind ∈ [.semicolon, .lBrace]) :
    (effect fuel).Yields tokens (t :: rest) fun node => ∀ mark, (node mark).bare = s.bare := by
  have hclosers : ∀ kind ∈ [TokenKind.semicolon, .lBrace], kind ∈ closers := by decide
  have hcloses : Closes (t :: rest) := ⟨t, rest, rfl, hclosers _ ht⟩
  cases s with
  | assign mark target value =>
    rw [Stmt.wellShaped, Bool.and_eq_true] at hshape
    rw [Stmt.writeEffect, mul_assoc] at h
    obtain ⟨tokens₁, tokens₂, rfl, htokens₁, h⟩ := spelled_mul.1 h
    obtain ⟨t₂, tokens₃, rfl, ht₂, h⟩ := spelled_kind_mul h
    simp only [List.length_cons, List.length_append] at hfuel
    refine (expr_yields target hshape.1 fuel _ _ htokens₁ (by omega)
      (closes_cons ht₂ (by decide))).bind
      fun target' htarget => leads_check (t := t₂) rfl (by decide) ?_
    rw [ht₂]
    refine leads_advance (ht₂ ▸ by decide) ?_
    refine (expr_yields value hshape.2 fuel _ _ h (by omega) hcloses).bind_last
      fun value' hvalue => ?_
    exact yields_pure fun mark => by rw [Stmt.bare, Stmt.bare, htarget, hvalue]
  | expr mark value =>
    refine (expr_yields value hshape fuel _ _ h hfuel hcloses).bind_last fun value' hvalue => ?_
    refine leads_check (t := t) rfl (by decide) ?_
    -- What ends an expression here does not make an assignment of it.
    have hno : (t.kind == .eq) = false :=
      beq_eq_false_iff_ne.2 fun heq => absurd (heq ▸ ht) (by decide)
    rw [hno]
    exact yields_pure fun mark => by rw [Stmt.bare, Stmt.bare, hvalue]
  | _ => cases heffect

theorem effectStmt_yields {s : Stmt} (heffect : s.isEffect = true) (hshape : s.wellShaped = true)
    (h : Spelled tokens (s.write lenient)) (hfuel : tokens.length ≤ fuel) :
    (effectStmt fuel).Yields tokens rest fun s' => s'.bare = s.bare := by
  rw [write_of_isEffect heffect] at h
  obtain ⟨front, last, rfl, hfront, hlast⟩ := spelled_mul.1 h
  obtain ⟨t, rfl, ht⟩ := spelled_kind hlast
  simp only [List.length_append, List.length_singleton] at hfuel
  have hnode : (effect fuel).Yields front (t :: rest) fun node =>
    ∀ mark, (node mark).bare = s.bare :=
    effect_yields heffect hshape hfront (by omega) (ht ▸ List.mem_cons_self)
  exact leads_here fun start => hnode.bind fun node hnode =>
    leads_expect ht (by decide) (node_yields hnode)

theorem returnStmt_yields {value : Option Expr}
    (h : Spelled tokens ((Stmt.returnStmt m value).write lenient))
    (hshape : (Stmt.returnStmt m value).wellShaped = true) (hfuel : tokens.length ≤ fuel) :
    (returnStmt fuel).Yields tokens rest fun s' => s'.bare = (Stmt.returnStmt m value).bare := by
  rw [Stmt.write, mul_assoc] at h
  obtain ⟨t₁, tokens₁, rfl, ht₁, h⟩ := spelled_kind_mul h
  obtain ⟨tokens₂, last, rfl, htokens₂, hlast⟩ := spelled_mul.1 h
  obtain ⟨t₃, rfl, ht₃⟩ := spelled_kind hlast
  simp only [List.length_cons, List.length_append] at hfuel
  have hwell : ∀ e ∈ value, e.wellShaped = true := by
    rintro e rfl
    exact hshape
  have hvalue : ∀ e ∈ value, (expr fuel 1).Yields tokens₂ ([t₃] ++ rest) fun e' =>
    e'.bare = e.bare := by
    rintro e rfl
    exact expr_yields e hshape fuel _ _ htokens₂ (by omega) (closes_cons ht₃ (by decide))
  refine leads_here fun start => leads_advance (ht₁ ▸ by decide) ?_
  refine leads_optional htokens₂ (fun e he => (opens_expr e (hwell e he)).1) ht₃ (by decide)
    (by decide) hvalue
    fun value' hvalue' => leads_expect ht₃ (by decide) (node_yields fun mark => ?_)
  rw [Stmt.bare, Stmt.bare, hvalue']

theorem wordStmt_yields {kind : TokenKind} {node : Mark → Stmt} {s : Stmt}
    (h : Spelled tokens (lenient.kind kind * lenient.kind .semicolon)) (hkind : kind ≠ .eof)
    (hnode : ∀ mark, (node mark).bare = s.bare) :
    (wordStmt node).Yields tokens rest fun s' => s'.bare = s.bare := by
  obtain ⟨t₁, tokens₁, rfl, ht₁, h⟩ := spelled_kind_mul h
  obtain ⟨t₂, rfl, ht₂⟩ := spelled_kind h
  exact leads_here fun start =>
    leads_advance (ht₁ ▸ hkind) (leads_expect ht₂ (by decide) (node_yields hnode))

/-! ## Statements with blocks -/

section Blocks

variable {body : Parse Block} {cond : Parse Expr}

theorem spelled_block {b : Block} (h : Spelled tokens (b.write lenient)) :
    ∃ t tokens', tokens = t :: tokens' ∧ t.kind = .lBrace := by
  obtain ⟨t, tokens', rfl, ht⟩ := (opens_block b).head h
  exact ⟨t, tokens', rfl, List.mem_singleton.1 ht⟩

theorem scopeStmt_yields {b : Block} (h : Spelled tokens (b.write lenient))
    (hbody : ReadsBlock body fuel b) (hfuel : tokens.length ≤ fuel) :
    (scopeStmt body).Yields tokens rest fun s' => s'.bare = (Stmt.scope m b).bare := by
  refine leads_here fun start => (hbody _ _ h hfuel).bind_last fun b' hb' =>
    node_yields fun mark => ?_
  rw [Stmt.bare, Stmt.bare, hb']

/-- A loop over elements: behind the keyword there is a name and not a `let`. -/
theorem forEach_yields {name : Ident} {iterable : Expr} {b : Block}
    (h : Spelled tokens ((Stmt.forEach m name iterable b).write lenient))
    (hshape : iterable.wellShaped = true) (hbody : ReadsBlock body fuel b)
    (hfuel : tokens.length ≤ fuel) :
    (forStmt body fuel).Yields tokens rest fun s' =>
      s'.bare = (Stmt.forEach m name iterable b).bare := by
  simp only [Stmt.write, mul_assoc] at h
  obtain ⟨t₁, tokens₁, rfl, ht₁, h⟩ := spelled_kind_mul h
  obtain ⟨t₂, tokens₂, rfl, ht₂, hvalue, h⟩ := spelled_name_mul h
  obtain ⟨t₃, tokens₃, rfl, ht₃, h⟩ := spelled_kind_mul h
  obtain ⟨tokens₄, tokens₅, rfl, htokens₄, htokens₅⟩ := spelled_mul.1 h
  obtain ⟨t₅, tokens₆, rfl, ht₅⟩ := spelled_block htokens₅
  simp only [List.length_cons, List.length_append] at hfuel
  refine leads_here fun start =>
    leads_expect ht₁ (by decide) (leads_check (t := t₂) rfl (by decide) ?_)
  rw [ht₂]
  refine leads_ident ht₂ hvalue fun name' hname => leads_expect ht₃ (by decide) ?_
  refine (expr_yields iterable hshape fuel _ _ htokens₄ (by omega)
    (closes_cons ht₅ (by decide))).bind
    fun iterable' hiterable => ?_
  have hlength : (t₅ :: tokens₆).length ≤ fuel := by rw [List.length_cons]; omega
  refine (hbody _ _ htokens₅ hlength).bind_last fun b' hb' => node_yields fun mark => ?_
  rw [Stmt.bare, Stmt.bare, hname, hiterable, hb']

theorem forCounted_yields {init update : Stmt} {condition : Expr} {b : Block}
    (h : Spelled tokens ((Stmt.forCounted m init condition update b).write lenient))
    (hlet : init.isLet = true) (hinit : init.wellShaped = true)
    (hcondition : condition.wellShaped = true) (heffect : update.isEffect = true)
    (hupdate : update.wellShaped = true) (hbody : ReadsBlock body fuel b)
    (hfuel : tokens.length ≤ fuel) :
    (forStmt body fuel).Yields tokens rest fun s' =>
      s'.bare = (Stmt.forCounted m init condition update b).bare := by
  cases init with
  | letDecl mark name type value =>
    rw [Stmt.write, mul_assoc, mul_assoc, mul_assoc, mul_assoc] at h
    obtain ⟨t₁, tokens₁, rfl, ht₁, h⟩ := spelled_kind_mul h
    obtain ⟨tokens₂, tokens₃, rfl, htokens₂, h⟩ := spelled_mul.1 h
    obtain ⟨tokens₄, tokens₅, rfl, htokens₄, h⟩ := spelled_mul.1 h
    obtain ⟨t₅, tokens₆, rfl, ht₅, h⟩ := spelled_kind_mul h
    obtain ⟨tokens₇, tokens₈, rfl, htokens₇, htokens₈⟩ := spelled_mul.1 h
    obtain ⟨t₈, tokens₉, rfl, ht₈⟩ := spelled_block htokens₈
    simp only [List.length_cons, List.length_append] at hfuel
    have hlength : tokens₂.length ≤ fuel := by omega
    obtain ⟨first, front, t₂, rfl, hfirst, ht₂, hbinding⟩ := binding_yields htokens₂ hinit hlength
    refine leads_here fun start =>
      leads_expect ht₁ (by decide) (leads_check (t := first) rfl (by decide) ?_)
    rw [hfirst, List.append_assoc, List.singleton_append]
    refine leads_here fun initStart => (hbinding _).bind fun b hb => leads_finish fun initMark => ?_
    refine leads_expect ht₂ (by decide) ?_
    refine (expr_yields condition hcondition fuel _ _ htokens₄ (by omega)
      (closes_cons ht₅ (by decide))).bind
      fun condition' hcondition' => leads_expect ht₅ (by decide) (leads_here fun updateStart => ?_)
    have hnode : (effect fuel).Yields tokens₇ (t₈ :: tokens₉ ++ rest) fun node =>
        ∀ mark, (node mark).bare = update.bare :=
      effect_yields heffect hupdate htokens₇ (by omega) (by rw [ht₈]; decide)
    refine hnode.bind fun node hnode => leads_finish fun updateMark => ?_
    have hlength : (t₈ :: tokens₉).length ≤ fuel := by rw [List.length_cons]; omega
    refine (hbody _ _ htokens₈ hlength).bind_last fun b' hb' => node_yields fun mark => ?_
    simp only [Stmt.bare, hb.1, hb.2.1, hb.2.2, hcondition', hnode, hb']
  | _ => cases hlet

/-- What follows `else` is read from each of its spellings of limited length. -/
def ReadsBranch (body : Parse Block) (cond : Parse Expr) (bound : Nat) : Stmt → Prop
  | .scope _ b => ReadsBlock body bound b
  | .ifElse m condition thenBlock elseBranch => ∀ tokens rest fuel,
      Spelled tokens ((Stmt.ifElse m condition thenBlock elseBranch).write lenient) →
      tokens.length ≤ bound →
      tokens.length ≤ fuel → NoElse rest → (ifStmt body cond fuel).Yields tokens rest fun s' =>
        s'.bare = (Stmt.ifElse m condition thenBlock elseBranch).bare
  | _ => True

theorem ifStmt_yields {condition : Expr} {thenBlock : Block} {elseBranch : Option Stmt}
    (hcondition : ReadsExpr cond bound condition) (hthen : ReadsBlock body bound thenBlock)
    (helse : ∀ s ∈ elseBranch, s.isBranch = true ∧ ReadsBranch body cond bound s) :
    ReadsBranch body cond bound (.ifElse m condition thenBlock elseBranch) := by
  intro tokens rest fuel h hbound hfuel hrest
  rw [Stmt.write, mul_assoc, mul_assoc] at h
  obtain ⟨t₁, tokens₁, rfl, ht₁, h⟩ := spelled_kind_mul h
  obtain ⟨tokens₂, tokens₃, rfl, htokens₂, h⟩ := spelled_mul.1 h
  obtain ⟨tokens₄, tokens₅, rfl, htokens₄, htokens₅⟩ := spelled_mul.1 h
  obtain ⟨t₄, tokens₄', rfl, ht₄⟩ := spelled_block htokens₄
  simp only [List.length_cons, List.length_append] at hbound hfuel
  obtain ⟨fuel, rfl⟩ : ∃ n, fuel = n + 1 := ⟨fuel - 1, by omega⟩
  rw [ifStmt]
  refine leads_expect ht₁ (by decide) ?_
  refine (hcondition _ _ htokens₂ (by omega) (closes_cons ht₄ (by decide))).bind
    fun condition' hcondition' => ?_
  refine (hthen _ _ htokens₄ (by rw [List.length_cons]; omega)).bind fun then' hthen' => ?_
  cases elseBranch with
  | none =>
    -- Only here it matters that no `else` follows, which would be taken in.
    obtain rfl := spelled_one.1 htokens₅
    obtain ⟨t₅, rest, rfl, ht₅⟩ := hrest
    refine leads_check (t := t₅) rfl (by decide) ?_
    rw [beq_eq_false_iff_ne.2 ht₅]
    refine leads_pure (node_yields fun mark => ?_)
    simp only [Stmt.bare, Stmt.bareElse, hcondition', hthen']
  | some s =>
    obtain ⟨hsort, hbranch⟩ := helse s rfl
    obtain ⟨t₅, tokens₆, rfl, ht₅, htokens₆⟩ := spelled_kind_mul htokens₅
    rw [List.length_cons] at hbound hfuel
    refine leads_check (t := t₅) rfl (by decide) ?_
    rw [ht₅]
    refine leads_advance (ht₅ ▸ by decide) ?_
    cases s with
    | scope mark b =>
      obtain ⟨t₆, tokens₇, rfl, ht₆⟩ := spelled_block htokens₆
      refine leads_check (t := t₆) rfl (by decide) ?_
      rw [ht₆]
      refine leads_here fun elseStart =>
        (hbranch _ _ htokens₆ (by omega)).bind_last fun b' hb' => ?_
      refine leads_finish fun elseMark => leads_pure (node_yields fun mark' => ?_)
      simp only [Stmt.bare, Stmt.bareElse, hcondition', hthen', hb']
    | ifElse mark condition₂ then₂ else₂ =>
      have hif := hbranch tokens₆ rest fuel htokens₆ (by omega) (by omega) hrest
      obtain ⟨t₆, tokens₇, rfl, ht₆⟩ : ∃ t tokens', tokens₆ = t :: tokens' ∧ t.kind = .kwIf := by
        rw [Stmt.write, mul_assoc, mul_assoc] at htokens₆
        obtain ⟨t, tokens', rfl, ht, -⟩ := spelled_kind_mul htokens₆
        exact ⟨t, tokens', rfl, ht⟩
      refine leads_check (t := t₆) rfl (by decide) ?_
      rw [ht₆]
      refine hif.bind_last fun s' hs' => leads_pure (node_yields fun mark' => ?_)
      simp only [Stmt.bare, Stmt.bareElse, hcondition', hthen', hs']
    | _ => cases hsort

end Blocks

/-- A statement that can be written is read from each of its spellings. -/
theorem stmt_yields (s : Stmt) (hshape : s.wellShaped = true) (fuel : Nat) :
    ReadsStmt (stmt fuel) fuel s ∧ ReadsBranch (block (stmt fuel) fuel) (expr fuel 1) fuel s := by
  induction s using Stmt.induction_on_children generalizing fuel with
  | step s ih =>
    have hblock (b : Block) (hwell : b.wellShaped = true) (hchildren : ∀ child ∈ b.stmts,
        child ∈ s.children)
        (fuel : Nat) : ReadsBlock (block (stmt fuel) fuel) fuel b :=
      block_yields hwell fun child hchild hshape =>
        (ih child (hchildren child hchild) hshape fuel).1
    -- An `if` reads the branches behind it with its own reader, so that it is not read as a
    -- statement.
    have hbranch (fuel : Nat) : ReadsBranch (block (stmt fuel) fuel) (expr fuel 1) fuel s := by
      cases s with
      | scope mark b => exact hblock b hshape (fun _ h => h) fuel
      | ifElse mark condition thenBlock elseBranch =>
        simp only [Stmt.wellShaped, Bool.and_eq_true] at hshape
        refine ifStmt_yields (expr_yields condition hshape.1.1 fuel)
          (hblock thenBlock hshape.1.2 (fun _ h => List.mem_append_right _ h) fuel) ?_
        rintro s rfl
        have helse := Bool.and_eq_true_iff.1 hshape.2
        exact ⟨helse.1, (ih s List.mem_cons_self helse.2 fuel).2⟩
      | _ => trivial
    refine ⟨fun tokens rest h hlt hrest => ?_, hbranch fuel⟩
    obtain ⟨fuel, rfl⟩ := Nat.exists_eq_succ_of_ne_zero (Nat.ne_zero_of_lt hlt)
    have hfuel := Nat.le_of_lt_succ hlt
    rw [stmt]
    cases hleading : leadingKind? s with
    | some kind =>
      obtain ⟨t, tokens', htokens, ht⟩ := (opens_leadingKind hleading).head h
      refine leads_current (t := t) (by rw [htokens]; rfl) ?_
      rw [List.mem_singleton.1 ht]
      cases s with
      | importDecl | structDecl | fnDecl => cases hshape
      | assign | expr => cases hleading
      | letDecl => cases hleading; exact letStmt_yields h hshape hfuel
      | scope => cases hleading; exact scopeStmt_yields h (hbranch fuel) hfuel
      | returnStmt => cases hleading; exact returnStmt_yields h hshape hfuel
      | breakStmt | continueStmt =>
        cases hleading
        exact wordStmt_yields h (by decide) fun mark => rfl
      | ifElse => cases hleading; exact hbranch fuel tokens rest fuel h hfuel hfuel hrest
      | forEach mark name iterable b =>
        cases hleading
        rw [Stmt.wellShaped, Bool.and_eq_true] at hshape
        exact forEach_yields h hshape.1 (hblock b hshape.2 (fun _ h => h) fuel) hfuel
      | forCounted mark init condition update b =>
        cases hleading
        simp only [Stmt.wellShaped, Bool.and_eq_true] at hshape
        obtain ⟨⟨⟨⟨⟨hlet, hinit⟩, hcondition⟩, heffect⟩, hupdate⟩, hb⟩ := hshape
        have hb := hblock b hb (fun _ h => List.mem_cons_of_mem _ (List.mem_cons_of_mem _ h)) fuel
        exact forCounted_yields h hlet hinit hcondition heffect hupdate hb hfuel
    | none =>
      have heffect : s.isEffect = true := by
        cases s with
        | assign | expr => rfl
        | _ => cases hleading
      obtain ⟨t, tokens', htokens, ht⟩ := (opens_effect heffect hshape).head h
      refine leads_current (t := t) (by rw [htokens]; rfl) ?_
      -- No expression starts with a token that a statement of another form starts with.
      split
      case h_11 => exact effectStmt_yields heffect hshape h hfuel
      all_goals exact absurd (‹t.kind = _› ▸ ht) (by decide)

/-! ## Declarations -/

theorem generics_yields {names : List Ident} (h : Spelled tokens (lenient.generics names))
    (hfuel : tokens.length ≤ fuel) (ht : t.kind ≠ .lBracket) :
    (generics fuel).Yields tokens (t :: rest) fun names' =>
      names'.map Ident.bare = names.map Ident.bare := by
  cases names with
  | nil =>
    obtain rfl := spelled_one.1 h
    refine leads_check (t := t) rfl (by decide) ?_
    rw [beq_eq_false_iff_ne.2 ht]
    exact yields_pure rfl
  | cons name names =>
    have hident : ∀ name₁ ∈ name :: names, ∀ tokens rest, Spelled tokens (lenient.name name₁) →
        tokens.length < fuel → Closes rest → ident.Yields tokens rest fun name' =>
          name'.bare = name₁.bare := by
      intro name₁ _ tokens rest hspelled _ _
      obtain ⟨t, rfl, ht, hvalue⟩ := spelled_name hspelled
      exact ident_yields ht hvalue
    obtain ⟨t₁, tokens₁, rfl, ht₁, hitems⟩ := itemsTo_yields h hident
      (fun _ _ => opens_symbol (List.mem_singleton.2 rfl) _) (by decide) hfuel hfuel
    refine leads_check (t := t₁) rfl (by decide) ?_
    rw [ht₁]
    refine leads_advance (ht₁ ▸ by decide) ((hitems _).bind_last fun names' hnames => ?_)
    cases names' with
    | nil => cases hnames
    | cons => exact yields_pure hnames

theorem typedName_yields {n : TypedName} (h : Spelled tokens (n.write lenient))
    (hshape : n.type.wellShaped = true) (hfuel : tokens.length ≤ fuel) (hrest : Closes rest) :
    (typedName fuel).Yields tokens rest fun n' => n'.bare = n.bare := by
  rw [TypedName.write, mul_assoc] at h
  obtain ⟨t₁, tokens₁, rfl, ht₁, hvalue, h⟩ := spelled_name_mul h
  obtain ⟨t₂, tokens₂, rfl, ht₂, h⟩ := spelled_kind_mul h
  simp only [List.length_cons] at hfuel
  refine leads_ident ht₁ hvalue fun name' hname => leads_expect ht₂ (by decide) ?_
  refine (typeExpr_yields n.type hshape fuel _ _ h (by omega) hrest).bind_last fun type' htype =>
    yields_pure ?_
  rw [TypedName.bare, TypedName.bare, hname, htype]

theorem typedNames_yields {opening close : TokenKind} {names : List TypedName}
    (h : Spelled tokens (lenient.enclosed opening close (names.map (TypedName.write lenient))))
    (hnames : names.all (·.type.wellShaped) = true) (hclose : EndsList [.identifier] close)
    (hfuel : tokens.length ≤ fuel) :
    ∃ t tokens', tokens = t :: tokens' ∧ t.kind = opening ∧ ∀ rest,
      (itemsTo close (typedName fuel) fuel).Yields tokens' rest fun names' =>
        names'.map TypedName.bare = names.map TypedName.bare :=
  itemsTo_yields h
    (fun n hn _ _ hspelled hlt => typedName_yields hspelled (List.all_eq_true.1 hnames n hn)
      (Nat.le_of_lt hlt))
    (fun _ _ => opens_mul (opens_mul (opens_symbol (List.mem_singleton.2 rfl) _)))
      hclose hfuel hfuel

theorem importDecl_yields {d : ImportDecl}
    (h : Spelled tokens ((Stmt.importDecl m d).write lenient)) :
    ∃ t tokens', tokens = t :: tokens' ∧ t.kind = .kwImport ∧ ∀ rest,
      importDecl.Yields tokens rest fun s' => s'.bare = (Stmt.importDecl m d).bare := by
  rw [Stmt.write, mul_assoc, mul_assoc] at h
  obtain ⟨t₁, tokens₁, rfl, ht₁, h⟩ := spelled_kind_mul h
  obtain ⟨path, tokens₂, rfl, hpath, hback⟩ := spelled_mul.1 h
  obtain ⟨t₂, rfl, ht₂⟩ := spelled_symbol.1 hpath
  obtain ⟨t₃, tokens₃, rfl, ht₃, hvalue, hback⟩ := spelled_name_mul hback
  obtain ⟨t₄, rfl, ht₄⟩ := spelled_kind hback
  refine ⟨t₁, _, rfl, ht₁, fun rest => leads_here fun start => leads_expect ht₁ (by decide) ?_⟩
  refine leads_expect (congrArg Symbol.kind ht₂) (by decide)
    (leads_ident ht₃ hvalue fun name' hname => ?_)
  refine leads_expect ht₄ (by decide) (node_yields fun mark => ?_)
  have hpath : t₂.value = d.path := congrArg Symbol.value ht₂
  rw [Stmt.bare, Stmt.bare, ImportDecl.bare, ImportDecl.bare, hname, hpath]

theorem structDecl_yields {d : StructDecl}
    (h : Spelled tokens ((Stmt.structDecl m d).write lenient))
    (hshape : (Stmt.structDecl m d).wellShapedItem = true) (hfuel : tokens.length ≤ fuel) :
    ∃ t tokens', tokens = t :: tokens' ∧ t.kind = .kwStruct ∧ ∀ rest,
      (structDecl fuel).Yields tokens rest fun s' => s'.bare = (Stmt.structDecl m d).bare := by
  rw [Stmt.write, mul_assoc, mul_assoc] at h
  obtain ⟨t₁, tokens₁, rfl, ht₁, h⟩ := spelled_kind_mul h
  obtain ⟨t₂, tokens₂, rfl, ht₂, hvalue, h⟩ := spelled_name_mul h
  obtain ⟨tokens₃, tokens₄, rfl, htokens₃, htokens₄⟩ := spelled_mul.1 h
  simp only [List.length_cons, List.length_append] at hfuel
  have hlength : tokens₄.length ≤ fuel := by omega
  obtain ⟨t₄, tokens₅, rfl, ht₄, hmembers⟩ := typedNames_yields htokens₄ hshape (by decide) hlength
  refine ⟨t₁, _, rfl, ht₁, fun rest => leads_here fun start => leads_expect ht₁ (by decide) ?_⟩
  refine leads_ident ht₂ hvalue fun name' hname => ?_
  refine (generics_yields htokens₃ (by omega) (ht₄ ▸ by decide)).bind fun generics' hgenerics => ?_
  refine leads_expect ht₄ (by decide) ((hmembers rest).bind_last fun members' hmembers' => ?_)
  refine node_yields fun mark => ?_
  simp only [Stmt.bare, StructDecl.bare, hname, hgenerics, hmembers']

theorem fnDecl_yields {head : FnHead} {b : Block}
    (h : Spelled tokens ((Stmt.fnDecl m head b).write lenient))
    (hshape : (Stmt.fnDecl m head b).wellShapedItem = true) (hfuel : tokens.length ≤ fuel) :
    ∃ t tokens', tokens = t :: tokens' ∧ t.kind = .kwFn ∧ ∀ rest,
      (fnDecl fuel).Yields tokens rest fun s' => s'.bare = (Stmt.fnDecl m head b).bare := by
  rw [Stmt.wellShapedItem, Bool.and_eq_true, Bool.and_eq_true] at hshape
  obtain ⟨⟨hparams, hreturn⟩, hbody⟩ := hshape
  rw [Stmt.write, mul_assoc, mul_assoc, mul_assoc, mul_assoc] at h
  obtain ⟨t₁, tokens₁, rfl, ht₁, h⟩ := spelled_kind_mul h
  obtain ⟨t₂, tokens₂, rfl, ht₂, hvalue, h⟩ := spelled_name_mul h
  obtain ⟨tokens₃, tokens₄, rfl, htokens₃, h⟩ := spelled_mul.1 h
  obtain ⟨tokens₅, tokens₆, rfl, htokens₅, h⟩ := spelled_mul.1 h
  obtain ⟨tokens₇, tokens₈, rfl, htokens₇, htokens₈⟩ := spelled_mul.1 h
  obtain ⟨t₈, tokens₉, rfl, ht₈⟩ := spelled_block htokens₈
  simp only [List.length_cons, List.length_append] at hfuel
  have hlength : tokens₅.length ≤ fuel := by omega
  obtain ⟨t₅, tokens₅', rfl, ht₅, hparams'⟩ :=
    typedNames_yields htokens₅ hparams (by decide) hlength
  refine ⟨t₁, _, rfl, ht₁, fun rest => leads_here fun start => leads_expect ht₁ (by decide) ?_⟩
  refine leads_ident ht₂ hvalue fun name' hname => ?_
  refine (generics_yields htokens₃ (by omega) (ht₅ ▸ by decide)).bind fun generics' hgenerics => ?_
  refine leads_expect ht₅ (by decide) ((hparams' _).bind fun params' hparams' => ?_)
  -- Behind the parameters there is a type or the brace of the body.
  have htype : ∀ type ∈ head.returnType,
      (typeExpr fuel).Yields tokens₇ (t₈ :: tokens₉ ++ rest) fun type' =>
      type'.bare = type.bare := by
    intro type htype
    rw [Option.mem_def.1 htype] at htokens₇ hreturn
    exact typeExpr_yields type hreturn fuel _ _ htokens₇ (by omega) (closes_cons ht₈ (by decide))
  refine leads_optional htokens₇ (fun type _ => opens_typeKinds type) ht₈ (by decide)
    (by decide) htype
    fun returnType' hreturn' => ?_
  have hblock : ReadsBlock (block (stmt fuel) fuel) fuel b :=
    block_yields hbody fun s _ hs => (stmt_yields s hs fuel).1
  have hrest : (t₈ :: tokens₉).length ≤ fuel := by rw [List.length_cons]; omega
  refine (hblock _ _ htokens₈ hrest).bind_last fun b' hb' => node_yields fun mark => ?_
  simp only [Stmt.bare, FnHead.bare, hname, hgenerics, hparams', hreturn', hb']

/-- What declarations start with. -/
def itemKinds : List TokenKind := [.kwImport, .kwStruct, .kwFn]

/-- A declaration that can be written is read from each of its spellings. -/
theorem item_yields {s : Stmt} (h : Spelled tokens (s.write lenient))
    (hshape : s.wellShapedItem = true) (hfuel : tokens.length ≤ fuel) :
    ∃ t tokens', tokens = t :: tokens' ∧ t.kind ∈ itemKinds ∧ ∀ rest,
      (item fuel).Yields tokens rest fun s' => s'.bare = s.bare := by
  unfold item
  cases s with
  | importDecl mark d =>
    obtain ⟨t, tokens', rfl, ht, hread⟩ := importDecl_yields h
    refine ⟨t, tokens', rfl, ht ▸ by decide, fun rest => leads_current (t := t) rfl ?_⟩
    rw [ht]
    exact hread rest
  | structDecl mark d =>
    obtain ⟨t, tokens', rfl, ht, hread⟩ := structDecl_yields h hshape hfuel
    refine ⟨t, tokens', rfl, ht ▸ by decide, fun rest => leads_current (t := t) rfl ?_⟩
    rw [ht]
    exact hread rest
  | fnDecl mark head b =>
    obtain ⟨t, tokens', rfl, ht, hread⟩ := fnDecl_yields h hshape hfuel
    refine ⟨t, tokens', rfl, ht ▸ by decide, fun rest => leads_current (t := t) rfl ?_⟩
    rw [ht]
    exact hread rest
  | _ => cases hshape

/-- Declarations are read up to the end without an error. -/
theorem itemsAndErrors_of_spelled {items : List Stmt} {eof : Token} {steps : Nat} {c : Cursor}
    (h : Spelled tokens (Stmt.writeAll lenient items))
    (hshape : ∀ s ∈ items, s.wellShapedItem = true) (heof : eof.kind = .eof)
    (hfuel : tokens.length ≤ fuel) (hsteps : tokens.length < steps)
    (hc : c.rest = tokens ++ [eof]) :
    ∃ items', itemsAndErrors (item fuel) steps c = some (items', []) ∧
      Stmt.bareAll items' = Stmt.bareAll items := by
  induction items generalizing tokens steps c with
  | nil =>
    obtain ⟨steps, rfl⟩ := Nat.exists_eq_succ_of_ne_zero (Nat.ne_zero_of_lt hsteps)
    obtain rfl := spelled_one.1 h
    have hend : c.atEnd = true := by
      unfold Cursor.atEnd
      rw [hc]
      exact beq_iff_eq.2 heof
    exact ⟨[], by rw [itemsAndErrors, if_pos hend], rfl⟩
  | cons s items ih =>
    obtain ⟨steps, rfl⟩ := Nat.exists_eq_succ_of_ne_zero (Nat.ne_zero_of_lt hsteps)
    obtain ⟨front, back, rfl, hfront, hback⟩ := spelled_mul.1 h
    rw [List.length_append] at hfuel hsteps
    have hlength : front.length ≤ fuel := by omega
    obtain ⟨t, front', rfl, ht, hitem⟩ := item_yields hfront (hshape s List.mem_cons_self) hlength
    rw [List.append_assoc] at hc
    -- The declaration is read without an error, so that reading goes on right behind it.
    obtain ⟨q, d, ⟨s', hs', rfl⟩, hd, hread⟩ := hitem _ c hc
    have hlt : back.length < steps := by
      rw [List.length_cons] at hsteps
      omega
    obtain ⟨items', hitems, hbare⟩ :=
      ih hback (fun s hs => hshape s (List.mem_cons_of_mem _ hs)) (by omega)
      hlt hd
    have hend : c.atEnd = false := by
      unfold Cursor.atEnd
      rw [hc]
      exact beq_eq_false_iff_ne.2 fun heq => absurd (heq ▸ ht) (by decide)
    refine ⟨s' :: items', ?_, by rw [Stmt.bareAll, Stmt.bareAll, hs', hbare]⟩
    rw [itemsAndErrors, hend, if_neg Bool.false_ne_true, hread]
    exact congrArg (Option.map _) hitems

end Grammar

/-- A file that can be written is read from each of its spellings. -/
theorem parseTokens_of_spelled {f : SourceFile} {tokens : List Token} {eof : Token}
    (hshape : f.wellShaped = true) (h : Spelled tokens (f.write lenient)) (heof : eof.kind = .eof) :
    ∃ g, parseTokens (tokens ++ [eof]) = some (.ok g) ∧ g.bare = f.bare := by
  cases hall : tokens ++ [eof] with
  | nil => simp at hall
  | cons first rest =>
    have hlength : tokens.length < (first :: rest).length + 2 := by
      rw [← hall, List.length_append]
      omega
    obtain ⟨items, hitems, hbare⟩ :=
      Grammar.itemsAndErrors_of_spelled (c := ⟨first, first :: rest, 0⟩) h
      (List.all_eq_true.1 hshape) heof (Nat.le_of_lt hlength) hlength hall.symm
    refine ⟨_, by rw [parseTokens, parseTokensWithin, hitems]; rfl, ?_⟩
    rw [SourceFile.bare, SourceFile.bare, hbare]

/-- The plain spelling of a file that can be written is read without an error, and the file is read
back up to spans and numbers. -/
theorem parseTokens_write {f : SourceFile} {tokens : List Token} {eof : Token}
    (hshape : f.wellShaped = true) (htokens : tokens.map Token.symbol = (f.write plain).toList)
    (heof : eof.kind = .eof) :
    ∃ g, parseTokens (tokens ++ [eof]) = some (.ok g) ∧ g.bare = f.bare := by
  refine parseTokens_of_spelled hshape ?_ heof
  rw [Spelled, htokens]
  exact f.plain_mem_lenient

/-- A function that nests operators of all kinds, calls with type arguments, arrays, and blocks
behind conditions. -/
def entangled : SourceFile :=
  let name (text : String) : Ident := ⟨text, default⟩
  let var (text : String) : Expr := .ident default (name text)
  let type (text : String) : TypeExpr := .named default none (name text) []
  let digit (text : String) : Expr := .number default ⟨text, none⟩
  -- `n - (m - 1) - -k * 2`
  let bound : Expr := .binary default .sub
    (.binary default .sub (var "n") (.group default (.binary default .sub (var "m") (digit "1"))))
    (.binary default .mul (.unary default .negate (var "k")) (digit "2"))
  -- `f:[T](x, a..b)[0].y`
  let member : Expr := .get default (.subscript default
    (.call default (var "f") [type "T"] [var "x", .range default (var "a") (var "b")])
      (digit "0")) (name "y")
  -- `*[2]u8{1u8, z.y}`
  let array : Expr := .unary default .deref (.staticArray default (.array default 2 (type "u8"))
    [.number default ⟨"1", some ⟨.unsigned, 8⟩⟩, .get default (var "z") (name "y")])
  let branches : Stmt :=
    .ifElse default (.binary default .or (.binary default .eq member (var "x")) (var "c"))
    (.mk default [.returnStmt default none])
    (some (.ifElse default (.new default (type "T") [(name "a", var "x")]) (.mk default [])
      (some (.scope default (.mk default [.expr default array])))))
  let loop : Stmt := .forCounted default (.letDecl default (name "i") none (digit "0"))
    (.binary default .lt (var "i") bound)
    (.assign default (var "i") (.binary default .add (var "i") (digit "1")))
      (.mk default [branches])
  ⟨[.fnDecl default ⟨name "f", [name "T"], [⟨name "x", .pointer default .weak (type "T")⟩], none⟩
    (.mk default [.forEach default (name "z") (var "n") (.mk default [loop])])], default⟩

/-- The function can be written, and it is read back from its tokens. -/
theorem parseTokens_write_entangled : entangled.wellShaped = true ∧
    ∃ tokens eof, tokens.map Token.symbol = (entangled.write plain).toList ∧ tokens.length = 101 ∧
      ∃ g, parseTokens (tokens ++ [eof]) = some (.ok g) ∧ g.bare = entangled.bare := by
  have hshape : entangled.wellShaped = true := by decide
  let tokens : List Token := (entangled.write plain).toList.map fun s => ⟨s.kind, default, s.value⟩
  have htokens : tokens.map Token.symbol = (entangled.write plain).toList := by
    rw [List.map_map]
    exact List.map_id _
  exact ⟨hshape, tokens, ⟨.eof, default, ""⟩, htokens, by decide +kernel,
    parseTokens_write hshape htokens rfl⟩

end Custody
