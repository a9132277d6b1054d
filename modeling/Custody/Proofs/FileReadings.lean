import Custody.Proofs.Readings

/-!
# How statements and files are read

What every reader of statements and declarations does (`stmt_settles`, `item_settles`), and with it
the reading of a whole list of tokens: it ends where the list has an end (`parseTokens_isSome`), and
without an error the tokens up to the first `eof` spell the file and its pieces stand on them
(`read_of_parseTokens`).
-/

set_option autoImplicit false

namespace Custody

open Style

namespace Grammar

open Parse

variable {c d : Cursor} {fuel : Nat}

/-! ## Statements -/

/-- A statement is taken between two cursors, and it can stand in a block. -/
structure StmtTaken (c : Cursor) (s : Stmt) (d : Cursor) : Prop where
  takes : c.Takes d (s.write lenient) [.stmt s]
  wellShaped : s.wellShaped = true

/-- A block is taken between two cursors, and it can be written. -/
structure BlockTaken (c : Cursor) (b : Block) (d : Cursor) : Prop where
  takes : c.Takes d (b.write lenient) [.block b]
  wellShaped : b.wellShaped = true

/-- The last step of the reader of a statement. -/
theorem StmtTaken.node {s : Stmt} {ps : List Piece} (h : c.Takes d (s.write lenient) ps)
    (hmoves : d.ahead < c.ahead) (hmark : s.mark = ⟨d.nextId, c.current.span.merge d.previous.span⟩)
    (hparts : s.pieces = ps) (hshape : s.wellShaped = true) : StmtTaken c s d.numbered :=
  ⟨h.node (fun _ => hmoves) (congrArg some hmark) hparts fun _ => id, hshape⟩

theorem stmts_settles {stmt : Parse Stmt}
    (hstmt : ∀ d, d.ahead ≤ c.ahead → Settles 1 stmt d (StmtTaken d)) (h : c.ahead < fuel) :
    Settles 0 (stmts stmt fuel) c fun ss d =>
      c.Takes d (Stmt.writeAll lenient ss) (ss.map .stmt) ∧ Stmt.wellShapedAll ss = true := by
  induction fuel generalizing c with
  | zero => exact absurd h (Nat.not_lt_zero _)
  | succ fuel ih =>
    refine Settles.look (Settles.ite (fun _ => Settles.pure ⟨c.takes_nothing, rfl⟩) fun _ => ?_)
    refine ((hstmt c (Nat.le_refl _)).bind fun s d hs hd => ?_).mono (Nat.zero_le 1)
    refine (ih (fun e he => hstmt e (by omega)) (by omega)).bind fun ss e hss _ => Settles.pure ?_
    exact ⟨hs.takes.trans hss.1, by rw [Stmt.wellShapedAll, hs.wellShaped, hss.2]; rfl⟩

theorem block_settles {stmt : Parse Stmt}
    (hstmt : ∀ d, d.ahead < c.ahead → Settles 1 stmt d (StmtTaken d))
    (h : c.ahead ≤ fuel) : Settles 1 (block stmt fuel) c (BlockTaken c) := by
  refine Settles.expect.bind fun first d hopen hd => ?_
  refine (stmts_settles (fun e he => hstmt e (by omega)) (by omega)).bind fun body e hbody he => ?_
  refine Settles.expect.bind fun last e' hclose he' =>
    Settles.pure ⟨Cursor.Takes.block ?_ (fun _ => by omega) ?_, hbody.2⟩
  · exact ((hopen.takes rfl).trans hbody.1).skip (hclose.takes rfl)
  · intro hc
    obtain ⟨rfl, -⟩ := hopen.eq_current hc (by decide)
    obtain ⟨row, hrow⟩ := ((hopen.takes rfl).trans hbody.1) hc
    obtain ⟨rfl, hlast⟩ := hclose.eq_current (hrow.way.bounded hc) (by decide)
    rw [hlast]
    rfl

/-- A type is read unless the next token says that it is left out. -/
theorem optionalType_settles {β : Type} {missing : Bool} {next : Option TypeExpr → Parse β}
    {least : Nat} {Q : β → Cursor → Prop}
    (hnext : ∀ type d, d.ahead ≤ c.ahead →
      c.Takes d (type.elim 1 (TypeExpr.write lenient)) (type.toList.map .type) →
      type.all TypeExpr.wellShaped = true → Settles least (next type) d Q)
    (h : c.ahead < fuel) (hc : c.AwaitsType) :
    Settles least (if missing then pure none >>= next
      else typeExpr fuel >>= fun type => pure (some type) >>= next) c Q := by
  refine Settles.ite (fun _ => hnext none c (Nat.le_refl _) c.takes_nothing rfl) fun _ => ?_
  refine ((typeExpr_settles h hc).mono (Nat.zero_le 1)).bind fun type d htype hd => ?_
  exact hnext (some type) d hd htype.takes htype.wellShaped

/-- A `let` without its semicolon. -/
structure BindingTaken (c : Cursor) (b : Ident × Option TypeExpr × Expr) (d : Cursor) : Prop where
  takes : c.Takes d (lenient.kind .kwLet * lenient.name b.1 * lenient.kind .colon *
      b.2.1.elim 1 (TypeExpr.write lenient) * lenient.kind .eq * b.2.2.write lenient)
    ([.name b.1] ++ b.2.1.toList.map .type ++ [.expr b.2.2])
  wellShaped : b.2.1.all TypeExpr.wellShaped = true ∧ b.2.2.wellShaped = true

theorem binding_settles (h : c.ahead ≤ fuel) : Settles 1 (binding fuel) c (BindingTaken c) := by
  refine Settles.expect.bind fun _ d₀ hlet h₀ => Settles.ident.bind fun name d₁ hname h₁ => ?_
  refine Settles.expect.bind fun _ d₂ hcolon h₂ => Settles.look ?_
  refine optionalType_settles (fun type d₃ h₃ htype hshape => ?_) (by omega)
    (d₂.awaitsType_of_previous (hcolon.previous_kind (by omega)) rfl)
  refine Settles.expect.bind fun _ d₄ heq h₄ => ?_
  refine (fullExpr_settles (by omega)).bind fun init d₅ hinit h₅ => Settles.pure ?_
  have hhead := ((hlet.takes rfl).trans hname).skip (hcolon.takes rfl)
  exact ⟨((hhead.trans htype).skip (heq.takes rfl)).trans hinit.takes, hshape, hinit.wellShaped⟩

/-- An assignment or an expression without its semicolon, as a node of any mark. -/
structure EffectTaken (c : Cursor) (node : Mark → Stmt) (d : Cursor) : Prop where
  takes : ∀ mark, c.Takes d ((node mark).writeEffect lenient) (node mark).pieces
  moves : c.Bounded → d.ahead < c.ahead
  mark : ∀ mark, (node mark).mark = mark
  isEffect : ∀ mark, (node mark).isEffect = true
  wellShaped : ∀ mark, (node mark).wellShaped = true

theorem effect_settles (h : c.ahead + 2 ≤ fuel) : Settles 0 (effect fuel) c (EffectTaken c) := by
  refine (fullExpr_settles h).bind fun target d htarget hd =>
    Settles.look (Settles.ite (fun heq => ?_) fun _ => ?_)
  · refine ((Settles.checked heq).mono (Nat.zero_le 1)).bind fun _ e heq he => ?_
    refine (fullExpr_settles (by omega)).bind fun value e' hvalue _ => Settles.pure ?_
    have htakes := (htarget.takes.skip (heq.takes rfl)).trans hvalue.takes
    refine ⟨fun _ => htakes, htakes.moves, fun _ => rfl, fun _ => rfl, fun _ => ?_⟩
    rw [Stmt.wellShaped, htarget.wellShaped, hvalue.wellShaped]
    rfl
  · exact Settles.pure ⟨fun _ => htarget.takes, htarget.takes.moves, fun _ => rfl, fun _ => rfl,
      fun _ => htarget.wellShaped⟩

theorem write_of_isEffect {s : Stmt} (h : s.isEffect = true) :
    s.write lenient = s.writeEffect lenient * lenient.kind .semicolon := by
  cases s with
  | assign | expr => rfl
  | _ => cases h

/-- A clause is finished in front of its semicolon. -/
theorem clause_taken {s : Stmt} {L : Language Symbol} (h : c.Takes d L s.pieces)
    (hmoves : c.Bounded → d.ahead < c.ahead)
    (hmark : s.mark = ⟨d.nextId, c.current.span.merge d.previous.span⟩)
    (hwrite : s.write lenient = L * lenient.kind .semicolon) :
    c.Takes d.numbered L [.clause s] := by
  refine h.node hmoves (congrArg some hmark) rfl fun row hrow => ?_
  change row ++ [TokenKind.semicolon.symbol] ∈ s.write lenient
  rw [hwrite]
  exact Language.append_mem_mul hrow rfl

section Bodies

variable {body : Parse Block}

theorem ifStmt_settles {cond : Parse Expr}
    (hbody : ∀ d, d.ahead < c.ahead → Settles 1 body d (BlockTaken d))
    (hcond : ∀ d, d.ahead < c.ahead → Settles 0 cond d (ExprTaken 1 d)) (h : c.ahead < fuel) :
    Settles 1 (ifStmt body cond fuel) c fun s d => StmtTaken c s d ∧ s.isBranch = true := by
  induction fuel generalizing c with
  | zero => exact absurd h (Nat.not_lt_zero _)
  | succ fuel ih =>
    refine Settles.expect.bind fun word d₀ hif h₀ =>
      (hcond d₀ (by omega)).bind fun condition d₁ hcondition h₁ => ?_
    refine (hbody d₁ (by omega)).bind fun thenBlock d₂ hthen h₂ => ?_
    -- All three forms of `else` go on to the same node.
    have hlast (elseBranch : Option Stmt) (e : Cursor) (he : e.ahead ≤ d₂.ahead)
        (helse : d₂.Takes e (Stmt.writeElse lenient elseBranch) (elseBranch.toList.map .stmt))
        (hshape : Stmt.wellShapedElse elseBranch = true) :
        Settles 0 (finish word.span >>=
          fun mark => pure (.ifElse mark condition thenBlock elseBranch)) e
          fun s d => StmtTaken c s d ∧ s.isBranch = true := by
      refine Settles.finish (Settles.pure ⟨⟨fun hc => ?_, ?_⟩, rfl⟩)
      · obtain ⟨rfl, -⟩ := hif.eq_current hc (by decide)
        have hparts := (((hif.takes rfl).trans hcondition.takes).trans hthen.takes).trans helse
        exact hparts.node (fun _ => by omega) rfl rfl (fun _ => id) hc
      · rw [Stmt.wellShaped, hcondition.wellShaped, hthen.wellShaped, hshape]
        rfl
    refine Settles.look (Settles.ite (fun helse => ?_) fun _ => ?_)
    · refine ((Settles.checked helse).mono (Nat.zero_le 1)).bind fun _ d₃ helse h₃ => ?_
      refine Settles.look (Settles.ite (fun _ => ?_) fun _ => Settles.look ?_)
      · refine ((ih (fun d hd => hbody d (by omega)) (fun d hd => hcond d (by omega))
          (by omega)).mono (Nat.zero_le 1)).bind fun branch e hbranch he => ?_
        exact hlast (some branch) e (by omega) ((helse.takes rfl).trans hbranch.1.takes)
          (Bool.and_eq_true_iff.2 ⟨hbranch.2, hbranch.1.wellShaped⟩)
      · refine (hbody d₃ (by omega)).bind fun elseBlock e hblock he => Settles.finish ?_
        have hscope : StmtTaken d₃
            (.scope ⟨e.nextId, d₃.current.span.merge e.previous.span⟩ elseBlock) e.numbered :=
          .node hblock.takes (by omega) rfl rfl hblock.wellShaped
        exact hlast (some _) e.numbered (by change e.ahead ≤ d₂.ahead; omega)
          ((helse.takes rfl).trans hscope.takes) hscope.wellShaped
    · exact hlast none d₂ (Nat.le_refl _) d₂.takes_nothing rfl

theorem forStmt_settles (hbody : ∀ d, d.ahead < c.ahead → Settles 1 body d (BlockTaken d))
    (h : c.ahead + 2 ≤ fuel) : Settles 1 (forStmt body fuel) c (StmtTaken c) := by
  refine Settles.look (Settles.expect.bind fun _ d₀ hfor h₀ => ?_)
  refine Settles.look (Settles.ite (fun _ => Settles.look ?_) fun _ => ?_)
  · refine (binding_settles (by omega)).bind fun b d₁ hbinding h₁ => Settles.finish ?_
    refine Settles.expect.bind fun _ d₂ hsemi h₂ => ?_
    change d₂.ahead + 1 ≤ d₁.ahead at h₂
    refine (fullExpr_settles (by omega)).bind fun condition d₃ hcondition h₃ => ?_
    refine Settles.expect.bind fun _ d₄ hsemi' h₄ => Settles.look ?_
    refine (effect_settles (by omega)).bind fun node d₅ heffect h₅ => Settles.finish ?_
    refine (hbody d₅.numbered (by change d₅.ahead < c.ahead; omega)).bind
      fun block d₆ hblock h₆ => ?_
    change d₆.ahead + 1 ≤ d₅.ahead at h₆
    refine Settles.finish (Settles.pure ?_)
    -- The clauses are statements without semicolons, each made where its own tokens end.
    have hinit := clause_taken hbinding.takes (fun _ => h₁)
      (@rfl _ (Stmt.letDecl ⟨d₁.nextId, d₀.current.span.merge d₁.previous.span⟩
        b.1 b.2.1 b.2.2).mark) rfl
    have hupdate :=
      clause_taken (heffect.takes ⟨d₅.nextId, d₄.current.span.merge d₅.previous.span⟩) heffect.moves
      (heffect.mark _) (write_of_isEffect (heffect.isEffect _))
    have hhead := ((hfor.takes rfl).trans (hinit.skip (hsemi.takes rfl))).trans hcondition.takes
    have hparts := ((hhead.skip (hsemi'.takes rfl)).trans hupdate).trans hblock.takes
    refine .node hparts (by omega) rfl rfl ?_
    rw [Stmt.wellShaped, Stmt.wellShaped, hbinding.wellShaped.1, hbinding.wellShaped.2,
      hcondition.wellShaped, heffect.isEffect, heffect.wellShaped, hblock.wellShaped]
    rfl
  · refine Settles.ident.bind fun name d₁ hname h₁ => Settles.expect.bind fun _ d₂ hcolon h₂ => ?_
    refine (fullExpr_settles (by omega)).bind fun iterable d₃ hiterable h₃ => ?_
    refine (hbody d₃ (by omega)).bind fun block d₄ hblock h₄ => Settles.finish (Settles.pure ?_)
    have hhead := ((hfor.takes rfl).trans hname).skip (hcolon.takes rfl)
    refine .node ((hhead.trans hiterable.takes).trans hblock.takes) (by omega) rfl rfl ?_
    rw [Stmt.wellShaped, hiterable.wellShaped, hblock.wellShaped]
    rfl

theorem scopeStmt_settles (hbody : Settles 1 body c (BlockTaken c)) :
    Settles 1 (scopeStmt body) c (StmtTaken c) := by
  refine Settles.look (hbody.bind fun block d hblock hd => Settles.finish (Settles.pure ?_))
  exact .node hblock.takes hd rfl rfl hblock.wellShaped

end Bodies

theorem returnStmt_settles (hkind : c.current.kind = .kwReturn) (h : c.ahead + 2 ≤ fuel) :
    Settles 1 (returnStmt fuel) c (StmtTaken c) := by
  refine Settles.look (((Settles.advance hkind).mono (Nat.zero_le _)).bind fun _ d hword hd => ?_)
  refine Settles.look (Settles.ite (fun _ => ?_) fun _ => ?_)
  · refine Settles.expect.bind fun _ e hsemi he => Settles.finish (Settles.pure ?_)
    exact .node (((hword.takes rfl).skip d.takes_nothing).skip (hsemi.takes rfl))
      (by omega) rfl rfl rfl
  · refine (fullExpr_settles (by omega)).bind fun value e hvalue he => ?_
    refine Settles.expect.bind fun _ e' hsemi he' => Settles.finish (Settles.pure ?_)
    exact .node (((hword.takes rfl).trans hvalue.takes).skip (hsemi.takes rfl)) (by omega)
      rfl rfl hvalue.wellShaped

/-- A statement of one word. -/
theorem wordStmt_settles {node : Mark → Stmt} {kind : TokenKind} (hkind : c.current.kind = kind)
    (hspelling : kind.spelling?.isSome = true)
    (hnode : ∀ mark, (node mark).write lenient = lenient.kind kind * lenient.kind .semicolon ∧
      (node mark).mark = mark ∧ (node mark).pieces = [] ∧ (node mark).wellShaped = true) :
    Settles 1 (wordStmt node) c (StmtTaken c) := by
  refine Settles.look (((Settles.advance hkind).mono (Nat.zero_le _)).bind fun _ d hword hd => ?_)
  refine Settles.expect.bind fun _ e hsemi he => Settles.finish (Settles.pure ?_)
  obtain ⟨hwrite, hmark, hpieces, hshape⟩ := hnode ⟨e.nextId, c.current.span.merge e.previous.span⟩
  refine .node ?_ (by omega) hmark hpieces hshape
  rw [hwrite]
  exact (hword.takes hspelling).skip (hsemi.takes rfl)

theorem letStmt_settles (h : c.ahead ≤ fuel) : Settles 1 (letStmt fuel) c (StmtTaken c) := by
  refine Settles.look ((binding_settles h).bind fun b d hbinding hd => ?_)
  refine Settles.expect.bind fun _ e hsemi he => Settles.finish (Settles.pure ?_)
  refine .node (hbinding.takes.skip (hsemi.takes rfl)) (by omega) rfl rfl ?_
  rw [Stmt.wellShaped, hbinding.wellShaped.1, hbinding.wellShaped.2]
  rfl

theorem effectStmt_settles (h : c.ahead + 2 ≤ fuel) :
    Settles 1 (effectStmt fuel) c (StmtTaken c) := by
  refine Settles.look ((effect_settles h).bind fun node d heffect hd => ?_)
  refine Settles.expect.bind fun _ e hsemi he => Settles.finish (Settles.pure ?_)
  refine .node ?_ (by omega) (heffect.mark _) rfl (heffect.wellShaped _)
  rw [write_of_isEffect (heffect.isEffect _)]
  exact (heffect.takes _).skip (hsemi.takes rfl)

/-- A statement is read with a nesting allowed that is above the number of tokens ahead by three. -/
theorem stmt_settles (h : c.ahead + 3 ≤ fuel) : Settles 1 (stmt fuel) c (StmtTaken c) := by
  induction fuel generalizing c with
  | zero => omega
  | succ fuel ih =>
    have hbody (d : Cursor) (hd : d.ahead ≤ c.ahead) : Settles 1 (block (stmt fuel) fuel) d
        (BlockTaken d) :=
      block_settles (fun e he => ih (by omega)) (by omega)
    refine Settles.look ?_
    cases hkind : c.current.kind with
    | kwLet => exact letStmt_settles (by omega)
    | lBrace => exact scopeStmt_settles (hbody c (Nat.le_refl _))
    | kwReturn => exact returnStmt_settles hkind (by omega)
    | kwBreak => exact wordStmt_settles hkind rfl fun _ => ⟨rfl, rfl, rfl, rfl⟩
    | kwContinue => exact wordStmt_settles hkind rfl fun _ => ⟨rfl, rfl, rfl, rfl⟩
    | kwIf =>
      exact (ifStmt_settles (fun d hd => hbody d hd.le) (fun d hd => fullExpr_settles (by omega))
        (by omega)).imp (Nat.le_refl 1) fun _ _ _ _ hs => hs.1
    | kwFor => exact forStmt_settles (fun d hd => hbody d hd.le) (by omega)
    | kwFn | kwStruct | kwImport => exact Settles.fail_of_ne hkind (by decide)
    | _ => exact effectStmt_settles (by omega)

/-! ## Declarations -/

/-- A declaration is taken between two cursors, and it can stand at the top of a file. -/
structure ItemTaken (c : Cursor) (s : Stmt) (d : Cursor) : Prop where
  takes : c.Takes d (s.write lenient) [.stmt s]
  wellShaped : s.wellShapedItem = true

/-- The last step of the reader of a declaration. -/
theorem ItemTaken.node {s : Stmt} {ps : List Piece} (h : c.Takes d (s.write lenient) ps)
    (hmoves : d.ahead < c.ahead) (hmark : s.mark = ⟨d.nextId, c.current.span.merge d.previous.span⟩)
    (hparts : s.pieces = ps) (hshape : s.wellShapedItem = true) : ItemTaken c s d.numbered :=
  ⟨h.node (fun _ => hmoves) (congrArg some hmark) hparts fun _ => id, hshape⟩

theorem generics_settles (h : c.ahead ≤ fuel) :
    Settles 0 (generics fuel) c fun names d =>
      c.Takes d (lenient.generics names) (names.map .name) := by
  refine Settles.look (Settles.ite (fun hopen => ?_) fun _ => Settles.pure c.takes_nothing)
  refine (Settles.checked hopen).bind fun _ d hopen hd => ?_
  have hitem (e : Cursor) (_ : 0 < e.ahead) (_ : e.ahead ≤ d.ahead)
      (_ : e.previous.kind = d.previous.kind ∨ e.previous.kind = .comma) :
        Settles 1 ident e fun x e' =>
        e.Takes e' (lenient.name x) [.name x] ∧ (fun _ => true) x = true :=
    Settles.ident.imp (Nat.le_refl 1) fun _ _ _ _ hx => ⟨hx, rfl⟩
  refine ((Settles.itemsTo rfl (hopen.takes rfl) hitem (by omega)).mono (Nat.zero_le _)).bind
    fun names e hnames _ =>
    Settles.ite (fun _ => Settles.fail fun _ => .inr ⟨by rw [hnames.2.2]; rfl, .inr rfl⟩) fun hne =>
      Settles.pure ?_
  rw [Style.generics, if_neg (by simp [hne]), @List.map_eq_flatMap _ _ Piece.name]
  exact hnames.1

theorem typedNames_settles {opening close : TokenKind} (hspelling : close.spelling?.isSome = true)
    {c₀ : Cursor} (hopen : c₀.Takes c (lenient.kind opening) []) (h : c.ahead < fuel) :
    Settles 1 (itemsTo close (typedName fuel) fuel) c fun names d =>
      c₀.Takes d (lenient.enclosed opening close (names.map (TypedName.write lenient)))
        (names.flatMap TypedName.pieces) ∧ names.all (·.type.wellShaped) = true ∧
          d.previous.kind = close := by
  refine Settles.itemsTo hspelling hopen (fun d _ hd _ => ?_) h
  refine Settles.ident.bind fun name e hname he => Settles.expect.bind fun _ e' hcolon he' => ?_
  have hawaits := e'.awaitsType_of_previous (hcolon.previous_kind (by omega)) rfl
  refine ((typeExpr_settles (by omega) hawaits).mono (Nat.zero_le 1)).bind fun type e'' htype _ =>
    Settles.pure ?_
  exact ⟨(hname.skip (hcolon.takes rfl)).trans htype.takes, htype.wellShaped⟩

theorem importDecl_settles : Settles 1 importDecl c (ItemTaken c) := by
  refine Settles.look
    (Settles.expect.bind fun _ d₀ himport h₀ => Settles.expect.bind fun path d₁ hpath h₁ => ?_)
  refine Settles.ident.bind fun name d₂ hname h₂ => Settles.expect.bind fun _ d₃ hsemi h₃ => ?_
  refine Settles.finish (Settles.pure ?_)
  have hpath : d₀.Takes d₁ (lenient.symbol ⟨.string, path.value⟩)
      [.path ⟨path.value, path.span, name⟩] :=
    hpath.takes_token (by decide) rfl rfl rfl
  exact .node ((((himport.takes rfl).trans hpath).trans hname).skip (hsemi.takes rfl))
    (by omega) rfl rfl rfl

theorem structDecl_settles (h : c.ahead ≤ fuel) : Settles 1 (structDecl fuel) c (ItemTaken c) := by
  refine Settles.look
    (Settles.expect.bind fun _ d₀ hword h₀ => Settles.ident.bind fun name d₁ hname h₁ => ?_)
  refine (generics_settles (by omega)).bind fun generics d₂ hgenerics h₂ => ?_
  refine Settles.expect.bind fun _ d₃ hopen h₃ => ?_
  refine ((typedNames_settles rfl (hopen.takes rfl) (by omega)).mono (Nat.zero_le 1)).bind
    fun members d₄ hmembers h₄ => Settles.finish (Settles.pure ?_)
  exact .node ((((hword.takes rfl).trans hname).trans hgenerics).trans hmembers.1) (by omega)
    rfl rfl hmembers.2.1

theorem fnDecl_settles (h : c.ahead ≤ fuel) : Settles 1 (fnDecl fuel) c (ItemTaken c) := by
  refine Settles.look
    (Settles.expect.bind fun _ d₀ hword h₀ => Settles.ident.bind fun name d₁ hname h₁ => ?_)
  refine (generics_settles (by omega)).bind fun generics d₂ hgenerics h₂ => ?_
  refine Settles.expect.bind fun _ d₃ hopen h₃ => ?_
  refine (typedNames_settles rfl (hopen.takes rfl) (by omega)).bind fun params d₄ hparams h₄ =>
    Settles.look ?_
  refine optionalType_settles (fun returnType d₅ h₅ hreturn hshape => ?_) (by omega)
    (d₄.awaitsType_of_previous hparams.2.2 rfl)
  refine (block_settles (fun d hd => stmt_settles (by omega)) (by omega)).bind
    fun body d₆ hbody h₆ =>
    Settles.finish (Settles.pure ?_)
  have hhead := (((hword.takes rfl).trans hname).trans hgenerics).trans hparams.1
  refine .node ((hhead.trans hreturn).trans hbody.takes) (by omega) rfl rfl ?_
  rw [Stmt.wellShapedItem, hparams.2.1, hshape, hbody.wellShaped]
  rfl

/-- A declaration is read with a nesting allowed that is not below the number of tokens ahead. -/
theorem item_settles (h : c.ahead ≤ fuel) : Settles 1 (item fuel) c (ItemTaken c) := by
  refine Settles.look ?_
  cases hkind : c.current.kind with
  | kwImport => exact importDecl_settles
  | kwStruct => exact structDecl_settles h
  | kwFn => exact fnDecl_settles h
  | error => exact Settles.fail fun _ => .inl rfl
  | _ => exact Settles.fail_of_ne hkind (by decide)

/-! ## Files -/

/-- What is left out after an error holds no `eof`. -/
theorem nextItem_eq {previous : Token} {rest : List Token} :
    ∃ skipped, rest = skipped ++ (nextItem previous rest).2 ∧ (∀ t ∈ skipped, t.kind ≠ .eof) ∧
      (nextItem previous rest).1 = skipped.getLast?.getD previous := by
  induction rest generalizing previous with
  | nil => exact ⟨[], rfl, nofun, rfl⟩
  | cons t ts ih =>
    unfold nextItem
    split
    · exact ⟨[], rfl, nofun, rfl⟩
    · rename_i hgo
      obtain ⟨skipped, hrest, hkinds, hprevious⟩ := @ih t
      have heof : t.kind ≠ .eof := fun heof => hgo (by simp [heof])
      refine ⟨t :: skipped, congrArg (t :: ·) hrest, List.forall_mem_cons.2 ⟨heof, hkinds⟩, ?_⟩
      rw [hprevious, List.getLast?_cons]
      rfl

/-- After an error the reader leaves at least the current token behind. -/
theorem way_resume (c : Cursor) : ∃ row, c.Way (resume c) row ∧ min 1 c.ahead ≤ row.length := by
  have hskip : ∃ skipped, c.advance.Way (resume c) skipped := by
    obtain ⟨skipped, hrest, hkinds, hprevious⟩ := @nextItem_eq c.advance.previous c.advance.rest
    exact ⟨skipped, hrest, hkinds, hprevious⟩
  obtain ⟨skipped, hskip⟩ := hskip
  by_cases hend : c.ahead = 0
  · rw [c.advance_eq_self hend] at hskip
    exact ⟨skipped, hskip, by omega⟩
  · refine ⟨_, (c.way_advance (Nat.pos_of_ne_zero hend)).trans hskip, ?_⟩
    rw [List.length_append, List.length_singleton]
    omega

section Files

variable {item : Parse Stmt} {items : List Stmt} {errors : List ParseError}

/-- Each declaration, right or wrong, takes a token, so that as many steps are enough as there are
tokens ahead. -/
theorem itemsAndErrors_isSome (hitem : ∀ d, d.ahead ≤ c.ahead → Settles 1 item d (ItemTaken d))
    (hc : c.Grounded)
    (h : c.ahead < fuel) : ∃ result, itemsAndErrors item fuel c = some result := by
  induction fuel generalizing c with
  | zero => exact absurd h (Nat.not_lt_zero _)
  | succ fuel ih =>
    unfold itemsAndErrors
    by_cases hend : c.atEnd = true
    · exact ⟨_, if_pos hend⟩
    · rw [if_neg hend]
      have hpos : 0 < c.ahead := Cursor.ahead_pos (by simpa using hend)
      have hread := hitem c (Nat.le_refl _) hc
      generalize item c = x at hread ⊢
      cases hread with
      | @value s d row way htaken hs =>
        have hahead := way.ahead_eq
        obtain ⟨result, hresult⟩ :=
          @ih d (fun e he => hitem e (by omega)) (way.grounded hc) (by omega)
        dsimp only
        rw [hresult]
        exact ⟨_, rfl⟩
      | @error e d row way place =>
        obtain ⟨row', way', htaken'⟩ := way_resume d
        have hahead := way.ahead_eq
        have hahead' := way'.ahead_eq
        obtain ⟨result, hresult⟩ := @ih (resume d) (fun e he => hitem e (by omega))
          ((way.trans way').grounded hc) (by omega)
        dsimp only
        rw [hresult]
        exact ⟨_, rfl⟩

/-- A file without errors is taken item by item, up to its end. -/
theorem itemsAndErrors_takes (hitem : ∀ d, d.ahead ≤ c.ahead → Settles 1 item d (ItemTaken d))
    (hc : c.Bounded) (h : itemsAndErrors item fuel c = some (items, [])) :
    ∃ c', c.Takes c' (Stmt.writeAll lenient items) (items.map .stmt) ∧
      items.all Stmt.wellShapedItem = true ∧ c'.atEnd = true := by
  induction fuel generalizing c items with
  | zero => simp [itemsAndErrors] at h
  | succ fuel ih =>
    unfold itemsAndErrors at h
    by_cases hend : c.atEnd = true
    · rw [if_pos hend] at h
      cases h
      exact ⟨c, c.takes_nothing, rfl, hend⟩
    · rw [if_neg hend] at h
      have hread := hitem c (Nat.le_refl _) (.inl hc)
      generalize item c = x at hread h
      cases hread with
      | @value s d row way htaken hs =>
        obtain ⟨⟨items', errors⟩, hrest, hsplit⟩ := Option.map_eq_some_iff.1 h
        cases hsplit
        have hahead := way.ahead_eq
        obtain ⟨c', htakes, hall, hend'⟩ :=
          ih (fun e he => hitem e (by omega)) (way.bounded hc) hrest
        exact ⟨c', hs.takes.trans htakes, by rw [List.all_cons, hs.wellShaped, hall]; rfl, hend'⟩
      -- An item that cannot be read would leave an error behind.
      | error way place =>
        obtain ⟨⟨items', errors⟩, hrest, hsplit⟩ := Option.map_eq_some_iff.1 h
        cases hsplit

end Files

end Grammar

theorem Cursor.ahead_le (c : Cursor) : c.ahead ≤ c.rest.length := by
  unfold ahead
  exact (List.takeWhile_sublist _).length_le

/-- What is read from a list of tokens without an error. The tokens up to the first `eof` spell the
file, and its pieces stand on them, with the numbers from zero on. -/
structure SourceFile.ReadFrom (f : SourceFile) (tokens : List Token) : Prop where
  taken : ∃ first c', tokens.head? = some first ∧
    (⟨first, tokens, 0⟩ : Cursor).Takes c' (f.write lenient) f.pieces ∧ c'.atEnd = true ∧
    f.span = (f.items.getLast?.map fun s => first.span.merge s.span).getD first.span
  wellShaped : f.wellShaped = true

/-- A file that was read from tokens with an `eof` was taken from them. -/
theorem readFrom_of_parseTokens {tokens : List Token} {f : SourceFile}
    (heof : ∃ t ∈ tokens, t.kind = .eof)
    (h : parseTokens tokens = some (.ok f)) : f.ReadFrom tokens := by
  cases tokens with
  | nil => cases h
  | cons first rest =>
    obtain ⟨⟨items, errors⟩, hread, h⟩ := Option.map_eq_some_iff.1 h
    dsimp only at h
    split at h
    · rename_i hempty
      rw [List.isEmpty_iff] at hempty
      subst hempty
      cases h
      have hahead := (⟨first, first :: rest, 0⟩ : Cursor).ahead_le
      have hbounded : (⟨first, first :: rest, 0⟩ : Cursor).Bounded := heof
      dsimp only at hahead
      obtain ⟨c', htakes, hshape, hend⟩ :=
        Grammar.itemsAndErrors_takes (fun d hd => Grammar.item_settles (by omega)) hbounded hread
      exact ⟨⟨first, c', rfl, htakes, hend, rfl⟩, hshape⟩
    · cases h

end Custody
