import Custody.Proofs.Regions
import Custody.Proofs.TokenValues
import Mathlib.Data.List.Perm.Subperm

/-!
# Pieces of a tree

What a tree tells apart in a text, each piece with the pieces right inside it and with its own
spelling. `Piece.Stands` says that a piece stands on a row of tokens: the row spells it, its span
runs from the first token of the row to the last, and the pieces inside it stand on disjoint rows of
these tokens, one behind the other.

From that follow the order in which regions are written (`Piece.AllStand.written`), that names stand
on tokens of their own (`Piece.AllStand.names`), and on which row a piece stands at any depth
(`Piece.Inside.stands`).
-/

set_option autoImplicit false

namespace Custody

open Style

/-- What a tree tells apart in a text. A clause is a statement without its semicolon, in the head of
a counted loop. -/
inductive Piece where
  | type (t : TypeExpr)
  | expr (e : Expr)
  | stmt (s : Stmt)
  | clause (s : Stmt)
  | block (b : Block)
  | name (x : Ident)
  | path (d : ImportDecl)

/-- What is told apart right inside a type, in the order in which it is written. -/
def TypeExpr.pieces : TypeExpr → List Piece
  | .named _ space name args => space.toList.map .name ++ [.name name] ++ args.map .type
  | .pointer _ _ pointee => [.type pointee]
  | .array _ _ element => [.type element]
  | .slice _ element => [.type element]

/-- A member and its value. -/
def fieldPieces (f : Ident × Expr) : List Piece := [.name f.1, .expr f.2]

/-- What is told apart right inside an expression, in the order in which it is written. -/
def Expr.pieces : Expr → List Piece
  | .binary _ _ left right => [.expr left, .expr right]
  | .unary _ _ operand => [.expr operand]
  | .number _ _ => []
  | .string _ _ => []
  | .bool _ _ => []
  | .ident _ name => [.name name]
  | .call _ callee types args => [.expr callee] ++ types.map .type ++ args.map .expr
  | .get _ object member => [.expr object, .name member]
  | .new _ type fields => [.type type] ++ fields.flatMap fieldPieces
  | .group _ inner => [.expr inner]
  | .null _ => []
  | .zero _ => []
  | .staticArray _ type elements => [.type type] ++ elements.map .expr
  | .subscript _ object index => [.expr object, .expr index]
  | .range _ first last => [.expr first, .expr last]

/-- A name and its type. -/
def TypedName.pieces (n : TypedName) : List Piece := [.name n.name, .type n.type]

/-- What is told apart right inside a statement, in the order in which it is written. -/
def Stmt.pieces : Stmt → List Piece
  | .importDecl _ d => [.path d, .name d.localName]
  | .structDecl _ d => [.name d.name] ++ d.generics.map .name ++ d.members.flatMap TypedName.pieces
  | .fnDecl _ head body =>
    [.name head.name] ++ head.generics.map .name ++ head.params.flatMap TypedName.pieces ++
      head.returnType.toList.map .type ++ [.block body]
  | .letDecl _ name type init => [.name name] ++ type.toList.map .type ++ [.expr init]
  | .scope _ body => [.block body]
  | .assign _ target value => [.expr target, .expr value]
  | .returnStmt _ value => value.toList.map .expr
  | .breakStmt _ => []
  | .continueStmt _ => []
  | .forEach _ binding iterable body => [.name binding, .expr iterable, .block body]
  | .forCounted _ init condition update body =>
    [.clause init, .expr condition, .clause update, .block body]
  | .ifElse _ condition thenBlock elseBranch =>
    [.expr condition, .block thenBlock] ++ elseBranch.toList.map .stmt
  | .expr _ value => [.expr value]

/-- The items of a file. -/
def SourceFile.pieces (f : SourceFile) : List Piece := f.items.map .stmt

namespace Piece

/-- What is told apart right inside a piece. -/
def parts : Piece → List Piece
  | type t => t.pieces
  | expr e => e.pieces
  | stmt s => s.pieces
  | clause s => s.pieces
  | block b => b.stmts.map stmt
  | name _ => []
  | path _ => []

/-- The text that a piece covers. -/
def span : Piece → Span
  | type t => t.span
  | expr e => e.span
  | stmt s => s.span
  | clause s => s.span
  | block b => b.span
  | name x => x.span
  | path d => d.pathSpan

/-- The symbol of a piece that is a single token. -/
def symbol? : Piece → Option Symbol
  | name x => some x.symbol
  | path d => some ⟨.string, d.path⟩
  | _ => none

/-- The rows of symbols that stand for a piece. -/
def spelling : Piece → Language Symbol
  | type t => t.write lenient
  | expr e => e.write lenient
  | stmt s => s.write lenient
  | clause s => {row | row ++ [TokenKind.semicolon.symbol] ∈ s.write lenient}
  | block b => b.write lenient
  | name x => lenient.name x
  | path d => lenient.symbol ⟨.string, d.path⟩

/-- The mark of a node. -/
def mark? : Piece → Option Mark
  | type t => some t.mark
  | expr e => some e.mark
  | stmt s => some s.mark
  | clause s => some s.mark
  | _ => none

/-- A piece as a region. The path of an import is none. -/
def regions : Piece → List Region
  | type t => [t.region]
  | expr e => [e.region]
  | stmt s => [s.region]
  | clause s => [s.region]
  | block b => [b.region]
  | name x => [.name x]
  | path _ => []

/-- The names that stand for values in a piece. -/
def names : Piece → List Ident
  | type _ => []
  | expr e => e.uses
  | stmt s => s.names
  | clause s => s.names
  | block b => b.names
  | name x => [x]
  | path _ => []

/-! ## Pieces as regions -/

theorem flatMap_regions_map {α : Type} {f : α → Piece} {g : α → Region}
    (h : ∀ x, (f x).regions = [g x]) (xs : List α) : (xs.map f).flatMap regions = xs.map g := by
  rw [List.flatMap_map, List.map_eq_flatMap]
  exact List.flatMap_congr fun x _ => h x

theorem regions_names (xs : List Ident) : (xs.map name).flatMap regions = xs.map .name :=
  flatMap_regions_map (fun _ => rfl) xs

theorem regions_types (ts : List TypeExpr) :
    (ts.map type).flatMap regions = ts.map TypeExpr.region :=
  flatMap_regions_map (fun _ => rfl) ts

theorem regions_exprs (es : List Expr) : (es.map expr).flatMap regions = es.map Expr.region :=
  flatMap_regions_map (fun _ => rfl) es

theorem regions_type (t : TypeExpr) :
    (type t).regions = [.node t.mark (t.pieces.flatMap regions)] := by
  cases t with
  | named mark space name args =>
    simp only [regions, TypeExpr.region, TypeExpr.mark, TypeExpr.pieces, List.flatMap_append,
      regions_names, regions_types, TypeExpr.regions_eq_map]
    rfl
  | pointer | array | slice => rfl

theorem regions_expr (e : Expr) : (expr e).regions = [.node e.mark (e.pieces.flatMap regions)] := by
  cases e with
  | call | staticArray =>
    simp only [regions, Expr.region, Expr.mark, Expr.pieces, List.flatMap_append,
      regions_types, regions_exprs, TypeExpr.regions_eq_map, Expr.regions_eq_map]
    rfl
  | new mark type fields =>
    simp only [regions, Expr.region, Expr.mark, Expr.pieces, List.flatMap_append,
      List.flatMap_assoc, Expr.regionsFields_eq_flatMap]
    rfl
  | _ => rfl

theorem stmtsRegions_eq (ss : List Stmt) : stmtsRegions ss = (ss.map stmt).flatMap regions := by
  induction ss with
  | nil => rfl
  | cons s ss ih => rw [stmtsRegions, ih]; rfl

theorem regions_typedNames (names : List TypedName) :
    (names.flatMap TypedName.pieces).flatMap regions = TypedName.regions names := by
  rw [List.flatMap_assoc]
  rfl

theorem regions_stmt (s : Stmt) : s.region = .node s.mark (s.pieces.flatMap regions) := by
  cases s with
  | structDecl | fnDecl | letDecl =>
    simp only [Stmt.region, Stmt.mark, Stmt.pieces, List.flatMap_append, regions_typedNames,
      regions_names, regions_types]
    rfl
  | returnStmt mark value => exact congrArg (Region.node mark) (regions_exprs value.toList).symm
  | ifElse mark condition thenBlock elseBranch => cases elseBranch <;> rfl
  | _ => rfl

theorem regions_block (b : Block) :
    (block b).regions = [.block b.span ((b.stmts.map stmt).flatMap regions)] := by
  obtain ⟨span, stmts⟩ := b
  rw [Block.stmts, ← stmtsRegions_eq]
  rfl

/-- The numbers of the nodes in pieces, in the order in which the nodes end. -/
def ids (ps : List Piece) : List Nat := (Region.marksAll (ps.flatMap regions)).map Mark.id

theorem ids_append (ps ps' : List Piece) : ids (ps ++ ps') = ids ps ++ ids ps' := by
  rw [ids, List.flatMap_append, Region.marksAll_append, List.map_append]
  rfl

/-- A node has its number behind those inside it. -/
theorem ids_node {p : Piece} {mark : Mark} (h : p.mark? = some mark) :
    ids [p] = ids p.parts ++ [mark.id] := by
  have hregions : p.regions = [.node mark (p.parts.flatMap regions)] := by
    cases p with
    | type t => cases h; exact regions_type t
    | expr e => cases h; exact regions_expr e
    | stmt s | clause s => cases h; exact congrArg (fun r => [r]) (regions_stmt s)
    | _ => cases h
  rw [ids, List.flatMap_singleton, hregions, Region.marksAll, Region.marks, Region.marksAll,
    List.append_nil, List.map_append]
  rfl

theorem ids_block (b : Block) : ids [block b] = ids (b.stmts.map stmt) := by
  rw [ids, List.flatMap_singleton, regions_block, Region.marksAll, Region.marks, Region.marksAll,
    List.append_nil]
  rfl

/-! ## Places -/

/-- Pieces stand in a row of tokens, one behind the other. Between them and around them there may be
tokens of no piece. A piece of one token stands on that token. The row of another piece has its
span, its parts stand in the row, and if the tokens have the values that their kinds say, the row
spells the piece. -/
inductive AllStand : List Piece → List Token → Prop
  | nil (row : List Token) : AllStand [] row
  | token {p : Piece} {t : Token} {ps : List Piece} {rest : List Token} (gap : List Token)
      (hsymbol : p.symbol? = some t.symbol) (hspan : p.span = t.span) (hrest : AllStand ps rest) :
      AllStand (p :: ps) (gap ++ ([t] ++ rest))
  | tree {p : Piece} {ps : List Piece} {row rest : List Token} (gap : List Token)
      (htree : p.symbol? = none)
      (hspelled : (∀ t ∈ row, t.symbol.Faithful) → row.map Token.symbol ∈ p.spelling)
      (hspan : Region.Spans row p.span) (hparts : AllStand p.parts row) (hrest : AllStand ps rest) :
      AllStand (p :: ps) (gap ++ (row ++ rest))

/-- A piece stands on a whole row of tokens. -/
inductive Stands (p : Piece) : List Token → Prop
  | token {t : Token} (hsymbol : p.symbol? = some t.symbol) (hspan : p.span = t.span) : Stands p [t]
  | tree {row : List Token} (htree : p.symbol? = none)
      (hspelled : (∀ t ∈ row, t.symbol.Faithful) → row.map Token.symbol ∈ p.spelling)
      (hspan : Region.Spans row p.span) (hparts : AllStand p.parts row) : Stands p row

variable {p : Piece} {ps ps' : List Piece} {row row' : List Token}

theorem allStand_cons : AllStand (p :: ps) row ↔
    ∃ gap row' rest, row = gap ++ (row' ++ rest) ∧ p.Stands row' ∧ AllStand ps rest := by
  constructor
  · intro h
    cases h with
    | token gap hsymbol hspan hrest => exact ⟨gap, _, _, rfl, .token hsymbol hspan, hrest⟩
    | tree gap htree hspelled hspan hparts hrest =>
      exact ⟨gap, _, _, rfl, .tree htree hspelled hspan hparts, hrest⟩
  · rintro ⟨gap, row', rest, rfl, hp, hrest⟩
    cases hp with
    | token hsymbol hspan => exact .token gap hsymbol hspan hrest
    | tree htree hspelled hspan hparts => exact .tree gap htree hspelled hspan hparts hrest

theorem AllStand.behind (h : AllStand ps row) (front : List Token) :
    AllStand ps (front ++ row) := by
  cases ps with
  | nil => exact .nil _
  | cons p ps =>
    obtain ⟨gap, row', rest, rfl, hp, hrest⟩ := allStand_cons.1 h
    exact allStand_cons.2 ⟨front ++ gap, row', rest, (List.append_assoc _ _ _).symm, hp, hrest⟩

/-- Rows behind each other hold the pieces of both. -/
theorem AllStand.append (h : AllStand ps row) (h' : AllStand ps' row') :
    AllStand (ps ++ ps') (row ++ row') := by
  induction ps generalizing row with
  | nil => exact h'.behind row
  | cons p ps ih =>
    obtain ⟨gap, row', rest, rfl, hp, hrest⟩ := allStand_cons.1 h
    exact allStand_cons.2 ⟨gap, row', _, by simp only [List.append_assoc], hp, ih hrest⟩

theorem Stands.single (h : p.Stands row) : AllStand [p] row :=
  allStand_cons.2 ⟨[], row, [], (List.append_nil row).symm, h, .nil []⟩

theorem Stands.spans (h : p.Stands row) : Region.Spans row p.span := by
  cases h with
  | token hsymbol hspan => exact ⟨_, _, rfl, rfl, by simp [hspan, Span.merge]⟩
  | tree htree hspelled hspan hparts => exact hspan

theorem Stands.parts (h : p.Stands row) : AllStand p.parts row := by
  cases h with
  | token hsymbol hspan =>
    cases p with
    | name | path => exact .nil _
    | _ => cases hsymbol
  | tree htree hspelled hspan hparts => exact hparts

theorem AllStand.ne_nil (h : AllStand (p :: ps) row) : row ≠ [] := by
  obtain ⟨gap, row', rest, rfl, hp, -⟩ := allStand_cons.1 h
  obtain ⟨first, -, hfirst, -⟩ := hp.spans
  intro hnil
  rw [(List.append_eq_nil_iff.1 (List.append_eq_nil_iff.1 hnil).2).1] at hfirst
  cases hfirst

/-- Where pieces stand, their regions are written. -/
theorem AllStand.written (h : AllStand ps row) : Region.AllWritten (ps.flatMap regions) row := by
  induction h with
  | nil row => exact .nil row
  | @token p t ps rest gap hsymbol hspan hrest ih =>
    have hp : Region.AllWritten p.regions [t] := by
      cases p with
      | name x =>
        exact Region.Written.single (.name (congrArg Symbol.value (Option.some.inj hsymbol)) hspan)
      | path d => exact .nil _
      | _ => cases hsymbol
    exact (hp.append ih).behind gap
  | @tree p ps row rest gap htree hspelled hspan hparts hrest ihparts ih =>
    have hp : Region.AllWritten p.regions row := by
      cases p with
      | type t =>
        rw [regions_type]
        exact Region.Written.single (.node ihparts hspan)
      | expr e =>
        rw [regions_expr]
        exact Region.Written.single (.node ihparts hspan)
      | stmt s | clause s =>
        rw [regions, regions_stmt]
        exact Region.Written.single (.node ihparts hspan)
      | block b =>
        rw [regions_block]
        exact Region.Written.single (.block ihparts hspan)
      | name | path => cases htree
    exact (hp.append ih).behind gap

/-! ## Names -/

theorem usesAll_eq (es : List Expr) : Expr.usesAll es = (es.map expr).flatMap names := by
  induction es with
  | nil => rfl
  | cons e es ih => rw [Expr.usesAll, ih]; rfl

theorem usesFields_sublist (fields : List (Ident × Expr)) :
    (Expr.usesFields fields).Sublist ((fields.flatMap fieldPieces).flatMap names) := by
  induction fields with
  | nil => exact .slnil
  | cons f fields ih =>
    simp only [Expr.usesFields, List.flatMap_cons, List.flatMap_append, fieldPieces,
      List.flatMap_nil, names, List.append_nil]
    exact ((List.Sublist.refl f.2.uses).append ih).cons f.1

theorem names_typedNames (ns : List TypedName) :
    (ns.flatMap TypedName.pieces).flatMap names = ns.map (·.name) := by
  rw [List.flatMap_assoc, List.map_eq_flatMap]
  rfl

theorem stmtsNames_eq (ss : List Stmt) : stmtsNames ss = (ss.map stmt).flatMap names := by
  induction ss with
  | nil => rfl
  | cons s ss ih => rw [stmtsNames, ih]; rfl

/-- The names that a tree lists for its pieces are those right inside it and those of the pieces. -/
theorem names_subperm (h : p.symbol? = none) : p.names.Subperm (p.parts.flatMap names) := by
  rw [List.subperm_iff_count]
  intro x
  cases p with
  | type t => exact Nat.zero_le _
  | expr e =>
    cases e with
    | new mark type fields => exact (usesFields_sublist fields).count_le x
    | _ => simp [names, parts, Expr.uses, Expr.pieces, usesAll_eq]
  | stmt s | clause s =>
    cases s with
    | returnStmt mark value => cases value <;> simp [names, parts, Stmt.names, Stmt.pieces]
    | ifElse mark condition thenBlock elseBranch =>
      cases elseBranch <;> simp [names, parts, Stmt.names, elseNames, Stmt.pieces]
    | _ =>
      simp [names, parts, Stmt.names, Stmt.pieces, List.count_cons, names_typedNames] <;> omega
  | block b =>
    obtain ⟨span, stmts⟩ := b
    exact (congrArg (List.count x) (stmtsNames_eq stmts)).le
  | name | path => cases h

/-- Where pieces stand, each of their names stands on a token of its own. -/
theorem AllStand.names (h : AllStand ps row) :
    ((ps.flatMap Piece.names).map Ident.span).Subperm (row.map Token.span) := by
  have hcons {p : Piece} {ps : List Piece} {row rest : List Token} (gap : List Token)
      (hp : (p.names.map Ident.span).Subperm (row.map Token.span))
      (hrest : ((ps.flatMap Piece.names).map Ident.span).Subperm (rest.map Token.span)) :
      (((p :: ps).flatMap Piece.names).map Ident.span).Subperm
        ((gap ++ (row ++ rest)).map Token.span) := by
    rw [List.flatMap_cons, List.map_append, List.map_append, List.map_append]
    exact (hp.append hrest).trans (List.sublist_append_right _ _).subperm
  induction h with
  | nil row => exact List.nil_subperm
  | @token p t ps rest gap hsymbol hspan hrest ih =>
    refine hcons gap ?_ ih
    cases p with
    | name x =>
      rw [Piece.names, List.map_singleton, List.map_singleton]
      exact hspan ▸ List.Subperm.refl _
    | path d => exact List.nil_subperm
    | _ => cases hsymbol
  | tree gap htree hspelled hspan hparts hrest ihparts ih =>
    obtain ⟨xs, hperm, hsub⟩ := names_subperm htree
    exact hcons gap (List.Subperm.trans ⟨xs.map _, hperm.map _, hsub.map _⟩ ihparts) ih

/-! ## Pieces inside pieces -/

/-- A piece is one of the given ones, or stands inside one of them at any depth. -/
inductive Inside : Piece → List Piece → Prop
  | top {p : Piece} {ps : List Piece} (h : p ∈ ps) : Inside p ps
  | part {p q : Piece} {ps : List Piece} (h : Inside p q.parts) (hq : q ∈ ps) : Inside p ps

theorem AllStand.mem (h : AllStand ps row) (hp : p ∈ ps) :
    ∃ row', row' <:+: row ∧ p.Stands row' := by
  induction ps generalizing row with
  | nil => cases hp
  | cons q ps ih =>
    obtain ⟨gap, row', rest, rfl, hq, hrest⟩ := allStand_cons.1 h
    rcases List.mem_cons.1 hp with rfl | hp
    · exact ⟨row', ⟨gap, rest, List.append_assoc _ _ _⟩, hq⟩
    · obtain ⟨row'', hpart, hstands⟩ := ih hrest hp
      refine ⟨row'', hpart.trans ?_, hstands⟩
      rw [← List.append_assoc]
      exact (List.suffix_append _ _).isInfix

/-- A piece at any depth stands on a part of the row. -/
theorem Inside.stands (hp : p.Inside ps) (h : AllStand ps row) :
    ∃ row', row' <:+: row ∧ p.Stands row' := by
  induction hp generalizing row with
  | top hmem => exact h.mem hmem
  | part _ hq ih =>
    obtain ⟨row', hpart, hstands⟩ := h.mem hq
    obtain ⟨row'', hpart', hstands'⟩ := ih hstands.parts
    exact ⟨row'', hpart'.trans hpart, hstands'⟩

end Piece

end Custody
