import Custody.Grammar.Cursor
import Custody.Proofs.Numbers

/-!
# Regions of a text

A tree of any sort, seen as nested pieces of a text: numbered nodes, blocks and names, each with the
pieces inside it in the order in which they are written. `Region.Written` says that a region stands
on a row of tokens: its span runs from the first of them to the last, and the regions inside it
stand on disjoint rows of its tokens, one behind the other.

`Region.Postorder` says of a region that its numbers follow that order: those inside a node are
below its own, and those of a part are below those of every part written after it. A list of regions
whose numbers grow from left to right has that order at any depth (`Region.Inside.postorder`).
-/

set_option autoImplicit false

namespace Custody

/-- A piece of a text that a tree tells apart: a node with its mark, a block, or a name. -/
inductive Region where
  | node (mark : Mark) (parts : List Region)
  | block (span : Span) (parts : List Region)
  | name (x : Ident)

namespace Region

/-- What is told apart inside a region, in the order in which it is written. -/
def parts : Region → List Region
  | node _ parts => parts
  | block _ parts => parts
  | name _ => []

/-- The mark of a node. Blocks and names have none. -/
def mark? : Region → Option Mark
  | node mark _ => some mark
  | block _ _ => none
  | name _ => none

mutual
/-- The marks of all nodes in a region: those inside a node, and then its own. -/
def marks : Region → List Mark
  | node mark parts => marksAll parts ++ [mark]
  | block _ parts => marksAll parts
  | name _ => []

/-- The marks of all nodes in regions. -/
def marksAll : List Region → List Mark
  | [] => []
  | r :: rs => marks r ++ marksAll rs
end

theorem marksAll_eq_flatMap (rs : List Region) : marksAll rs = rs.flatMap marks := by
  induction rs with
  | nil => rfl
  | cons r rs ih => rw [marksAll, ih, List.flatMap_cons]

@[simp] theorem marksAll_append (rs rs' : List Region) :
    marksAll (rs ++ rs') = marksAll rs ++ marksAll rs' := by
  simp only [marksAll_eq_flatMap, List.flatMap_append]

@[simp] theorem marksAll_names (xs : List Ident) : marksAll (xs.map name) = [] := by
  induction xs with
  | nil => rfl
  | cons x xs ih => exact ih

/-! ## Order -/

/-- All numbers in one region are below all numbers in the other. -/
def Before (r r' : Region) : Prop := ∀ m ∈ r.marks, ∀ m' ∈ r'.marks, m.id < m'.id

/-- The numbers in a region follow the order in which it is written: a node comes after all that is
inside it, and each part comes before the parts written after it. -/
structure Postorder (r : Region) : Prop where
  last : ∀ mark, r.mark? = some mark → ∀ m ∈ marksAll r.parts, m.id < mark.id
  parts : r.parts.Pairwise Before

/-- A region is one of the given ones, or stands inside one of them at any depth. -/
inductive Inside : Region → List Region → Prop
  | top {r : Region} {rs : List Region} (h : r ∈ rs) : Inside r rs
  | part {r p : Region} {rs : List Region} (h : Inside r p.parts) (hp : p ∈ rs) : Inside r rs

/-- The numbers of regions grow from left to right. -/
def Increasing (rs : List Region) : Prop := ((marksAll rs).map Mark.id).Pairwise (· < ·)

theorem marks_eq (r : Region) : r.marks = marksAll r.parts ++ r.mark?.toList := by
  cases r with
  | node mark parts => rfl
  | block span parts => exact (List.append_nil _).symm
  | name x => rfl

theorem Increasing.before {rs : List Region} (h : Increasing rs) : rs.Pairwise Before := by
  rw [Increasing, List.pairwise_map, marksAll_eq_flatMap, List.pairwise_flatMap] at h
  exact h.2

theorem Increasing.marks {r : Region} {rs : List Region} (h : Increasing rs) (hr : r ∈ rs) :
    r.marks.Pairwise fun m m' => m.id < m'.id := by
  rw [Increasing, List.pairwise_map, marksAll_eq_flatMap, List.pairwise_flatMap] at h
  exact h.1 r hr

/-- What holds of a list of regions goes on to the parts of each. -/
theorem Increasing.parts {r : Region} {rs : List Region} (h : Increasing rs) (hr : r ∈ rs) :
    Increasing r.parts := by
  have hmarks := h.marks hr
  rw [marks_eq, List.pairwise_append] at hmarks
  exact List.pairwise_map.2 hmarks.1

theorem Increasing.postorder {r : Region} {rs : List Region} (h : Increasing rs) (hr : r ∈ rs) :
    r.Postorder := by
  refine ⟨fun mark hmark m hm => ?_, (h.parts hr).before⟩
  have hmarks := h.marks hr
  rw [marks_eq, hmark, List.pairwise_append] at hmarks
  exact hmarks.2.2 m hm mark (List.mem_singleton.2 rfl)

/-- Where numbers grow from left to right, every region at any depth is in order. -/
theorem Inside.postorder {r : Region} {rs : List Region} (h : r.Inside rs) (hrs : Increasing rs) :
    r.Postorder := by
  induction h with
  | top hr => exact hrs.postorder hr
  | part _ hp ih => exact ih (hrs.parts hp)

/-! ## Places -/

/-- The span from the first token of a row to its last. -/
def Spans (tokens : List Token) (span : Span) : Prop :=
  ∃ first last, tokens.head? = some first ∧ tokens.getLast? = some last ∧
    span = first.span.merge last.span

mutual
/-- A region stands on a row of tokens. Its span is that of the row, and its parts stand in the
row. -/
inductive Written : Region → List Token → Prop
  | node {mark : Mark} {parts : List Region} {tokens : List Token}
      (hparts : AllWritten parts tokens)
      (hspan : Spans tokens mark.span) : Written (.node mark parts) tokens
  | block {span : Span} {parts : List Region} {tokens : List Token}
      (hparts : AllWritten parts tokens)
      (hspan : Spans tokens span) : Written (.block span parts) tokens
  | name {x : Ident} {t : Token} (hvalue : x.name = t.value) (hspan : x.span = t.span) :
      Written (.name x) [t]

/-- Regions stand in a row of tokens, one behind the other. Between them and around them there may
be tokens of no region. -/
inductive AllWritten : List Region → List Token → Prop
  | nil (tokens : List Token) : AllWritten [] tokens
  | cons {r : Region} {rs : List Region} {tokens rest : List Token} (gap : List Token)
      (h : Written r tokens)
      (hrest : AllWritten rs rest) : AllWritten (r :: rs) (gap ++ (tokens ++ rest))
end

/-- Tokens in front of the first region are part of no region. -/
theorem AllWritten.behind {rs : List Region} {tokens : List Token} (h : AllWritten rs tokens)
    (front : List Token) : AllWritten rs (front ++ tokens) := by
  cases h with
  | nil => exact .nil _
  | cons gap hr hrest =>
    rw [← List.append_assoc]
    exact .cons (front ++ gap) hr hrest

/-- Rows behind each other hold the regions of both. -/
theorem AllWritten.append {rs rs' : List Region} {tokens tokens' : List Token}
    (h : AllWritten rs tokens)
    (h' : AllWritten rs' tokens') : AllWritten (rs ++ rs') (tokens ++ tokens') := by
  induction rs generalizing tokens with
  | nil => exact h'.behind tokens
  | cons r rs ih =>
    cases h with
    | cons gap hr hrest =>
      rw [List.append_assoc, List.append_assoc]
      exact .cons gap hr (ih hrest)

theorem Written.single {r : Region} {tokens : List Token} (h : r.Written tokens) :
    AllWritten [r] tokens := by
  have hrow : AllWritten [r] ([] ++ (tokens ++ [])) := .cons [] h (.nil [])
  rwa [List.nil_append, List.append_nil] at hrow

end Region

/-! ## Regions of trees -/

namespace TypeExpr

mutual
/-- The region of a type expression. -/
def region : TypeExpr → Region
  | named mark space name args =>
    .node mark (space.toList.map .name ++ [.name name] ++ regions args)
  | pointer mark _ pointee => .node mark [region pointee]
  | array mark _ element => .node mark [region element]
  | slice mark element => .node mark [region element]

/-- The regions of type expressions. -/
def regions : List TypeExpr → List Region
  | [] => []
  | t :: ts => region t :: regions ts
end

theorem regions_eq_map (ts : List TypeExpr) : regions ts = ts.map region := by
  induction ts with
  | nil => rfl
  | cons t ts ih => rw [regions, ih, List.map_cons]

mutual
/-- The nodes of a type expression are those with the numbers that were listed for it. -/
theorem marks_region (t : TypeExpr) : t.region.marks.map Mark.id = t.ids := by
  cases t <;> simp [region, Region.marks, Region.marksAll, ids, marks_region, marks_regions]

theorem marks_regions : ∀ ts : List TypeExpr, (Region.marksAll (regions ts)).map Mark.id = idsAll ts
  | [] => rfl
  | t :: ts => by
    rw [regions, Region.marksAll, List.map_append, marks_region t, marks_regions ts, idsAll]
end

end TypeExpr

namespace Expr

mutual
/-- The region of an expression. -/
def region : Expr → Region
  | binary mark _ left right => .node mark [region left, region right]
  | unary mark _ operand => .node mark [region operand]
  | number mark _ => .node mark []
  | string mark _ => .node mark []
  | bool mark _ => .node mark []
  | ident mark name => .node mark [.name name]
  | call mark callee typeArgs args =>
    .node mark ([region callee] ++ TypeExpr.regions typeArgs ++ regions args)
  | get mark object member => .node mark [region object, .name member]
  | new mark type fields => .node mark ([type.region] ++ regionsFields fields)
  | group mark inner => .node mark [region inner]
  | null mark => .node mark []
  | zero mark => .node mark []
  | staticArray mark type elements => .node mark ([type.region] ++ regions elements)
  | subscript mark object index => .node mark [region object, region index]
  | range mark first last => .node mark [region first, region last]

/-- The regions of expressions. -/
def regions : List Expr → List Region
  | [] => []
  | e :: es => region e :: regions es

/-- The regions of fields: each name and its value. -/
def regionsFields : List (Ident × Expr) → List Region
  | [] => []
  | (x, e) :: fields => .name x :: region e :: regionsFields fields
end

theorem regions_eq_map (es : List Expr) : regions es = es.map region := by
  induction es with
  | nil => rfl
  | cons e es ih => rw [regions, ih, List.map_cons]

theorem regionsFields_eq_flatMap (fields : List (Ident × Expr)) :
    regionsFields fields = fields.flatMap fun f => [.name f.1, f.2.region] := by
  induction fields with
  | nil => rfl
  | cons f fields ih =>
    rw [regionsFields, ih, List.flatMap_cons]
    rfl

mutual
/-- The nodes of an expression are those with the numbers that were listed for it. -/
theorem marks_region (e : Expr) : e.region.marks.map Mark.id = e.ids := by
  cases e <;>
    simp [region, Region.marks, Region.marksAll, ids, marks_region, marks_regions,
      marks_regionsFields,
    TypeExpr.marks_region, TypeExpr.marks_regions]

theorem marks_regions : ∀ es : List Expr, (Region.marksAll (regions es)).map Mark.id = idsAll es
  | [] => rfl
  | e :: es => by
    rw [regions, Region.marksAll, List.map_append, marks_region e, marks_regions es, idsAll]

theorem marks_regionsFields : ∀ fields : List (Ident × Expr),
    (Region.marksAll (regionsFields fields)).map Mark.id = idsFields fields
  | [] => rfl
  | (x, e) :: fields => by
    rw [regionsFields, Region.marksAll, Region.marks, List.nil_append, Region.marksAll,
      List.map_append, marks_region e, marks_regionsFields fields, idsFields]
end

end Expr

/-- The regions of names with their types. -/
def TypedName.regions (names : List TypedName) : List Region :=
  names.flatMap fun n => [.name n.name, n.type.region]

/-- The regions of a type that may be left out. -/
def typeRegions (type : Option TypeExpr) : List Region := type.toList.map TypeExpr.region

theorem TypedName.marks_regions (names : List TypedName) :
    (Region.marksAll (TypedName.regions names)).map Mark.id = TypedName.idsAll names := by
  induction names with
  | nil => rfl
  | cons n names ih =>
    have hhead : (Region.marksAll [.name n.name, n.type.region]).map Mark.id = n.type.ids := by
      rw [← n.type.marks_region]
      simp [Region.marksAll, Region.marks]
    change (Region.marksAll
        ([.name n.name, n.type.region] ++ TypedName.regions names)).map Mark.id =
      n.type.ids ++ TypedName.idsAll names
    rw [Region.marksAll_append, List.map_append, hhead, ih]

theorem marks_typeRegions (type : Option TypeExpr) :
    (Region.marksAll (typeRegions type)).map Mark.id = typeIds type := by
  cases type with
  | none => rfl
  | some t =>
    rw [typeIds, Option.elim, ← t.marks_region]
    simp [typeRegions, Region.marksAll]

mutual
/-- The region of a statement. The parts of a counted loop are written in the order of its head. -/
def Stmt.region : Stmt → Region
  | .importDecl mark decl => .node mark [.name decl.localName]
  | .structDecl mark decl =>
    .node mark ([.name decl.name] ++ decl.generics.map .name ++ TypedName.regions decl.members)
  | .fnDecl mark head body =>
    .node mark ([.name head.name] ++ head.generics.map .name ++ TypedName.regions head.params ++
      typeRegions head.returnType ++ [body.region])
  | .letDecl mark name type init => .node mark ([.name name] ++ typeRegions type ++ [init.region])
  | .scope mark body => .node mark [body.region]
  | .assign mark target value => .node mark [target.region, value.region]
  | .returnStmt mark value => .node mark (value.toList.map Expr.region)
  | .breakStmt mark => .node mark []
  | .continueStmt mark => .node mark []
  | .forEach mark binding iterable body => .node mark [.name binding, iterable.region, body.region]
  | .forCounted mark init condition update body =>
    .node mark [init.region, condition.region, update.region, body.region]
  | .ifElse mark condition thenBlock elseBranch =>
    .node mark ([condition.region, thenBlock.region] ++ elseRegions elseBranch)
  | .expr mark value => .node mark [value.region]

/-- The region behind an `else`, if there is one. -/
def elseRegions : Option Stmt → List Region
  | none => []
  | some s => [s.region]

/-- The region of a block. -/
def Block.region : Block → Region
  | .mk span stmts => .block span (stmtsRegions stmts)

/-- The regions of statements. -/
def stmtsRegions : List Stmt → List Region
  | [] => []
  | s :: ss => s.region :: stmtsRegions ss
end

/-- The regions of the items of a file. -/
def SourceFile.regions (f : SourceFile) : List Region := stmtsRegions f.items

mutual
/-- The nodes of a statement are those with the numbers that were listed for it. -/
theorem Stmt.marks_region (s : Stmt) : s.region.marks.map Mark.id = s.ids := by
  cases s with
  | returnStmt mark value =>
    cases value <;> simp [Stmt.region, Region.marks, Region.marksAll, Stmt.ids,
      Expr.marks_region]
  | _ =>
    simp [Stmt.region, Region.marks, Region.marksAll, Stmt.ids, Expr.marks_region,
      Stmt.marks_region,
      Block.marks_region, marks_elseRegions, TypedName.marks_regions, marks_typeRegions]

theorem marks_elseRegions : ∀ branch : Option Stmt,
    (Region.marksAll (elseRegions branch)).map Mark.id = elseIds branch
  | none => rfl
  | some s => by
    rw [elseRegions, Region.marksAll, Region.marksAll, List.append_nil, s.marks_region, elseIds]

theorem Block.marks_region : ∀ b : Block, b.region.marks.map Mark.id = b.ids
  | .mk _ stmts => by rw [Block.region, Region.marks, marks_stmtsRegions stmts, Block.ids]

theorem marks_stmtsRegions : ∀ ss : List Stmt,
    (Region.marksAll (stmtsRegions ss)).map Mark.id = stmtsIds ss
  | [] => rfl
  | s :: ss => by
    rw [stmtsRegions, Region.marksAll, List.map_append, s.marks_region,
      marks_stmtsRegions ss, stmtsIds]
end

end Custody
