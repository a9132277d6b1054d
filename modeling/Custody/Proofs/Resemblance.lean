import Custody.Proofs.Refiling
import Mathlib.Data.List.Forall2

/-!
# Trees that differ in their places

Two trees resemble each other if they have the same nodes with the same numbers and the same words,
and the spans of the one answer to the spans of the other. Which spans answer to which is a
parameter, a `Correspondence`. So one theorem about two readings, or two checks, of resembling trees
says many things: what a layout changes (spans of the same tokens), what a file number changes
(refiled spans), and also what every span of a single run is like (each span answers to itself if it
is as it should be).

* `Correspondence` has one relation for names, one for nodes and one for all places, and says how
  they are joined.
* `Expr.Resembles`, `Stmt.Resembles` and the others are the relations between trees.
* `Stmt.resembles_refile` and its like are the case of a new file number.
-/

set_option autoImplicit false

namespace Custody

/-- Both are errors related by `E`, or both are values related by `R`. -/
inductive ExceptRel {ε ε' α β : Type} (E : ε → ε' → Prop) (R : α → β → Prop) :
    Except ε α → Except ε' β → Prop
  | ok {a : α} {b : β} (h : R a b) : ExceptRel E R (.ok a) (.ok b)
  | error {e : ε} {e' : ε'} (h : E e e') : ExceptRel E R (.error e) (.error e')

/-- Related results are both errors or both values. -/
theorem ExceptRel.cases {ε ε' α β : Type} {E : ε → ε' → Prop} {R : α → β → Prop} {x : Except ε α}
    {y : Except ε' β} (h : ExceptRel E R x y) :
    (∃ e e', x = .error e ∧ y = .error e' ∧ E e e') ∨ ∃ a b, x = .ok a ∧ y = .ok b ∧ R a b := by
  cases h with
  | ok h => exact .inr ⟨_, _, rfl, rfl, h⟩
  | error h => exact .inl ⟨_, _, rfl, rfl, h⟩

/-- A list whose elements are each told by those of another one. -/
theorem eq_map_of_forall₂ {α β : Type} {R : α → β → Prop} {g : α → β} {xs : List α} {ys : List β}
    (h : List.Forall₂ R xs ys) (hR : ∀ a b, R a b → b = g a) : ys = xs.map g := by
  induction h with
  | nil => rfl
  | cons hx _ ih => rw [List.map_cons, hR _ _ hx, ih]

/-- The same of what may be missing. -/
theorem eq_map_of_rel {α β : Type} {R : α → β → Prop} {g : α → β} {x : Option α} {y : Option β}
    (h : Option.Rel R x y) (hR : ∀ a b, R a b → b = g a) : y = x.map g := by
  cases h with
  | none => rfl
  | some hx => rw [Option.map_some, hR _ _ hx]

theorem rel_imp {α β : Type} {R S : α → β → Prop} (h : ∀ a b, R a b → S a b) {x : Option α}
    {y : Option β} (hxy : Option.Rel R x y) : Option.Rel S x y := by
  cases hxy with
  | none => exact .none
  | some hab => exact .some (h _ _ hab)

/-! ## Spans -/

/-- Which spans answer to which. A node covers the text from one token to another one, so a span
that was joined from two answers to the join of the spans that the two answer to. -/
structure Correspondence where
  /-- Spans of tokens other than `eof`. -/
  name : Span → Span → Prop
  /-- Spans of nodes. -/
  node : Span → Span → Prop
  /-- All places, `eof` included. -/
  near : Span → Span → Prop
  /-- Whether an error token answers to a comma. -/
  mends : Bool := false
  node_of_name : ∀ {a a'}, name a a' → node a a'
  near_of_node : ∀ {a a'}, node a a' → near a a'
  merge_name : ∀ {a a' b b'}, near a a' → name b b' → node (a.merge b) (a'.merge b')
  merge_node : ∀ {a a' b b'}, near a a' → node b b' → near (a.merge b) (a'.merge b')

namespace Correspondence

theorem near_of_name (ρ : Correspondence) {a a' : Span} (h : ρ.name a a') : ρ.near a a' :=
  ρ.near_of_node (ρ.node_of_name h)

/-- A span answers to the one in the renumbered file. -/
def refile (φ : Nat → Nat) : Correspondence where
  name a b := b = a.refile φ
  node a b := b = a.refile φ
  near a b := b = a.refile φ
  node_of_name h := h
  near_of_node h := h
  merge_name := by
    rintro a _ b _ rfl rfl
    rfl
  merge_node := by
    rintro a _ b _ rfl rfl
    rfl

end Correspondence

/-! ## Trees -/

section Resembles

variable (ρ : Correspondence)

/-- The same name at places that answer to each other. -/
structure Ident.Resembles (x x' : Ident) : Prop where
  name : x'.name = x.name
  span : ρ.name x.span x'.span

/-- The same number at places that answer to each other. -/
structure Mark.Resembles (m m' : Mark) : Prop where
  id : m'.id = m.id
  span : ρ.node m.span m'.span

/-- The same type as written, at places that answer to each other. -/
inductive TypeExpr.Resembles : TypeExpr → TypeExpr → Prop
  | named {mark mark' : Mark} {space space' : Option Ident} {name name' : Ident}
      {args args' : List TypeExpr} (hmark : mark.Resembles ρ mark')
      (hspace : Option.Rel (Ident.Resembles ρ) space space') (hname : name.Resembles ρ name')
      (hargs : List.Forall₂ TypeExpr.Resembles args args') :
      TypeExpr.Resembles (.named mark space name args) (.named mark' space' name' args')
  | pointer {mark mark' : Mark} {pointee pointee' : TypeExpr} (hmark : mark.Resembles ρ mark')
      (kind : PointerKind) (hpointee : TypeExpr.Resembles pointee pointee') :
      TypeExpr.Resembles (.pointer mark kind pointee) (.pointer mark' kind pointee')
  | array {mark mark' : Mark} {element element' : TypeExpr} (hmark : mark.Resembles ρ mark')
      (length : Nat) (helement : TypeExpr.Resembles element element') :
      TypeExpr.Resembles (.array mark length element) (.array mark' length element')
  | slice {mark mark' : Mark} {element element' : TypeExpr} (hmark : mark.Resembles ρ mark')
      (helement : TypeExpr.Resembles element element') :
      TypeExpr.Resembles (.slice mark element) (.slice mark' element')

mutual
/-- The same expression, at places that answer to each other. -/
inductive Expr.Resembles : Expr → Expr → Prop
  | binary {mark mark' : Mark} {left left' right right' : Expr} (hmark : mark.Resembles ρ mark')
      (op : BinaryOp) (hleft : Expr.Resembles left left') (hright : Expr.Resembles right right') :
      Expr.Resembles (.binary mark op left right) (.binary mark' op left' right')
  | unary {mark mark' : Mark} {operand operand' : Expr} (hmark : mark.Resembles ρ mark')
      (op : UnaryOp) (hoperand : Expr.Resembles operand operand') :
      Expr.Resembles (.unary mark op operand) (.unary mark' op operand')
  | number {mark mark' : Mark} (hmark : mark.Resembles ρ mark') (literal : NumberLiteral) :
      Expr.Resembles (.number mark literal) (.number mark' literal)
  | string {mark mark' : Mark} (hmark : mark.Resembles ρ mark') (text : String) :
      Expr.Resembles (.string mark text) (.string mark' text)
  | bool {mark mark' : Mark} (hmark : mark.Resembles ρ mark') (value : Bool) :
      Expr.Resembles (.bool mark value) (.bool mark' value)
  | ident {mark mark' : Mark} {name name' : Ident} (hmark : mark.Resembles ρ mark')
      (hname : name.Resembles ρ name') : Expr.Resembles (.ident mark name) (.ident mark' name')
  | call {mark mark' : Mark} {callee callee' : Expr} {typeArgs typeArgs' : List TypeExpr}
      {args args' : List Expr} (hmark : mark.Resembles ρ mark')
      (hcallee : Expr.Resembles callee callee')
      (htypeArgs : List.Forall₂ (TypeExpr.Resembles ρ) typeArgs typeArgs')
      (hargs : List.Forall₂ Expr.Resembles args args') :
      Expr.Resembles (.call mark callee typeArgs args) (.call mark' callee' typeArgs' args')
  | get {mark mark' : Mark} {object object' : Expr} {member member' : Ident}
      (hmark : mark.Resembles ρ mark') (hobject : Expr.Resembles object object')
      (hmember : member.Resembles ρ member') :
      Expr.Resembles (.get mark object member) (.get mark' object' member')
  | new {mark mark' : Mark} {type type' : TypeExpr} {fields fields' : List (Ident × Expr)}
      (hmark : mark.Resembles ρ mark') (htype : type.Resembles ρ type')
      (hfields : Expr.ResembleFields fields fields') :
      Expr.Resembles (.new mark type fields) (.new mark' type' fields')
  | group {mark mark' : Mark} {inner inner' : Expr} (hmark : mark.Resembles ρ mark')
      (hinner : Expr.Resembles inner inner') :
      Expr.Resembles (.group mark inner) (.group mark' inner')
  | null {mark mark' : Mark} (hmark : mark.Resembles ρ mark') :
      Expr.Resembles (.null mark) (.null mark')
  | zero {mark mark' : Mark} (hmark : mark.Resembles ρ mark') :
      Expr.Resembles (.zero mark) (.zero mark')
  | staticArray {mark mark' : Mark} {type type' : TypeExpr} {elements elements' : List Expr}
      (hmark : mark.Resembles ρ mark') (htype : type.Resembles ρ type')
      (helements : List.Forall₂ Expr.Resembles elements elements') :
      Expr.Resembles (.staticArray mark type elements) (.staticArray mark' type' elements')
  | subscript {mark mark' : Mark} {object object' index index' : Expr}
      (hmark : mark.Resembles ρ mark') (hobject : Expr.Resembles object object')
      (hindex : Expr.Resembles index index') :
      Expr.Resembles (.subscript mark object index) (.subscript mark' object' index')
  | range {mark mark' : Mark} {first first' last last' : Expr} (hmark : mark.Resembles ρ mark')
      (hfirst : Expr.Resembles first first') (hlast : Expr.Resembles last last') :
      Expr.Resembles (.range mark first last) (.range mark' first' last')

/-- The same members with the same values, at places that answer to each other. -/
inductive Expr.ResembleFields : List (Ident × Expr) → List (Ident × Expr) → Prop
  | nil : Expr.ResembleFields [] []
  | cons {name name' : Ident} {e e' : Expr} {fields fields' : List (Ident × Expr)}
      (hname : name.Resembles ρ name') (he : Expr.Resembles e e')
      (hfields : Expr.ResembleFields fields fields') :
      Expr.ResembleFields ((name, e) :: fields) ((name', e') :: fields')
end

/-- The same import, at places that answer to each other. -/
structure ImportDecl.Resembles (d d' : ImportDecl) : Prop where
  path : d'.path = d.path
  pathSpan : ρ.name d.pathSpan d'.pathSpan
  localName : d.localName.Resembles ρ d'.localName

/-- The same name and type, at places that answer to each other. -/
structure TypedName.Resembles (n n' : TypedName) : Prop where
  name : n.name.Resembles ρ n'.name
  type : n.type.Resembles ρ n'.type

/-- The same struct, at places that answer to each other. -/
structure StructDecl.Resembles (d d' : StructDecl) : Prop where
  name : d.name.Resembles ρ d'.name
  generics : List.Forall₂ (Ident.Resembles ρ) d.generics d'.generics
  members : List.Forall₂ (TypedName.Resembles ρ) d.members d'.members

/-- The same head of a function, at places that answer to each other. -/
structure FnHead.Resembles (h h' : FnHead) : Prop where
  name : h.name.Resembles ρ h'.name
  generics : List.Forall₂ (Ident.Resembles ρ) h.generics h'.generics
  params : List.Forall₂ (TypedName.Resembles ρ) h.params h'.params
  returnType : Option.Rel (TypeExpr.Resembles ρ) h.returnType h'.returnType

mutual
/-- The same statement, at places that answer to each other. -/
inductive Stmt.Resembles : Stmt → Stmt → Prop
  | importDecl {mark mark' : Mark} {d d' : ImportDecl} (hmark : mark.Resembles ρ mark')
      (hdecl : d.Resembles ρ d') : Stmt.Resembles (.importDecl mark d) (.importDecl mark' d')
  | structDecl {mark mark' : Mark} {d d' : StructDecl} (hmark : mark.Resembles ρ mark')
      (hdecl : d.Resembles ρ d') : Stmt.Resembles (.structDecl mark d) (.structDecl mark' d')
  | fnDecl {mark mark' : Mark} {head head' : FnHead} {body body' : Block}
      (hmark : mark.Resembles ρ mark') (hhead : head.Resembles ρ head')
      (hbody : Block.Resembles body body') :
      Stmt.Resembles (.fnDecl mark head body) (.fnDecl mark' head' body')
  | letDecl {mark mark' : Mark} {name name' : Ident} {type type' : Option TypeExpr}
      {init init' : Expr}
      (hmark : mark.Resembles ρ mark') (hname : name.Resembles ρ name')
      (htype : Option.Rel (TypeExpr.Resembles ρ) type type') (hinit : init.Resembles ρ init') :
      Stmt.Resembles (.letDecl mark name type init) (.letDecl mark' name' type' init')
  | scope {mark mark' : Mark} {body body' : Block} (hmark : mark.Resembles ρ mark')
      (hbody : Block.Resembles body body') : Stmt.Resembles (.scope mark body) (.scope mark' body')
  | assign {mark mark' : Mark} {target target' value value' : Expr} (hmark : mark.Resembles ρ mark')
      (htarget : target.Resembles ρ target') (hvalue : value.Resembles ρ value') :
      Stmt.Resembles (.assign mark target value) (.assign mark' target' value')
  | returnStmt {mark mark' : Mark} {value value' : Option Expr} (hmark : mark.Resembles ρ mark')
      (hvalue : Option.Rel (Expr.Resembles ρ) value value') :
      Stmt.Resembles (.returnStmt mark value) (.returnStmt mark' value')
  | breakStmt {mark mark' : Mark} (hmark : mark.Resembles ρ mark') :
      Stmt.Resembles (.breakStmt mark) (.breakStmt mark')
  | continueStmt {mark mark' : Mark} (hmark : mark.Resembles ρ mark') :
      Stmt.Resembles (.continueStmt mark) (.continueStmt mark')
  | forEach {mark mark' : Mark} {name name' : Ident} {iterable iterable' : Expr}
      {body body' : Block}
      (hmark : mark.Resembles ρ mark') (hname : name.Resembles ρ name')
      (hiterable : iterable.Resembles ρ iterable') (hbody : Block.Resembles body body') :
      Stmt.Resembles (.forEach mark name iterable body) (.forEach mark' name' iterable' body')
  | forCounted {mark mark' : Mark} {init init' : Stmt} {condition condition' : Expr}
      {update update' : Stmt} {body body' : Block} (hmark : mark.Resembles ρ mark')
      (hinit : Stmt.Resembles init init') (hcondition : condition.Resembles ρ condition')
      (hupdate : Stmt.Resembles update update') (hbody : Block.Resembles body body') :
      Stmt.Resembles (.forCounted mark init condition update body)
        (.forCounted mark' init' condition' update' body')
  | ifElse {mark mark' : Mark} {condition condition' : Expr} {thenBlock thenBlock' : Block}
      {elseBranch elseBranch' : Option Stmt} (hmark : mark.Resembles ρ mark')
      (hcondition : condition.Resembles ρ condition') (hthen : Block.Resembles thenBlock thenBlock')
      (helse : Option.Rel Stmt.Resembles elseBranch elseBranch') :
      Stmt.Resembles (.ifElse mark condition thenBlock elseBranch)
        (.ifElse mark' condition' thenBlock' elseBranch')
  | expr {mark mark' : Mark} {value value' : Expr} (hmark : mark.Resembles ρ mark')
      (hvalue : value.Resembles ρ value') : Stmt.Resembles (.expr mark value) (.expr mark' value')

/-- The same block, at places that answer to each other. -/
inductive Block.Resembles : Block → Block → Prop
  | mk {span span' : Span} {stmts stmts' : List Stmt} (hspan : ρ.node span span')
      (hstmts : List.Forall₂ Stmt.Resembles stmts stmts') :
      Block.Resembles (.mk span stmts) (.mk span' stmts')
end

/-- The same file, at places that answer to each other. -/
structure SourceFile.Resembles (f f' : SourceFile) : Prop where
  items : List.Forall₂ (Stmt.Resembles ρ) f.items f'.items
  span : ρ.near f.span f'.span

end Resembles

variable {ρ : Correspondence}

/-- Lists of resembling names have the same words. -/
theorem Ident.names_of_resembles {xs xs' : List Ident}
    (h : List.Forall₂ (Ident.Resembles ρ) xs xs') : xs'.map (·.name) = xs.map (·.name) := by
  induction h with
  | nil => rfl
  | cons hx _ ih => rw [List.map_cons, List.map_cons, hx.name, ih]

theorem TypeExpr.Resembles.mark {t t' : TypeExpr} (h : t.Resembles ρ t') :
    t.mark.Resembles ρ t'.mark := by
  cases h <;> assumption

/-- Resembling types stand at nodes that answer to each other. -/
theorem TypeExpr.Resembles.span {t t' : TypeExpr} (h : t.Resembles ρ t') : ρ.node t.span t'.span :=
  h.mark.span

theorem Expr.Resembles.mark {e e' : Expr} (h : e.Resembles ρ e') : e.mark.Resembles ρ e'.mark := by
  cases h <;> assumption

/-- Resembling expressions stand at nodes that answer to each other. -/
theorem Expr.Resembles.span {e e' : Expr} (h : e.Resembles ρ e') : ρ.node e.span e'.span :=
  h.mark.span

theorem Stmt.Resembles.mark {s s' : Stmt} (h : s.Resembles ρ s') : s.mark.Resembles ρ s'.mark := by
  cases h <;> assumption

/-- Resembling statements stand at nodes that answer to each other. -/
theorem Stmt.Resembles.span {s s' : Stmt} (h : s.Resembles ρ s') : ρ.node s.span s'.span :=
  h.mark.span

/-! ## Texts of types -/

theorem TypeExpr.spaceText_of_resembles {space space' : Option Ident}
    (h : Option.Rel (Ident.Resembles ρ) space space') : spaceText space' = spaceText space := by
  cases h with
  | none => rfl
  | some hname => rw [spaceText, spaceText, hname.name]

mutual
/-- The text of a type does not show where the type stands. -/
theorem TypeExpr.Resembles.text : ∀ {t t' : TypeExpr}, t.Resembles ρ t' → t'.text = t.text
  | .named mark space name args, _, h => by
    cases h with
    | named _ hspace hname hargs =>
      cases hargs with
      | nil => rw [text, text, spaceText_of_resembles hspace, hname.name]
      | cons harg hargs =>
        rw [text, text, spaceText_of_resembles hspace, hname.name, harg.text,
          tailText_of_resembles hargs]
  | .pointer mark kind pointee, _, h => by
    cases h with
    | pointer _ _ hpointee => rw [text, text, hpointee.text]
  | .array mark length element, _, h => by
    cases h with
    | array _ _ helement => rw [text, text, helement.text]
  | .slice mark element, _, h => by
    cases h with
    | slice _ helement => rw [text, text, helement.text]

theorem TypeExpr.tailText_of_resembles : ∀ {ts ts' : List TypeExpr},
    List.Forall₂ (TypeExpr.Resembles ρ) ts ts' → tailText ts' = tailText ts
  | [], _, h => by
    cases h
    rfl
  | t :: ts, _, h => by
    cases h with
    | cons ht hts => rw [tailText, tailText, ht.text, tailText_of_resembles hts]
end

/-! ## Refiled trees -/

variable {φ : Nat → Nat}

/-- A name resembles itself in a file with another number. -/
theorem Ident.resembles_refile (x : Ident) : x.Resembles (.refile φ) (x.refile φ) := ⟨rfl, rfl⟩

theorem Mark.resembles_refile (m : Mark) : m.Resembles (.refile φ) (m.refile φ) := ⟨rfl, rfl⟩

theorem Ident.resembles_refile_all (xs : List Ident) :
    List.Forall₂ (Ident.Resembles (.refile φ)) xs (xs.map (Ident.refile φ)) :=
  List.forall₂_map_right_iff.2 (List.forall₂_same.2 fun x _ => x.resembles_refile)

mutual
/-- A type resembles itself in a file with another number. -/
theorem TypeExpr.resembles_refile : ∀ t : TypeExpr, t.Resembles (.refile φ) (t.refile φ)
  | .named mark none name args =>
    .named mark.resembles_refile .none name.resembles_refile (resembles_refileAll args)
  | .named mark (some space) name args =>
    .named mark.resembles_refile (.some space.resembles_refile) name.resembles_refile
      (resembles_refileAll args)
  | .pointer mark kind pointee => .pointer mark.resembles_refile kind pointee.resembles_refile
  | .array mark length element => .array mark.resembles_refile length element.resembles_refile
  | .slice mark element => .slice mark.resembles_refile element.resembles_refile

theorem TypeExpr.resembles_refileAll :
    ∀ ts : List TypeExpr, List.Forall₂ (TypeExpr.Resembles (.refile φ)) ts (TypeExpr.refileAll φ ts)
  | [] => .nil
  | t :: ts => .cons t.resembles_refile (resembles_refileAll ts)
end

/-- So does a type that may be missing. -/
theorem TypeExpr.resembles_refile_option (t : Option TypeExpr) :
    Option.Rel (TypeExpr.Resembles (.refile φ)) t (t.map (TypeExpr.refile φ)) := by
  cases t with
  | none => exact .none
  | some t => exact .some t.resembles_refile

mutual
/-- An expression resembles itself in a file with another number. -/
theorem Expr.resembles_refile : ∀ e : Expr, e.Resembles (.refile φ) (e.refile φ)
  | .binary mark op left right =>
    .binary mark.resembles_refile op left.resembles_refile right.resembles_refile
  | .unary mark op operand => .unary mark.resembles_refile op operand.resembles_refile
  | .number mark literal => .number mark.resembles_refile literal
  | .string mark text => .string mark.resembles_refile text
  | .bool mark value => .bool mark.resembles_refile value
  | .ident mark name => .ident mark.resembles_refile name.resembles_refile
  | .call mark callee typeArgs args =>
    .call mark.resembles_refile callee.resembles_refile (TypeExpr.resembles_refileAll typeArgs)
      (resembles_refileAll args)
  | .get mark object member =>
    .get mark.resembles_refile object.resembles_refile member.resembles_refile
  | .new mark type fields =>
    .new mark.resembles_refile type.resembles_refile (resembles_refileFields fields)
  | .group mark inner => .group mark.resembles_refile inner.resembles_refile
  | .null mark => .null mark.resembles_refile
  | .zero mark => .zero mark.resembles_refile
  | .staticArray mark type elements =>
    .staticArray mark.resembles_refile type.resembles_refile (resembles_refileAll elements)
  | .subscript mark object index =>
    .subscript mark.resembles_refile object.resembles_refile index.resembles_refile
  | .range mark first last =>
    .range mark.resembles_refile first.resembles_refile last.resembles_refile

theorem Expr.resembles_refileAll :
    ∀ es : List Expr, List.Forall₂ (Expr.Resembles (.refile φ)) es (Expr.refileAll φ es)
  | [] => .nil
  | e :: es => .cons e.resembles_refile (resembles_refileAll es)

theorem Expr.resembles_refileFields : ∀ fields : List (Ident × Expr),
    Expr.ResembleFields (.refile φ) fields (Expr.refileFields φ fields)
  | [] => .nil
  | (name, e) :: fields =>
    .cons name.resembles_refile e.resembles_refile (resembles_refileFields fields)
end

/-- So do the members of a struct and the parameters of a function. -/
theorem TypedName.resembles_refile_all (ns : List TypedName) :
    List.Forall₂ (TypedName.Resembles (.refile φ)) ns (ns.map (TypedName.refile φ)) :=
  List.forall₂_map_right_iff.2 (List.forall₂_same.2 fun n _ =>
    ⟨n.name.resembles_refile, n.type.resembles_refile⟩)

/-- A struct resembles itself in a file with another number. -/
theorem StructDecl.resembles_refile (d : StructDecl) : d.Resembles (.refile φ) (d.refile φ) :=
  ⟨d.name.resembles_refile, Ident.resembles_refile_all _, TypedName.resembles_refile_all _⟩

/-- The head of a function resembles itself in a file with another number. -/
theorem FnHead.resembles_refile (h : FnHead) : h.Resembles (.refile φ) (h.refile φ) :=
  ⟨h.name.resembles_refile, Ident.resembles_refile_all _, TypedName.resembles_refile_all _,
    TypeExpr.resembles_refile_option _⟩

mutual
/-- A statement resembles itself in a file with another number. -/
theorem Stmt.resembles_refile : ∀ s : Stmt, s.Resembles (.refile φ) (s.refile φ)
  | .importDecl mark d => .importDecl mark.resembles_refile ⟨rfl, rfl, d.localName.resembles_refile⟩
  | .structDecl mark d => .structDecl mark.resembles_refile d.resembles_refile
  | .fnDecl mark head body =>
    .fnDecl mark.resembles_refile head.resembles_refile body.resembles_refile
  | .letDecl mark name type init =>
    .letDecl mark.resembles_refile name.resembles_refile (TypeExpr.resembles_refile_option type)
      init.resembles_refile
  | .scope mark body => .scope mark.resembles_refile body.resembles_refile
  | .assign mark target value =>
    .assign mark.resembles_refile target.resembles_refile value.resembles_refile
  | .returnStmt mark none => .returnStmt mark.resembles_refile .none
  | .returnStmt mark (some value) =>
    .returnStmt mark.resembles_refile (.some value.resembles_refile)
  | .breakStmt mark => .breakStmt mark.resembles_refile
  | .continueStmt mark => .continueStmt mark.resembles_refile
  | .forEach mark name iterable body =>
    .forEach mark.resembles_refile name.resembles_refile iterable.resembles_refile
      body.resembles_refile
  | .forCounted mark init condition update body =>
    .forCounted mark.resembles_refile init.resembles_refile condition.resembles_refile
      update.resembles_refile body.resembles_refile
  | .ifElse mark condition thenBlock none =>
    .ifElse mark.resembles_refile condition.resembles_refile thenBlock.resembles_refile .none
  | .ifElse mark condition thenBlock (some branch) =>
    .ifElse mark.resembles_refile condition.resembles_refile thenBlock.resembles_refile
      (.some branch.resembles_refile)
  | .expr mark value => .expr mark.resembles_refile value.resembles_refile

theorem Block.resembles_refile : ∀ b : Block, b.Resembles (.refile φ) (b.refile φ)
  | .mk _ stmts => .mk rfl (Stmt.resembles_refileAll stmts)

theorem Stmt.resembles_refileAll :
    ∀ ss : List Stmt, List.Forall₂ (Stmt.Resembles (.refile φ)) ss (Stmt.refileAll φ ss)
  | [] => .nil
  | s :: ss => .cons s.resembles_refile (Stmt.resembles_refileAll ss)
end

/-! ### A tree and itself -/

/-- If each file keeps its number, each span stays as it is. -/
theorem Span.refile_self (s : Span) : s.refile (fun i => i) = s := rfl

theorem Mark.refile_self (m : Mark) : m.refile (fun i => i) = m := rfl

theorem Ident.refile_self : Ident.refile (fun i => i) = id := rfl

mutual
/-- If each file keeps its number, a type stays as it is. -/
theorem TypeExpr.refile_self (t : TypeExpr) : t.refile (fun i => i) = t := by
  cases t <;> simp [refile, Mark.refile_self, Ident.refile_self, refile_self, refileAll_self]

theorem TypeExpr.refileAll_self : ∀ ts : List TypeExpr, TypeExpr.refileAll (fun i => i) ts = ts
  | [] => rfl
  | t :: ts => congrArg₂ List.cons t.refile_self (refileAll_self ts)
end

mutual
/-- If each file keeps its number, an expression stays as it is. -/
theorem Expr.refile_self (e : Expr) : e.refile (fun i => i) = e := by
  cases e <;>
    simp [refile, Mark.refile_self, Ident.refile_self, refile_self, refileAll_self,
      refileFields_self,
    TypeExpr.refile_self, TypeExpr.refileAll_self]

theorem Expr.refileAll_self : ∀ es : List Expr, Expr.refileAll (fun i => i) es = es
  | [] => rfl
  | e :: es => congrArg₂ List.cons e.refile_self (refileAll_self es)

theorem Expr.refileFields_self :
    ∀ fields : List (Ident × Expr), Expr.refileFields (fun i => i) fields = fields
  | [] => rfl
  | (name, e) :: fields =>
    congrArg₂ (fun e fields => (name, e) :: fields) e.refile_self (refileFields_self fields)
end

theorem TypedName.refile_self : TypedName.refile (fun i => i) = id :=
  funext fun n => congrArg (TypedName.mk n.name) n.type.refile_self

theorem TypeExpr.map_refile_self (t : Option TypeExpr) :
    t.map (TypeExpr.refile fun i => i) = t := by
  cases t <;> simp [TypeExpr.refile_self]

mutual
/-- If each file keeps its number, a statement stays as it is. -/
theorem Stmt.refile_self (s : Stmt) : s.refile (fun i => i) = s := by
  cases s with
  | returnStmt mark value => cases value <;> simp [Stmt.refile, Mark.refile_self, Expr.refile_self]
  | _ =>
    simp [Stmt.refile, ImportDecl.refile, StructDecl.refile, FnHead.refile, Span.refile_self,
      Mark.refile_self,
      Ident.refile_self, TypedName.refile_self, TypeExpr.map_refile_self, Expr.refile_self,
      Stmt.refile_self, Stmt.refileElse_self, Block.refile_self]

theorem Stmt.refileElse_self : ∀ s : Option Stmt, Stmt.refileElse (fun i => i) s = s
  | none => rfl
  | some s => congrArg some s.refile_self

theorem Block.refile_self : ∀ b : Block, b.refile (fun i => i) = b
  | .mk span stmts => congrArg (Block.mk span) (Stmt.refileAll_self stmts)

theorem Stmt.refileAll_self : ∀ ss : List Stmt, Stmt.refileAll (fun i => i) ss = ss
  | [] => rfl
  | s :: ss => congrArg₂ List.cons s.refile_self (Stmt.refileAll_self ss)
end

end Custody
