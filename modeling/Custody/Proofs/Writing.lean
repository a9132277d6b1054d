import Custody.Grammar.File
import Custody.Proofs.Names
import Custody.Proofs.Numbers
import Mathlib.Algebra.FreeMonoid.Basic
import Mathlib.Computability.Language

/-!
# Writing trees

The surface syntax of trees. `write` goes through a tree once and puts its symbols in a row, in a
`Style` that says what a symbol is, what becomes of a part that may be left out, and how a numeral
is spelled:

* in the style `plain` every tree is one row of symbols, without optional parts and leading zeros;
* in the style `lenient` it is the language of all rows of symbols that stand for the tree.

The two styles differ in a comma behind the last item of a list, in empty type arguments, and in the
zeros in front of the length of an array and the width of a number, and in nothing else. The plain
row is one of the lenient ones (`SourceFile.plain_mem_lenient`).

`wellShaped` says which trees the syntax can express: operands bind tight enough for the operators
around them, and the parts of statements are of the sorts that have a spelling there. `bare` takes
spans and node numbers off a tree.
-/

set_option autoImplicit false

namespace Custody

/-! ## Symbols -/

/-- A token without its place. -/
structure Symbol where
  kind : TokenKind
  value : String
  deriving DecidableEq, Repr

/-- The token without its place. -/
def Token.symbol (t : Token) : Symbol := ⟨t.kind, t.value⟩

/-- The spelling of the kinds that have only one. -/
def TokenKind.spelling? : TokenKind → Option String
  | .kwFn => "fn"
  | .kwStruct => "struct"
  | .kwImport => "import"
  | .kwLet => "let"
  | .kwReturn => "return"
  | .kwBreak => "break"
  | .kwContinue => "continue"
  | .kwFor => "for"
  | .kwIf => "if"
  | .kwElse => "else"
  | .kwNew => "new"
  | .kwOwn => "own"
  | .kwAnd => "and"
  | .kwOr => "or"
  | .kwTrue => "true"
  | .kwFalse => "false"
  | .kwNull => "null"
  | .kwZero => "zero"
  | .plus => "+"
  | .minus => "-"
  | .star => "*"
  | .slash => "/"
  | .percent => "%"
  | .eq => "="
  | .eqEq => "=="
  | .bangEq => "!="
  | .lt => "<"
  | .gt => ">"
  | .ltEq => "<="
  | .gtEq => ">="
  | .bang => "!"
  | .amp => "&"
  | .caret => "^"
  | .tilde => "~"
  | .dotDot => ".."
  | .lParen => "("
  | .rParen => ")"
  | .lBrace => "\x7b"
  | .rBrace => "\x7d"
  | .lBracket => "["
  | .rBracket => "]"
  | .semicolon => ";"
  | .comma => ","
  | .dot => "."
  | .colon => ":"
  | .number | .string | .identifier | .eof | .error => none

/-- The symbol of a kind that has only one spelling. -/
def TokenKind.symbol (kind : TokenKind) : Symbol := ⟨kind, kind.spelling?.getD ""⟩

/-- The symbol of a name. -/
def Ident.symbol (name : Ident) : Symbol := ⟨.identifier, name.name⟩

/-- The token of an operator between operands. -/
def BinaryOp.kind : BinaryOp → TokenKind
  | .add => .plus
  | .sub => .minus
  | .mul => .star
  | .div => .slash
  | .mod => .percent
  | .eq => .eqEq
  | .ne => .bangEq
  | .lt => .lt
  | .gt => .gt
  | .le => .ltEq
  | .ge => .gtEq
  | .and => .kwAnd
  | .or => .kwOr

/-- The token of an operator in front of an operand. -/
def UnaryOp.kind : UnaryOp → TokenKind
  | .not => .bang
  | .negate => .minus
  | .addressOf => .amp
  | .deref => .star
  | .own => .kwOwn

/-- The token in front of a pointer's target. -/
def PointerKind.kind : PointerKind → TokenKind
  | .owned => .tilde
  | .weak => .caret

/-! ## Styles -/

/-- How trees are written with values of a monoid. -/
structure Style (K : Type) where
  symbol : Symbol → K
  /-- What may be left out. -/
  optional : K → K
  /-- A number token: a text and, right behind it, a decimal number. -/
  numeral : String → Nat → K

namespace Style

/-- The shortest row of symbols. -/
def plain : Style (FreeMonoid Symbol) where
  symbol := FreeMonoid.of
  optional _ := 1
  numeral text n := FreeMonoid.of ⟨.number, text ++ toString n⟩

/-- All rows of symbols. What may be left out may also stand there, and any number of zeros in front
of a number. -/
def lenient : Style (Language Symbol) where
  symbol s := {[s]}
  optional L := 1 + L
  numeral text n :=
    {row | ∃ zeros,
      row = [⟨.number, text ++ String.ofList (List.replicate zeros '0') ++ toString n⟩]}

variable {K : Type} [Monoid K] (style : Style K)

/-- The symbol of a kind. -/
def kind (kind : TokenKind) : K := style.symbol kind.symbol

/-- The symbol of a name. -/
def name (name : Ident) : K := style.symbol name.symbol

/-- Items with commas between them, and perhaps one behind the last. -/
def listed : List K → K
  | [] => 1
  | k :: ks =>
    k * if ks.isEmpty then style.optional (style.kind .comma) else style.kind .comma * listed ks

/-- Items with commas between two delimiters. -/
def enclosed (opening closing : TokenKind) (ks : List K) : K :=
  style.kind opening * style.listed ks * style.kind closing

/-- Type arguments, with something in front. If there are none, all of it may be left out. -/
def typeArgs (front : K) (ks : List K) : K :=
  let args := front * style.enclosed .lBracket .rBracket ks
  if ks.isEmpty then style.optional args else args

end Style

/-! ## Trees in a style -/

section Write

variable {K : Type} [Monoid K] (style : Style K)

mutual
/-- The spelling of a type. -/
@[simp] def TypeExpr.write : TypeExpr → K
  | .named _ space name args =>
    space.elim 1 (fun s => style.name s * style.kind .dot) * style.name name *
      style.typeArgs 1 (writeAll args)
  | .pointer _ kind pointee => style.kind kind.kind * pointee.write
  | .array _ length element =>
    style.kind .lBracket * style.numeral "" length * style.kind .rBracket * element.write
  | .slice _ element => style.kind .lBracket * style.kind .rBracket * element.write

/-- The spellings of types. -/
@[simp] def TypeExpr.writeAll : List TypeExpr → List K
  | [] => []
  | t :: ts => t.write :: writeAll ts
end

/-- The spelling of a number. -/
def NumberLiteral.write (literal : NumberLiteral) : K :=
  match literal.format with
  | none => style.symbol ⟨.number, literal.text⟩
  | some format => style.numeral (literal.text ++ format.kind.letter.toString) format.width

mutual
/-- The spelling of an expression. -/
@[simp] def Expr.write : Expr → K
  | .binary _ op left right => left.write * style.kind op.kind * right.write
  | .unary _ op operand => style.kind op.kind * operand.write
  | .number _ literal => literal.write style
  | .string _ text => style.symbol ⟨.string, text⟩
  | .bool _ value => style.kind (if value then .kwTrue else .kwFalse)
  | .ident _ name => style.name name
  | .call _ callee types args =>
    callee.write * style.typeArgs (style.kind .colon) (TypeExpr.writeAll style types) *
      style.enclosed .lParen .rParen (writeAll args)
  | .get _ object member => object.write * style.kind .dot * style.name member
  | .new _ type fields =>
    style.kind .kwNew * type.write style * style.enclosed .lBrace .rBrace (writeFields fields)
  | .group _ inner => style.kind .lParen * inner.write * style.kind .rParen
  | .null _ => style.kind .kwNull
  | .zero _ => style.kind .kwZero
  | .staticArray _ type elements =>
    type.write style * style.enclosed .lBrace .rBrace (writeAll elements)
  | .subscript _ object index =>
    object.write * style.kind .lBracket * index.write * style.kind .rBracket
  | .range _ first last => first.write * style.kind .dotDot * last.write

/-- The spellings of expressions. -/
@[simp] def Expr.writeAll : List Expr → List K
  | [] => []
  | e :: es => e.write :: writeAll es

/-- The spellings of members with their values. -/
@[simp] def Expr.writeFields : List (Ident × Expr) → List K
  | [] => []
  | (name, e) :: fields => style.name name * style.kind .colon * e.write :: writeFields fields
end

/-- The spelling of a name with its type. -/
def TypedName.write (n : TypedName) : K :=
  style.name n.name * style.kind .colon * n.type.write style

/-- The names in brackets behind the name of a declaration, if there are any. -/
def Style.generics (names : List Ident) : K :=
  if names.isEmpty then 1 else style.enclosed .lBracket .rBracket (names.map style.name)

/-- An assignment or an expression, without its semicolon. -/
def Stmt.writeEffect : Stmt → K
  | .assign _ target value => target.write style * style.kind .eq * value.write style
  | .expr _ value => value.write style
  | _ => 1

mutual
/-- The spelling of a statement. -/
@[simp] def Stmt.write : Stmt → K
  | .importDecl _ d =>
    style.kind .kwImport * style.symbol
      ⟨.string, d.path⟩ * style.name d.localName * style.kind .semicolon
  | .structDecl _ d =>
    style.kind .kwStruct * style.name d.name * style.generics d.generics *
      style.enclosed .lBrace .rBrace (d.members.map (TypedName.write style))
  | .fnDecl _ head body =>
    style.kind .kwFn * style.name head.name * style.generics head.generics *
      style.enclosed .lParen .rParen (head.params.map (TypedName.write style)) *
      head.returnType.elim 1 (TypeExpr.write style) * body.write
  | .letDecl _ name type init =>
    style.kind .kwLet * style.name name * style.kind .colon * type.elim 1 (TypeExpr.write style) *
      style.kind .eq * init.write style * style.kind .semicolon
  | .scope _ body => body.write
  | .assign _ target value =>
    target.write style * style.kind .eq * value.write style * style.kind .semicolon
  | .returnStmt _ value =>
    style.kind .kwReturn * value.elim 1 (Expr.write style) * style.kind .semicolon
  | .breakStmt _ => style.kind .kwBreak * style.kind .semicolon
  | .continueStmt _ => style.kind .kwContinue * style.kind .semicolon
  | .forEach _ name iterable body =>
    style.kind .kwFor * style.name name * style.kind .colon * iterable.write style * body.write
  | .forCounted _ init condition update body =>
    style.kind .kwFor * init.write * condition.write style * style.kind .semicolon *
      update.writeEffect style * body.write
  | .ifElse _ condition thenBlock elseBranch =>
    style.kind .kwIf * condition.write style * thenBlock.write * Stmt.writeElse elseBranch
  | .expr _ value => value.write style * style.kind .semicolon

/-- The spelling of an `else`, if there is one. -/
@[simp] def Stmt.writeElse : Option Stmt → K
  | none => 1
  | some s => style.kind .kwElse * s.write

/-- The spelling of a block. -/
@[simp] def Block.write : Block → K
  | .mk _ stmts => style.kind .lBrace * Stmt.writeAll stmts * style.kind .rBrace

/-- The spelling of statements in a row. -/
@[simp] def Stmt.writeAll : List Stmt → K
  | [] => 1
  | s :: ss => s.write * Stmt.writeAll ss
end

/-- The spelling of a file. -/
def SourceFile.write (f : SourceFile) : K := Stmt.writeAll style f.items

end Write

/-! ## Shapes -/

/-- The level of an operator; higher levels bind tighter. -/
def BinaryOp.level : BinaryOp → Nat
  | .or => 2
  | .and => 3
  | .eq | .ne => 4
  | .lt | .gt | .le | .ge => 5
  | .add | .sub => 6
  | .mul | .div | .mod => 7

/-- The level of an expression: that of its outermost operator. -/
def Expr.level : Expr → Nat
  | .range _ _ _ => 1
  | .binary _ op _ _ => op.level
  | .unary _ _ _ => 8
  | _ => 9

mutual
/-- Whether the lengths of all arrays in a type fit in 64 bits. -/
@[simp] def TypeExpr.wellShaped : TypeExpr → Bool
  | .named _ _ _ args => wellShapedAll args
  | .pointer _ _ pointee => pointee.wellShaped
  | .array _ length element => length < 18446744073709551616 && element.wellShaped
  | .slice _ element => element.wellShaped

/-- Whether all types are well shaped. -/
@[simp] def TypeExpr.wellShapedAll : List TypeExpr → Bool
  | [] => true
  | t :: ts => t.wellShaped && wellShapedAll ts
end

/-- Whether the text of a literal has no letter, so that a format behind it can be told apart from
it, and the format is one that a literal may name. A literal with a fraction has no integer
format. -/
def NumberLiteral.wellShaped (literal : NumberLiteral) : Bool :=
  literal.text.toList.all (!·.isAlpha) &&
    literal.format.all fun format => format.isStandard &&
    (!literal.isDecimal || format.kind == .float)

/-- Whether the operands of an expression bind tight enough, and its types and numbers can be
written. All operators group to the left, a range too. -/
@[simp] def Expr.fitsParts : Expr → Bool
  | .binary _ op left right => op.level ≤ left.level && op.level < right.level
  | .range _ _ last => 2 ≤ last.level
  | .unary _ _ operand => 8 ≤ operand.level
  | .call _ callee types _ => callee.level == 9 && TypeExpr.wellShapedAll types
  | .get _ object _ => object.level == 9
  | .subscript _ object _ => object.level == 9
  | .number _ literal => literal.wellShaped
  | .new _ type _ => type.wellShaped
  | .staticArray _ type _ => type.isArray && type.wellShaped
  | _ => true

/-- Whether all parts of an expression fit. -/
def Expr.wellShaped (e : Expr) : Bool := e.every Expr.fitsParts

mutual
/-- Whether a statement can stand in a block. -/
@[simp] def Stmt.wellShaped : Stmt → Bool
  | .importDecl _ _ => false
  | .structDecl _ _ => false
  | .fnDecl _ _ _ => false
  | .letDecl _ _ type init => type.all TypeExpr.wellShaped && init.wellShaped
  | .scope _ body => body.wellShaped
  | .assign _ target value => target.wellShaped && value.wellShaped
  | .returnStmt _ value => value.all Expr.wellShaped
  | .breakStmt _ => true
  | .continueStmt _ => true
  | .forEach _ _ iterable body => iterable.wellShaped && body.wellShaped
  | .forCounted _ init condition update body =>
    init.isLet && init.wellShaped && condition.wellShaped && update.isEffect && update.wellShaped &&
      body.wellShaped
  | .ifElse _ condition thenBlock elseBranch =>
    condition.wellShaped && thenBlock.wellShaped && Stmt.wellShapedElse elseBranch
  | .expr _ value => value.wellShaped

/-- Whether what follows `else` can stand there. -/
@[simp] def Stmt.wellShapedElse : Option Stmt → Bool
  | none => true
  | some s => s.isBranch && s.wellShaped

/-- Whether the statements of a block can stand there. -/
@[simp] def Block.wellShaped : Block → Bool
  | .mk _ stmts => Stmt.wellShapedAll stmts

/-- Whether statements can stand in a block. -/
@[simp] def Stmt.wellShapedAll : List Stmt → Bool
  | [] => true
  | s :: ss => s.wellShaped && Stmt.wellShapedAll ss
end

/-- Whether a declaration can stand at the top of a file. -/
def Stmt.wellShapedItem : Stmt → Bool
  | .importDecl _ _ => true
  | .structDecl _ d => d.members.all (·.type.wellShaped)
  | .fnDecl _ head body =>
    head.params.all (·.type.wellShaped) && head.returnType.all TypeExpr.wellShaped &&
    body.wellShaped
  | _ => false

/-- Whether a file is made of declarations that can stand at its top. -/
def SourceFile.wellShaped (f : SourceFile) : Bool := f.items.all Stmt.wellShapedItem

/-! ## Trees without spans and numbers -/

/-- The name without its place. -/
def Ident.bare (i : Ident) : Ident := ⟨i.name, default⟩

mutual
/-- The type without spans and numbers. -/
@[simp] def TypeExpr.bare : TypeExpr → TypeExpr
  | .named _ space name args => .named default (space.map Ident.bare) name.bare (bareAll args)
  | .pointer _ kind pointee => .pointer default kind pointee.bare
  | .array _ length element => .array default length element.bare
  | .slice _ element => .slice default element.bare

/-- The types without spans and numbers. -/
@[simp] def TypeExpr.bareAll : List TypeExpr → List TypeExpr
  | [] => []
  | t :: ts => t.bare :: bareAll ts
end

mutual
/-- The expression without spans and numbers. -/
@[simp] def Expr.bare : Expr → Expr
  | .binary _ op left right => .binary default op left.bare right.bare
  | .unary _ op operand => .unary default op operand.bare
  | .number _ literal => .number default literal
  | .string _ text => .string default text
  | .bool _ value => .bool default value
  | .ident _ name => .ident default name.bare
  | .call _ callee types args => .call default callee.bare (TypeExpr.bareAll types) (bareAll args)
  | .get _ object member => .get default object.bare member.bare
  | .new _ type fields => .new default type.bare (bareFields fields)
  | .group _ inner => .group default inner.bare
  | .null _ => .null default
  | .zero _ => .zero default
  | .staticArray _ type elements => .staticArray default type.bare (bareAll elements)
  | .subscript _ object index => .subscript default object.bare index.bare
  | .range _ first last => .range default first.bare last.bare

/-- The expressions without spans and numbers. -/
@[simp] def Expr.bareAll : List Expr → List Expr
  | [] => []
  | e :: es => e.bare :: bareAll es

/-- The fields without spans and numbers. -/
@[simp] def Expr.bareFields : List (Ident × Expr) → List (Ident × Expr)
  | [] => []
  | (name, e) :: fields => (name.bare, e.bare) :: bareFields fields
end

/-- The typed name without spans and numbers. -/
def TypedName.bare (n : TypedName) : TypedName := ⟨n.name.bare, n.type.bare⟩

/-- The import without spans. -/
def ImportDecl.bare (d : ImportDecl) : ImportDecl := ⟨d.path, default, d.localName.bare⟩

/-- The struct declaration without spans and numbers. -/
def StructDecl.bare (d : StructDecl) : StructDecl :=
  ⟨d.name.bare, d.generics.map Ident.bare, d.members.map TypedName.bare⟩

/-- The head of a function without spans and numbers. -/
def FnHead.bare (h : FnHead) : FnHead :=
  ⟨h.name.bare, h.generics.map Ident.bare, h.params.map TypedName.bare,
    h.returnType.map TypeExpr.bare⟩

mutual
/-- The statement without spans and numbers. -/
@[simp] def Stmt.bare : Stmt → Stmt
  | .importDecl _ d => .importDecl default d.bare
  | .structDecl _ d => .structDecl default d.bare
  | .fnDecl _ head body => .fnDecl default head.bare body.bare
  | .letDecl _ name type init => .letDecl default name.bare (type.map TypeExpr.bare) init.bare
  | .scope _ body => .scope default body.bare
  | .assign _ target value => .assign default target.bare value.bare
  | .returnStmt _ value => .returnStmt default (value.map Expr.bare)
  | .breakStmt _ => .breakStmt default
  | .continueStmt _ => .continueStmt default
  | .forEach _ name iterable body => .forEach default name.bare iterable.bare body.bare
  | .forCounted _ init condition update body =>
    .forCounted default init.bare condition.bare update.bare body.bare
  | .ifElse _ condition thenBlock elseBranch =>
    .ifElse default condition.bare thenBlock.bare (Stmt.bareElse elseBranch)
  | .expr _ value => .expr default value.bare

/-- The `else` without spans and numbers, if there is one. -/
@[simp] def Stmt.bareElse : Option Stmt → Option Stmt
  | none => none
  | some s => some s.bare

/-- The block without spans and numbers. -/
@[simp] def Block.bare : Block → Block
  | .mk _ stmts => .mk default (Stmt.bareAll stmts)

/-- The statements without spans and numbers. -/
@[simp] def Stmt.bareAll : List Stmt → List Stmt
  | [] => []
  | s :: ss => s.bare :: Stmt.bareAll ss
end

/-- The file without spans and numbers. -/
def SourceFile.bare (f : SourceFile) : SourceFile := ⟨Stmt.bareAll f.items, default⟩

/-! ## Lists of trees -/

theorem TypeExpr.writeAll_eq_map {K : Type} [Monoid K] (style : Style K) (ts : List TypeExpr) :
    TypeExpr.writeAll style ts = ts.map (TypeExpr.write style) := by
  induction ts with
  | nil => rfl
  | cons t ts ih => rw [TypeExpr.writeAll, ih, List.map_cons]

theorem Expr.writeAll_eq_map {K : Type} [Monoid K] (style : Style K) (es : List Expr) :
    Expr.writeAll style es = es.map (Expr.write style) := by
  induction es with
  | nil => rfl
  | cons e es ih => rw [Expr.writeAll, ih, List.map_cons]

/-- The spelling of a member with its value. -/
def Style.field {K : Type} [Monoid K] (style : Style K) (f : Ident × Expr) : K :=
  style.name f.1 * style.kind .colon * f.2.write style

theorem Expr.writeFields_eq_map {K : Type} [Monoid K] (style : Style K)
    (fields : List (Ident × Expr)) : Expr.writeFields style fields = fields.map style.field := by
  induction fields with
  | nil => rfl
  | cons f fields ih => rw [Expr.writeFields, ih, List.map_cons, Style.field]

theorem TypeExpr.wellShapedAll_eq_all (ts : List TypeExpr) :
    TypeExpr.wellShapedAll ts = ts.all TypeExpr.wellShaped := by
  induction ts with
  | nil => rfl
  | cons t ts ih => rw [TypeExpr.wellShapedAll, ih, List.all_cons]

theorem Stmt.wellShapedAll_eq_all (ss : List Stmt) :
    Stmt.wellShapedAll ss = ss.all Stmt.wellShaped := by
  induction ss with
  | nil => rfl
  | cons s ss ih => rw [Stmt.wellShapedAll, ih, List.all_cons]

theorem Block.wellShaped_iff {b : Block} :
    b.wellShaped = true ↔ ∀ s ∈ b.stmts, s.wellShaped = true := by
  cases b with
  | mk span stmts =>
    rw [Block.wellShaped, Stmt.wellShapedAll_eq_all, List.all_eq_true]
    exact Iff.rfl

theorem TypeExpr.bareAll_eq_map (ts : List TypeExpr) :
    TypeExpr.bareAll ts = ts.map TypeExpr.bare := by
  induction ts with
  | nil => rfl
  | cons t ts ih => rw [TypeExpr.bareAll, ih, List.map_cons]

theorem Expr.bareAll_eq_map (es : List Expr) : Expr.bareAll es = es.map Expr.bare := by
  induction es with
  | nil => rfl
  | cons e es ih => rw [Expr.bareAll, ih, List.map_cons]

theorem Expr.bareFields_eq_map (fields : List (Ident × Expr)) :
    Expr.bareFields fields = fields.map fun f => (f.1.bare, f.2.bare) := by
  induction fields with
  | nil => rfl
  | cons f fields ih => rw [Expr.bareFields, ih, List.map_cons]

/-! ## Shapes of expressions -/

/-- The expressions right inside an expression. -/
@[simp] def Expr.children : Expr → List Expr
  | .binary _ _ left right => [left, right]
  | .unary _ _ operand => [operand]
  | .call _ callee _ args => callee :: args
  | .get _ object _ => [object]
  | .new _ _ fields => fields.map Prod.snd
  | .group _ inner => [inner]
  | .staticArray _ _ elements => elements
  | .subscript _ object index => [object, index]
  | .range _ first last => [first, last]
  | _ => []

namespace Expr

variable {m : Mark}

theorem level_le (e : Expr) : e.level ≤ 9 := by
  cases e with
  | binary mark op left right => cases op <;> simp [level, BinaryOp.level]
  | _ => simp [level]

theorem level_pos (e : Expr) : 0 < e.level := by
  cases e with
  | binary mark op left right => cases op <;> simp [level, BinaryOp.level]
  | _ => simp [level]

/-- An expression is well shaped if it fits the expressions right inside it and they are well
shaped. -/
theorem wellShaped_iff {e : Expr} :
    e.wellShaped = true ↔ e.fitsParts = true ∧ ∀ child ∈ e.children, child.wellShaped = true := by
  cases e with
  | new mark type fields =>
    simp only [wellShaped, every, children, everyField_eq_all, Bool.and_eq_true, List.all_eq_true,
      List.forall_mem_map]
  | call mark callee types args =>
    simp only [wellShaped, every, children, everyOf_eq_all, Bool.and_eq_true,
      List.all_eq_true, and_assoc, List.forall_mem_cons]
  | staticArray mark type elements =>
    simp only [wellShaped, every, children, everyOf_eq_all, Bool.and_eq_true, List.all_eq_true]
  | _ => simp [wellShaped, every, children, and_assoc]

theorem wellShaped_binary {op : BinaryOp} {left right : Expr} :
    (binary m op left right).wellShaped = true ↔
      op.level ≤ left.level ∧ op.level < right.level ∧ left.wellShaped = true ∧
        right.wellShaped = true := by
  rw [wellShaped_iff]
  simp [fitsParts, children, and_assoc]

theorem wellShaped_range {first last : Expr} : (range m first last).wellShaped = true ↔
    2 ≤ last.level ∧ first.wellShaped = true ∧ last.wellShaped = true := by
  rw [wellShaped_iff]
  simp [fitsParts, children]

theorem wellShaped_unary {op : UnaryOp} {operand : Expr} : (unary m op operand).wellShaped = true ↔
    8 ≤ operand.level ∧ operand.wellShaped = true := by
  rw [wellShaped_iff]
  simp [fitsParts, children]

theorem wellShaped_call {callee : Expr} {types : List TypeExpr} {args : List Expr} :
    (call m callee types args).wellShaped = true ↔ callee.level = 9 ∧ callee.wellShaped = true ∧
      types.all TypeExpr.wellShaped = true ∧ args.all wellShaped = true := by
  rw [wellShaped_iff]
  simp only [fitsParts, children, TypeExpr.wellShapedAll_eq_all, Bool.and_eq_true, beq_iff_eq,
    List.forall_mem_cons, List.all_eq_true]
  tauto

theorem wellShaped_get {object : Expr} {member : Ident} : (get m object member).wellShaped = true ↔
    object.level = 9 ∧ object.wellShaped = true := by
  rw [wellShaped_iff]
  simp [fitsParts, children]

theorem wellShaped_subscript {object index : Expr} : (subscript m object index).wellShaped = true ↔
    object.level = 9 ∧ object.wellShaped = true ∧ index.wellShaped = true := by
  rw [wellShaped_iff]
  simp [fitsParts, children]

theorem wellShaped_new {type : TypeExpr} {fields : List (Ident × Expr)} :
    (new m type fields).wellShaped = true ↔
      type.wellShaped = true ∧ fields.all (fun f => f.2.wellShaped) = true := by
  rw [wellShaped_iff]
  simp only [fitsParts, children, List.forall_mem_map, List.all_eq_true]

theorem wellShaped_staticArray {type : TypeExpr} {elements : List Expr} :
    (staticArray m type elements).wellShaped = true ↔
      type.isArray = true ∧ type.wellShaped = true ∧ elements.all wellShaped = true := by
  rw [wellShaped_iff]
  simp [fitsParts, children, and_assoc]

end Expr

/-! ## Induction on trees -/

/-- The types right inside a type. -/
@[simp] def TypeExpr.children : TypeExpr → List TypeExpr
  | .named _ _ _ args => args
  | .pointer _ _ pointee => [pointee]
  | .array _ _ element => [element]
  | .slice _ element => [element]

theorem TypeExpr.sizeOf_lt_of_mem_children {t child : TypeExpr} (h : child ∈ t.children) :
    sizeOf child < sizeOf t := by
  cases t with
  | named mark space name args =>
    have hlt : sizeOf child < sizeOf args := List.sizeOf_lt_of_mem h
    rw [TypeExpr.named.sizeOf_spec]
    omega
  | pointer | array | slice =>
    obtain rfl := List.mem_singleton.1 h
    simp only [TypeExpr.pointer.sizeOf_spec, TypeExpr.array.sizeOf_spec, TypeExpr.slice.sizeOf_spec]
    omega

/-- What holds of a type if it holds of its children holds of every type. -/
theorem TypeExpr.induction_on_children {motive : TypeExpr → Prop}
    (step : ∀ t, (∀ child ∈ t.children, motive child) → motive t) (t : TypeExpr) : motive t :=
  step t fun child _ => TypeExpr.induction_on_children step child
termination_by sizeOf t
decreasing_by exact TypeExpr.sizeOf_lt_of_mem_children ‹_›

theorem Expr.sizeOf_lt_of_mem_children {e child : Expr} (h : child ∈ e.children) :
    sizeOf child < sizeOf e := by
  cases e with
  | call mark callee types args =>
    rw [Expr.call.sizeOf_spec]
    rcases List.mem_cons.1 h with rfl | h
    · omega
    · have hlt : sizeOf child < sizeOf args := List.sizeOf_lt_of_mem h
      omega
  | new mark type fields =>
    obtain ⟨⟨name, value⟩, hfield, rfl⟩ := List.mem_map.1 h
    have hlt : sizeOf (name, value) < sizeOf fields := List.sizeOf_lt_of_mem hfield
    rw [Prod.mk.sizeOf_spec] at hlt
    rw [Expr.new.sizeOf_spec]
    dsimp only
    omega
  | staticArray mark type elements =>
    have hlt : sizeOf child < sizeOf elements := List.sizeOf_lt_of_mem h
    rw [Expr.staticArray.sizeOf_spec]
    omega
  | binary | unary | get | group | subscript | range =>
    simp only [Expr.children, List.mem_cons, List.not_mem_nil, or_false] at h
    simp only [Expr.binary.sizeOf_spec, Expr.unary.sizeOf_spec, Expr.get.sizeOf_spec,
      Expr.group.sizeOf_spec, Expr.subscript.sizeOf_spec, Expr.range.sizeOf_spec]
    rcases h with rfl | rfl <;> omega
  | number | string | bool | ident | null | zero => cases h

/-- What holds of an expression if it holds of its children holds of every expression. -/
theorem Expr.induction_on_children {motive : Expr → Prop}
    (step : ∀ e, (∀ child ∈ e.children, motive child) → motive e) (e : Expr) : motive e :=
  step e fun child _ => Expr.induction_on_children step child
termination_by sizeOf e
decreasing_by exact Expr.sizeOf_lt_of_mem_children ‹_›

/-- The statements right inside a statement. -/
@[simp] def Stmt.children : Stmt → List Stmt
  | .fnDecl _ _ body => body.stmts
  | .scope _ body => body.stmts
  | .forEach _ _ _ body => body.stmts
  | .forCounted _ init _ update body => init :: update :: body.stmts
  | .ifElse _ _ thenBlock elseBranch => elseBranch.toList ++ thenBlock.stmts
  | _ => []

theorem Block.sizeOf_lt_of_mem_stmts {b : Block} {s : Stmt} (h : s ∈ b.stmts) :
    sizeOf s < sizeOf b := by
  obtain ⟨span, stmts⟩ := b
  have hlt : sizeOf s < sizeOf stmts := List.sizeOf_lt_of_mem h
  rw [Block.mk.sizeOf_spec]
  omega

theorem Stmt.sizeOf_lt_of_mem_children {s child : Stmt} (h : child ∈ s.children) :
    sizeOf child < sizeOf s := by
  cases s with
  | fnDecl | scope | forEach =>
    have hlt := Block.sizeOf_lt_of_mem_stmts h
    simp only [Stmt.fnDecl.sizeOf_spec, Stmt.scope.sizeOf_spec, Stmt.forEach.sizeOf_spec]
    omega
  | forCounted mark init condition update body =>
    rw [Stmt.forCounted.sizeOf_spec]
    rcases List.mem_cons.1 h with rfl | h
    · omega
    rcases List.mem_cons.1 h with rfl | h
    · omega
    · have hlt := Block.sizeOf_lt_of_mem_stmts h
      omega
  | ifElse mark condition thenBlock elseBranch =>
    rw [Stmt.ifElse.sizeOf_spec]
    rcases List.mem_append.1 h with h | h
    · obtain rfl := Option.mem_toList.1 h
      rw [Option.some.sizeOf_spec]
      omega
    · have hlt := Block.sizeOf_lt_of_mem_stmts h
      omega
  | importDecl | structDecl | letDecl | assign | returnStmt | breakStmt | continueStmt | expr =>
    cases h

/-- What holds of a statement if it holds of its children holds of every statement. -/
theorem Stmt.induction_on_children {motive : Stmt → Prop}
    (step : ∀ s, (∀ child ∈ s.children, motive child) → motive s) (s : Stmt) : motive s :=
  step s fun child _ => Stmt.induction_on_children step child
termination_by sizeOf s
decreasing_by exact Stmt.sizeOf_lt_of_mem_children ‹_›

/-! ## The plain row is a lenient one -/

/-- A row of symbols and a language that it belongs to. -/
def Style.Among (row : FreeMonoid Symbol) (L : Language Symbol) : Prop := row.toList ∈ L

namespace Style.Among

variable {row row' : FreeMonoid Symbol} {L M : Language Symbol} {α : Type}

theorem one : Among 1 1 := Language.nil_mem_one

theorem mul (h : Among row L) (h' : Among row' M) : Among (row * row') (L * M) :=
  Language.append_mem_mul h h'

theorem symbol (s : Symbol) : Among (plain.symbol s) (lenient.symbol s) := rfl

theorem optional (row : FreeMonoid Symbol) (L : Language Symbol) :
    Among (plain.optional row) (lenient.optional L) := Or.inl rfl

/-- The plain numeral has no zeros in front. -/
theorem numeral (text : String) (n : Nat) : Among (plain.numeral text n) (lenient.numeral text n) :=
  ⟨0, by simp [plain, FreeMonoid.toList_of]⟩

theorem elim {f : α → FreeMonoid Symbol} {g : α → Language Symbol} {x : Option α}
    (h : ∀ a ∈ x, Among (f a) (g a)) : Among (x.elim 1 f) (x.elim 1 g) := by
  cases x with
  | none => exact one
  | some a => exact h a rfl

theorem listed {f : α → FreeMonoid Symbol} {g : α → Language Symbol} {xs : List α}
    (h : ∀ x ∈ xs, Among (f x) (g x)) :
    Among (plain.listed (xs.map f)) (lenient.listed (xs.map g)) := by
  induction xs with
  | nil => exact one
  | cons x xs ih =>
    refine (h x List.mem_cons_self).mul ?_
    simp only [List.isEmpty_map]
    split
    · exact optional _ _
    · exact (symbol _).mul (ih fun y hy => h y (List.mem_cons_of_mem x hy))

theorem enclosed {f : α → FreeMonoid Symbol} {g : α → Language Symbol} {xs : List α}
    (opening closing : TokenKind) (h : ∀ x ∈ xs, Among (f x) (g x)) :
    Among (plain.enclosed opening closing (xs.map f))
      (lenient.enclosed opening closing (xs.map g)) :=
  ((symbol _).mul (listed h)).mul (symbol _)

theorem typeArgs (hfront : Among row L) {ts : List TypeExpr}
    (h : ∀ t ∈ ts, Among (t.write plain) (t.write lenient)) :
    Among (plain.typeArgs row (TypeExpr.writeAll plain ts))
      (lenient.typeArgs L (TypeExpr.writeAll lenient ts)) := by
  rw [TypeExpr.writeAll_eq_map, TypeExpr.writeAll_eq_map, Style.typeArgs, Style.typeArgs]
  simp only [List.isEmpty_map]
  split
  · exact optional _ _
  · exact hfront.mul (enclosed .lBracket .rBracket h)

theorem typeExpr (t : TypeExpr) : Among (t.write plain) (t.write lenient) := by
  induction t using TypeExpr.induction_on_children with
  | step t ih =>
    cases t with
    | named mark space name args =>
      exact ((elim fun s _ => (symbol _).mul (symbol _)).mul (symbol _)).mul (typeArgs one ih)
    | pointer mark kind pointee => exact (symbol _).mul (ih pointee (List.mem_singleton.2 rfl))
    | array mark length element =>
      exact (((symbol _).mul (numeral _ _)).mul (symbol _)).mul
        (ih element (List.mem_singleton.2 rfl))
    | slice mark element =>
      exact ((symbol _).mul (symbol _)).mul (ih element (List.mem_singleton.2 rfl))

theorem number (literal : NumberLiteral) : Among (literal.write plain) (literal.write lenient) := by
  unfold NumberLiteral.write
  cases literal.format with
  | none => exact symbol _
  | some format => exact numeral _ _

theorem expr (e : Expr) : Among (e.write plain) (e.write lenient) := by
  induction e using Expr.induction_on_children with
  | step e ih =>
    cases e with
    | binary mark op left right =>
      exact ((ih left (by simp [Expr.children])).mul (symbol _)).mul
        (ih right (by simp [Expr.children]))
    | range mark first last =>
      exact ((ih first (by simp [Expr.children])).mul (symbol _)).mul
        (ih last (by simp [Expr.children]))
    | unary mark op operand => exact (symbol _).mul (ih operand (by simp [Expr.children]))
    | number mark literal => exact number literal
    | call mark callee types args =>
      have hargs : ∀ arg ∈ args, Among (arg.write plain) (arg.write lenient) :=
        fun arg harg => ih arg (List.mem_cons_of_mem callee harg)
      rw [Expr.write, Expr.write, Expr.writeAll_eq_map, Expr.writeAll_eq_map]
      exact ((ih callee List.mem_cons_self).mul (typeArgs (symbol _) fun t _ => typeExpr t)).mul
        (enclosed _ _ hargs)
    | get mark object member =>
      exact ((ih object (by simp [Expr.children])).mul (symbol _)).mul (symbol _)
    | new mark type fields =>
      have hfields : ∀ f ∈ fields, Among (plain.field f) (lenient.field f) :=
        fun f hf => ((symbol _).mul (symbol _)).mul (ih f.2 (List.mem_map_of_mem hf))
      rw [Expr.write, Expr.write, Expr.writeFields_eq_map, Expr.writeFields_eq_map]
      exact ((symbol _).mul (typeExpr type)).mul (enclosed _ _ hfields)
    | group mark inner => exact ((symbol _).mul (ih inner (by simp [Expr.children]))).mul (symbol _)
    | staticArray mark type elements =>
      rw [Expr.write, Expr.write, Expr.writeAll_eq_map, Expr.writeAll_eq_map]
      exact (typeExpr type).mul (enclosed _ _ ih)
    | subscript mark object index =>
      exact (((ih object (by simp [Expr.children])).mul (symbol _)).mul
        (ih index (by simp [Expr.children]))).mul (symbol _)
    | string | bool | ident | null | zero => exact symbol _

theorem typedName (n : TypedName) : Among (n.write plain) (n.write lenient) :=
  ((symbol _).mul (symbol _)).mul (typeExpr n.type)

theorem generics (names : List Ident) : Among (plain.generics names) (lenient.generics names) := by
  unfold Style.generics
  split
  · exact one
  · exact enclosed _ _ fun name _ => symbol name.symbol

theorem effect (s : Stmt) : Among (s.writeEffect plain) (s.writeEffect lenient) := by
  cases s with
  | assign mark target value => exact ((expr target).mul (symbol _)).mul (expr value)
  | expr mark value => exact expr value
  | _ => exact one

theorem stmts {ss : List Stmt} (h : ∀ s ∈ ss, Among (s.write plain) (s.write lenient)) :
    Among (Stmt.writeAll plain ss) (Stmt.writeAll lenient ss) := by
  induction ss with
  | nil => exact one
  | cons s ss ih =>
    exact (h s List.mem_cons_self).mul (ih fun s' hs' => h s' (List.mem_cons_of_mem s hs'))

theorem block {b : Block} (h : ∀ s ∈ b.stmts, Among (s.write plain) (s.write lenient)) :
    Among (b.write plain) (b.write lenient) := by
  obtain ⟨span, ss⟩ := b
  exact ((symbol _).mul (stmts h)).mul (symbol _)

theorem stmt (s : Stmt) : Among (s.write plain) (s.write lenient) := by
  induction s using Stmt.induction_on_children with
  | step s ih =>
    cases s with
    | importDecl mark d => exact (((symbol _).mul (symbol _)).mul (symbol _)).mul (symbol _)
    | structDecl mark d =>
      exact (((symbol _).mul (symbol _)).mul (generics _)).mul
        (enclosed _ _ fun n _ => typedName n)
    | fnDecl mark head body =>
      exact (((((symbol _).mul (symbol _)).mul (generics _)).mul
        (enclosed _ _ fun n _ => typedName n)).mul (elim fun t _ => typeExpr t)).mul (block ih)
    | letDecl mark name type init =>
      exact ((((((symbol _).mul (symbol _)).mul (symbol _)).mul (elim fun t _ => typeExpr t)).mul
        (symbol _)).mul (expr init)).mul (symbol _)
    | scope mark body => exact block ih
    | assign mark target value =>
      exact (((expr target).mul (symbol _)).mul (expr value)).mul (symbol _)
    | returnStmt mark value => exact ((symbol _).mul (elim fun e _ => expr e)).mul (symbol _)
    | breakStmt | continueStmt => exact (symbol _).mul (symbol _)
    | forEach mark name iterable body =>
      exact ((((symbol _).mul (symbol _)).mul (symbol _)).mul (expr iterable)).mul (block ih)
    | forCounted mark init condition update body =>
      have hbody : ∀ s ∈ body.stmts, Among (s.write plain) (s.write lenient) :=
        fun s hs => ih s (by simp [Stmt.children, hs])
      exact (((((symbol _).mul (ih init (by simp [Stmt.children]))).mul (expr condition)).mul
        (symbol _)).mul (effect update)).mul (block hbody)
    | ifElse mark condition thenBlock elseBranch =>
      have hthen : ∀ s ∈ thenBlock.stmts, Among (s.write plain) (s.write lenient) :=
        fun s hs => ih s (by simp [Stmt.children, hs])
      have helse : Among (Stmt.writeElse plain elseBranch) (Stmt.writeElse lenient elseBranch) := by
        cases elseBranch with
        | none => exact one
        | some s => exact (symbol _).mul (ih s (by simp [Stmt.children]))
      exact (((symbol _).mul (expr condition)).mul (block hthen)).mul helse
    | expr mark value => exact (expr value).mul (symbol _)

end Style.Among

theorem SourceFile.plain_mem_lenient (f : SourceFile) :
    (f.write Style.plain).toList ∈ f.write Style.lenient :=
  Style.Among.stmts fun s _ => .stmt s

end Custody
