import Custody.Ownership.Walk
import Custody.Proofs.Names

/-!
# Paths through a body

What can happen to the locals of a function, told without ownership tables. An `Event` declares a
local, assigns to it, or examines a place that names it; names are resolved lexically, as events are
made. A `Flow` puts events in order, with branches and loops, and `Flow.Runs` lists the events on
each path through a flow: a branch takes one of two ways, and a loop runs its head and then any
number of rounds. A walk through a body takes a name in the update of a loop for what the loop's
body declares; the flow in which names leak in this way is made by the same functions.

`movedAway` reads off the events on a path whether the value of a local is gone behind them: the
last event that decides about the local is a move.

A local is known by the place of its declaration.
-/

set_option autoImplicit false

namespace Custody.Ownership

/-! ## Locals -/

/-- A local of a function: its name where it is declared, and its type, if one is recorded. -/
structure Binding where
  name : Ident
  type : Option Ty
  deriving DecidableEq, Repr

namespace Binding

/-- Where the local is declared. -/
def place (b : Binding) : Span := b.name.span

/-- Whether the local is an owned pointer. -/
def owned (b : Binding) : Bool := b.type.any Ty.isOwnedPointer

end Binding

/-- The locals in sight, the latest first. -/
abbrev Sight : Type := List Binding

namespace Sight

/-- The local that a name stands for: the latest one of that name. -/
def resolve (sight : Sight) (name : String) : Option Binding :=
  sight.find? fun b => b.name.name == name

/-- The places where the locals in sight are declared. -/
def places (sight : Sight) : List Span := sight.map Binding.place

end Sight

/-! ## Events -/

/-- What a body does at a place that names a local. -/
inductive Manner where
  | move
  | look
  | reach (member : Ident)
  deriving DecidableEq, Repr

/-- A place in a body that names something, and what is done there. -/
structure Occurrence where
  name : Ident
  manner : Manner
  deriving DecidableEq, Repr

namespace Occurrence

/-- Where the name stands. -/
def place (o : Occurrence) : Span := o.name.span

/-- What is wrong with the place if the value is gone. -/
def fault (o : Occurrence) : Fault :=
  match o.manner with
  | .reach member => .movedMemberAccess o.name.name member.name
  | _ => .useAfterMove o.name.name

end Occurrence

/-- What happens on a path. A place may name something that is no local. -/
inductive Event where
  | declare (b : Binding)
  | assign (b : Binding)
  | examine (o : Occurrence) (target : Option Binding)
  deriving DecidableEq, Repr

namespace Event

/-- Whether an event takes the value of the local declared at `place` away. -/
def moves (place : Span) : Event → Bool
  | declare _ => false
  | assign _ => false
  | examine o target => o.manner == .move && target.any fun b => b.place == place

/-- Whether an event decides if the local declared at `place` has a value behind it. -/
def decides (place : Span) : Event → Bool
  | declare b => b.place == place
  | assign b => b.place == place
  | examine o target => (examine o target).moves place

end Event

/-- Whether the last event that decides about a local takes its value away. -/
def movedAway (place : Span) (events : List Event) : Bool :=
  (events.filter (Event.decides place)).getLast?.any (Event.moves place)

/-! ## Flows -/

/-- Events in order, with branches and loops. A loop goes through its head once and then through
any number of rounds of `body` and `again`. -/
inductive Flow where
  | idle
  | event (e : Event)
  | seq (first second : Flow)
  | either (left right : Flow)
  | loop (head body again : Flow)
  deriving DecidableEq, Repr

namespace Flow

/-- The events on the paths through a flow. -/
inductive Runs : Flow → List Event → Prop
  | idle : Runs .idle []
  | event (e : Event) : Runs (.event e) [e]
  | seq {f g : Flow} {es es' : List Event} :
      Runs f es → Runs g es' → Runs (.seq f g) (es ++ es')
  | left {f g : Flow} {es : List Event} : Runs f es → Runs (.either f g) es
  | right {f g : Flow} {es : List Event} : Runs g es → Runs (.either f g) es
  | enter {head body again : Flow} {es : List Event} :
      Runs head es → Runs (.loop head body again) es
  | round {head body again : Flow} {es bs as : List Event} :
      Runs (.loop head body again) es → Runs body bs → Runs again as →
        Runs (.loop head body again) (es ++ (bs ++ as))

/-- The places that a flow examines, each once, and the locals that they name. -/
def examined : Flow → List (Occurrence × Option Binding)
  | idle => []
  | event (.examine o target) => [(o, target)]
  | event _ => []
  | seq f g => f.examined ++ g.examined
  | either f g => f.examined ++ g.examined
  | loop head body _ => head.examined ++ body.examined

/-- All events of a flow. -/
def events : Flow → List Event
  | idle => []
  | event e => [e]
  | seq f g => f.events ++ g.events
  | either f g => f.events ++ g.events
  | loop head body again => head.events ++ body.events ++ again.events

/-- Whether a flow has no loop. -/
def straight : Flow → Bool
  | idle => true
  | event _ => true
  | seq f g => f.straight && g.straight
  | either f g => f.straight && g.straight
  | loop .. => false

/-- The flow that declares locals, in order. -/
def declares : List Binding → Flow
  | [] => idle
  | b :: bs => seq (event (.declare b)) (declares bs)

end Flow

/-! ## The flow of a tree -/

/-- The flow of a place that names something. -/
def flowUse (sight : Sight) (name : Ident) (manner : Manner) : Flow :=
  .event (.examine ⟨name, manner⟩ (sight.resolve name.name))

/-- The manner of a name in a consuming place or another. -/
def mannerOf (consuming : Bool) : Manner := if consuming then .move else .look

mutual
/-- The flow of an expression in a consuming place or another. Both operands of every operator are
evaluated. -/
def flowExpr (sight : Sight) (consuming : Bool) : Expr → Flow
  | .ident _ name => flowUse sight name (mannerOf consuming)
  | .binary _ op left right =>
    .seq (flowExpr sight (binaryConsumes op) left) (flowExpr sight (binaryConsumes op) right)
  | .unary _ op operand => flowExpr sight (unaryConsumes op) operand
  | .call _ callee _ args => .seq (flowExpr sight false callee) (flowExprs sight args)
  | .get _ object member =>
    match object.ident? with
    | some name => flowUse sight name (.reach member)
    | none => flowExpr sight false object
  | .new _ _ fields => flowFields sight fields
  | .group _ inner => flowExpr sight consuming inner
  | .staticArray _ _ elements => flowExprs sight elements
  | .subscript _ object index => .seq (flowExpr sight false object) (flowExpr sight true index)
  | .range _ first last => .seq (flowExpr sight true first) (flowExpr sight true last)
  | .number _ _ => .idle
  | .string _ _ => .idle
  | .bool _ _ => .idle
  | .null _ => .idle
  | .zero _ => .idle

/-- The flow of expressions in consuming places. -/
def flowExprs (sight : Sight) : List Expr → Flow
  | [] => .idle
  | e :: es => .seq (flowExpr sight true e) (flowExprs sight es)

/-- The flow of the values of fields. -/
def flowFields (sight : Sight) : List (Ident × Expr) → Flow
  | [] => .idle
  | (_, e) :: fields => .seq (flowExpr sight true e) (flowFields sight fields)
end

/-- The flow of an assignment to an expression, behind the assigned value. -/
def flowTarget (sight : Sight) (target : Expr) : Flow :=
  match target.ident? with
  | some name =>
    match sight.resolve name.name with
    | some b => .event (.assign b)
    | none => .idle
  | none => flowExpr sight false target

/-- The local that a statement declares for the statements behind it. -/
def letBinding (typeOf : Nat → Option Ty) : Stmt → List Binding
  | .letDecl mark name _ _ => [⟨name, typeOf mark.id⟩]
  | _ => []

/-- The locals that statements declare, the latest first. -/
def letBindings (typeOf : Nat → Option Ty) : List Stmt → List Binding
  | [] => []
  | s :: ss => letBindings typeOf ss ++ letBinding typeOf s

/-- The local that stands for the elements of `iterable`. -/
def eachBinding (typeOf : Nat → Option Ty) (name : Ident) (iterable : Expr) : Binding :=
  ⟨name, (typeOf iterable.id).bind listElement?⟩

/-- What the update of a counted loop sees: the locals in sight of the loop's body. Where names
leak, also those that the body declares. -/
def updateSight (typeOf : Nat → Option Ty) (leaks : Bool) (body : Block) (sight : Sight) : Sight :=
  if leaks then letBindings typeOf body.stmts ++ sight else sight

mutual
/-- The flow of a statement. A missing `else` is an empty branch; `return`, `break` and `continue`
do not end a path. -/
def flowStmt (typeOf : Nat → Option Ty) (leaks : Bool) (sight : Sight) : Stmt → Flow
  | .importDecl _ _ => .idle
  | .structDecl _ _ => .idle
  | .fnDecl _ _ _ => .idle
  | .breakStmt _ => .idle
  | .continueStmt _ => .idle
  | .letDecl mark name _ init =>
    .seq (flowExpr sight true init) (.event (.declare ⟨name, typeOf mark.id⟩))
  | .scope _ block => flowBlock typeOf leaks sight block
  | .assign _ target value => .seq (flowExpr sight true value) (flowTarget sight target)
  | .returnStmt _ none => .idle
  | .returnStmt _ (some value) => flowExpr sight true value
  | .forEach _ name iterable block =>
    let element := eachBinding typeOf name iterable
    .loop (flowExpr sight true iterable)
      (.seq (.event (.declare element)) (flowBlock typeOf leaks (element :: sight) block)) .idle
  | .forCounted _ init condition update block =>
    let inner := letBinding typeOf init ++ sight
    .loop (.seq (flowStmt typeOf leaks sight init) (flowExpr inner true condition))
      (.seq (flowBlock typeOf leaks inner block)
        (flowStmt typeOf leaks (updateSight typeOf leaks block inner) update))
      (flowExpr inner true condition)
  | .ifElse _ condition thenBlock elseBranch =>
    .seq (flowExpr sight true condition)
      (.either (flowBlock typeOf leaks sight thenBlock) (flowElse typeOf leaks sight elseBranch))
  | .expr _ value => flowExpr sight true value

/-- The flow of an `else`, if there is one. -/
def flowElse (typeOf : Nat → Option Ty) (leaks : Bool) (sight : Sight) : Option Stmt → Flow
  | none => .idle
  | some s => flowStmt typeOf leaks sight s

/-- The flow of a block. -/
def flowBlock (typeOf : Nat → Option Ty) (leaks : Bool) (sight : Sight) : Block → Flow
  | .mk _ stmts => flowStmts typeOf leaks sight stmts

/-- The flow of statements: each one sees the locals declared before it. -/
def flowStmts (typeOf : Nat → Option Ty) (leaks : Bool) (sight : Sight) : List Stmt → Flow
  | [] => .idle
  | s :: ss =>
    .seq (flowStmt typeOf leaks sight s) (flowStmts typeOf leaks (letBinding typeOf s ++ sight) ss)
end

/-- The locals of parameters with the types of a signature, in order. -/
def paramBindings : List TypedName → List Ty → List Binding
  | p :: ps, t :: ts => ⟨p.name, some t⟩ :: paramBindings ps ts
  | _, _ => []

/-- The parameters of a function. They are known once the function has a type. -/
def fnParams (typeOf : Nat → Option Ty) (mark : Mark) (head : FnHead) : List Binding :=
  match typeOf mark.id with
  | some (.fn _ types _) => paramBindings head.params types
  | _ => []

/-- The flow of the parameters of a function and then of its body. -/
def fnFlow (typeOf : Nat → Option Ty) (leaks : Bool) (mark : Mark) (head : FnHead) (body : Block) :
    Flow :=
  let params := fnParams typeOf mark head
  .seq (.declares params) (flowBlock typeOf leaks params.reverse body)

/-- The flow of a function, in which no names leak. -/
abbrev flowFn (typeOf : Nat → Option Ty) (mark : Mark) (head : FnHead) (body : Block) : Flow :=
  fnFlow typeOf false mark head body

end Custody.Ownership
