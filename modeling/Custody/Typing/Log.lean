import Custody.Instance
import Custody.Report

/-!
# Passes that write down what they find

A check reads its surroundings, may ask for instances, and writes a log: the types of nodes and the
findings, both in order. `Checking` is the monad of such checks. `StructuralFault` is the error of a
check that cannot go on because the tree has the wrong shape; what was written before stays.
-/

set_option autoImplicit false

namespace Custody

/-- What a check writes down. -/
structure Log where
  types : List (Nat × Ty)
  findings : List Finding
  deriving DecidableEq, Repr

namespace Log

/-- The empty log. -/
def empty : Log := ⟨[], []⟩

/-- One log behind another. -/
def append (a b : Log) : Log := ⟨a.types ++ b.types, a.findings ++ b.findings⟩

instance : Inhabited Log := ⟨empty⟩
instance : Append Log := ⟨append⟩

end Log

/-- The result of a check: its value, the state of the instances, and what it wrote. -/
structure Checked (σ α : Type) where
  value : α
  instances : σ
  log : Log

/-- A check with instances in state `σ`. -/
def Checking (σ α : Type) : Type := σ → Checked σ α

namespace Checking

variable {σ α β : Type}

/-- Checks nothing. -/
protected def pure (a : α) : Checking σ α := fun s => ⟨a, s, .empty⟩

/-- One check and then another. -/
protected def bind (x : Checking σ α) (f : α → Checking σ β) : Checking σ β := fun s =>
  let r := x s
  let r' := f r.value r.instances
  ⟨r'.value, r'.instances, r.log ++ r'.log⟩

instance : Monad (Checking σ) where
  pure := Checking.pure
  bind := Checking.bind

/-- Writes down a finding. -/
def report (span : Span) (fault : Fault) : Checking σ Unit := fun s =>
  ⟨(), s, ⟨[], [⟨span, fault⟩]⟩⟩

/-- Writes down the type of a node. -/
def record (id : Nat) (type : Ty) : Checking σ Unit := fun s => ⟨(), s, ⟨[(id, type)], []⟩⟩

/-- Asks for an instance. -/
def build (f : σ → α × σ) : Checking σ α := fun s =>
  let (a, s) := f s
  ⟨a, s, .empty⟩

end Checking

/-- A tree of a shape that no check can handle. -/
inductive StructuralFault where
  | declarationInBody (what : String) (span : Span)
  | statementAtTopLevel (span : Span)
  | missingDeclaration (name : String) (span : Span)
  deriving DecidableEq, Repr

namespace StructuralFault

/-- Where the shape is wrong. -/
def span : StructuralFault → Span
  | declarationInBody _ s => s
  | statementAtTopLevel s => s
  | missingDeclaration _ s => s

/-- The wording of the fault. -/
def message : StructuralFault → String
  | declarationInBody what _ => what ++ " declaration inside a function body"
  | statementAtTopLevel _ => "only import, struct and fn are allowed at top level"
  | missingDeclaration name _ =>
    Fault.quoted name ++ " was never declared; the declare pass must run first"

end StructuralFault

/-- A check that stops at a tree of the wrong shape. -/
abbrev Walking (σ : Type) : Type → Type := ExceptT StructuralFault (Checking σ)

namespace Walking

variable {σ α : Type}

/-- A check that never stops. -/
def lift (x : Checking σ α) : Walking σ α := ExceptT.lift x

end Walking

end Custody
