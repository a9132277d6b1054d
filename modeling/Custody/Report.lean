import Custody.Path
import Custody.Ty

/-!
# Reports

What a pass finds wrong is a `Fault`; a `Report` says in which file and where, and which stage found
it. A `Journal` collects the reports of a run in order. It only grows, so that a checkpoint taken
before a stage tells what the stage has added.
-/

set_option autoImplicit false

namespace Custody

/-! ## Faults -/

/-- What can be wrong with a program. -/
inductive Fault where
  | unknownIdentifier (name : String)
  | unknownType (text : String)
  | unknownNamespace (name : String)
  | duplicateDeclaration (name : String)
  | unresolvedImport (path : String)
  | typeMismatch (expected found : Ty)
  | argumentCount (expected found : Nat)
  | genericArity (name : String) (expected found : Nat)
  | fieldCount (name : String) (expected found : Nat)
  | fieldOrder (expected found : String)
  | arrayLength (expected found : Nat)
  | notCallable (type : Ty)
  | notIndexable (type : Ty)
  | notIterable (type : Ty)
  | derefNonPointer (type : Ty)
  | invalidOperand (op : String) (type : Ty)
  | notAStruct (type : Ty)
  | unknownMember (type : Ty) (member : String)
  | invalidAssignTarget
  | voidBinding (name : String)
  | outsideLoop (word : String)
  | useAfterMove (name : String)
  | movedMemberAccess (name member : String)
  | fatal (message : String)
  deriving DecidableEq, Repr

namespace Fault

/-- A text in single quotes. -/
def quoted (text : String) : String := "'" ++ text ++ "'"

/-- The wording of a fault. -/
def message : Fault → String
  | unknownIdentifier name => "unknown identifier " ++ quoted name
  | unknownType text => "unknown type " ++ quoted text
  | unknownNamespace name => "unknown namespace " ++ quoted name
  | duplicateDeclaration name => "duplicate declaration of " ++ quoted name
  | unresolvedImport path => "unresolved import " ++ quoted path
  | typeMismatch expected found =>
    "type mismatch: expected " ++ expected.text ++ ", found " ++ found.text
  | argumentCount expected found =>
    "argument count mismatch: expected " ++ toString expected ++ ", found " ++ toString found
  | genericArity name expected found =>
    quoted name ++ " expects " ++ toString expected ++ " generic argument(s), found " ++
      toString found
  | fieldCount name expected found =>
    quoted name ++ " has " ++ toString expected ++ " field(s), found " ++ toString found
  | fieldOrder expected found =>
    "expected field " ++ quoted expected ++ ", found " ++ quoted found
  | arrayLength expected found =>
    "array of length " ++ toString expected ++ " initialised with " ++ toString found ++
      " element(s)"
  | notCallable type => "cannot call value of type " ++ type.text
  | notIndexable type => "cannot index value of type " ++ type.text
  | notIterable type => "cannot iterate over value of type " ++ type.text
  | derefNonPointer type => "cannot dereference non-pointer type " ++ type.text
  | invalidOperand op type => "operator " ++ quoted op ++ " cannot be applied to " ++ type.text
  | notAStruct type => "type " ++ type.text ++ " is not a struct"
  | unknownMember type member => "no member " ++ quoted member ++ " on " ++ type.text
  | invalidAssignTarget => "invalid assignment target"
  | voidBinding name => "cannot bind " ++ quoted name ++ " to a void value"
  | outsideLoop word => quoted word ++ " outside of a loop"
  | useAfterMove name => "use of already moved value " ++ quoted name
  | movedMemberAccess name member =>
    "access to member " ++ quoted member ++ " of already moved value " ++ quoted name
  | fatal message => message

/-- The code of a fault: 1000 for names, 2000 for types, 3000 for ownership, 1 for what stops a run
outright. -/
def code : Fault → String
  | unknownIdentifier _ | unknownType _ | unknownNamespace _ | duplicateDeclaration _
  | unresolvedImport _ => "E1000"
  | useAfterMove _ | movedMemberAccess _ _ => "E3000"
  | fatal _ => "E0001"
  | _ => "E2000"

end Fault

/-- A fault and where it is. -/
structure Finding where
  span : Span
  fault : Fault
  deriving DecidableEq, Repr

/-! ## Stages and reports -/

/-- The stages of a run, in order. -/
inductive Stage where
  | load | declare | typeCheck | borrowCheck | backend
  deriving DecidableEq, Repr, Inhabited

/-- The name of a stage. -/
def Stage.text : Stage → String
  | load => "load"
  | declare => "declare"
  | typeCheck => "type check"
  | borrowCheck => "borrow check"
  | backend => "backend"

/-- A second place that belongs to a report. -/
structure Note where
  span : Span
  message : String
  deriving DecidableEq, Repr

/-- One thing that is wrong. -/
structure Report where
  stage : Stage
  file : Path
  span : Span
  fault : Fault
  notes : List Note := []
  deriving DecidableEq, Repr

namespace Report

/-- The wording of the fault. -/
def message (r : Report) : String := r.fault.message

/-- The line that the report is about, from one on. -/
def line (r : Report) : Nat := r.span.line

/-- The character in the line that the report is about, from one on. -/
def character (r : Report) : Nat := r.span.column

/-- The report in one line. -/
def text (r : Report) : String :=
  r.file.text ++ ":" ++ toString r.line ++ ":" ++ toString r.character ++ ": " ++
    r.stage.text ++ " error: " ++ r.message

/-- The report of a finding in a file. -/
def ofFinding (stage : Stage) (file : Path) (f : Finding) : Report :=
  { stage, file, span := f.span, fault := f.fault }

end Report

/-! ## Journals -/

/-- The reports of a run, in order. -/
structure Journal where
  reports : List Report
  deriving DecidableEq, Repr

namespace Journal

/-- The journal without reports. -/
def empty : Journal := ⟨[]⟩

instance : Inhabited Journal := ⟨empty⟩

/-- Adds reports at the end. -/
def append (j : Journal) (reports : List Report) : Journal := ⟨j.reports ++ reports⟩

/-- A place in the journal: the number of reports so far. -/
def checkpoint (j : Journal) : Nat := j.reports.length

/-- The reports added after a checkpoint. -/
def since (j : Journal) (checkpoint : Nat) : List Report := j.reports.drop checkpoint

/-- Whether reports were added after a checkpoint. -/
def grewSince (j : Journal) (checkpoint : Nat) : Bool := checkpoint < j.reports.length

/-- Whether there are no reports. -/
def isEmpty (j : Journal) : Bool := j.reports.isEmpty

end Journal

end Custody
