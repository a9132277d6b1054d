import Custody.NameMap
import Custody.Ty

/-!
# Ownership tables

A table says of each owned pointer in sight whether its scope still owns it or where it was moved.
It is keyed by name; a binding is known by the place of its declaration. When a binding is hidden by
a later one of the same name, its last state is kept aside, so that the end of a block can still
find it.

A nested block works on a copy. `Table.mergeBlock` takes over what a block did to the bindings
around it, and `Table.mergeBranches` joins two blocks of which one is run.
-/

set_option autoImplicit false

namespace Custody.Ownership

/-- Who holds the value of an owned pointer. -/
inductive Owner where
  | scope
  | moved
  deriving DecidableEq, Repr, Inhabited

/-- The state of one binding. -/
structure Status where
  owner : Owner
  type : Ty
  declaredAt : Span
  movedAt : Option Span
  deriving DecidableEq, Repr, Inhabited

namespace Status

/-- Whether the value was moved away. -/
def isMoved (s : Status) : Bool := s.owner == .moved

/-- Whether two states are of one binding. -/
def sameBinding (s t : Status) : Bool := s.declaredAt == t.declaredAt

/-- The state of a binding that holds a value. -/
def fresh (type : Ty) (declaredAt : Span) : Status := ⟨.scope, type, declaredAt, none⟩

/-- The state after a move. -/
def move (s : Status) (span : Option Span) : Status := { s with owner := .moved, movedAt := span }

/-- The state after a new value came in. -/
def refill (s : Status) : Status := { s with owner := .scope, movedAt := none }

end Status

/-- The bindings in sight, and the last states of hidden ones, latest first. -/
structure Table where
  entries : NameMap Status
  hidden : List Status
  deriving DecidableEq, Repr

namespace Table

/-- The table without bindings. -/
def empty : Table := ⟨.empty, []⟩

instance : Inhabited Table := ⟨empty⟩

/-- The state of the binding that a name stands for. -/
def get? (t : Table) (name : String) : Option Status := t.entries.get? name

/-- The state of the binding that a name stands for, if its value was moved away. -/
def moved? (t : Table) (name : String) : Option Status := (t.get? name).filter Status.isMoved

/-- The hidden states after a binding declared elsewhere takes the name of `previous`. -/
def hide (t : Table) (previous : Option Status) (declaredAt : Span) : List Status :=
  match previous with
  | some status => if status.declaredAt = declaredAt then t.hidden else status :: t.hidden
  | none => t.hidden

/-- Lets a name stand for a new owned binding. -/
def own (t : Table) (name : String) (type : Ty) (declaredAt : Span) : Table :=
  ⟨t.entries.set name (.fresh type declaredAt), t.hide (t.get? name) declaredAt⟩

/-- Lets a name stand for a binding that owns nothing. -/
def release (t : Table) (name : String) (declaredAt : Span) : Table :=
  ⟨t.entries.erase name, t.hide (t.get? name) declaredAt⟩

/-- Moves the value of a name away at `span`, or gives back the state of a binding that has none
any more. A name that owns nothing is left alone. -/
def consume (t : Table) (name : String) (span : Span) : Except Status Table :=
  match t.get? name with
  | none => .ok t
  | some status =>
    if status.isMoved then .error status
    else .ok { t with entries := t.entries.set name (status.move (some span)) }

/-- Gives a name a new value. -/
def reown (t : Table) (name : String) : Table :=
  match t.get? name with
  | none => t
  | some status => { t with entries := t.entries.set name status.refill }

/-- The last state of the binding that `status` describes and `name` stood for. -/
def finalState (t : Table) (name : String) (status : Status) : Option Status :=
  match (t.get? name).filter (·.sameBinding status) with
  | some after => some after
  | none => t.hidden.find? (·.sameBinding status)

/-- Takes over what a block that is always run did to the bindings around it. -/
def mergeBlock (t inner : Table) : Table :=
  { t with
    entries := t.entries.mapEntries fun name status =>
      (inner.finalState name status).getD status }

/-- The state of a binding after one of two branches was run: moved if both moved it, and otherwise
owned. -/
def joinState (status : Status) (thenState elseState : Option Status) : Status :=
  let thenMoved := (thenState.map Status.isMoved).getD status.isMoved
  let elseMoved := (elseState.map Status.isMoved).getD status.isMoved
  if thenMoved && elseMoved then
    status.move ((thenState.bind Status.movedAt).or status.movedAt)
  else status.refill

/-- Takes over what two branches did, of which one is run. -/
def mergeBranches (t thenTable elseTable : Table) : Table :=
  { t with
    entries := t.entries.mapEntries fun name status =>
      joinState status (thenTable.finalState name status) (elseTable.finalState name status) }

/-- The number of bindings in sight. -/
def size (t : Table) : Nat := t.entries.size

/-- Whether no binding is in sight. -/
def isEmpty (t : Table) : Bool := t.entries.isEmpty

end Table

end Custody.Ownership
