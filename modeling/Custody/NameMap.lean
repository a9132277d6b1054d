/-!
# Maps from names

A small map from names, kept as a list of entries in the order in which the names came in. The
operations keep names distinct; a listing is sorted by name.
-/

set_option autoImplicit false

namespace Custody

/-- A map from names. -/
structure NameMap (α : Type) where
  entries : List (String × α)
  deriving Repr, DecidableEq

namespace NameMap

variable {α : Type}

/-- The map without names. -/
def empty : NameMap α := ⟨[]⟩

instance : Inhabited (NameMap α) := ⟨empty⟩

/-- What a name stands for. -/
def get? (m : NameMap α) (name : String) : Option α := m.entries.lookup name

/-- Whether the map has a name. -/
def contains (m : NameMap α) (name : String) : Bool := (m.get? name).isSome

/-- The number of names. -/
def size (m : NameMap α) : Nat := m.entries.length

/-- Whether the map has no names. -/
def isEmpty (m : NameMap α) : Bool := m.entries.isEmpty

/-- Adds a name, or gives back what it already stands for. -/
def insertNew (m : NameMap α) (name : String) (a : α) : Except α (NameMap α) :=
  match m.get? name with
  | some existing => .error existing
  | none => .ok ⟨m.entries ++ [(name, a)]⟩

/-- Replaces the first entry of a name. -/
def replaceFirst (name : String) (a : α) : List (String × α) → List (String × α)
  | [] => []
  | (n, b) :: rest => if n = name then (n, a) :: rest else (n, b) :: replaceFirst name a rest

/-- Lets a name stand for `a`, whatever it stood for before. -/
def set (m : NameMap α) (name : String) (a : α) : NameMap α :=
  if m.contains name then ⟨replaceFirst name a m.entries⟩ else ⟨m.entries ++ [(name, a)]⟩

/-- Removes a name. -/
def erase (m : NameMap α) (name : String) : NameMap α :=
  ⟨m.entries.filter fun e => e.1 != name⟩

/-- Changes what each name stands for. -/
def mapEntries {β : Type} (f : String → α → β) (m : NameMap α) : NameMap β :=
  ⟨m.entries.map fun e => (e.1, f e.1 e.2)⟩

/-- The map of a list of pairs; the first pair of a name counts. -/
def ofList (pairs : List (String × α)) : NameMap α :=
  pairs.foldl (fun m e => if m.contains e.1 then m else ⟨m.entries ++ [e]⟩) empty

/-- The entries in the order of their names. -/
def sorted (m : NameMap α) : List (String × α) :=
  m.entries.mergeSort fun a b => decide (a.1 ≤ b.1)

end NameMap

end Custody
