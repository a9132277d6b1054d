import Custody.Path
import Custody.Scope
import Custody.Token
import Custody.Ty.Substitution

/-!
# Units and bundles

A unit is one source file with everything that is known about it: the names that it declares, the
structs behind them, where its imports lead, and the types of its nodes. A bundle is a list of
units; the number of a unit is its place in the list, and no two units have the same path. The first
unit is the entry of the program.
-/

set_option autoImplicit false

namespace Custody

/-- A struct once it is declared; its members come in the order of their declaration. -/
structure StructDef where
  id : StructId
  name : String
  span : Span
  generics : List String
  members : List (String × Ty)
  deriving DecidableEq, Repr

namespace StructDef

/-- The declared type of a member. -/
def member? (d : StructDef) (name : String) : Option Ty := d.members.lookup name

/-- The type that the name of the struct stands for. -/
def ty (d : StructDef) : Ty := .struct d.id d.name d.generics.length

end StructDef

/-- An import, and the unit that it leads to. -/
structure ImportLink where
  localName : String
  path : String
  span : Span
  target : Option Nat
  deriving DecidableEq, Repr

/-- The types of nodes by number; the latest entry of a number counts and comes first. -/
structure TypeTable where
  entries : List (Nat × Ty)
  deriving DecidableEq, Repr

namespace TypeTable

/-- The table without entries. -/
def empty : TypeTable := ⟨[]⟩

/-- The table of what was recorded, in the order of recording. -/
def ofRecords (records : List (Nat × Ty)) : TypeTable := ⟨records.reverse⟩

/-- The type of a node. -/
def get? (t : TypeTable) (id : Nat) : Option Ty := t.entries.lookup id

/-- The numbers that have a type, in order. -/
def ids (t : TypeTable) : List Nat :=
  ((t.entries.map (·.1)).mergeSort fun a b => decide (a ≤ b)).eraseReps

end TypeTable

/-- One source file and what is known about it. -/
structure SourceUnit where
  id : Nat
  path : Path
  source : String
  tokens : List Token
  file : SourceFile
  imports : List ImportLink
  types : Scope
  functions : Scope
  namespaces : Scope
  structs : List StructDef
  table : TypeTable

namespace SourceUnit

/-- The import that a declaration asks for, before it is resolved. -/
def importLink? : Stmt → Option ImportLink
  | .importDecl _ d => some ⟨d.localName.name, d.path, d.pathSpan, none⟩
  | _ => none

/-- A unit of which nothing is declared yet; its type names are the builtin ones. -/
def fresh (id : Nat) (path : Path) (source : String) (tokens : List Token) (file : SourceFile) :
    SourceUnit :=
  { id, path, source, tokens, file
    imports := file.items.filterMap importLink?
    types := .ofList Ty.builtins
    functions := .empty
    namespaces := .empty
    structs := []
    table := .empty }

/-- The struct declarations at the top of the file. -/
def structDecls (u : SourceUnit) : List StructDecl :=
  u.file.items.filterMap fun
    | .structDecl _ d => some d
    | _ => none

/-- The heads of the function declarations at the top of the file. -/
def fnHeads (u : SourceUnit) : List FnHead :=
  u.file.items.filterMap fun
    | .fnDecl _ head _ => some head
    | _ => none

/-- Lets the import at a place lead to a unit. -/
def resolveImport (u : SourceUnit) (index target : Nat) : SourceUnit :=
  { u with imports := u.imports.modify index fun link => { link with target := some target } }

end SourceUnit

/-- Units by number. -/
structure Bundle where
  units : List SourceUnit

namespace Bundle

/-- The bundle without units. -/
def empty : Bundle := ⟨[]⟩

instance : Inhabited Bundle := ⟨empty⟩

/-- The number of units, which is the number of the next one. -/
def size (b : Bundle) : Nat := b.units.length

/-- The unit with a number. -/
def get? (b : Bundle) (id : Nat) : Option SourceUnit := b.units[id]?

/-- The number of the unit with a path. -/
def indexOf? (b : Bundle) (path : Path) : Option Nat :=
  b.units.findIdx? fun u => u.path.same path

/-- Adds a unit, unless there is one with the path already; gives the number of the unit. -/
def addUnit (b : Bundle) (path : Path) (source : String) (tokens : List Token)
    (file : SourceFile) : Nat × Bundle :=
  match b.indexOf? path with
  | some existing => (existing, b)
  | none => (b.size, ⟨b.units ++ [.fresh b.size path source tokens file]⟩)

/-- Changes the unit with a number. -/
def modify (b : Bundle) (id : Nat) (f : SourceUnit → SourceUnit) : Bundle :=
  ⟨b.units.modify id f⟩

/-- Lets every import that spells the path of a unit lead to that unit. -/
def linkByPath (b : Bundle) : Bundle :=
  let link (l : ImportLink) : ImportLink :=
    match b.indexOf? ⟨l.path⟩ with
    | some target => { l with target := some target }
    | none => l
  ⟨b.units.map fun u => { u with imports := u.imports.map link }⟩

/-- The first unit, where the program starts. -/
def entry? (b : Bundle) : Option SourceUnit := b.units.head?

/-- The declared struct with an id. -/
def struct? (b : Bundle) (id : StructId) : Option StructDef :=
  (b.get? id.unit).bind fun u => u.structs[id.index]?

/-! ## Members of struct types -/

/-- A struct type's declaration and arguments. -/
def structArgs? : Ty → Option (StructId × List Ty)
  | .struct id _ _ => some (id, [])
  | .inst id _ args => some (id, args)
  | _ => none

/-- The members of a struct type in order, with its arguments put in. -/
def members? (b : Bundle) (type : Ty) : Option (List (String × Ty)) := do
  let (id, args) ← structArgs? type
  let d ← b.struct? id
  return d.members.map fun (name, t) => (name, t.substitute args)

/-- The type of one member of a struct type, with its arguments put in. -/
def member? (b : Bundle) (type : Ty) (name : String) : Option Ty := do
  let (id, args) ← structArgs? type
  let d ← b.struct? id
  let t ← d.member? name
  return t.substitute args

end Bundle

end Custody
