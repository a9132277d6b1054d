import Custody.Bundle

/-!
# Instances of generic declarations

The passes ask for instances of generic structs and functions through an `InstanceBuilder`. The
`direct` builder makes each instance anew. The `memo` builder keeps what it made and hands it out
again; a struct is looked up by its declaration and arguments, a function by its signature and
arguments.
-/

set_option autoImplicit false

namespace Custody

/-- A way to make instances, with a state of its own. -/
structure InstanceBuilder (σ : Type) where
  struct : StructDef → List Ty → σ → Ty × σ
  fn : Signature → List Ty → σ → Signature × σ

/-- The instance of a struct with the given arguments. -/
def StructDef.instantiate (d : StructDef) (args : List Ty) : Ty := .inst d.id d.name args

/-- Makes each instance anew. -/
def InstanceBuilder.direct : InstanceBuilder Unit where
  struct d args _ := (d.instantiate args, ())
  fn s args _ := (s.substitute args, ())

/-- The instances made so far. -/
structure Memo where
  structs : List ((StructId × List Ty) × Ty)
  fns : List ((Signature × List Ty) × Signature)

namespace Memo

/-- The memo without instances. -/
def empty : Memo := ⟨[], []⟩

instance : Inhabited Memo := ⟨empty⟩

/-- The instance of a struct: the one made before, or a new one. -/
def struct (m : Memo) (d : StructDef) (args : List Ty) : Ty × Memo :=
  match m.structs.lookup (d.id, args) with
  | some hit => (hit, m)
  | none =>
    let made := d.instantiate args
    (made, { m with structs := ((d.id, args), made) :: m.structs })

/-- The instance of a function: the one made before, or a new one. -/
def fn (m : Memo) (s : Signature) (args : List Ty) : Signature × Memo :=
  match m.fns.lookup (s, args) with
  | some hit => (hit, m)
  | none =>
    let made := s.substitute args
    (made, { m with fns := ((s, args), made) :: m.fns })

/-- The number of struct instances made so far. -/
def structCount (m : Memo) : Nat := m.structs.length

end Memo

/-- Keeps what was made and hands it out again. -/
def InstanceBuilder.memo : InstanceBuilder Memo where
  struct d args m := m.struct d args
  fn s args m := m.fn s args

end Custody
