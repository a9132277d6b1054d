import Custody.Ty

/-!
# Substitution of generic parameters

A generic parameter is a place in a list of arguments. A place behind the end of the list becomes
`any`. A function whose parameters are substituted takes no type arguments any more.
-/

set_option autoImplicit false

namespace Custody

namespace Ty

mutual
/-- Puts the arguments for the generic parameters of a type. -/
def substitute (args : List Ty) : Ty → Ty
  | generic index _ => args[index]?.getD any
  | pointer kind t => pointer kind (substitute args t)
  | array length t => array length (substitute args t)
  | slice t => slice (substitute args t)
  | fn _ ps r => fn 0 (substituteList args ps) (substitute args r)
  | inst id name as => inst id name (substituteList args as)
  | t => t

/-- Puts the arguments for the generic parameters of each type. -/
def substituteList (args : List Ty) : List Ty → List Ty
  | [] => []
  | t :: ts => substitute args t :: substituteList args ts
end

theorem substituteList_eq_map (args ts : List Ty) :
    substituteList args ts = ts.map (substitute args) := by
  induction ts with
  | nil => rfl
  | cons t ts ih => simp [substituteList, ih]

/-- A list of exactly `arity` arguments: the rest is cut off, and what is missing is `any`. -/
def fitArgs (args : List Ty) (arity : Nat) : List Ty :=
  args.take arity ++ List.replicate (arity - args.length) any

end Ty

/-- Puts the arguments for the generic parameters of a signature. -/
def Signature.substitute (args : List Ty) (s : Signature) : Signature :=
  ⟨0, s.params.map (Ty.substitute args), s.result.substitute args⟩

end Custody
