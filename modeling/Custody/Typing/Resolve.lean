import Custody.Typing.Log

/-!
# What type expressions stand for

A name is a generic parameter of the enclosing declaration, a struct or a builtin of the unit, or,
behind an alias, of an imported unit. A struct with generic parameters needs as many arguments. What
cannot be resolved is reported and stands for `any`.
-/

set_option autoImplicit false

namespace Custody

/-- Where a type expression or a function body stands: the bundle, the unit, and the generic
parameters of the declaration around it. -/
structure Place where
  bundle : Bundle
  unit : SourceUnit
  generics : List String

namespace Place

variable {σ : Type}

/-- What a name in front of type arguments stands for: a type that takes none, or a struct that
takes `arity` many. -/
inductive Named where
  | settled (type : Ty)
  | template (base : Ty) (arity : Nat)

/-- The number of arguments that a type wants. -/
def arityOf : Ty → Nat
  | .struct _ _ arity => arity
  | _ => 0

/-- The named type of a unit. -/
def namedIn (owner : Option SourceUnit) (type : TypeExpr) (name : Ident) (argCount : Nat) :
    Checking σ Named := do
  match owner.bind fun u => u.types.get? name.name with
  | none =>
    Checking.report name.span (.unknownType type.text)
    return .settled .any
  | some base =>
    let arity := arityOf base
    if arity ≠ argCount then
      Checking.report type.span (.genericArity name.name arity argCount)
    if arity = 0 then return .settled base
    else return .template base arity

/-- What the name in a type expression stands for. Generic parameters come before the names of the
unit and take no arguments. -/
def named (place : Place) (type : TypeExpr) (space : Option Ident) (name : Ident)
    (argCount : Nat) : Checking σ Named := do
  match space with
  | some unitName =>
    match place.unit.namespaces.get? unitName.name with
    | some (.unit target) => namedIn (place.bundle.get? target) type name argCount
    | _ =>
      Checking.report unitName.span (.unknownNamespace unitName.name)
      return .settled .any
  | none =>
    match place.generics.idxOf? name.name with
    | some index =>
      if argCount ≠ 0 then
        Checking.report type.span (.genericArity name.name 0 argCount)
      return .settled (.generic index name.name)
    | none => namedIn (some place.unit) type name argCount

/-- The instance of a struct with the given arguments, cut or filled up to its arity. -/
def instanceOf (place : Place) (builder : InstanceBuilder σ) (base : Ty) (arity : Nat)
    (args : List Ty) : Checking σ Ty :=
  match base.structBase?.bind place.bundle.struct? with
  | some d => Checking.build (builder.struct d (Ty.fitArgs args arity))
  | none => pure .any

mutual
/-- What a type expression stands for. -/
def resolve (place : Place) (builder : InstanceBuilder σ) : TypeExpr → Checking σ Ty
  | .pointer _ kind pointee => do
    let t ← place.resolve builder pointee
    return .pointer kind t
  | .array _ length element => do
    let t ← place.resolve builder element
    return .array length t
  | .slice _ element => do
    let t ← place.resolve builder element
    return .slice t
  | .named mark space name args => do
    match ← place.named (.named mark space name args) space name args.length with
    | .settled t => return t
    | .template base arity => do
      let ts ← place.resolveAll builder args
      place.instanceOf builder base arity ts

/-- What each of some type expressions stands for. -/
def resolveAll (place : Place) (builder : InstanceBuilder σ) : List TypeExpr → Checking σ (List Ty)
  | [] => return []
  | t :: ts => do
    let r ← place.resolve builder t
    let rs ← place.resolveAll builder ts
    return r :: rs
end

end Place

end Custody
