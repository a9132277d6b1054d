import Custody.Declaration
import Custody.Typing.Stmt

/-!
# Checking the types of a bundle

Each function body is checked against its declared signature. A unit whose items all have the right
shape gets a new type table; the first structural fault ends the pass, and the units from there on
keep the tables that they have.
-/

set_option autoImplicit false

namespace Custody

variable {σ : Type}

namespace Typing

open Checking

/-- Declares parameters with the types of a signature. -/
def declareParams (locals : ScopeStack) :
    List TypedName → List Ty → Checking σ ScopeStack
  | p :: ps, t :: ts => do
    let locals ← declareName locals p.name t
    declareParams locals ps ts
  | _, _ => return locals

/-- Checks a function: its body stands in the scope of its parameters. -/
def checkFn (bundle : Bundle) (unit : SourceUnit) (builder : InstanceBuilder σ) (mark : Mark)
    (head : FnHead) (block : Block) : Walking σ Unit := do
  match unit.functions.get? head.name.name with
  | some (.fn arity params result) =>
    let body : Body σ := ⟨bundle.placeOf unit head.generics, builder, result, 0⟩
    let locals ← .lift (declareParams .empty head.params params)
    let _ ← checkStmts body locals block.stmts
    .lift (record mark.id (.fn arity params result))
  | _ => throw (.missingDeclaration head.name.name head.name.span)

/-- Checks an item of a unit. -/
def checkItem (bundle : Bundle) (unit : SourceUnit) (builder : InstanceBuilder σ) :
    Stmt → Walking σ Unit
  | .importDecl mark d =>
    .lift (record mark.id ((unit.namespaces.get? d.localName.name).getD .any))
  | .structDecl mark d => .lift (record mark.id ((unit.types.get? d.name.name).getD .any))
  | .fnDecl mark head block => checkFn bundle unit builder mark head block
  | s => throw (.statementAtTopLevel s.span)

/-- Checks items, in order. -/
def checkItems (bundle : Bundle) (unit : SourceUnit) (builder : InstanceBuilder σ) :
    List Stmt → Walking σ Unit
  | [] => return ()
  | s :: ss => do
    checkItem bundle unit builder s
    checkItems bundle unit builder ss

end Typing

namespace Bundle

/-- The outcome of a type check of a bundle. -/
structure TypeCheck (σ : Type) where
  bundle : Bundle
  reports : List Report
  fault : Option StructuralFault
  instances : σ

/-- Checks the units with the given numbers, in order, up to a structural fault. -/
def checkUnits (b : Bundle) (builder : InstanceBuilder σ) : List Nat → σ → TypeCheck σ
  | [], s => ⟨b, [], none, s⟩
  | id :: ids, s =>
    match b.get? id with
    | none => checkUnits b builder ids s
    | some u =>
      let r := (Typing.checkItems b u builder u.file.items).run s
      let reports := r.log.findings.map (.ofFinding .typeCheck u.path)
      match r.value with
      | .error fault => ⟨b, reports, some fault, r.instances⟩
      | .ok () =>
        let table := TypeTable.ofRecords r.log.types
        let rest := checkUnits (b.modify id fun u => { u with table }) builder ids r.instances
        { rest with reports := reports ++ rest.reports }

/-- Checks all units, with instances made by `builder`. -/
def checkWith (b : Bundle) (builder : InstanceBuilder σ) (s : σ) : TypeCheck σ :=
  b.checkUnits builder (List.range b.size) s

/-- Checks all units. -/
def check (b : Bundle) : TypeCheck Unit := b.checkWith .direct ()

/-- Declares everything and, if that reports nothing, checks all units. -/
def declareAndCheckWith (b : Bundle) (builder : InstanceBuilder σ) (s : σ) : TypeCheck σ :=
  let (b, reports, s) := b.declareWith builder s
  if reports.isEmpty then b.checkWith builder s
  else ⟨b, reports, none, s⟩

/-- Declares everything and, if that reports nothing, checks all units. -/
def declareAndCheck (b : Bundle) : TypeCheck Unit := b.declareAndCheckWith .direct ()

end Bundle

end Custody
