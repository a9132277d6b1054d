import Custody.Typing.Resolve

/-!
# Declaring the names of a bundle

Three rounds over the units: the aliases of imports, then the structs without their members, then
the members of structs and the signatures of functions. So every name is known before a type that
mentions it is resolved, in whatever order and whichever unit it is declared. Of two declarations
of one name the first counts and the other is reported.
-/

set_option autoImplicit false

namespace Custody

variable {σ : Type}

namespace SourceUnit

/-- The report of a finding of the declare stage in this unit. -/
def declareReport (u : SourceUnit) (f : Finding) : Report := .ofFinding .declare u.path f

/-! ## Aliases -/

/-- Declares the alias of one import. -/
def declareAlias (u : SourceUnit) (link : ImportLink) : SourceUnit × List Finding :=
  match link.target with
  | none => (u, [⟨link.span, .unresolvedImport link.path⟩])
  | some target =>
    match u.namespaces.insertNew link.localName (.unit target) with
    | .ok namespaces => ({ u with namespaces }, [])
    | .error _ => (u, [⟨link.span, .duplicateDeclaration link.localName⟩])

/-- Declares the aliases of imports, in order. -/
def declareAliases (u : SourceUnit) : List ImportLink → SourceUnit × List Finding
  | [] => (u, [])
  | link :: links =>
    let (u, found) := u.declareAlias link
    let (u, more) := u.declareAliases links
    (u, found ++ more)

/-! ## Structs without members -/

/-- The struct of a declaration, before its members are known. -/
def shell (u : SourceUnit) (d : StructDecl) : StructDef :=
  { id := ⟨u.id, u.structs.length⟩
    name := d.name.name
    span := d.name.span
    generics := d.generics.map (·.name)
    members := [] }

/-- Declares one struct; gives its place among the unit's structs unless it was rejected. -/
def declareStruct (u : SourceUnit) (d : StructDecl) :
    SourceUnit × Option Nat × List Finding :=
  let shell := u.shell d
  match u.types.insertNew d.name.name shell.ty with
  | .ok types => ({ u with types, structs := u.structs ++ [shell] }, some shell.id.index, [])
  | .error _ => (u, none, [⟨d.name.span, .duplicateDeclaration d.name.name⟩])

/-- Declares structs, in order; gives the place of each. -/
def declareStructs (u : SourceUnit) :
    List StructDecl → SourceUnit × List (Option Nat) × List Finding
  | [] => (u, [], [])
  | d :: ds =>
    let (u, slot, found) := u.declareStruct d
    let (u, slots, more) := u.declareStructs ds
    (u, slot :: slots, found ++ more)

end SourceUnit

/-! ## Members and signatures -/

namespace Place

/-- The types of members. A repeated name is reported and left out; its type is resolved all the
same. -/
def members (place : Place) (builder : InstanceBuilder σ) (known : List (String × Ty)) :
    List TypedName → Checking σ (List (String × Ty))
  | [] => return known
  | m :: ms => do
    let type ← place.resolve builder m.type
    if known.any fun e => e.1 == m.name.name then
      Checking.report m.name.span (.duplicateDeclaration m.name.name)
      place.members builder known ms
    else
      place.members builder (known ++ [(m.name.name, type)]) ms

/-- The types of parameters. -/
def params (place : Place) (builder : InstanceBuilder σ) : List TypedName → Checking σ (List Ty)
  | [] => return []
  | p :: ps => do
    let type ← place.resolve builder p.type
    let types ← place.params builder ps
    return type :: types

/-- The signature of a function. -/
def signature (place : Place) (builder : InstanceBuilder σ) (head : FnHead) :
    Checking σ Signature := do
  let params ← place.params builder head.params
  let result ← match head.returnType with
    | some type => place.resolve builder type
    | none => pure .void
  return ⟨head.generics.length, params, result⟩

end Place

namespace Bundle

/-- The place of a declaration of a unit with the given generic parameters. -/
def placeOf (b : Bundle) (u : SourceUnit) (generics : List Ident) : Place :=
  ⟨b, u, generics.map (·.name)⟩

/-- The members of the accepted structs of a unit, with the place of each struct. -/
def resolveStructs (b : Bundle) (builder : InstanceBuilder σ) (u : SourceUnit) :
    List (StructDecl × Option Nat) → Checking σ (List (Nat × List (String × Ty)))
  | [] => return []
  | (_, none) :: ds => b.resolveStructs builder u ds
  | (d, some slot) :: ds => do
    let members ← (b.placeOf u d.generics).members builder [] d.members
    let rest ← b.resolveStructs builder u ds
    return (slot, members) :: rest

/-- The signatures of functions. -/
def resolveFns (b : Bundle) (builder : InstanceBuilder σ) (u : SourceUnit) :
    List FnHead → Checking σ (List (Ident × Signature))
  | [] => return []
  | head :: heads => do
    let signature ← (b.placeOf u head.generics).signature builder head
    let rest ← b.resolveFns builder u heads
    return (head.name, signature) :: rest

end Bundle

namespace SourceUnit

/-- Puts in the members of structs. -/
def setMembers (u : SourceUnit) (resolved : List (Nat × List (String × Ty))) : SourceUnit :=
  { u with
    structs := resolved.foldl
      (fun structs (slot, members) => structs.modify slot fun d => { d with members })
      u.structs }

/-- Declares functions, in order. -/
def declareFns (u : SourceUnit) : List (Ident × Signature) → SourceUnit × List Finding
  | [] => (u, [])
  | (name, signature) :: fns =>
    match u.functions.insertNew name.name signature.ty with
    | .ok functions => { u with functions }.declareFns fns
    | .error _ =>
      let (u, more) := u.declareFns fns
      (u, ⟨name.span, .duplicateDeclaration name.name⟩ :: more)

end SourceUnit

namespace Bundle

/-- Runs a round over the units in order; the round changes one unit and reports. -/
def eachUnit {α : Type} (f : SourceUnit → SourceUnit × α × List Finding) :
    List SourceUnit → List SourceUnit × List α × List Report
  | [] => ([], [], [])
  | u :: us =>
    let (u, a, found) := f u
    let (us, as, more) := eachUnit f us
    (u :: us, a :: as, found.map u.declareReport ++ more)

/-- The first round: aliases. -/
def declareAliases (b : Bundle) : Bundle × List Report :=
  let (units, _, reports) := eachUnit
    (fun u => let (u', found) := u.declareAliases u.imports; (u', (), found)) b.units
  (⟨units⟩, reports)

/-- The second round: structs without members. Gives the place of each struct declaration of each
unit. -/
def declareStructs (b : Bundle) : Bundle × List (List (Option Nat)) × List Report :=
  let (units, slots, reports) := eachUnit (fun u => u.declareStructs u.structDecls) b.units
  (⟨units⟩, slots, reports)

/-- The members and signatures of one unit. -/
def declareSignatures (b : Bundle) (builder : InstanceBuilder σ) (id : Nat)
    (slots : List (Option Nat)) (s : σ) : Bundle × List Report × σ :=
  match b.get? id with
  | none => (b, [], s)
  | some u =>
    let structs := b.resolveStructs builder u (u.structDecls.zip slots) s
    let fns := b.resolveFns builder u u.fnHeads structs.instances
    let (declared, found) := (u.setMembers structs.value).declareFns fns.value
    (b.modify id fun _ => declared,
      (structs.log.findings ++ fns.log.findings ++ found).map u.declareReport, fns.instances)

/-- The third round: members and signatures, for the units from number `id` on. -/
def declareSignaturesFrom (b : Bundle) (builder : InstanceBuilder σ) (id : Nat) :
    List (List (Option Nat)) → σ → Bundle × List Report × σ
  | [], s => (b, [], s)
  | slots :: rest, s =>
    let (b, found, s) := b.declareSignatures builder id slots s
    let (b, more, s) := b.declareSignaturesFrom builder (id + 1) rest s
    (b, found ++ more, s)

/-- Declares everything, with instances made by `builder`. -/
def declareWith (b : Bundle) (builder : InstanceBuilder σ) (s : σ) : Bundle × List Report × σ :=
  let (b, aliasReports) := b.declareAliases
  let (b, slots, structReports) := b.declareStructs
  let (b, reports, s) := b.declareSignaturesFrom builder 0 slots s
  (b, aliasReports ++ structReports ++ reports, s)

/-- Declares the names of all units. -/
def declare (b : Bundle) : Bundle × List Report :=
  let (b, reports, _) := b.declareWith .direct ()
  (b, reports)

end Bundle

end Custody
