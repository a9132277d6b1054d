import Custody.Bundle

/-!
# Listing the signatures of a bundle

One line for each unit, and below it one line for each import, struct and function. Imports and
structs come in the order of their declaration, functions by name.
-/

set_option autoImplicit false

namespace Custody

/-- Names of generic parameters in brackets, or nothing. -/
def genericsText : List String → String
  | [] => ""
  | names => "[" ++ ", ".intercalate names ++ "]"

/-- An import and the unit that it leads to. -/
def ImportLink.line (link : ImportLink) : String :=
  "  import " ++ link.localName ++ " = " ++
    (match link.target with
    | some target => "unit " ++ toString target
    | none => "?") ++ "\n"

/-- A struct with its members. -/
def StructDef.line (d : StructDef) : String :=
  "  struct " ++ d.name ++ genericsText d.generics ++ " \x7b " ++
    ", ".intercalate (d.members.map fun (name, type) => name ++ ": " ++ type.text) ++ " \x7d\n"

/-- A function with the types of its parameters and of its result. -/
def functionLine (name : String) (type : Ty) : Option String :=
  match type with
  | .fn _ params result =>
    some ("  fn " ++ name ++ "(" ++ ", ".intercalate (params.map Ty.text) ++ ") " ++
      result.text ++ "\n")
  | _ => none

/-- The lines of a unit. -/
def SourceUnit.signatureLines (u : SourceUnit) : List String :=
  ("unit " ++ toString u.id ++ " " ++ u.path.text ++ "\n") ::
    (u.imports.map ImportLink.line ++ u.structs.map StructDef.line ++
      u.functions.sorted.filterMap fun (name, type) => functionLine name type)

/-- The listing of a bundle. -/
def Bundle.signatureListing (b : Bundle) : String :=
  String.join (b.units.flatMap SourceUnit.signatureLines)

end Custody
