import Custody.FileAccess

/-!
# Where imports lead

An import names a file as seen from the directory of the importing one. The extension of source
files may be left out.
-/

set_option autoImplicit false

namespace Custody

/-- The extension of source files. -/
def sourceExtension : String := "liam"

/-- The path that an import stands for. -/
def importTarget (specifier : String) (importer : Path) : Path :=
  let spelled : Path := ⟨specifier⟩
  let target := if spelled.isAbsolute then spelled else (importer.parent?.getD ⟨"."⟩).join spelled
  if target.extension? = some sourceExtension.toList then target
  else ⟨target.text ++ "." ++ sourceExtension⟩

/-- The file that an import leads to, if there is one. -/
def FileAccess.resolveImport {m : Type → Type} [Monad m] (access : FileAccess m)
    (specifier : String) (importer : Path) : m (Option Path) := do
  let target := importTarget specifier importer
  if ← access.isFile target then return (← access.canonical target).toOption
  else return none

end Custody
