import Custody.Bundle
import Custody.Ownership.Walk

/-!
# Checking the moves of a bundle

Each function of each unit is walked through on its own. The types of nodes are those that the type
check recorded; a unit without them has no owned pointers.
-/

set_option autoImplicit false

namespace Custody

/-- The misuses in a unit. -/
def SourceUnit.misuses (u : SourceUnit) : List Ownership.Misuse :=
  u.file.items.flatMap (Ownership.checkItem u.table.get?)

/-- Reports the uses of moved values in all units. -/
def Bundle.checkMoves (b : Bundle) : List Report :=
  b.units.flatMap fun u => u.misuses.map (Ownership.Misuse.report u.path)

end Custody
