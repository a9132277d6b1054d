import Custody.NameMap
import Custody.Ty

/-!
# Scopes

A scope gives names their types; a name is declared once in it. The locals of a function form a
stack of scopes, innermost first. A name is looked up from the inside out and declared in the
innermost scope only.
-/

set_option autoImplicit false

namespace Custody

/-- The names of one level and their types. -/
abbrev Scope : Type := NameMap Ty

/-- Scopes inside one another; there is always an innermost one. -/
structure ScopeStack where
  inner : Scope
  outer : List Scope
  deriving Repr, DecidableEq

namespace ScopeStack

/-- One empty scope. -/
def empty : ScopeStack := ⟨.empty, []⟩

instance : Inhabited ScopeStack := ⟨empty⟩

/-- Opens a scope inside the innermost one. -/
def push (s : ScopeStack) : ScopeStack := ⟨.empty, s.inner :: s.outer⟩

/-- Closes the innermost scope, unless it is the only one. -/
def pop (s : ScopeStack) : ScopeStack :=
  match s.outer with
  | [] => s
  | inner :: outer => ⟨inner, outer⟩

/-- Declares a name in the innermost scope, or gives back the type that it has there. -/
def declare (s : ScopeStack) (name : String) (type : Ty) : Except Ty ScopeStack :=
  match s.inner.insertNew name type with
  | .ok inner => .ok { s with inner }
  | .error existing => .error existing

/-- The type of a name in the innermost scope that has it. -/
def lookup (s : ScopeStack) (name : String) : Option Ty :=
  (s.inner :: s.outer).findSome? fun scope => scope.get? name

/-- The number of scopes. -/
def depth (s : ScopeStack) : Nat := s.outer.length + 1

end ScopeStack

end Custody
