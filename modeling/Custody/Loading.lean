import Custody.Bundle
import Custody.Grammar.File
import Custody.ImportPath
import Custody.Report
import Custody.Token.Lexer

/-!
# Loading a program

The entry file becomes the first unit of a bundle, and the files that it imports, directly or
through others, become further units, each before the files that it imports itself. A file that is
a unit already is not read again, so imports may go in circles. The first file that cannot be loaded
ends the loading; the units before it stay.
-/

set_option autoImplicit false

namespace Custody

/-- Why a file cannot be loaded. -/
inductive LoadFault where
  | unreadable (file : Path) (error : FileError)
  | lexical (file : Path) (span : Span) (message : String)
  | grammatical (file : Path) (span : Span) (message : String)
  | unresolvedImport (file : Path) (span : Span) (specifier : String)
  | chainTooLong (file : Path)
  deriving DecidableEq, Repr

/-- The report of a fault, in the file that has it. -/
def LoadFault.report : LoadFault → Report
  | unreadable file error =>
    { stage := .load, file, span := .nowhere
      fault := .fatal ("cannot read " ++ file.text ++ ": " ++ error.message) }
  | lexical file span message =>
    { stage := .load, file, span, fault := .fatal ("lexical error: " ++ message) }
  | grammatical file span message =>
    { stage := .load, file, span, fault := .fatal ("parse error: " ++ message) }
  | unresolvedImport file span specifier =>
    { stage := .load, file, span, fault := .unresolvedImport specifier }
  | chainTooLong file =>
    { stage := .load, file, span := .nowhere, fault := .fatal "imports are nested too deeply" }

/-- The tokens and the tree of a file, or all its lexical faults, or all its grammatical ones. -/
def readTree (file : Path) (source : String) (id : Nat) :
    Except (List LoadFault) (List Token × SourceFile) :=
  let tokens := tokenize source id
  match tokens.filter (·.kind == .error) with
  | [] =>
    match parseTokens tokens with
    | some (.ok tree) => .ok (tokens, tree)
    | some (.error errors) => .error (errors.map fun e => .grammatical file e.span e.message)
    | none => .error []
  | bad => .error (bad.map fun t => .lexical file t.span t.value)

namespace Loading

variable {m : Type → Type} [Monad m]

/-- The bundle after a load, and the number of the unit or what went wrong. -/
abbrev Loaded : Type := Bundle × Except (List LoadFault) Nat

/-- Loads the files that the unit `id` imports, in order, from the import with number `index` on. -/
def loadImports (access : FileAccess m) (load : Path → Bundle → m Loaded) (file : Path) (id : Nat) :
    List ImportLink → Nat → Bundle → m Loaded
  | [], _, b => return (b, .ok id)
  | link :: links, index, b => do
    match ← access.resolveImport link.path file with
    | none => return (b, .error [.unresolvedImport file link.span link.path])
    | some path =>
      match ← load path b with
      | (b, .error faults) => return (b, .error faults)
      | (b, .ok target) =>
        loadImports access load file id links (index + 1)
          (b.modify id (·.resolveImport index target))

/-- Loads a file and what it imports, through at most `fuel` files in a row. -/
def loadFile (access : FileAccess m) : Nat → Path → Bundle → m Loaded
  | 0, file, b => return (b, .error [.chainTooLong file])
  | fuel + 1, file, b => do
    match b.indexOf? file with
    | some id => return (b, .ok id)
    | none =>
      match ← access.read file with
      | .error error => return (b, .error [.unreadable file error])
      | .ok source =>
        match readTree file source b.size with
        | .error faults => return (b, .error faults)
        | .ok (tokens, tree) =>
          let (id, b) := b.addUnit file source tokens tree
          loadImports access (loadFile access fuel) file id
            (tree.items.filterMap SourceUnit.importLink?) 0 b

/-- Loads an entry file into an empty bundle. -/
def load (access : FileAccess m) (entry : Path) : m Loaded := do
  match ← access.canonical entry with
  | .error error => return (.empty, .error [.unreadable entry error])
  | .ok file => loadFile access access.chainLimit file .empty

end Loading

end Custody
