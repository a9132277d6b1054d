import Custody.Loading
import Custody.Ownership.Check
import Custody.SignatureListing
import Custody.Typing.Check

/-!
# Compiling a program

A compilation runs the stages in order. A stage that reports something is the last one. Without a
backend to hand the checked bundle to, the last stage is that of the moves; a run may also be asked
to stop after any stage. The backend of the command line writes the signatures to a `Sink`.
-/

set_option autoImplicit false

namespace Custody

/-- A place to write a text to: what came through, and the error that ended the writing. -/
abbrev Sink : Type := String → String × Option String

/-- A place that takes every text. -/
def Sink.unbounded : Sink := fun text => (text, none)

/-- What takes a checked bundle: it gives what it wrote, and the error that ended its work. -/
abbrev Backend (m : Type → Type) : Type := Bundle → m (String × Option String)

/-- Writes the signatures of a bundle. -/
def Sink.backend {m : Type → Type} [Monad m] (sink : Sink) : Backend m := fun b =>
  let (output, failure) := sink b.signatureListing
  return (output, failure.map fun message => "failed to write output: " ++ message)

/-- What a run is asked to do. -/
structure CompileOptions where
  stopAfter : Option Stage
  sink : Option Sink

/-- What a run has done so far. -/
structure Compilation where
  bundle : Bundle
  journal : Journal
  /-- The stages that were started, in order. -/
  stages : List Stage
  /-- The stage whose reports ended the run. -/
  haltedAt : Option Stage
  /-- What was written. -/
  output : String

/-- The stages that check a program, in order. -/
def Stage.checks : List Stage := [.load, .declare, .typeCheck, .borrowCheck]

/-- All stages, in order. -/
def Stage.order : List Stage := Stage.checks ++ [.backend]

/-- The report of a tree of the wrong shape. -/
def StructuralFault.report (b : Bundle) (f : StructuralFault) : Report :=
  { stage := .typeCheck
    file := ((b.get? f.span.file).map SourceUnit.path).getD ⟨""⟩
    span := f.span
    fault := .fatal f.message }

namespace Compilation

variable {m : Type → Type} [Monad m]

/-- A run before its first stage. -/
def start : Compilation := ⟨.empty, .empty, [], none, ""⟩

/-- Whether nothing was reported. -/
def succeeded (c : Compilation) : Bool := c.journal.isEmpty

/-- Enters reports. -/
def enter (c : Compilation) (reports : List Report) : Compilation :=
  { c with journal := c.journal.append reports }

/-- Enters what a backend gave back. Its error is reported for the entry file. -/
def received (c : Compilation) (entry : Path) (result : String × Option String) : Compilation :=
  { c with output := result.1 }.enter (result.2.toList.map fun message =>
    { stage := .backend, file := entry, span := .nowhere, fault := .fatal message : Report })

/-- Runs one stage. -/
def runStage (access : FileAccess m) (backend : Option (Backend m)) (entry : Path) (stage : Stage)
    (c : Compilation) : m Compilation := do
  match stage with
  | .load =>
    match ← Loading.load access entry with
    | (bundle, .ok _) => return { c with bundle }
    | (bundle, .error faults) => return { c with bundle }.enter (faults.map LoadFault.report)
  | .declare =>
    let (bundle, reports) := c.bundle.declare
    return { c with bundle }.enter reports
  | .typeCheck =>
    let r := c.bundle.check
    return { c with bundle := r.bundle }.enter
      (r.reports ++ r.fault.toList.map (StructuralFault.report r.bundle))
  | .borrowCheck => return c.enter c.bundle.checkMoves
  | .backend =>
    match backend with
    | none => return c
    | some backend => return c.received entry (← backend c.bundle)

/-- Runs stages in order, up to one that reports something or that the run is asked to stop
after. -/
def runStages (access : FileAccess m) (stopAfter : Option Stage) (backend : Option (Backend m))
    (entry : Path) : List Stage → Compilation → m Compilation
  | [], c => return c
  | stage :: rest, c => do
    let after ← runStage access backend entry stage { c with stages := c.stages ++ [stage] }
    if after.journal.grewSince c.journal.checkpoint then
      return { after with haltedAt := some stage }
    else if stopAfter = some stage then return after
    else runStages access stopAfter backend entry rest after

/-- Compiles the program that starts with the given file, and hands it to a backend if there is
one. -/
def runWith (access : FileAccess m) (stopAfter : Option Stage) (backend : Option (Backend m))
    (entry : Path) : m Compilation :=
  runStages access stopAfter backend entry
    (if backend.isSome then Stage.order else Stage.checks) start

/-- Compiles the program that starts with the given file, as the options ask. -/
def run (access : FileAccess m) (options : CompileOptions) (entry : Path) : m Compilation :=
  runWith access options.stopAfter (options.sink.map Sink.backend) entry

end Compilation

end Custody
