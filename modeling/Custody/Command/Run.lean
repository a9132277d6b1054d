import Custody.Command
import Custody.Compilation
import Custody.Tree.Outline

/-!
# Running commands

A command comes to an exit code, a text for the standard output and one for the standard error. Code
0 stands for success, 1 for a program with errors, 2 for a command line that makes no sense.
-/

set_option autoImplicit false

namespace Custody

/-- What a command comes to. -/
structure Outcome where
  exitCode : Nat
  output : String
  errors : String
  deriving DecidableEq, Repr

/-- The name and number of this version. -/
def versionText : String := "liamc 0.1.0"

/-- How to use the command line. -/
def usageText : String :=
  "usage: liamc [-v] check [--stop-after STAGE] FILE\n" ++
  "       liamc [-v] dump FILE\n" ++
  "       liamc [-v] lex [-p] FILE\n" ++
  "       liamc [-v] parse FILE\n"

/-! ## Listing tokens -/

/-- A number, with blanks before it up to four characters. -/
def padded (n : Nat) : String :=
  let digits := toString n
  String.ofList (List.replicate (4 - digits.length) ' ') ++ digits

/-- The line of a token. -/
def tokenLine (positions : Bool) (number : Nat) (t : Token) : String :=
  padded number ++ " | " ++ t.kind.label ++ " | " ++ Text.quoted t.value ++
    (if positions then " | " ++ toString t.span.line ++ ":" ++ toString t.span.column else "") ++
    "\n"

/-- The lines of tokens from a number on, up to the end token. -/
def tokenLines (positions : Bool) (number : Nat) : List Token → String
  | [] => ""
  | t :: ts =>
    if t.kind == .eof then "\n" ++ padded number ++ " | " ++ t.kind.label ++ "\n"
    else tokenLine positions number t ++ tokenLines positions (number + 1) ts

/-- A line across the page. -/
def ruler : String := String.ofList (List.replicate 80 '=') ++ "\n"

/-- The listing of the tokens of a file. -/
def tokenListing (input : Path) (positions : Bool) (tokens : List Token) : String :=
  "Tokens for " ++ input.text ++ ":\n\n" ++ ruler ++ tokenLines positions 0 tokens ++ ruler ++
    "\nTotal tokens: " ++ toString tokens.length ++ "\n"

/-! ## Showing what is wrong -/

/-- A text with every line moved to the right. -/
def indented (text : String) : String :=
  String.join ((text.splitOn "\n").map fun line => "  " ++ line ++ "\n")

/-- A fault in a file that can be shown: a title with its code, and below it the places. -/
def faultText (code title : String) (places : List String) : String :=
  "[" ++ code ++ "] " ++ title ++ "\n" ++ String.join (places.map indented)

/-- A place in a file. -/
def placeText (file : Path) (span : Span) (message : String) : String :=
  file.text ++ ":" ++ toString span.line ++ ":" ++ toString span.column ++ ": " ++ message

/-- The error tokens of a file. -/
def lexicalFaults (input : Path) (tokens : List Token) : String :=
  String.join ((tokens.filter (·.kind == .error)).map fun t =>
    faultText "E0001" "Lexical error" [placeText input t.span t.value])

namespace Compilation

variable {m : Type → Type} [Monad m]

/-- A report in one line. -/
def reportLine (r : Report) : String := "error[" ++ r.fault.code ++ "]: " ++ r.text ++ "\n"

/-- A report with the places that it points to. -/
def reportPicture (c : Compilation) (r : Report) : String :=
  let fileOf (span : Span) : Path := ((c.bundle.get? span.file).map SourceUnit.path).getD r.file
  faultText r.fault.code (r.stage.text ++ " error")
    (placeText r.file r.span r.message ::
      r.notes.map fun n => placeText (fileOf n.span) n.span n.message)

/-- Shows a report: with its places if the file can be had, and in one line otherwise. -/
def showReport (access : FileAccess m) (c : Compilation) (r : Report) : m String := do
  if c.bundle.units.any fun u => u.path.text == r.file.text then return c.reportPicture r
  else
    match ← access.read r.file with
    | .ok _ => return c.reportPicture r
    | .error _ => return reportLine r

/-- Shows reports, in order. -/
def showReports (access : FileAccess m) (c : Compilation) : List Report → m String
  | [] => return ""
  | r :: rs => do
    let first ← c.showReport access r
    let rest ← c.showReports access rs
    return first ++ rest

/-- What a run comes to. -/
def outcome (access : FileAccess m) (c : Compilation) : m Outcome := do
  let shown ← c.showReports access c.journal.reports
  match c.haltedAt with
  | some stage =>
    return ⟨1, c.output, shown ++ toString c.journal.reports.length ++ " error(s) in " ++
      stage.text ++ "; later passes were skipped\n"⟩
  | none =>
    return ⟨0, c.output ++ "ok: " ++ toString c.bundle.size ++ " unit(s), passes: " ++
      ", ".intercalate (c.stages.map Stage.text) ++ "\n", shown⟩

end Compilation

/-! ## Commands -/

/-- What the listing of the tokens of a text comes to. -/
def lexOutcome (input : Path) (positions : Bool) (source : String) : Outcome :=
  let tokens := tokenize source 0
  let listing := tokenListing input positions tokens
  match (tokens.filter (·.kind == .error)).length with
  | 0 => ⟨0, listing, ""⟩
  | count =>
    ⟨1, listing ++ "\nLexer errors found: " ++ toString count ++ "\n", lexicalFaults input tokens⟩

/-- What the outline of a text comes to. -/
def parseOutcome (input : Path) (source : String) : Outcome :=
  let tokens := tokenize source 0
  if tokens.any (·.kind == .error) then ⟨1, "", lexicalFaults input tokens⟩
  else
    match parseTokens tokens with
    | some (.ok file) => ⟨0, file.outline.text "" ++ "\n", ""⟩
    | some (.error errors) =>
      ⟨1, "", String.join (errors.map fun e =>
        faultText "E0001" "Parse error" [placeText input e.span e.message])⟩
    | none => ⟨1, "", ""⟩

/-- What a file that cannot be read comes to. -/
def unreadOutcome (e : FileError) : Outcome := ⟨1, "", "Error reading file: " ++ e.message ++ "\n"⟩

variable {m : Type → Type} [Monad m]

/-- Runs a command. -/
def Command.run (access : FileAccess m) : Command → m Outcome
  | check input stopAfter => do
    let c ← Compilation.run access ⟨stopAfter, none⟩ input
    c.outcome access
  | dump input => do
    let c ← Compilation.run access ⟨none, some .unbounded⟩ input
    c.outcome access
  | lex input positions => do
    match ← access.read input with
    | .ok source => return lexOutcome input positions source
    | .error e => return unreadOutcome e
  | parse input => do
    match ← access.read input with
    | .ok source => return parseOutcome input source
    | .error e => return unreadOutcome e

/-- Runs what the words of a command line ask for. -/
def runCommandLine (access : FileAccess m) (words : List String) : m Outcome :=
  match Invocation.read false words with
  | .run command => command.run access
  | .version => return ⟨0, versionText ++ "\n", ""⟩
  | .help => return ⟨0, usageText, ""⟩
  | .misuse => return ⟨2, "", usageText⟩

end Custody
