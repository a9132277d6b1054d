import Custody.Path
import Custody.Report

/-!
# The command line

What the words of a command line ask for. Flags may stand anywhere behind the command that they
belong to, and `--` ends them. A flag is given at most once; the flag for a detailed log may be
given once before the command and once behind it.
-/

set_option autoImplicit false

namespace Custody

/-- What can be done with a file. -/
inductive Command where
  | check (input : Path) (stopAfter : Option Stage)
  | dump (input : Path)
  | lex (input : Path) (positions : Bool)
  | parse (input : Path)
  deriving DecidableEq, Repr

/-- What the words of a command line come to. -/
inductive Invocation where
  | run (command : Command)
  | version
  | help
  | misuse
  deriving DecidableEq, Repr

/-- The commands by name. -/
inductive Verb where
  | check | dump | lex | parse
  deriving DecidableEq, Repr

namespace Verb

/-- The command with a name. -/
def ofName? (name : String) : Option Verb :=
  [("check", check), ("dump", dump), ("lex", lex), ("parse", parse)].lookup name

end Verb

namespace Invocation

/-- The stages that a check can be stopped after, by name. -/
def stopNames : List (String × Stage) :=
  [("load", .load), ("declare", .declare), ("type-check", .typeCheck),
    ("borrow-check", .borrowCheck)]

/-- What was given behind a command so far. -/
structure Given where
  verbose : Bool
  positions : Bool
  stopAfter : Option Stage
  input : Option String
  deriving DecidableEq, Repr

namespace Given

/-- Nothing given yet. -/
def nothing : Given := ⟨false, false, none, none⟩

/-- Takes the flag for a detailed log. -/
def takeVerbose (g : Given) : Option Given :=
  if g.verbose then none else some { g with verbose := true }

/-- Takes the flag for positions, which only one command has. -/
def takePositions (g : Given) (verb : Verb) : Option Given :=
  if verb ≠ .lex || g.positions then none else some { g with positions := true }

/-- Takes the name of a stage to stop after, which only one command has. -/
def takeStopAfter (g : Given) (verb : Verb) (name : String) : Option Given :=
  if verb ≠ .check || g.stopAfter.isSome then none
  else (stopNames.lookup name).map fun stage => { g with stopAfter := some stage }

/-- Takes the input, which has a name. -/
def takeInput (g : Given) (word : String) : Option Given :=
  if g.input.isSome || word.isEmpty then none else some { g with input := some word }

/-- The command, once everything is given. -/
def command? (g : Given) (verb : Verb) : Option Command :=
  g.input.map fun word =>
    match verb with
    | .check => .check ⟨word⟩ g.stopAfter
    | .dump => .dump ⟨word⟩
    | .lex => .lex ⟨word⟩ g.positions
    | .parse => .parse ⟨word⟩

end Given

/-- Whether a word is a group of one-letter flags. -/
def isShort (word : String) : Bool :=
  match word.toList with
  | '-' :: _ :: _ => true
  | _ => false

/-- Reads the letters of a group of flags behind a command. -/
def readLetters (verb : Verb) (g : Given) : List Char → Except Invocation Given
  | [] => .ok g
  | c :: cs =>
    if c = 'h' then .error .help
    else
      match if c = 'v' then g.takeVerbose else if c = 'p' then g.takePositions verb else none with
      | some g => readLetters verb g cs
      | none => .error .misuse

/-- Reads the words behind `--`, none of which is a flag. -/
def readPlain (g : Given) : List String → Option Given
  | [] => some g
  | word :: words => (g.takeInput word).bind fun g => readPlain g words

/-- What stands behind the name of the stage flag and an equals sign. -/
def stopValue? (word : String) : Option String :=
  let flag := "--stop-after=".toList
  if flag.isPrefixOf word.toList then some (String.ofList (word.toList.drop flag.length)) else none

/-- The command of what was given, or a misuse. -/
def finish (verb : Verb) (g : Option Given) : Invocation :=
  match g.bind fun g => g.command? verb with
  | some command => .run command
  | none => .misuse

/-- Reads the words behind a command. -/
def readWords (verb : Verb) (g : Given) : List String → Invocation
  | [] => finish verb (some g)
  | ["--stop-after"] => .misuse
  | "--stop-after" :: name :: words =>
    match g.takeStopAfter verb name with
    | some g => readWords verb g words
    | none => .misuse
  | word :: words =>
    if word = "--" then finish verb (readPlain g words)
    else if word = "--help" then .help
    else if isShort word && !("--".toList.isPrefixOf word.toList) then
      match readLetters verb g word.toList.tail with
      | .ok g => readWords verb g words
      | .error i => i
    else
      let taken :=
        if word = "--verbose" then g.takeVerbose
        else if word = "--positions" then g.takePositions verb
        else
          match stopValue? word with
          | some name => g.takeStopAfter verb name
          | none => if isShort word then none else g.takeInput word
      match taken with
      | some g => readWords verb g words
      | none => .misuse

/-- Reads the letters of a group of flags before the command; gives whether a detailed log is
wanted. -/
def readFirstLetters (verbose : Bool) : List Char → Except Invocation Bool
  | [] => .ok verbose
  | c :: cs =>
    if c = 'h' then .error .help
    else if c = 'V' then .error .version
    else if c = 'v' && !verbose then readFirstLetters true cs
    else .error .misuse

/-- Reads the words of a command line. -/
def read (verbose : Bool) : List String → Invocation
  | [] => .misuse
  | word :: words =>
    if word = "--version" then .version
    else if word = "--help" then .help
    else if word = "--verbose" then if verbose then .misuse else read true words
    else if isShort word && !("--".toList.isPrefixOf word.toList) then
      match readFirstLetters verbose word.toList.tail with
      | .ok verbose => read verbose words
      | .error i => i
    else
      match Verb.ofName? word with
      | some verb => readWords verb .nothing words
      | none => if word = "help" then readHelp words else .misuse
where
  /-- Help about all commands or one of them. -/
  readHelp : List String → Invocation
    | [] => .help
    | [name] => if name = "help" || (Verb.ofName? name).isSome then .help else .misuse
    | _ => .misuse

end Invocation

end Custody
