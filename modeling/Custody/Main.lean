import Custody.Command.Run

/-!
# The program

Reaches the files of the machine and runs the command that the command line asks for.
-/

set_option autoImplicit false

namespace Custody

/-- The error with a number of the machine, which may come with its sign turned. -/
def FileError.ofCode (code : UInt32) (details : String) : FileError :=
  let number := if code < 2147483648 then code else 0 - code
  if number = 2 then .notFound
  else if number = 20 then .notDirectory
  else if number = 21 then .isDirectory
  else if number = 36 then .nameTooLong
  else .other (details ++ " (os error " ++ toString number ++ ")")

/-- What an error of the machine means. -/
def FileError.ofMachine : IO.Error → FileError
  | .alreadyExists _ code details => .ofCode code details
  | .otherError code details => .ofCode code details
  | .resourceBusy code details => .ofCode code details
  | .resourceVanished code details => .ofCode code details
  | .unsupportedOperation code details => .ofCode code details
  | .hardwareFault code details => .ofCode code details
  | .unsatisfiedConstraints code details => .ofCode code details
  | .illegalOperation code details => .ofCode code details
  | .protocolError code details => .ofCode code details
  | .timeExpired code details => .ofCode code details
  | .interrupted _ code details => .ofCode code details
  | .noFileOrDirectory _ code details => .ofCode code details
  | .invalidArgument _ code details => .ofCode code details
  | .permissionDenied _ code details => .ofCode code details
  | .resourceExhausted _ code details => .ofCode code details
  | .inappropriateType _ code details => .ofCode code details
  | .noSuchThing _ code details => .ofCode code details
  | e => .other (toString e)

/-- The result of an action on files, with its error. -/
def attempt {α : Type} (action : IO α) : IO (Except FileError α) := do
  try return .ok (← action)
  catch e => return .error (.ofMachine e)

/-- Whether a path leads to a file. -/
def machineIsFile (p : Path) : IO Bool := do
  match ← attempt (do (← IO.FS.realPath ⟨p.text⟩).metadata) with
  | .ok data => return data.type == .file
  | .error _ => return false

/-- The text of a file. -/
def machineRead (p : Path) : IO (Except FileError String) := do
  match ← attempt (IO.FS.readBinFile ⟨p.text⟩) with
  | .error e => return .error e
  | .ok bytes =>
    match String.fromUTF8? bytes with
    | some text => return .ok text
    | none => return .error .notText

/-- The one spelling of a path; where there is none, opening the path tells why. -/
def machineCanonical (p : Path) : IO (Except FileError Path) := do
  match ← attempt (IO.FS.realPath ⟨p.text⟩) with
  | .ok path => return .ok ⟨path.toString⟩
  | .error e =>
    match ← attempt (IO.FS.readBinFile ⟨p.text⟩) with
    | .ok _ => return .error e
    | .error reason => return .error reason

/-- The files of the machine. -/
def machineAccess : FileAccess IO where
  isFile := machineIsFile
  canonical := machineCanonical
  read := machineRead
  chainLimit := 100000

end Custody

/-- Runs the command line. -/
def main (args : List String) : IO UInt32 := do
  let outcome ← Custody.runCommandLine Custody.machineAccess args
  (← IO.getStdout).putStr outcome.output
  (← IO.getStderr).putStr outcome.errors
  return outcome.exitCode.toUInt32
