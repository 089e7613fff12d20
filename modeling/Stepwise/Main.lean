import Stepwise.Command.Play

/-!
# The executable

Reads the settings file that the options name, runs the command, and writes what it
leaves.
-/

open Stepwise

/-- Is this the error of the given number?  Some calls report it with a minus sign. -/
def isErrorCode (code number : UInt32) : Bool := code = number || code + number = 0

/-- Why reading a file failed. -/
def fileError : IO.Error → Command.FileError
  | .inappropriateType _ code _ =>
    if isErrorCode code 21 then .isDirectory else .notDirectory
  | .permissionDenied .. => .denied
  | .invalidArgument _ code _ => if isErrorCode code 36 then .tooLong else .invalid
  | _ => .missing

/-- Read a file. -/
def readText (path : String) : IO (Except Command.FileError String) := do
  try
    return .ok (← IO.FS.readFile path)
  catch e =>
    return .error (fileError e)

/-- The settings file that the arguments name, if they name one. -/
def settingsText (args : List String) : IO (Except Command.FileError String) :=
  match Command.Options.ofArguments args with
  | .ok options => if options.config = "" then pure (.error .missing) else readText options.config
  | .error _ => pure (.error .missing)

/-- Run the command. -/
def main (args : List String) : IO UInt32 := do
  let text ← settingsText args
  let exit := Command.run (fun _ => text) args
  for record in exit.log do
    IO.eprintln record.json
  IO.print exit.output
  IO.eprint exit.errors
  return UInt32.ofNat exit.code
