import Stepwise.Command.Samples
import Stepwise.Text.Quoted

/-!
# The options of the command

Options are given as flags with one or two dashes, in front of any other arguments.
A flag with a text takes it after an equals sign or as the next argument.  A flag that
is on or off takes a value only after an equals sign.  The flags end at the first
argument that is none, and at two dashes alone.  A flag given twice counts the last
time.
-/

namespace Stepwise.Command

/-- The options. -/
structure Options where
  /-- The path of a settings file, or an empty text. -/
  config : String := ""
  /-- The name of a sample program, or the word for all. -/
  program : String := "all"
  /-- A log level that replaces the one of the settings, unless it is empty. -/
  logLevel : String := ""
  /-- Is the state shown after every tick? -/
  trace : Bool := false
deriving DecidableEq

/-- What is wrong with the arguments. -/
inductive FlagError where
  /-- Help was asked for. -/
  | help
  /-- An argument looks like a flag and is none. -/
  | notFlag (argument : String)
  /-- There is no such flag. -/
  | undefined (name : String)
  /-- The text of a flag is missing. -/
  | missingValue (name : String)
  /-- The value of a flag is neither on nor off. -/
  | badSwitch (name value : String)
deriving DecidableEq

/-- How the command is used. -/
def usage : String :=
  "Usage of tickeval:\n" ++
  "  -config string\n    \tpath to a YAML config file\n" ++
  "  -log-level string\n    \toverride the configured log level\n" ++
  "  -program string\n    \tsample program to run, or all (" ++
  ", ".intercalate (samples.map (·.1)) ++ ") (default \"all\")\n" ++
  "  -trace\n    \tprint the evaluation state after every tick\n"

/-- What is shown about an error in the arguments. -/
def FlagError.message : FlagError → String
  | .help => usage
  | .notFlag argument => "bad flag syntax: " ++ argument ++ "\n" ++ usage
  | .undefined name => "flag provided but not defined: -" ++ name ++ "\n" ++ usage
  | .missingValue name => "flag needs an argument: -" ++ name ++ "\n" ++ usage
  | .badSwitch name value =>
    "invalid boolean value " ++ Text.quote value ++ " for -" ++ name ++ ": parse error\n" ++ usage

/-- The exit code after an error in the arguments. -/
def FlagError.exitCode : FlagError → Nat
  | .help => 0
  | _ => 2

/-- The value of a switch. -/
def switch? (value : String) : Option Bool :=
  if ["1", "t", "T", "true", "TRUE", "True"].contains value then some true
  else if ["0", "f", "F", "false", "FALSE", "False"].contains value then some false
  else none

/-- The field that a flag with a text sets. -/
def textFlag? : String → Option (Options → String → Options)
  | "config" => some fun o v => { o with config := v }
  | "program" => some fun o v => { o with program := v }
  | "log-level" => some fun o v => { o with logLevel := v }
  | _ => none

/-- An argument. -/
inductive Argument where
  /-- The flags end here. -/
  | last
  /-- It looks like a flag and is none. -/
  | malformed
  /-- A flag, with the value after an equals sign, if there is one. -/
  | flag (name : String) (value? : Option String)
deriving DecidableEq

/-- Split the name of a flag from its value.  The equals sign cannot come first. -/
def splitFlag (cs : List Char) : Argument :=
  match cs with
  | [] => .malformed
  | c :: rest =>
    if c = '-' || c = '=' then .malformed
    else
      let name := String.ofList (c :: rest.takeWhile (· ≠ '='))
      match rest.dropWhile (· ≠ '=') with
      | [] => .flag name none
      | _ :: value => .flag name (some (String.ofList value))

/-- What an argument is. -/
def Argument.ofText (s : String) : Argument :=
  match s.toList with
  | ['-', '-'] => .last
  | '-' :: '-' :: cs => splitFlag cs
  | '-' :: c :: cs => splitFlag (c :: cs)
  | _ => .last

/-- Read the arguments on top of given options. -/
def readArguments : Options → List String → Except FlagError Options
  | o, [] => .ok o
  | o, arg :: args =>
    match Argument.ofText arg with
    | .last => .ok o
    | .malformed => .error (.notFlag arg)
    | .flag name value? =>
      if name = "trace" then
        let value := value?.getD "true"
        match switch? value with
        | some b => readArguments { o with trace := b } args
        | none => .error (.badSwitch name value)
      else match textFlag? name with
        | none => .error (if name = "help" || name = "h" then .help else .undefined name)
        | some set =>
          match value?, args with
          | some v, args => readArguments (set o v) args
          | none, v :: args => readArguments (set o v) args
          | none, [] => .error (.missingValue name)

/-- Read the arguments of the command. -/
def Options.ofArguments (args : List String) : Except FlagError Options := readArguments {} args

end Stepwise.Command
