import Stepwise.Command.Files
import Stepwise.Command.Options
import Stepwise.Machine.Trace
import Stepwise.Settings.Document

/-!
# The command

The command evaluates all sample programs and prints a line about each, or plays one
of them and prints how it went, on request with the state after every tick.

It works in this order: read the settings file, check the log level, look up the
program, play.  The first thing that goes wrong is reported.  What was printed before
stays.

The files that the command may read are given by a function from paths, so that all of
this is plain data.
-/

namespace Stepwise.Command

/-- The files that the command may read. -/
abbrev Files := String → Except FileError String

/-- Why the command fails. -/
inductive Error where
  /-- The settings file cannot be read. -/
  | noFile (path : String) (e : FileError)
  /-- The settings file is refused. -/
  | badFile (path : String) (e : Settings.Error)
  /-- The settings are refused. -/
  | badSettings (e : Settings.Error)
  /-- There is no such program. -/
  | unknownProgram (name : String)
  /-- The program is malformed. -/
  | malformed (e : Malformed)
  /-- The samples could not be evaluated. -/
  | evaluation (e : Fitness.BatchError)
deriving DecidableEq

/-- The wording of an error. -/
def Error.message : Error → String
  | .noFile path e => "reading config: " ++ e.message path
  | .badFile path e => path ++ ": " ++ e.message
  | .badSettings e => e.message
  | .unknownProgram name => "unknown program " ++ Text.quote name
  | .malformed e => e.message
  | .evaluation e => "evaluating samples: " ++ e.message

/-- What a run of the command leaves. -/
structure Outcome where
  /-- What was printed. -/
  output : String := ""
  /-- What was logged. -/
  log : List Log.Record := []
  /-- What went wrong, if anything. -/
  error? : Option Error := none

/-! ## All samples -/

/-- The line about a program that was evaluated. -/
def resultLine (name : String) (r : Fitness.Result) : String :=
  Text.padRight 8 name ++ " won=" ++ Text.padRight 5 (Text.flag r.won)
    ++ " ticks=" ++ Text.padRight 4 (toString r.stats.ticks)
    ++ " steps=" ++ Text.padRight 5 (toString r.stats.steps)
    ++ " rounds=" ++ Text.padRight 4 (toString r.stats.rounds)
    ++ " exhausted=" ++ Text.flag r.exhausted ++ "\t" ++ r.program.text ++ "\n"

/-- Evaluate all samples. -/
def playAll (settings : Settings) (level : Log.Level) : Outcome :=
  let evaluator := settings.evaluator
  let batch := evaluator.evaluate (samples.map fun (_, a) => some a)
  let log := if level ≤ Log.Level.debug then batch.log evaluator.env else []
  match batch.outcome with
  | .error e => { log, error? := some (.evaluation e) }
  | .ok results =>
    let lines := (samples.zip results).map fun ((name, _), g) => resultLine name g.result
    { output := String.join lines, log }

/-! ## One sample -/

/-- The state of a game and the trace of its machine. -/
def snapshotBlock (m : Machine Duel) : String := m.state.text ++ "\n" ++ m.trace ++ "\n\n"

/-- The last line of a game. -/
def summaryLine (m : Machine Duel) : String :=
  "won=" ++ Text.flag m.state.won ++ " ticks=" ++ toString m.stats.ticks
    ++ " steps=" ++ toString m.stats.steps ++ " rounds=" ++ toString m.stats.rounds
    ++ " actions=" ++ toString m.stats.actions ++ "\n"

/-- The machine after each further tick, until the game is over or the budget of steps
is used up.  The budget is looked at between ticks only.  At most `fuel` ticks. -/
def tickByTick (maxSteps : Int64) : Nat → Machine Duel → List (Machine Duel)
  | 0, _ => []
  | fuel + 1, m =>
    if !m.state.finished && m.stats.steps < maxSteps then
      let (m, _) := m.runTick invaders
      m :: tickByTick maxSteps fuel m
    else []

/-- Play one program. -/
def playOne (settings : Settings) (level : Log.Level) (program : Form) (trace : Bool) : Outcome :=
  match program.validate with
  | .error e => { error? := some (.malformed e) }
  | .ok () =>
    let m := Machine.new program (Duel.new settings.game)
    let ticks := tickByTick settings.maxSteps (Duel.horizon settings.game.effective) m
    let final := ticks.getLastD m
    let blocks := if trace then (m :: ticks).map snapshotBlock else []
    let made := final.stats.steps.toInt.toNat
    { output := String.join blocks ++ summaryLine final
      log :=
        if level ≤ Log.Level.debug then (m.transcript invaders made).map Transition.record else [] }

/-! ## The whole command -/

/-- The settings that the options ask for. -/
def loadSettings (files : Files) (path : String) : Except Error Settings :=
  if path = "" then .ok Settings.standard
  else match files path with
    | .error e => .error (.noFile path e)
    | .ok text => (Settings.parse text).mapError (.badFile path)

/-- Run the command. -/
def play (files : Files) (options : Options) : Outcome :=
  match loadSettings files options.config with
  | .error e => { error? := some e }
  | .ok settings =>
    let settings :=
      if options.logLevel = "" then settings else { settings with logLevel := options.logLevel }
    match settings.checkLevel with
    | .error e => { error? := some (.badSettings e) }
    | .ok level =>
      if options.program = "all" then playAll settings level
      else match samples.lookup options.program with
        | none => { error? := some (.unknownProgram options.program) }
        | some program => playOne settings level program options.trace

/-- What a process leaves: its exit code and what it wrote. -/
structure Exit where
  /-- The exit code. -/
  code : Nat
  /-- What was printed. -/
  output : String := ""
  /-- What was written about errors. -/
  errors : String := ""
  /-- What was logged. -/
  log : List Log.Record := []

/-- Run the command with arguments. -/
def run (files : Files) (args : List String) : Exit :=
  match Options.ofArguments args with
  | .error e => { code := e.exitCode, errors := e.message }
  | .ok options =>
    let outcome := play files options
    match outcome.error? with
    | none => { code := 0, output := outcome.output, log := outcome.log }
    | some e =>
      { code := 1, output := outcome.output, errors := "!! " ++ e.message ++ "\n",
        log := outcome.log }

end Stepwise.Command
