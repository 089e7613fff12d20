import Stepwise.Text.Numeral
import Stepwise.Text.Quoted

/-!
# Log levels

A level is a number.  Four numbers have names, and a level is written as a name with
an optional signed offset, such as `debug+1`.  Case does not matter.  Offsets are
read before names, so of two mistakes the one in the offset is reported.
-/

namespace Stepwise.Log

/-- How important a record is. -/
abbrev Level := Int64

namespace Level

/-- The level of the details of an evaluation. -/
def debug : Level := -4

/-- The level of ordinary news. -/
def info : Level := 0

/-- The level of warnings. -/
def warn : Level := 4

/-- The level of errors. -/
def error : Level := 8

/-- A level with a base name: nothing is added to the name for the level itself. -/
def withOffset (base : String) (offset : Int64) : String :=
  if offset = 0 then base
  else if 0 < offset then base ++ "+" ++ toString offset
  else base ++ toString offset

/-- The text of a level, relative to the nearest name at or below it. -/
def text (l : Level) : String :=
  if l < info then withOffset "DEBUG" (l - debug)
  else if l < warn then withOffset "INFO" (l - info)
  else if l < error then withOffset "WARN" (l - warn)
  else withOffset "ERROR" (l - error)

/-- The capital of a letter that has one in ASCII.  Two letters outside ASCII do, the
dotless i and the long s. -/
def capital (c : Char) : Char :=
  if c.toNat = 0x131 then 'I' else if c.toNat = 0x17F then 'S' else c.toUpper

/-- The level with a given name, in any case. -/
def ofName? (name : List Char) : Option Level :=
  match String.ofList (name.map capital) with
  | "DEBUG" => some debug
  | "INFO" => some info
  | "WARN" => some warn
  | "ERROR" => some error
  | _ => none

end Level

/-- Why a text is no level. -/
inductive LevelError where
  /-- The offset is no number. -/
  | badOffset (offset : String) (cause : Text.NumeralError)
  /-- The name is unknown. -/
  | unknownName
deriving DecidableEq

/-- The wording of a problem with the level text `s`. -/
def LevelError.message (s : String) (e : LevelError) : String :=
  "invalid log_level " ++ Text.quote s ++ ": slog: level string " ++ Text.quote s ++ ": " ++
    match e with
    | .badOffset offset cause =>
        "strconv.Atoi: parsing " ++ Text.quote offset ++ ": " ++ cause.message
    | .unknownName => "unknown name"

/-- Is this the sign that starts an offset? -/
def isOffsetSign (c : Char) : Bool := c = '+' || c = '-'

/-- Read a level.  The empty text is the level of errors. -/
def Level.read (s : String) : Except LevelError Level :=
  let cs := s.toList
  if cs.isEmpty then .ok error
  else
    let name := cs.takeWhile fun c => !isOffsetSign c
    let offset := String.ofList (cs.dropWhile fun c => !isOffsetSign c)
    let shift : Except LevelError Int64 :=
      if offset.isEmpty then .ok 0
      else (Text.readDecimal offset).mapError (.badOffset offset)
    match shift with
    | .error e => .error e
    | .ok n =>
      match ofName? name with
      | none => .error .unknownName
      | some l => .ok (l + n)

end Stepwise.Log
