import Stepwise.Log.Level

/-!
# Log records

A record has a level, a message and named fields.  A logger keeps the records at or
above its level.  `Record.json` writes a record as one line of JSON.
-/

namespace Stepwise.Log

/-- The value of a field. -/
inductive Datum where
  /-- A number. -/
  | int (n : Int64)
  /-- A text. -/
  | text (s : String)
  /-- A truth value. -/
  | flag (b : Bool)
deriving DecidableEq

/-- One thing that is logged. -/
structure Record where
  /-- How important it is. -/
  level : Level
  /-- What happened. -/
  message : String
  /-- The particulars, in order. -/
  fields : List (String × Datum) := []

/-- The records that a logger of the given level keeps. -/
def kept (level : Level) (records : List Record) : List Record :=
  records.filter fun r => level ≤ r.level

/-- One character inside a JSON text. -/
def jsonChar (c : Char) : List Char :=
  if c = '"' || c = '\\' then ['\\', c]
  else match c.toNat with
    | 0x08 => ['\\', 'b']
    | 0x09 => ['\\', 't']
    | 0x0A => ['\\', 'n']
    | 0x0C => ['\\', 'f']
    | 0x0D => ['\\', 'r']
    | n =>
      if n < 0x20 || n = 0x2028 || n = 0x2029 then '\\' :: 'u' :: Text.hexDigits 4 n else [c]

/-- A text in JSON. -/
def jsonText (s : String) : String :=
  String.ofList ('"' :: s.toList.flatMap jsonChar ++ ['"'])

/-- A field value in JSON. -/
def Datum.json : Datum → String
  | .int n => toString n
  | .text s => jsonText s
  | .flag b => Text.flag b

/-- A record as one line of JSON: level and message first, then the fields. -/
def Record.json (r : Record) : String :=
  let fields := ("level", Datum.text (Level.text r.level)) :: ("msg", .text r.message) :: r.fields
  "\x7b" ++ ",".intercalate (fields.map fun (name, d) => jsonText name ++ ":" ++ d.json) ++ "\x7d"

end Stepwise.Log
