import Stepwise.Text.Quoted
import Stepwise.Yaml.Document
import Stepwise.Yaml.Meaning

/-!
# Problems with settings

A settings document that can be read may still not fit the settings.  Each place that
does not fit is a problem, and all problems are reported together, each with its
line.

A value that does not fit is shown in the report.  One that takes more than ten bytes
is cut after seven, and where the cut goes through a character, each byte of it that
is left shows as a replacement character.
-/

namespace Stepwise

/-- Something in a settings document that does not fit. -/
inductive Problem where
  /-- A key stands twice in a mapping. -/
  | duplicateKey (line : Nat) (key : String) (firstLine : Nat)
  /-- A key names no field of a group of settings. -/
  | unknownField (line : Nat) (key : String) (group : String)
  /-- A key names a field that another key has named before. -/
  | repeatedField (line : Nat) (key : String) (group : String)
  /-- A value has the wrong kind. -/
  | mismatch (line : Nat) (tag : String) (shown : String) (target : String)
deriving DecidableEq

namespace Problem

/-- The wording of a problem. -/
def message : Problem → String
  | .duplicateKey line key firstLine =>
    "line " ++ toString line ++ ": mapping key " ++ Text.quote key
      ++ " already defined at line " ++ toString firstLine
  | .unknownField line key group =>
    "line " ++ toString line ++ ": field " ++ key ++ " not found in type " ++ group
  | .repeatedField line key group =>
    "line " ++ toString line ++ ": field " ++ key ++ " already set in type " ++ group
  | .mismatch line tag shown target =>
    "line " ++ toString line ++ ": cannot unmarshal " ++ tag ++ shown ++ " into " ++ target

/-- The wording of several problems. -/
def report (ps : List Problem) : String :=
  "yaml: unmarshal errors:\n  " ++ "\n  ".intercalate (ps.map message)

/-- The first `n` bytes of a text.  A character that does not fit leaves a replacement
character for each of its bytes that does. -/
def firstBytes : Nat → List Char → List Char
  | _, [] => []
  | n, c :: cs =>
    if c.utf8Size ≤ n then c :: firstBytes (n - c.utf8Size) cs
    else List.replicate n (Char.ofNat 0xFFFD)

/-- How a value is shown, after a blank and between backquotes. -/
def shown (text : String) : String :=
  let tick := String.singleton (Char.ofNat 0x60)
  let cut :=
    if 10 < text.utf8ByteSize then String.ofList (firstBytes 7 text.toList) ++ "..." else text
  " " ++ tick ++ cut ++ tick

/-- A value of the wrong kind.  With the tag of a plain sequence or mapping its text is put
behind the tag as it is. -/
def wrong (line : Nat) (tag text target : String) : Problem :=
  .mismatch line tag (if tag = "!!seq" || tag = "!!map" then text else shown text) target

/-- A scalar of the wrong kind. -/
def wrongScalar (line : Nat) (tag? : Option String) (s : Yaml.Scalar) (target : String) : Problem :=
  wrong line (s.tag tag?) s.text target

/-- A sequence where none fits. -/
def wrongSequence (line : Nat) (tag? : Option String) (target : String) : Problem :=
  wrong line (tag?.getD "!!seq") "" target

/-- A mapping where none fits. -/
def wrongMapping (line : Nat) (tag? : Option String) (target : String) : Problem :=
  wrong line (tag?.getD "!!map") "" target

/-- What a key is compared by: its kind, and the text of a scalar or the name of a
reference. -/
structure KeyFace where
  /-- The kind of node. -/
  kind : Nat
  /-- The text. -/
  text : String
  /-- The line. -/
  line : Nat

/-- What a key is compared by. -/
def KeyFace.ofTree (t : Yaml.Tree) : KeyFace :=
  match t with
  | .scalar line _ s => ⟨0, s.text, line⟩
  | .sequence line .. => ⟨1, "", line⟩
  | .mapping line .. => ⟨2, "", line⟩
  | .reference line name .. => ⟨3, name, line⟩

/-- The keys that repeat an earlier key, in the order of the earlier ones. -/
def repetitions : List KeyFace → List Problem
  | [] => []
  | k :: ks =>
    (ks.filter fun l => l.kind = k.kind && l.text = k.text).map
      (fun l => .duplicateKey l.line l.text k.line) ++ repetitions ks

/-- The keys of a mapping that repeat an earlier key. -/
def duplicates (entries : List (Yaml.Tree × Yaml.Tree)) : List Problem :=
  repetitions (entries.map fun e => KeyFace.ofTree e.1)

end Problem

end Stepwise
