/-!
# Files

The command reads a file by its path.  The files are a tree, and a path is followed
name by name, from the top of the tree if it starts with a slash and from the current
directory otherwise.  Empty names and single dots stay where they are, and two dots go
up one directory, but not beyond the top.

Only a directory can be followed further, so a path that ends with a slash names no
file.  A directory can be opened like a file, and refuses to be read only then, which
shows in the wording.
-/

namespace Stepwise.Command

/-- Why a file cannot be read. -/
inductive FileError where
  /-- There is no such file. -/
  | missing
  /-- The file must not be read. -/
  | denied
  /-- The path goes on behind a file. -/
  | notDirectory
  /-- The path names a directory. -/
  | isDirectory
  /-- The path, or a name in it, is too long. -/
  | tooLong
  /-- The path is none. -/
  | invalid
deriving DecidableEq, Repr

/-- The wording for a path. -/
def FileError.message (path : String) : FileError → String
  | .missing => "open " ++ path ++ ": no such file or directory"
  | .denied => "open " ++ path ++ ": permission denied"
  | .notDirectory => "open " ++ path ++ ": not a directory"
  | .isDirectory => "read " ++ path ++ ": is a directory"
  | .tooLong => "open " ++ path ++ ": file name too long"
  | .invalid => "open " ++ path ++ ": invalid argument"

/-- A file or a directory. -/
inductive Entry where
  /-- A file with its text. -/
  | file (text : String)
  /-- A directory with its names. -/
  | directory (names : List (String × Entry))

/-- The names in a directory. -/
abbrev Directory := List (String × Entry)

/-- A place in a tree of files. -/
structure Place where
  /-- The current directory. -/
  here : Directory
  /-- The directories around it, the nearest first. -/
  above : List Directory := []

namespace Place

/-- The top of the tree. -/
def top (p : Place) : Place := ⟨p.above.getLastD p.here, []⟩

/-- One directory up. -/
def up (p : Place) : Place :=
  match p.above with
  | [] => p
  | d :: ds => ⟨d, ds⟩

/-- Into a directory with the given names. -/
def into (p : Place) (d : Directory) : Place := ⟨d, p.here :: p.above⟩

/-- The most bytes of one name. -/
def nameLimit : Nat := 255

/-- The most bytes of a path. -/
def pathLimit : Nat := 4095

/-- Follow the names of a path. -/
def follow : Place → List String → Except FileError Entry
  | p, [] => .ok (.directory p.here)
  | p, name :: names =>
    if name = "" || name = "." then p.follow names
    else if name = ".." then p.up.follow names
    else if nameLimit < name.utf8ByteSize then .error .tooLong
    else match p.here.lookup name with
      | none => .error .missing
      | some (.directory d) => (p.into d).follow names
      | some (.file text) => if names.isEmpty then .ok (.file text) else .error .notDirectory

/-- The names in a path, which slashes divide.  `acc` is the name so far, the
last character first. -/
def namesOnto (acc : List Char) : List Char → List String
  | [] => [String.ofList acc.reverse]
  | c :: cs =>
    if c = '/' then String.ofList acc.reverse :: namesOnto [] cs else namesOnto (c :: acc) cs

/-- What a path names. -/
def resolve (p : Place) (path : String) : Except FileError Entry :=
  if path.toList.contains (Char.ofNat 0) then .error .invalid
  else if pathLimit < path.utf8ByteSize then .error .tooLong
  else
    let start := if path.toList.head? = some '/' then p.top else p
    start.follow (namesOnto [] path.toList)

/-- The text of the file that a path names. -/
def read (p : Place) (path : String) : Except FileError String :=
  match p.resolve path with
  | .error e => .error e
  | .ok (.directory _) => .error .isDirectory
  | .ok (.file text) => .ok text

end Place

/-! A path may stay in the current directory in many ways, but not go through a file. -/

example : (Place.mk [("a", .file "x")] []).read ".//../a" = .ok "x" := by rfl
example : (Place.mk [("a", .file "x")] []).read "a/" = .error .notDirectory := by rfl
example : (Place.mk [("a", .file "x")] []).read "./" = .error .isDirectory := by rfl

end Stepwise.Command
