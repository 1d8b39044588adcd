import Agenda.Failure
import Agenda.Input.Lines
/-!
Where tasks are read from: the standard input, or a file that a path names. `Folder.find` follows a path in a folder
whose own folders are empty; above it and elsewhere there are folders but no files.
-/
namespace Agenda

open Text

/-- The byte that separates the names of a path. -/
def slash : UInt8 := 0x2F

def pathNames (path : Bytes) : List Bytes :=
  path.splitOn slash

def dash : Bytes := [0x2D]

def dot : Bytes := [0x2E]

def dotDot : Bytes := [0x2E, 0x2E]

/-- Whether a name leads nowhere else. -/
def isIdle (name : Bytes) : Bool :=
  name.isEmpty || name == dot

/-- Where lines are read from. -/
inductive Source
  | stdin
  | file (path : Bytes)
  deriving DecidableEq

namespace Source

/-- The source that an argument names. A dash is the standard input, also with names after it that lead nowhere. -/
def ofPath (path : Bytes) : Source :=
  match pathNames path with
  | name :: names => if name = dash ∧ names.all isIdle then stdin else file path
  | [] => file path

def display : Source → String
  | stdin => "<stdin>"
  | file path => String.ofList (Utf8.lossy path)

end Source

/-- What a path can name. -/
inductive Entry
  /-- A file: what can be read of it, and why no more can, unless that is all. -/
  | file (content : Reader) (flaw : Option FileFlaw := none)
  | folder

abbrev Folder := List (Bytes × Entry)

namespace Folder

def maxName : Nat := 255

def maxPath : Nat := 4095

/-- Where following a path has led. -/
inductive Place
  | here
  | inside
  | outside
  | file (content : Reader) (flaw : Option FileFlaw)

def Place.entry : Place → Entry
  | .file content flaw => .file content flaw
  | _ => .folder

def step (folder : Folder) (place : Place) (name : Bytes) : Except FileFlaw Place :=
  match place with
  | .file _ _ => .error .notDirectory
  | _ =>
    if isIdle name then .ok place
    else if name = dotDot then
      .ok (match place with
        | .inside => .here
        | _ => .outside)
    else if maxName < name.length then .error .nameTooLong
    else
      match place with
      | .here =>
        match folder.lookup name with
        | some (.file content flaw) => .ok (.file content flaw)
        | some .folder => .ok .inside
        | none => .error .missing
      | _ => .error .missing

def find (folder : Folder) (path : Bytes) : Except FileFlaw Entry :=
  if path.isEmpty then .error .missing
  else if maxPath < path.length then .error .nameTooLong
  else
    let start := if path.head? = some slash then .outside else .here
    ((pathNames path).foldlM (step folder) start).map Place.entry

end Folder

end Agenda
