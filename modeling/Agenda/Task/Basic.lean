import Agenda.Json.Write
/-!
Tasks. A task is five texts; which of them are dates or rules is for the operations on tasks to find out, so a task
keeps whatever was written. A task is written as a JSON object with its fields in a fixed order.
-/
namespace Agenda

/-- Something to do. -/
structure Task where
  id : String
  /-- When it is due. -/
  date : String
  title : String
  comment : String
  /-- The rule by which it recurs, or a blank text. -/
  recurrence : String
  deriving DecidableEq, Repr

/-- The fields of a task. -/
inductive Field
  | id
  | date
  | title
  | comment
  | recurrence
  deriving DecidableEq, Repr

namespace Field

/-- The fields in the order in which they are written. -/
def all : List Field :=
  [id, date, title, comment, recurrence]

def key : Field → String
  | id => "id"
  | date => "date"
  | title => "title"
  | comment => "comment"
  | recurrence => "repeat"

def ofKey? (key : String) : Option Field :=
  all.find? (·.key == key)

end Field

namespace Task

def get (t : Task) : Field → String
  | .id => t.id
  | .date => t.date
  | .title => t.title
  | .comment => t.comment
  | .recurrence => t.recurrence

def ofFields (text : Field → String) : Task :=
  ⟨text .id, text .date, text .title, text .comment, text .recurrence⟩

def set (t : Task) (f : Field) (text : String) : Task :=
  ofFields fun g => if g = f then text else t.get g

@[simp] theorem get_ofFields (text : Field → String) (f : Field) : (ofFields text).get f = text f := by
  cases f <;> rfl

def member (t : Task) (f : Field) : List Char :=
  Json.quoted f.key.toList ++ ':' :: Json.quoted (t.get f).toList

def jsonChars (t : Task) : List Char :=
  '\x7b' :: ((Field.all.map t.member).intersperse [',']).flatten ++ ['\x7d']

def json (t : Task) : String :=
  String.ofList t.jsonChars

end Task

end Agenda
