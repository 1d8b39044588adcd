import Agenda.Failure
import Agenda.Input.Source
/-!
Runs of the program. A run reads what there is to read, prints lines and keeps records of what it does, until it is
done or something stops it. What happens is kept in a `Console`. A record that does not matter enough is dropped when it
is made. What a library records by itself, as when it looks for time zones, is left out.
-/
namespace Agenda

/-- How much a record matters, from the most to the least. -/
inductive Level
  | error
  | warn
  | info
  | debug
  | trace
  deriving DecidableEq, Repr

namespace Level

/-- The level as a number, greater for what matters less. -/
def rank : Level → Nat
  | error => 1
  | warn => 2
  | info => 3
  | debug => 4
  | trace => 5

def name : Level → String
  | error => "ERROR"
  | warn => "WARN"
  | info => "INFO"
  | debug => "DEBUG"
  | trace => "TRACE"

end Level

/-- A note about what a run does. -/
structure Record where
  level : Level
  message : String
  deriving DecidableEq, Repr

/-- Whether a record is kept at a level: whether it is of the level or matters more. -/
def Record.isKept (level : Option Level) (r : Record) : Bool :=
  level.any (r.level.rank ≤ ·.rank)

/-- The surroundings of a run: what is left of the standard input and whether it was asked for, whether somebody reads
what is printed, the level of the records that are kept, with `none` for no records at all, and what was printed and
recorded, the latest first. -/
structure Console where
  stdin : Reader
  wasAsked : Bool
  isOpen : Bool
  level : Option Level
  printed : List String
  records : List Record

def Console.start (stdin : Reader) (isOpen : Bool) (level : Option Level) : Console :=
  ⟨stdin, false, isOpen, level, [], []⟩

/-- What stops a run. -/
inductive Stop
  /-- A text was asked for instead. -/
  | page (text : String)
  /-- Nobody reads what is printed. -/
  | closed
  | failed (failure : Failure)

/-- What stops a run that cannot read on. -/
def Stop.unreadable (flaw : FileFlaw) : Stop :=
  failed (.of (.file flaw))

/-- Adds what was being done to a failure. -/
def Stop.during (context : Context) : Stop → Stop
  | failed f => failed (f.during context)
  | s => s

/-- A run with a result. -/
def Run (α : Type) : Type := Console → Except Stop α × Console

namespace Run

def done {α : Type} (a : α) : Run α :=
  fun c => (.ok a, c)

def andThen {α β : Type} (r : Run α) (f : α → Run β) : Run β :=
  fun c =>
    match r c with
    | (.ok a, c') => f a c'
    | (.error s, c') => (.error s, c')

instance : Monad Run where
  pure := done
  bind := andThen

def stop {α : Type} (s : Stop) : Run α :=
  fun c => (.error s, c)

def fail {α : Type} (f : Failure) : Run α :=
  stop (.failed f)

/-- Goes on with a result, or stops with a failure. -/
def ofExcept {α : Type} : Except Failure α → Run α
  | .ok a => done a
  | .error f => fail f

/-- Adds what is being done to the failure of a run. -/
def during {α : Type} (context : Context) (r : Run α) : Run α :=
  fun c =>
    match r c with
    | (.ok a, c') => (.ok a, c')
    | (.error s, c') => (.error (s.during context), c')

/-- Prints a line, unless nobody reads it. -/
def print (line : String) : Run Unit :=
  fun c => if c.isOpen then (.ok (), { c with printed := line :: c.printed }) else (.error .closed, c)

/-- Makes records, of which those are kept that the level of the console asks for. Keeping one cannot fail: it is taken
for granted that what goes to the terminal can be written. -/
def record (rs : List Record) : Run Unit :=
  fun c => (.ok (), { c with records := (rs.filter (·.isKept c.level)).reverse ++ c.records })

def each {α : Type} (f : α → Run Unit) : List α → Run Unit
  | [] => done ()
  | a :: as => andThen (f a) fun _ => each f as

/-- Runs for each line of a reader, which fails after its last chunk if there is a flaw: what is left of it. -/
def eachLineUpTo (flaw : Option FileFlaw) (f : Line → Run Unit) (r : Reader) : Run Reader :=
  fun c =>
    -- the console is the state that the visits pass on
    let visit (c : Console) (l : Line) : Console × Verdict Stop :=
      match f l c with
      | (.ok (), c') => (c', .next)
      | (.error s, c') => (c', .fail s)
    let v := visitFrom visit (flaw.map Stop.unreadable) c 1 r
    match v.error with
    | none => (.ok v.unread, v.state)
    | some s => (.error s, v.state)

/-- Runs for each line of a reader that can be read to its end: what is left of it. -/
def eachLine (f : Line → Run Unit) (r : Reader) : Run Reader :=
  eachLineUpTo none f r

/-- Runs for each line of the standard input, which is then read. It fails after its last chunk if there is a flaw. -/
def eachInputLine (flaw : Option FileFlaw) (f : Line → Run Unit) : Run Unit :=
  fun c =>
    andThen (eachLineUpTo flaw f c.stdin) (fun rest c' => (.ok (), { c' with stdin := rest }))
      { c with wasAsked := true }

end Run

end Agenda
