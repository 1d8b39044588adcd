import Agenda.Command.Tasks
import Agenda.Proofs.Command.Effect
import Agenda.Proofs.Command.Setting
/-!
What the commands on tasks do with their inputs. The items of work are the lines of the inputs that are not blank, and
an input that cannot be read is an item that fails. The items are dealt with in order up to the first one that fails:
what is printed for those before it stays printed, and nothing is printed for it or for any after it.
-/
namespace Agenda

open Text

/-- The path that a token gives. -/
def Token.path? : Token → Option Bytes
  | plain value => some value
  | _ => none

/-- The inputs that tokens name: those of the plain ones in order, or else the standard input. -/
def sourcesNamed (ts : List Token) : List Source :=
  match ts.filterMap Token.path? with
  | [] => [.stdin]
  | paths => paths.map Source.ofPath

namespace TaskRequest

variable {manual : Manual} {q q' : TaskRequest} {t : Token} {ts : List Token} {c c' : Console}

theorem isWithin_take (manual : Manual) (q : TaskRequest) (t : Token) : (q.take manual t).IsWithin .notes := by
  unfold take
  split
  case h_1 result hresult => exact Setting.isWithin_now hresult _
  case h_2 =>
    split
    · exact Run.isWithin_done _ _
    · exact Run.isWithin_stop (Token.isFault_refuse _ _ _)

theorem isWithin_ofTokens (manual : Manual) (ts : List Token) : (ofTokens manual ts).IsWithin .notes :=
  Run.isWithin_foldlM (fun t _ q => isWithin_take manual q t) empty

theorem path?_of_value? {α : Type} {o : Setting} {read : String → Except Cause α} {result : Except Failure α}
    (h : o.value? read t = some result) : t.path? = none := by
  cases t with
  | plain value => cases h
  | flag | setting | missing | surplus => rfl

/-- A token that is taken adds its path, if it gives one. -/
theorem paths_of_take (h : q.take manual t c = (.ok q', c')) : q'.paths = t.path?.toList ++ q.paths := by
  unfold take at h
  cases hv : Setting.now.value? Setting.readNow t with
  | some result =>
    rw [hv] at h
    rw [path?_of_value? hv]
    cases result with
    | ok d =>
      cases h
      rfl
    | error f => cases h
  | none =>
    rw [hv] at h
    cases t with
    | plain value =>
      cases h
      rfl
    | flag | setting | missing | surplus => cases h

theorem paths_of_foldlM (h : ts.foldlM (take manual) q c = (.ok q', c')) :
    q'.paths = (ts.filterMap Token.path?).reverse ++ q.paths := by
  -- the latest path stands first in a request
  induction ts generalizing q c with
  | nil =>
    cases h
    rfl
  | cons t ts ih =>
    rw [List.foldlM_cons] at h
    obtain ⟨q₁, c₁, ht, hrest⟩ := Run.exists_of_bind h
    rw [ih hrest, paths_of_take ht]
    cases hp : t.path? <;> simp [hp]

theorem sources_of_ofTokens (h : ofTokens manual ts c = (.ok q, c')) : q.sources = sourcesNamed ts := by
  have hpaths := paths_of_foldlM h
  unfold sources sourcesNamed
  rw [hpaths]
  cases ts.filterMap Token.path? with
  | nil => rfl
  | cons path paths => simp [empty]

theorem foldlM_plain (manual : Manual) (q : TaskRequest) (paths : List Bytes) (c : Console) :
    (paths.map Token.plain).foldlM (take manual) q c = (.ok { q with paths := paths.reverse ++ q.paths }, c) := by
  have hadd (ps : List Bytes) (path : Bytes) :
      take manual { q with paths := ps } (.plain path) = Run.done { q with paths := path :: ps } := rfl
  exact Run.foldlM_collect hadd q.paths paths c

end TaskRequest

/-- The commands on tasks. -/
inductive TaskCommand
  | check
  | complete
  deriving DecidableEq

/-- A piece of work: an input that cannot be read, or a line of one that is not blank. -/
inductive Item
  | unreadable (contexts : List Context) (flaw : FileFlaw)
  | line (input : String) (l : Line)

def Completion.task? : Completion → Option Task
  | removed => none
  | rescheduled t => some t

/-- The effect of dealing with a task, when that comes to a task to print, to none or to a failure. -/
def Effect.ofResult (records : List Record) : Except Failure (Option Task) → Effect
  | .ok out => ⟨out.toList.map Task.json, records, none⟩
  | .error f => ⟨[], records, some f⟩

namespace TaskCommand

def name : TaskCommand → String
  | check => "check"
  | complete => "done"

def manual : TaskCommand → Manual
  | check => Manual.taskCheck
  | complete => Manual.taskDone

def act : TaskCommand → Date → Task → Run Unit
  | check => Task.printChecked
  | complete => Task.printCompleted

/-- What becomes of a task: the task to print, or none when it is over. -/
def result (command : TaskCommand) (today : Date) (t : Task) : Except Failure (Option Task) :=
  match command with
  | check => (t.check today).map some
  | complete => ((t.complete today).mapError .ofEngine).map Completion.task?

def records (command : TaskCommand) (today : Date) (t : Task) : List Record :=
  match command with
  | check => t.checkRecords today
  | complete => t.completeRecords today

def effect (command : TaskCommand) (today : Date) (t : Task) : Effect :=
  .ofResult (command.records today t) (command.result today t)

end TaskCommand

namespace Item

def result (command : TaskCommand) (today : Date) : Item → Except Failure (Option Task)
  | unreadable contexts flaw => .error ⟨contexts, .file flaw⟩
  | line input l => (Task.read l.content >>= command.result today).mapError (Failure.during (.line l.number input))

def records (command : TaskCommand) (today : Date) : Item → List Record
  | unreadable _ _ => []
  | line _ l =>
    match Task.read l.content with
    | .ok t => command.records today t
    | .error _ => []

def effect (command : TaskCommand) (today : Date) (i : Item) : Effect :=
  .ofResult (i.records command today) (i.result command today)

/-- The items of an input with the given data: its lines, and the flaw after them, if there is one. What is begun of a
line before the flaw is none. -/
def ofData (input : String) (flaw : Option FileFlaw) (data : Bytes) : List Item :=
  ((linesOf (delivered flaw data)).filter fun l => !l.isBlank).map (line input) ++ flaw.toList.map (unreadable [])

end Item

namespace Source

/-- The items of a source, when `stdin` is left of the standard input. -/
def items (w : World) (stdin : Bytes) (source : Source) : List Item :=
  match source with
  | .stdin => Item.ofData source.display w.stdinFlaw stdin
  | .file path =>
    match w.find path with
    | .error flaw => [.unreadable [.file source.display] flaw]
    | .ok .folder => [.unreadable [] .isDirectory]
    | .ok (.file content flaw) => Item.ofData source.display flaw content.flatten

/-- What is left of the standard input after a source was read. -/
def left (stdin : Bytes) : Source → Bytes
  | .stdin => []
  | .file _ => stdin

end Source

/-- The items of sources in order; what is read of the standard input once is not there a second time. -/
def World.items (w : World) (stdin : Bytes) : List Source → List Item
  | [] => []
  | source :: sources => source.items w stdin ++ w.items (source.left stdin) sources

section Effects

variable {before after : Bytes} {run : Run Unit} {result : Except Failure (Option Task)}

theorem Effect.during_ofResult (rs : List Record) (result : Except Failure (Option Task)) (context : Context) :
    (ofResult rs result).during context = ofResult rs (result.mapError (Failure.during context)) := by
  cases result with
  | ok out => rfl
  | error f => rfl

theorem Run.hasEffect_recorded (rs : List Record) (h : run.HasEffect before (.ofResult [] result) after) :
    (Run.record rs >>= fun _ => run).HasEffect before (.ofResult rs result) after := by
  have hboth := (Run.hasEffect_record rs before).bind h
  rw [Effect.followedBy_of_none rfl, List.nil_append] at hboth
  cases result with
  | ok out =>
    rw [Effect.ofResult, List.append_nil] at hboth
    exact hboth
  | error f =>
    rw [Effect.ofResult, List.append_nil] at hboth
    exact hboth

theorem TaskCommand.hasEffect_act (command : TaskCommand) (today : Date) (t : Task) (before : Bytes) :
    (command.act today t).HasEffect before (command.effect today t) before := by
  cases command with
  | check =>
    have hchecked : (Run.ofExcept (t.check today) >>= fun u => Run.print u.json).HasEffect before
        (.ofResult [] ((t.check today).map some)) before := by
      cases t.check today with
      | ok u => exact Run.hasEffect_print u.json before
      | error f => exact Run.hasEffect_fail f before before
    exact Run.hasEffect_recorded (t.checkRecords today) hchecked
  | complete =>
    have hcompleted : (Run.ofExcept ((t.complete today).mapError .ofEngine) >>= fun completion => match completion with
        | .removed => Run.done ()
        | .rescheduled u => Run.print u.json).HasEffect before
        (.ofResult [] (((t.complete today).mapError .ofEngine).map Completion.task?)) before := by
      cases t.complete today with
      | ok completion =>
        cases completion with
        | removed => exact Run.hasEffect_done before
        | rescheduled u => exact Run.hasEffect_print u.json before
      | error f => exact Run.hasEffect_fail (.ofEngine f) before before
    exact Run.hasEffect_recorded (t.completeRecords today) hcompleted

/-- A blank line is passed over. -/
theorem each_withTaskOn (act : Task → Run Unit) (input : String) (ls : List Line) :
    Run.each (withTaskOn act input) ls = Run.each (withTaskOn act input) (ls.filter fun l => !l.isBlank) := by
  induction ls with
  | nil => rfl
  | cons l ls ih =>
    cases hl : l.isBlank with
    | true =>
      rw [List.filter_cons_of_neg (by simp [hl]), ← ih, Run.each, withTaskOn, if_pos hl]
      rfl
    | false => rw [List.filter_cons_of_pos (by simp [hl]), Run.each, Run.each, ih]

theorem hasEffect_withTaskOn {l : Line} (h : l.isBlank = false) (command : TaskCommand) (today : Date) (input : String)
    (before : Bytes) : (withTaskOn (command.act today) input l).HasEffect before
      ((Item.line input l).effect command today) before := by
  rw [withTaskOn, if_neg (Bool.eq_false_iff.mp h)]
  have hinner : (Run.ofExcept (Task.read l.content) >>= command.act today).HasEffect before
      (.ofResult ((Item.line input l).records command today) (Task.read l.content >>= command.result today)) before := by
    rw [Item.records]
    cases Task.read l.content with
    | ok t => exact command.hasEffect_act today t before
    | error f => exact Run.hasEffect_fail f before before
  have hplaced := hinner.during (.line l.number input)
  rw [Effect.during_ofResult] at hplaced
  exact hplaced

/-- A flaw has the effect of the item that it is. -/
theorem Effect.ofFlaw_eq (command : TaskCommand) (today : Date) (flaw : Option FileFlaw) :
    ofFlaw flaw = inOrder ((flaw.toList.map (Item.unreadable [])).map (Item.effect command today)) := by
  cases flaw <;> rfl

theorem hasEffect_ofData (command : TaskCommand) (today : Date) (input : String) (flaw : Option FileFlaw)
    (data before : Bytes) : (Run.eachLineOf flaw (withTaskOn (command.act today) input) data).HasEffect before
      (.inOrder ((Item.ofData input flaw data).map (Item.effect command today))) before := by
  rw [Item.ofData, List.map_append, Effect.inOrder_append, ← Effect.ofFlaw_eq, List.map_map]
  apply Run.hasEffect_eachLineOf
  rw [each_withTaskOn]
  apply Run.hasEffect_each
  intro l hl
  have hfull := List.of_mem_filter hl
  exact hasEffect_withTaskOn (by simpa using hfull) command today input before

theorem hasEffect_withTasksOf (w : World) (command : TaskCommand) (today : Date) (source : Source) (stdin : Bytes) :
    (withTasksOf w (command.act today) source).HasEffect stdin
      (.inOrder ((source.items w stdin).map (Item.effect command today))) (source.left stdin) := by
  cases source with
  | stdin => exact Run.hasEffect_eachInputLine (hasEffect_ofData command today _ w.stdinFlaw stdin stdin)
  | file path =>
    rw [withTasksOf, Source.items]
    cases w.find path with
    | error flaw => exact Run.hasEffect_fail _ stdin stdin
    | ok entry =>
      cases entry with
      | folder => exact Run.hasEffect_fail _ stdin stdin
      | file content flaw =>
        dsimp only
        rw [Run.eachLineUpTo_done]
        exact hasEffect_ofData command today _ flaw content.flatten stdin

/-- The sources are gone through in order. -/
theorem hasEffect_sources (w : World) (command : TaskCommand) (today : Date) (sources : List Source) (stdin : Bytes) :
    ∃ after, (Run.each (withTasksOf w (command.act today)) sources).HasEffect stdin
      (.inOrder ((w.items stdin sources).map (Item.effect command today))) after := by
  induction sources generalizing stdin with
  | nil => exact ⟨stdin, Run.hasEffect_done stdin⟩
  | cons source sources ih =>
    -- the others find what this source leaves of the standard input
    obtain ⟨after, hrest⟩ := ih (source.left stdin)
    have hboth := (hasEffect_withTasksOf w command today source stdin).bind hrest
    rw [← Effect.inOrder_append, ← List.map_append] at hboth
    exact ⟨after, hboth⟩

end Effects

end Agenda
