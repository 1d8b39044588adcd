import Agenda.Proofs.Task.Life
import Agenda.Task.Board
/-!
Boards through any number of acts. An act that fails leaves the board as it is. Routine acts turn to other days, and
check and complete tasks: they keep a board sound, and on a sound one they fail only for want of a task, of a date to
turn to or of a next occurrence. A task has the same life on a board that it has by itself.
-/
namespace Agenda

open Text

namespace Act

/-- Whether an act neither adds a task nor edits one. -/
def IsRoutine : Act → Prop
  | turnTo _ | check _ | complete _ => True
  | add _ | edit _ _ _ => False

/-- Whether an act edits nothing but a date. -/
def KeepsTexts : Act → Prop
  | edit _ field _ => field = .date
  | _ => True

/-- The task that an act adds, if there is one. -/
def added : Act → List Task
  | add text => (Task.read text).toOption.toList
  | _ => []

end Act

/-- A task but for its date. -/
def Task.undated (t : Task) : Task :=
  t.withDate ""

theorem Task.undated_withDate (t : Task) (date : String) : (t.withDate date).undated = t.undated :=
  rfl

theorem Task.undated_set_date (t : Task) (date : String) : (t.set .date date).undated = t.undated :=
  rfl

namespace Board

variable {b b' : Board} {a : Act} {acts : List Act} {result : ActResult} {place : Nat} {t u : Task} {f : ActFailure}

/-- What is made of a board by an act that does not fail. -/
inductive Acted (b : Board) : Act → ActResult → Board → Prop
  | turned {date : String} {d : Date} (h : Date.parse date = .ok d) :
    Acted b (.turnTo date) .done { b with today := d }
  | added {text : Bytes} {t : Task} (h : Task.read text = .ok t) :
    Acted b (.add text) .done { b with tasks := b.tasks ++ [t] }
  | checked {place : Nat} {t u : Task} (hplace : b.tasks[place]? = some t) (h : t.check b.today = .ok u) :
    Acted b (.check place) .done (b.replace place u)
  | ended {place : Nat} {t : Task} (hplace : b.tasks[place]? = some t) (h : t.complete b.today = .ok .removed) :
    Acted b (.complete place) .removed { b with tasks := b.tasks.eraseIdx place }
  | moved {place : Nat} {t u : Task} (hplace : b.tasks[place]? = some t)
    (h : t.complete b.today = .ok (.rescheduled u)) : Acted b (.complete place) .done (b.replace place u)
  | edited {place : Nat} {t : Task} (hplace : b.tasks[place]? = some t) (field : Field) (value : String) :
    Acted b (.edit place field value) .done (b.replace place (t.set field value))

section Steps

variable {α : Type} {g : Task → Except Failure α} {x : α} {failure : Failure}

theorem withTask_of_some (h : b.tasks[place]? = some t) (g : Task → Except Failure α) :
    b.withTask place g = (g t).mapError .failed := by
  rw [withTask, h]

theorem withTask_eq_ok_iff : b.withTask place g = .ok x ↔ ∃ t, b.tasks[place]? = some t ∧ g t = .ok x := by
  unfold withTask
  cases b.tasks[place]? with
  | none => simp
  | some t => simp [mapError_eq_ok_iff]

theorem withTask_eq_error (h : b.withTask place g = .error f) :
    f = .noTask ∨ ∃ t failure, b.tasks[place]? = some t ∧ g t = .error failure ∧ f = .failed failure := by
  cases hplace : b.tasks[place]? with
  | none =>
    rw [withTask, hplace] at h
    exact Or.inl (Except.error.inj h).symm
  | some t =>
    rw [withTask_of_some hplace] at h
    obtain ⟨failure, hfailure, hf⟩ := mapError_eq_error_iff.mp h
    exact Or.inr ⟨t, failure, rfl, hfailure, hf.symm⟩

theorem act_eq_ok_iff : b.act a = .ok (result, b') ↔ b.Acted a result b' := by
  constructor
  · intro h
    cases a with
    | turnTo date =>
      obtain ⟨d, hd, h⟩ := bind_eq_ok_iff.mp h
      cases h
      exact .turned (mapError_eq_ok_iff.mp hd)
    | add text =>
      obtain ⟨t, ht, h⟩ := bind_eq_ok_iff.mp h
      cases h
      exact .added (mapError_eq_ok_iff.mp ht)
    | check place =>
      obtain ⟨u, hu, h⟩ := bind_eq_ok_iff.mp h
      obtain ⟨t, hplace, hcheck⟩ := withTask_eq_ok_iff.mp hu
      cases h
      exact .checked hplace hcheck
    | complete place =>
      obtain ⟨completion, hcompletion, h⟩ := bind_eq_ok_iff.mp h
      obtain ⟨t, hplace, hcomplete⟩ := withTask_eq_ok_iff.mp hcompletion
      cases completion with
      | removed =>
        cases h
        exact .ended hplace (mapError_eq_ok_iff.mp hcomplete)
      | rescheduled u =>
        cases h
        exact .moved hplace (mapError_eq_ok_iff.mp hcomplete)
    | edit place field value =>
      obtain ⟨u, hu, h⟩ := bind_eq_ok_iff.mp h
      obtain ⟨t, hplace, htask⟩ := withTask_eq_ok_iff.mp hu
      cases htask
      cases h
      exact .edited hplace field value
  · intro h
    cases h with
    | turned h =>
      rw [act, h]
      rfl
    | added h =>
      rw [act, h]
      rfl
    | checked hplace h =>
      rw [act, withTask_of_some hplace, h]
      rfl
    | ended hplace h =>
      rw [act, withTask_of_some hplace, h]
      rfl
    | moved hplace h =>
      rw [act, withTask_of_some hplace, h]
      rfl
    | edited hplace field value =>
      rw [act, withTask_of_some hplace]
      rfl

theorem after_of_acted (h : b.Acted a result b') : b.after a = b' := by
  rw [after, act_eq_ok_iff.mpr h]

/-- An act that fails changes nothing. -/
theorem after_of_error (h : b.act a = .error f) : b.after a = b := by
  rw [after, h]

/-- What does not change when an act fails and holds after one that does not is preserved. -/
theorem of_after {P : Board → Prop} (hb : P b) (h : ∀ result b', b.Acted a result b' → P b') : P (b.after a) := by
  rcases hact : b.act a with f | ⟨result, b'⟩
  · rw [after_of_error hact]
    exact hb
  · have hacted := act_eq_ok_iff.mp hact
    rw [after_of_acted hacted]
    exact h result b' hacted

end Steps

/-- The board after a number of acts. -/
def afterAll (b : Board) (acts : List Act) : Board :=
  acts.foldl after b

theorem afterAll_append (b : Board) (acts later : List Act) :
    b.afterAll (acts ++ later) = (b.afterAll acts).afterAll later :=
  List.foldl_append

/-- What each of the acts preserves all of them do. -/
theorem of_afterAll {P : Board → Prop} (hstep : ∀ a ∈ acts, ∀ b, P b → P (b.after a)) (hb : P b) :
    P (b.afterAll acts) := by
  induction acts generalizing b with
  | nil => exact hb
  | cons a acts ih =>
    obtain ⟨ha, hacts⟩ := List.forall_mem_cons.mp hstep
    exact ih hacts (ha b hb)

/-- Whether today is a date from year 0 on, and all tasks are in order. -/
structure IsSound (b : Board) : Prop where
  year : 0 ≤ b.today.year
  tasks : ∀ t ∈ b.tasks, t.IsSound

namespace IsSound

theorem replace (h : b.IsSound) (hu : u.IsSound) (place : Nat) : (b.replace place u).IsSound := by
  refine ⟨h.year, fun v hv => ?_⟩
  rcases List.mem_or_eq_of_mem_set hv with hv | rfl
  · exact h.tasks v hv
  · exact hu

theorem task (h : b.IsSound) (hplace : b.tasks[place]? = some t) : t.IsSound :=
  h.tasks t (List.mem_of_getElem? hplace)

theorem acted (h : b.IsSound) (ha : a.IsRoutine) (hacted : b.Acted a result b') : b'.IsSound := by
  cases hacted with
  | turned hd => exact ⟨(Date.parse_eq_ok_iff.mp hd).1, h.tasks⟩
  | checked hplace hcheck => exact h.replace (Task.isSound_of_check hcheck h.year) _
  | ended => exact ⟨h.year, fun t ht => h.tasks t (List.mem_of_mem_eraseIdx ht)⟩
  | @moved place t u hplace hcomplete =>
    have hu := (h.task hplace).after (.complete b.today) h.year
    rw [Task.after_of_complete hcomplete] at hu
    exact h.replace hu place
  | added | edited => exact ha.elim

theorem after (h : b.IsSound) (ha : a.IsRoutine) : (b.after a).IsSound :=
  of_after h fun _ _ hacted => h.acted ha hacted

/-- A sound board stays one through routine acts, however many of them fail. -/
theorem afterAll (h : b.IsSound) (hacts : ∀ a ∈ acts, a.IsRoutine) : (b.afterAll acts).IsSound :=
  of_afterAll (fun a ha _ hb => hb.after (hacts a ha)) h

/-- On a sound board a routine act fails when there is no task at its place, when it is to turn to what is no date, or
else by a fault of the engine. -/
theorem failure_of_act (h : b.IsSound) (ha : a.IsRoutine) (hact : b.act a = .error f) : f = .noTask ∨
    (∃ date e, a = .turnTo date ∧ Date.parse date = .error e) ∨
      ∃ failure fault, f = .failed failure ∧ failure.cause = .engine (.fault fault) := by
  cases a with
  | turnTo date =>
    rcases bind_eq_error_iff.mp hact with hdate | ⟨d, -, hdone⟩
    · obtain ⟨e, he, -⟩ := mapError_eq_error_iff.mp hdate
      exact Or.inr (Or.inl ⟨date, e, rfl, he⟩)
    · cases hdone
  | check place =>
    rcases bind_eq_error_iff.mp hact with htask | ⟨u, -, hdone⟩
    · rcases withTask_eq_error htask with hnone | ⟨t, failure, hplace, hfailure, rfl⟩
      · exact Or.inl hnone
      · obtain ⟨fault, hfault⟩ := (h.task hplace).fault_of_check hfailure
        exact Or.inr (Or.inr ⟨failure, fault, rfl, hfault⟩)
    · cases hdone
  | complete place =>
    rcases bind_eq_error_iff.mp hact with htask | ⟨completion, -, hdone⟩
    · rcases withTask_eq_error htask with hnone | ⟨t, failure, hplace, hfailure, rfl⟩
      · exact Or.inl hnone
      · obtain ⟨e, he, rfl⟩ := mapError_eq_error_iff.mp hfailure
        obtain ⟨fault, rfl⟩ := (h.task hplace).fault_of_complete he
        exact Or.inr (Or.inr ⟨_, fault, rfl, rfl⟩)
    · cases completion <;> cases hdone
  | add | edit => exact ha.elim

end IsSound

section Texts

/-- The tasks of a board but for their dates. -/
def texts (b : Board) : List Task :=
  b.tasks.map Task.undated

theorem texts_replace (hplace : b.tasks[place]? = some t) (hu : u.undated = t.undated) :
    (b.replace place u).texts = b.texts := by
  have hsame : b.texts[place]? = some u.undated := by
    rw [texts, List.getElem?_map, hplace, hu]
    rfl
  obtain ⟨hlt, hget⟩ := List.getElem?_eq_some_iff.mp hsame
  calc (b.replace place u).texts = b.texts.set place u.undated := List.map_set
    _ = b.texts.set place b.texts[place] := by rw [hget]
    _ = b.texts := List.set_getElem_self hlt

/-- An act keeps all but the dates of the tasks that it neither adds nor takes off the board. -/
theorem texts_acted (ha : a.KeepsTexts) (hacted : b.Acted a result b') :
    b'.texts.Sublist (b.texts ++ a.added.map Task.undated) := by
  cases hacted with
  | turned => exact List.sublist_append_left _ _
  | added hread =>
    rw [Act.added, hread, texts, List.map_append]
    exact List.Sublist.refl _
  | checked hplace hcheck =>
    obtain ⟨-, -, -, d, -, -, -, rfl⟩ := Task.exists_of_check hcheck
    rw [texts_replace hplace (Task.undated_withDate _ _)]
    exact List.sublist_append_left _ _
  | ended => exact ((List.eraseIdx_sublist _ _).map _).trans (List.sublist_append_left _ _)
  | moved hplace hcomplete =>
    obtain ⟨text, -, rfl⟩ := Task.exists_of_complete hcomplete
    rw [texts_replace hplace (Task.undated_withDate _ _)]
    exact List.sublist_append_left _ _
  | edited hplace field value =>
    obtain rfl : field = .date := ha
    rw [texts_replace hplace (Task.undated_set_date _ _)]
    exact List.sublist_append_left _ _

/-- Unless other texts than dates are edited, the tasks that are on a board in the end are some of those that were there
or were added, in the same order and changed in nothing but their dates. -/
theorem texts_afterAll (h : ∀ a ∈ acts, a.KeepsTexts) (b : Board) :
    (b.afterAll acts).texts.Sublist (b.texts ++ (acts.flatMap Act.added).map Task.undated) := by
  induction acts generalizing b with
  | nil => exact List.sublist_append_left _ _
  | cons a acts ih =>
    obtain ⟨ha, hacts⟩ := List.forall_mem_cons.mp h
    have hstep : (b.after a).texts.Sublist (b.texts ++ a.added.map Task.undated) :=
      of_after (List.sublist_append_left _ _) fun _ _ hacted => texts_acted ha hacted
    rw [List.flatMap_cons, List.map_append, ← List.append_assoc]
    exact (ih hacts (b.after a)).trans (hstep.append_right _)

end Texts

section Lives

variable {call : Call} {calls : List Call} {today : Date}

/-- The acts for a call to the task at a place: the board is turned to the day of the call first. -/
def actsOf (place : Nat) : Call → List Act
  | .check today => [.turnTo today.compact, .check place]
  | .complete today => [.turnTo today.compact, .complete place]

theorem after_turnTo (hy : 0 ≤ today.year) (b : Board) :
    b.after (.turnTo today.compact) = { b with today := today } :=
  after_of_acted (.turned (Date.parse_eq_ok_iff.mpr ⟨hy, rfl⟩))

theorem replace_self (hplace : b.tasks[place]? = some t) : b.replace place t = b := by
  obtain ⟨hlt, rfl⟩ := List.getElem?_eq_some_iff.mp hplace
  rw [replace, List.set_getElem_self]

theorem after_check (hplace : b.tasks[place]? = some t) :
    b.after (.check place) = b.replace place (t.after (.check b.today)) := by
  cases hcheck : t.check b.today with
  | ok u => rw [after_of_acted (.checked hplace hcheck), Task.after_of_check hcheck]
  | error failure =>
    have hfails : b.act (.check place) = .error (.failed failure) := by
      rw [act, withTask_of_some hplace, hcheck]
      rfl
    rw [after_of_error hfails, Task.after, hcheck, replace_self hplace]

/-- A task that recurs is not taken off the board. -/
theorem after_complete (hplace : b.tasks[place]? = some t) (hagain : allBlank t.recurrence = false) :
    b.after (.complete place) = b.replace place (t.after (.complete b.today)) := by
  cases hcomplete : t.complete b.today with
  | ok completion =>
    cases completion with
    | removed =>
      rw [Task.complete_eq_removed_iff, hagain] at hcomplete
      cases hcomplete
    | rescheduled u => rw [after_of_acted (.moved hplace hcomplete), Task.after_of_complete hcomplete]
  | error e =>
    have hfails : b.act (.complete place) = .error (.failed (.ofEngine e)) := by
      rw [act, withTask_of_some hplace, hcomplete]
      rfl
    rw [after_of_error hfails, Task.after, hcomplete, replace_self hplace]

theorem afterAll_actsOf (hplace : b.tasks[place]? = some t) (hagain : allBlank t.recurrence = false)
    (hy : 0 ≤ call.today.year) :
    b.afterAll (actsOf place call) = { b with today := call.today }.replace place (t.after call) := by
  cases call with
  | check today =>
    have hturned : b.after (.turnTo today.compact) = { b with today := today } := after_turnTo hy b
    rw [actsOf, afterAll, List.foldl_cons, hturned]
    exact after_check hplace
  | complete today =>
    have hturned : b.after (.turnTo today.compact) = { b with today := today } := after_turnTo hy b
    rw [actsOf, afterAll, List.foldl_cons, hturned]
    exact after_complete hplace hagain

/-- A task that recurs has the same life on a board that it has by itself, and the other tasks stay as they are. -/
theorem tasks_afterAll_calls (hplace : b.tasks[place]? = some t) (hagain : allBlank t.recurrence = false)
    (hy : ∀ call ∈ calls, 0 ≤ call.today.year) :
    (b.afterAll (calls.flatMap (actsOf place))).tasks = b.tasks.set place (t.life calls) := by
  induction calls generalizing b t with
  | nil => exact congrArg tasks (replace_self hplace).symm
  | cons call calls ih =>
    obtain ⟨hcall, hcalls⟩ := List.forall_mem_cons.mp hy
    have hlt : place < b.tasks.length := (List.getElem?_eq_some_iff.mp hplace).1
    have hrecurrence : (t.after call).recurrence = t.recurrence :=
      Task.get_after (f := .recurrence) (by decide) t call
    rw [List.flatMap_cons, afterAll_append, afterAll_actsOf hplace hagain hcall]
    have hrest := @ih ({ b with today := call.today }.replace place (t.after call)) (t.after call)
      (List.getElem?_set_self hlt) (hrecurrence ▸ hagain) hcalls
    rw [hrest]
    exact List.set_set _

end Lives

end Board

end Agenda
