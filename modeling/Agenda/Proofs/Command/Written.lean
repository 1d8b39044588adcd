import Agenda.Proofs.Command.Printed
import Agenda.Proofs.Task.Written
/-!
What the commands on tasks print they can read. The lines printed for tasks are the lines that a reader of them finds,
each with the number of its task; none of them is blank, and each is read as its task.
-/
namespace Agenda

open Text

/-- The line printed for a task, with its end. -/
def Task.written (t : Task) : Bytes :=
  Utf8.encode t.jsonChars ++ [Line.feed]

/-- What is read of a line: its number, whether it is blank, and the task on it. -/
def Line.reading (l : Line) : Nat × Bool × Except Failure Task :=
  (l.number, l.isBlank, Task.read l.content)

variable {t : Task} {ts : List Task} {n : Nat} {r : Reader} {o : Outcome}

namespace Task

/-- No byte of what is written for a task ends a line. -/
theorem not_mem_written {b : UInt8} (hb : b < 0x20) (t : Task) : b ∉ Utf8.encode t.jsonChars :=
  fun hmem => not_lt_of_mem_written t b hmem hb

theorem content_written (n : Nat) (t : Task) : (⟨n, t.written⟩ : Line).content = Utf8.encode t.jsonChars := by
  apply Line.content_of_feed
  intro hlast
  exact not_mem_written (by decide) t (List.mem_of_getLast? hlast)

theorem isBlank_written (n : Nat) (t : Task) : (⟨n, t.written⟩ : Line).isBlank = false := by
  rw [Line.isBlank, content_written, encode_jsonChars]
  rfl

theorem reading_written (n : Nat) (t : Task) : (⟨n, t.written⟩ : Line).reading = (n, false, .ok t) := by
  rw [Line.reading, isBlank_written, content_written, read_written]

theorem isDivision_written (ts : List Task) : IsDivision (ts.map written).flatten (ts.map written) := by
  apply isDivision_of_feeds
  intro l hl
  obtain ⟨t, -, rfl⟩ := List.mem_map.mp hl
  exact ⟨_, rfl, not_mem_written (by decide) t⟩

theorem linesOf_written (ts : List Task) : linesOf (ts.map written).flatten = Line.numbered 1 (ts.map written) :=
  (isDivision_written ts).linesOf_eq

theorem bytesOf_json (t : Task) : Environment.bytesOf t.json ++ [Line.feed] = t.written := by
  rw [Environment.bytesOf, json, String.toList_ofList, written]

theorem bytesOf_lines (ts : List Task) :
    Environment.bytesOf (String.join (ts.map fun t => t.json ++ "\n")) = (ts.map written).flatten := by
  have hlines := Environment.bytesOf_lines (ts.map json)
  rw [List.map_map, List.map_map] at hlines
  exact hlines.trans (congrArg List.flatten (List.map_congr_left fun t _ => t.bytesOf_json))

theorem numbered_reading (n : Nat) (ts : List Task) :
    (Line.numbered n (ts.map written)).map Line.reading = (ts.zipIdx n).map fun p => (p.2, false, .ok p.1) := by
  induction ts generalizing n with
  | nil => rfl
  | cons t ts ih => rw [List.map_cons, Line.numbered, List.map_cons, ih, reading_written, List.zipIdx_cons, List.map_cons]

theorem withTaskOn_written (act : Task → Run Unit) (input : String) (n : Nat) (t : Task) :
    withTaskOn act input ⟨n, t.written⟩ = Run.during (.line n input) (act t) := by
  rw [withTaskOn, isBlank_written, content_written, read_written, if_neg Bool.false_ne_true]
  rfl

theorem each_written (act : Task → Run Unit) (input : String) (n : Nat) (ts : List Task) :
    Run.each (withTaskOn act input) (Line.numbered n (ts.map written)) =
      Run.each (fun p => Run.during (.line p.2 input) (act p.1)) (ts.zipIdx n) := by
  induction ts generalizing n with
  | nil => rfl
  | cons t ts ih => rw [List.map_cons, Line.numbered, Run.each, withTaskOn_written, ih, List.zipIdx_cons, Run.each]

end Task

/-- Whatever tasks are printed and however a reader cuts the bytes into chunks, its lines are those printed: there is
one for each task, with the number of its place, none is blank, and each is read as its task. A command goes through
them as if it was given the tasks. What is printed for a task has no byte that ends a line. -/
theorem printed_tasks_are_read (ho : o.lines = ts.map Task.json) (hr : r.flatten = Environment.bytesOf o.stdout) :
    (∃ lines, IsDivision r.flatten lines ∧
      (Line.numbered 1 lines).map Line.reading = (ts.zipIdx 1).map fun p => (p.2, false, .ok p.1)) ∧
    (∀ (act : Task → Run Unit) (input : String) (c : Console), ∃ unread : Reader, unread.flatten = [] ∧
      Run.eachLine (withTaskOn act input) r c =
        (Run.each (fun p => Run.during (.line p.2 input) (act p.1)) (ts.zipIdx 1) >>= fun _ => Run.done unread) c) ∧
    ∀ t : Task, Line.feed ∉ Environment.bytesOf t.json ∧ Line.carriage ∉ Environment.bytesOf t.json := by
  have hbytes : r.flatten = (ts.map Task.written).flatten := by
    rw [hr, Outcome.stdout, ho, List.map_map]
    exact Task.bytesOf_lines ts
  have hlines : IsDivision r.flatten (ts.map Task.written) := by
    rw [hbytes]
    exact Task.isDivision_written ts
  refine ⟨⟨_, hlines, Task.numbered_reading 1 ts⟩, fun act input c => ?_, fun t => ?_⟩
  · obtain ⟨unread, hunread, heach⟩ := Run.eachLine_eq (withTaskOn act input) r c
    rw [hbytes, Task.linesOf_written, Task.each_written] at heach
    exact ⟨unread, hunread, heach⟩
  · rw [Environment.bytesOf, Task.json, String.toList_ofList]
    exact ⟨Task.not_mem_written (by decide) t, Task.not_mem_written (by decide) t⟩

/-- Tasks with marks that are escaped, and with characters of more than one byte. -/
def markedTasks : List Task :=
  [⟨"\x1f", "", "\"é\r\n", "", "\\"⟩, ⟨"2", "20240101", "😀", "\t", "d 7"⟩]

-- the chunks end inside a character, inside an escape and, on the second line, inside another character
def markedChunks : Reader :=
  [Environment.bytesOf "\x7b\"id\":\"\\u001f\",\"date\":\"\",\"title\":\"\\\"" ++ [0xC3],
   0xA9 :: Environment.bytesOf "\\",
   Environment.bytesOf ("r\\n\",\"comment\":\"\",\"repeat\":\"\\\\\"\x7d\n" ++
    "\x7b\"id\":\"2\",\"date\":\"20240101\",\"title\":\"") ++ [0xF0, 0x9F],
   0x98 :: 0x80 :: Environment.bytesOf "\",\"comment\":\"\\t\",\"repeat\":\"d 7\"\x7d\n"]

/-- Both tasks are read in their order, each from its own line, and a reader that prints their titles prints both. -/
theorem marked_tasks_are_read : (∃ lines, IsDivision markedChunks.flatten lines ∧
      (Line.numbered 1 lines).map Line.reading = (markedTasks.zipIdx 1).map fun p => (p.2, false, .ok p.1)) ∧
    (Run.eachLine (withTaskOn (fun t => Run.print t.title) "<stdin>") markedChunks (.start [] true none)).2.printed =
      ["😀", "\"é\r\n"] := by
  let o : Outcome := ⟨0, markedTasks.map Task.json, none, []⟩
  have hwritten : markedChunks.flatten = (markedTasks.map Task.written).flatten := by decide +kernel
  have hbytes : markedChunks.flatten = Environment.bytesOf o.stdout := hwritten.trans (Task.bytesOf_lines _).symm
  obtain ⟨hlines, hruns, -⟩ := printed_tasks_are_read (o := o) rfl hbytes
  refine ⟨hlines, ?_⟩
  obtain ⟨unread, -, hrun⟩ := hruns (fun t => Run.print t.title) "<stdin>" (.start [] true none)
  rw [hrun]
  rfl

end Agenda
