import Agenda.Proofs.Command.Lines
import Agenda.Proofs.Command.Program
import Agenda.Proofs.Text.Utf8
/-!
What runs print. A run prints lines of one kind only when each of its parts does, as nothing that was printed is taken
back or changed. What the program writes are the lines that its run prints, and after them the manual page or the version
if it was asked for one.
-/
namespace Agenda

open Text

/-- To print lines of one kind only. -/
def Scope.printing (P : String → Prop) : Scope where
  leads c c' := ∃ ls, c'.printed = ls ++ c.printed ∧ ∀ l ∈ ls, P l
  stops _ := True
  refl c := ⟨[], rfl, List.forall_mem_nil _⟩
  trans := by
    intro a b c h h'
    obtain ⟨ls, hls, hkind⟩ := h
    obtain ⟨ls', hls', hkind'⟩ := h'
    refine ⟨ls' ++ ls, ?_, List.forall_mem_append.mpr ⟨hkind', hkind⟩⟩
    rw [hls', hls, List.append_assoc]

/-- To write lines of one kind only: to print no others, and not to ask for a page instead. -/
def Scope.writing (P : String → Prop) : Scope :=
  { Scope.printing P with stops := fun s => ∀ text, s ≠ .page text }

namespace Run

variable {α : Type} {run : Run α} {P Q : String → Prop} {line : String}

theorem isWithin_printing (h : P line) : (print line).IsWithin (.printing P) := by
  intro c
  refine ⟨?_, fun _ _ => trivial⟩
  unfold print
  split
  · exact ⟨[line], rfl, List.forall_mem_singleton.mpr h⟩
  · exact (Scope.printing P).refl c

theorem isWithin_writing_print (h : P line) : (print line).IsWithin (.writing P) := by
  intro c
  refine ⟨(isWithin_printing h c).1, fun s hs => ?_⟩
  unfold print at hs
  split_ifs at hs
  cases hs
  exact fun _ => Stop.noConfusion

theorem isWithin_printing_record (P : String → Prop) (rs : List Record) : (record rs).IsWithin (.printing P) :=
  fun _ => ⟨⟨[], rfl, List.forall_mem_nil _⟩, fun _ _ => trivial⟩

theorem isWithin_printing_ofExcept (P : String → Prop) (result : Except Failure α) :
    (ofExcept result).IsWithin (.printing P) :=
  isWithin_ofExcept fun _ _ => trivial

/-- Notes are not printed. -/
theorem IsWithin.printing (h : run.IsWithin .notes) (P : String → Prop) : run.IsWithin (.printing P) :=
  h.mono (fun hnoted => ⟨[], hnoted.printed, List.forall_mem_nil _⟩) fun _ => trivial

theorem IsWithin.printing_mono (h : run.IsWithin (.printing P)) (hkind : ∀ l, P l → Q l) :
    run.IsWithin (.printing Q) := by
  apply h.mono
  · intro c c' hlead
    obtain ⟨ls, hls, hP⟩ := hlead
    exact ⟨ls, hls, fun l hl => hkind l (hP l hl)⟩
  · exact fun _ => trivial

theorem isWithin_printing_eachInputLine {act : Line → Run Unit} (flaw : Option FileFlaw)
    (h : ∀ l, (act l).IsWithin (.printing P)) : (eachInputLine flaw act).IsWithin (.printing P) :=
  isWithin_eachInputLine (fun _ _ _ => ⟨[], rfl, List.forall_mem_nil _⟩) (fun _ => trivial) h

end Run

theorem Environment.bytesOf_append (s t : String) : bytesOf (s ++ t) = bytesOf s ++ bytesOf t := by
  rw [bytesOf, String.toList_append, Utf8.encode_append]
  rfl

/-- The bytes of lines, each with a line feed at its end. -/
theorem Environment.bytesOf_lines (ls : List String) :
    bytesOf (String.join (ls.map (· ++ "\n"))) = (ls.map fun l => bytesOf l ++ [Line.feed]).flatten := by
  induction ls with
  | nil => rfl
  | cons l ls ih =>
    rw [List.map_cons, String.join_cons, bytesOf_append, bytesOf_append, ih]
    rfl

namespace World

variable {w : World} {P : String → Prop}

/-- The lines that a run prints, in order. Without a level of records there is no run. -/
def printed (w : World) : List String :=
  match w.environment.level with
  | .error _ => []
  | .ok _ => (runProgram w w.console).2.printed.reverse

/-- The manual page or the version that is written when a run asks for it. -/
def page? (w : World) : Option String :=
  match w.environment.level, runProgram w w.console with
  | .ok _, (.error (.page text), c) => if c.isOpen then some text else none
  | _, _ => none

theorem lines_eq (w : World) : w.outcome.lines = w.printed ++ w.page?.toList := by
  unfold outcome printed page?
  cases w.environment.level with
  | error f => rfl
  | ok level =>
    rcases runProgram w w.console with ⟨result, c⟩
    cases result with
    | ok _ => exact (List.append_nil _).symm
    | error s =>
      cases s with
      | page text =>
        dsimp only [Outcome.ofRun]
        split
        · rfl
        · exact (List.append_nil _).symm
      | closed => exact (List.append_nil _).symm
      | failed f => exact (List.append_nil _).symm

theorem forall_printed (h : (runProgram w).IsWithin (.printing P)) : ∀ l ∈ w.printed, P l := by
  intro l hl
  unfold printed at hl
  split at hl
  · cases hl
  · -- nothing is printed before the run starts
    obtain ⟨ls, hls, hkind⟩ := (h w.console).1
    have hstart : w.console.printed = [] := rfl
    rw [hls, hstart, List.append_nil, List.mem_reverse] at hl
    exact hkind l hl

theorem forall_lines (h : (runProgram w).IsWithin (.writing P)) : ∀ l ∈ w.outcome.lines, P l := by
  have hpage : w.page? = none := by
    unfold page?
    split
    · rename_i text c _ hrun
      exact absurd rfl ((h.of_eq hrun).2 _ rfl text)
    · rfl
  rw [w.lines_eq, hpage, Option.toList_none, List.append_nil]
  exact forall_printed (h.mono (fun hlead => hlead) fun _ => trivial)

end World

end Agenda
