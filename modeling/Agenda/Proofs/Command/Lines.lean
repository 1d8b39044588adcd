import Agenda.Proofs.Command.Run
import Agenda.Proofs.Input.Lines
/-!
A run for each line of a reader is a run for each line of its data: it goes from one line to the next until it is
stopped, whatever the chunks are, and when nothing stops it everything was read.
-/
namespace Agenda

open Text

/-- The lines of data, numbered from 1. -/
def linesOf (data : Bytes) : List Line :=
  Line.numbered 1 (divided data)

theorem IsDivision.linesOf_eq {data : Bytes} {lines : List Bytes} (h : IsDivision data lines) :
    linesOf data = Line.numbered 1 lines := by
  rw [linesOf, ← h.unique (isDivision_divided data)]

namespace Run

variable {f : Line → Run Unit} {l : Line} {c c' : Console} {s : Stop} {v : Verdict Stop} {calls rest : List Line}
  {r : Reader}

/-- The visit that runs for a line. -/
def visiting (f : Line → Run Unit) (c : Console) (l : Line) : Console × Verdict Stop :=
  match f l c with
  | (.ok (), c') => (c', .next)
  | (.error s, c') => (c', .fail s)

/-- How a run for lines ends after a verdict. -/
def endOfVisits (v : Verdict Stop) : Except Stop Unit :=
  v.error?.elim (.ok ()) .error

theorem eq_of_visiting (h : visiting f c l = (c', v)) : f l c = (endOfVisits v, c') ∧ v ≠ .stop := by
  unfold visiting at h
  split at h
  · rename_i c₁ hf
    obtain ⟨rfl, rfl⟩ := Prod.mk.inj h
    exact ⟨hf, by simp⟩
  · rename_i s c₁ hf
    obtain ⟨rfl, rfl⟩ := Prod.mk.inj h
    exact ⟨hf, by simp⟩

theorem each_of_ok {α : Type} {f : α → Run Unit} {a : α} (as : List α) (h : f a c = (.ok (), c')) :
    each f (a :: as) c = each f as c' :=
  bind_of_ok h

theorem each_of_error {α : Type} {f : α → Run Unit} {a : α} (as : List α) (h : f a c = (.error s, c')) :
    each f (a :: as) c = (.error s, c') :=
  bind_of_error h

/-- A run for lines, of which the visits call for the first ones, ends as the last visit says; no visit just stops. -/
theorem each_of_calls (h : Calls (visiting f) c calls c' v) (hv : v = .next → rest = []) :
    each f (calls ++ rest) c = (endOfVisits v, c') ∧ v ≠ .stop := by
  induction h with
  | none c =>
    rw [hv rfl]
    exact ⟨rfl, by simp⟩
  | next hl _ ih =>
    rw [List.cons_append, each_of_ok _ (eq_of_visiting hl).1]
    exact ih hv
  | @last c c' l v hl hne =>
    obtain ⟨hf, hstop⟩ := eq_of_visiting hl
    cases v with
    | next => exact absurd rfl hne
    | stop => exact absurd rfl hstop
    | fail s => exact ⟨each_of_error _ hf, hstop⟩

variable {flaw : Option FileFlaw}

theorem eachLineUpTo_of_visits {out : Visited Console Stop}
    (h : visitFrom (visiting f) (flaw.map Stop.unreadable) c 1 r = out) : eachLineUpTo flaw f r c =
      match out.error with
      | none => (.ok out.unread, out.state)
      | some s => (.error s, out.state) := by
  rw [← h]
  rfl

/-- Stops where reading meets a flaw. -/
def meet : Option FileFlaw → Run Unit
  | none => done ()
  | some flaw => stop (.unreadable flaw)

/-- A run for the lines that can be read of data, and then the flaw after them. -/
def eachLineOf (flaw : Option FileFlaw) (f : Line → Run Unit) (data : Bytes) : Run Unit :=
  each f (linesOf (delivered flaw data)) >>= fun _ => meet flaw

theorem eachLineOf_none (f : Line → Run Unit) (data : Bytes) : eachLineOf none f data = each f (linesOf data) :=
  bind_done _

/-- Whatever the chunks of a reader are, a run for its lines is the run for the lines of its data, after which nothing is
left. -/
theorem eachLineUpTo_eq (flaw : Option FileFlaw) (f : Line → Run Unit) (r : Reader) :
    eachLineUpTo flaw f r = eachLineOf flaw f r.flatten >>= fun _ => done [] := by
  funext c
  have hlines : IsDivision (delivered (flaw.map Stop.unreadable) r.flatten) (divided (delivered flaw r.flatten)) := by
    rw [delivered_map]
    exact isDivision_divided _
  have hvisits : ComesTo (visiting f) (flaw.map Stop.unreadable) c (linesOf (delivered flaw r.flatten))
      (visitFrom (visiting f) (flaw.map Stop.unreadable) c 1 r) := visitFrom_comesTo hlines
  have hread : (visitFrom (visiting f) (flaw.map Stop.unreadable) c 1 r).error = none →
      (visitFrom (visiting f) (flaw.map Stop.unreadable) c 1 r).unread = [] :=
    unread_of_visitFrom fun _ _ => (eq_of_visiting rfl).2
  generalize hout : visitFrom (visiting f) (flaw.map Stop.unreadable) c 1 r = out at hvisits hread
  obtain ⟨calls, rest, hlines, ⟨v, hcalls, hrest, herror⟩, -⟩ := hvisits
  obtain ⟨heach, hstop⟩ := each_of_calls hcalls hrest
  rw [eachLineUpTo_of_visits hout, eachLineOf, hlines]
  -- the last verdict: all lines were visited and the end or the flaw was met, or the run was stopped at a line
  cases v with
  | next =>
    have hmeet : (each f (calls ++ rest) >>= fun _ => meet flaw) c = meet flaw out.state := bind_of_ok heach
    rw [herror]
    cases flaw with
    | none =>
      rw [bind_of_ok hmeet]
      dsimp only [Option.map, Verdict.errorOr]
      rw [hread herror]
      rfl
    | some x =>
      rw [bind_of_error hmeet]
      rfl
  | stop => exact absurd rfl hstop
  | fail s =>
    rw [bind_of_error (bind_of_error heach), herror]
    rfl

/-- When what is left does not matter, a run for the lines of a reader is the run for the lines of its data. -/
theorem eachLineUpTo_done (flaw : Option FileFlaw) (f : Line → Run Unit) (r : Reader) :
    (eachLineUpTo flaw f r >>= fun _ => pure ()) = eachLineOf flaw f r.flatten := by
  rw [eachLineUpTo_eq, bind_done_bind]
  exact bind_done _

/-- What a run for the lines of a reader leaves unread, unless it is stopped, is empty. -/
theorem eachLine_eq (f : Line → Run Unit) (r : Reader) (c : Console) : ∃ unread : Reader, unread.flatten = [] ∧
    eachLine f r c = (each f (linesOf r.flatten) >>= fun _ => done unread) c := by
  refine ⟨[], rfl, ?_⟩
  rw [eachLine, eachLineUpTo_eq, eachLineOf_none]

/-- Leaves a reader as the standard input. -/
def leave (rest : Reader) : Run Unit :=
  fun c => (.ok (), { c with stdin := rest })

/-- Unless a run for the lines of the standard input is stopped, it leaves nothing of it. -/
theorem eachInputLine_eq (flaw : Option FileFlaw) (f : Line → Run Unit) (c : Console) : eachInputLine flaw f c =
    (eachLineOf flaw f c.stdin.flatten >>= fun _ => leave []) { c with wasAsked := true } := by
  rw [← bind_done_bind, ← eachLineUpTo_eq]
  rfl

variable {p : Scope}

theorem isWithin_eachLineOf (hp : ∀ flaw, p.stops (.unreadable flaw)) (h : ∀ l, (f l).IsWithin p) (data : Bytes) :
    (eachLineOf flaw f data).IsWithin p := by
  apply (isWithin_each h _).bind
  intro _
  cases flaw with
  | none => exact isWithin_done p ()
  | some x => exact isWithin_stop (hp x)

/-- A scope that lets the input be read has in it what is done with the lines of the input, if it has what is done with
one. -/
theorem isWithin_eachInputLine (hp : ∀ (c : Console) stdin wasAsked, p.leads c { c with stdin, wasAsked })
    (hflaw : ∀ flaw, p.stops (.unreadable flaw)) (h : ∀ l, (f l).IsWithin p) : (eachInputLine flaw f).IsWithin p := by
  have hread (data : Bytes) : (eachLineOf flaw f data >>= fun _ => leave []).IsWithin p := by
    apply (isWithin_eachLineOf hflaw h data).bind
    intro _ c
    refine ⟨hp c [] c.wasAsked, fun s hs => ?_⟩
    cases hs
  intro c
  rw [eachInputLine_eq]
  obtain ⟨hlead, hstop⟩ := hread c.stdin.flatten { c with wasAsked := true }
  exact ⟨p.trans (hp c c.stdin true) hlead, hstop⟩

end Run

end Agenda
