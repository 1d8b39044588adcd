import Agenda.Command.Tasks
import Agenda.Proofs.Command.Lines
import Agenda.Proofs.Command.Program
/-!
Runs that answer alike. Two consoles are alike when they differ in nothing but their records and what is noted about
the input, and two runs when they lead from consoles that are alike to such consoles and to results that are related.
Records may be added on either side, and what is put together from runs that answer alike answers alike as well.
-/
namespace Agenda

/-- Whether two consoles are the same but for the records: the same is left to read, and the same was printed. -/
structure Console.Alike (c c' : Console) : Prop where
  stdin : c'.stdin.flatten = c.stdin.flatten
  isOpen : c'.isOpen = c.isOpen
  printed : c'.printed = c.printed

/-- Whether two runs end alike: both with results that are related, or both stopped in the same way. -/
inductive EndAlike {α β : Type} (R : α → β → Prop) : Except Stop α → Except Stop β → Prop
  | ok {a : α} {b : β} (h : R a b) : EndAlike R (.ok a) (.ok b)
  | error (s : Stop) : EndAlike R (.error s) (.error s)

/-- Whether two runs, from consoles that are alike, end alike and leave consoles that are alike. -/
def Run.Alike {α β : Type} (R : α → β → Prop) (run : Run α) (run' : Run β) : Prop :=
  ∀ c c', c.Alike c' → EndAlike R (run c).1 (run' c').1 ∧ (run c).2.Alike (run' c').2

namespace Console.Alike

variable {a b c : Console}

theorem refl (c : Console) : c.Alike c :=
  ⟨rfl, rfl, rfl⟩

theorem symm (h : a.Alike b) : b.Alike a :=
  ⟨h.stdin.symm, h.isOpen.symm, h.printed.symm⟩

theorem trans (h : a.Alike b) (h' : b.Alike c) : a.Alike c :=
  ⟨h'.stdin.trans h.stdin, h'.isOpen.trans h.isOpen, h'.printed.trans h.printed⟩

end Console.Alike

namespace EndAlike

variable {α β : Type} {R S : α → β → Prop} {result : Except Stop α} {result' : Except Stop β} {x y z : Except Stop α}

theorem mono (h : EndAlike R result result') (hR : ∀ a b, R a b → S a b) : EndAlike S result result' := by
  cases h with
  | ok h => exact .ok (hR _ _ h)
  | error s => exact .error s

theorem symm (h : EndAlike Eq x y) : EndAlike Eq y x := by
  cases h with
  | ok h => exact .ok h.symm
  | error s => exact .error s

theorem trans (h : EndAlike Eq x y) (h' : EndAlike Eq y z) : EndAlike Eq x z := by
  cases h with
  | ok h =>
    cases h'
    exact .ok (h.trans ‹_›)
  | error s => exact h'

end EndAlike

namespace Run

variable {α β γ δ τ : Type} {R S : α → β → Prop} {V : γ → δ → Prop} {run : Run α} {run' : Run β} {a : α} {b : β}
  {f : α → Run γ} {f' : β → Run δ} {c c' : Console}

theorem Alike.mono (h : run.Alike R run') (hR : ∀ a b, R a b → S a b) : run.Alike S run' :=
  fun c c' hc => ⟨(h c c' hc).1.mono hR, (h c c' hc).2⟩

theorem Alike.symm {run run' : Run α} (h : run.Alike Eq run') : run'.Alike Eq run :=
  fun c c' hc => ⟨(h c' c hc.symm).1.symm, (h c' c hc.symm).2.symm⟩

theorem Alike.trans {run run' run'' : Run α} (h : run.Alike Eq run') (h' : run'.Alike Eq run'') :
    run.Alike Eq run'' := by
  intro c c' hc
  obtain ⟨hend, hled⟩ := h c c' hc
  -- the run in the middle is taken once, from a console that is like itself
  obtain ⟨hend', hled'⟩ := h' c' c' (.refl c')
  exact ⟨hend.trans hend', hled.trans hled'⟩

theorem alike_done (h : R a b) : (done a).Alike R (done b) :=
  fun _ _ hc => ⟨.ok h, hc⟩

theorem alike_stop (s : Stop) : (stop s : Run α).Alike R (stop s : Run β) :=
  fun _ _ hc => ⟨.error s, hc⟩

theorem alike_ofExcept (result : Except Failure α) : (ofExcept result).Alike Eq (ofExcept result) := by
  cases result with
  | ok a => exact alike_done rfl
  | error f => exact alike_stop (.failed f)

theorem alike_ofExcept_map (g : β → α) (result : Except Failure β) :
    (ofExcept (result.map g)).Alike (fun a b => a = g b) (ofExcept result) := by
  cases result with
  | ok b => exact alike_done rfl
  | error f => exact alike_stop (.failed f)

theorem alike_record (rs rs' : List Record) : (record rs).Alike Eq (record rs') :=
  fun _ _ hc => ⟨.ok rfl, hc.stdin, hc.isOpen, hc.printed⟩

theorem alike_print (line : String) : (print line).Alike Eq (print line) := by
  intro c c' hc
  cases hopen : c.isOpen with
  | true =>
    rw [print_of_isOpen hopen, print_of_isOpen (hc.isOpen.trans hopen)]
    exact ⟨.ok rfl, hc.stdin, hc.isOpen, congrArg (List.cons line) hc.printed⟩
  | false =>
    have hclosed : print line c = (.error .closed, c) := if_neg (by simp [hopen])
    have hclosed' : print line c' = (.error .closed, c') := if_neg (by simp [hc.isOpen, hopen])
    rw [hclosed, hclosed']
    exact ⟨.error .closed, hc⟩

theorem Alike.bind (h : run.Alike R run') (hf : ∀ a b, R a b → (f a).Alike V (f' b)) :
    (run >>= f).Alike V (run' >>= f') := by
  intro c c' hc
  obtain ⟨hend, hled⟩ := h c c' hc
  rcases hrun : run c with ⟨result, c₁⟩
  rcases hrun' : run' c' with ⟨result', c₁'⟩
  rw [hrun, hrun'] at hend hled
  cases hend with
  | ok hab =>
    rw [bind_of_ok hrun, bind_of_ok hrun']
    exact hf _ _ hab c₁ c₁' hled
  | error s =>
    rw [bind_of_error hrun, bind_of_error hrun']
    exact ⟨.error s, hled⟩

/-- Runs that go on in the same way with the same result. -/
theorem Alike.bind_eq {run run' : Run α} {f f' : α → Run γ} {V : γ → γ → Prop} (h : run.Alike Eq run')
    (hf : ∀ a, (f a).Alike V (f' a)) : (run >>= f).Alike V (run' >>= f') := by
  apply h.bind
  rintro a _ rfl
  exact hf a

theorem Alike.record_left (h : run.Alike R run') (rs : List Record) : (record rs >>= fun _ => run).Alike R run' :=
  fun _ c' hc => h _ c' ⟨hc.stdin, hc.isOpen, hc.printed⟩

theorem Alike.and_of_result {run run' : Run α} {P : α → Prop} (h : run.Alike Eq run')
    (hP : ∀ {c a c'}, run c = (.ok a, c') → P a) : run.Alike (fun a b => a = b ∧ P a) run' := by
  intro c c' hc
  obtain ⟨hend, hled⟩ := h c c' hc
  refine ⟨?_, hled⟩
  rcases hrun : run c with ⟨result, c₁⟩
  rcases hrun' : run' c' with ⟨result', c₁'⟩
  rw [hrun, hrun'] at hend
  cases hend with
  | ok hab => exact .ok ⟨hab, hP hrun⟩
  | error s => exact .error s

theorem Alike.during {run run' : Run α} (h : run.Alike Eq run') (context : Context) :
    (Run.during context run).Alike Eq (Run.during context run') := by
  intro c c' hc
  obtain ⟨hend, hled⟩ := h c c' hc
  rcases hrun : run c with ⟨result, c₁⟩
  rcases hrun' : run' c' with ⟨result', c₁'⟩
  rw [hrun, hrun'] at hend hled
  unfold Run.during
  rw [hrun, hrun']
  cases hend with
  | ok hab => exact ⟨.ok hab, hled⟩
  | error s => exact ⟨.error (s.during context), hled⟩

theorem alike_each {act act' : τ → Run Unit} (h : ∀ t, (act t).Alike Eq (act' t)) (ts : List τ) :
    (each act ts).Alike Eq (each act' ts) := by
  induction ts with
  | nil => exact alike_done rfl
  | cons t ts ih => exact (h t).bind_eq fun _ => ih

/-- Requests that are related at first and stay so with each token are related in the end. -/
theorem alike_foldlM {step : α → τ → Run α} {step' : β → τ → Run β} {ts : List τ}
    (hstep : ∀ t ∈ ts, ∀ a b, R a b → (step a t).Alike R (step' b t)) (h : R a b) :
    (ts.foldlM step a).Alike R (ts.foldlM step' b) := by
  induction ts generalizing a b with
  | nil => exact alike_done h
  | cons t ts ih =>
    obtain ⟨ht, hts⟩ := List.forall_mem_cons.mp hstep
    rw [List.foldlM_cons, List.foldlM_cons]
    exact (ht a b h).bind fun a' b' h' => ih hts h'

theorem alike_eachLineOf {act act' : Line → Run Unit} (h : ∀ l, (act l).Alike Eq (act' l)) (flaw : Option FileFlaw)
    (data : Text.Bytes) : (eachLineOf flaw act data).Alike Eq (eachLineOf flaw act' data) := by
  apply (alike_each h _).bind_eq
  intro _
  cases flaw with
  | none => exact alike_done rfl
  | some flaw => exact alike_stop _

/-- How the chunks of the standard input are cut does not matter. -/
theorem alike_eachInputLine {act act' : Line → Run Unit} (h : ∀ l, (act l).Alike Eq (act' l))
    (flaw : Option FileFlaw) : (eachInputLine flaw act).Alike Eq (eachInputLine flaw act') := by
  intro c c' hc
  have hleave : (leave []).Alike Eq (leave []) := fun _ _ hc => ⟨.ok rfl, rfl, hc.isOpen, hc.printed⟩
  rw [eachInputLine_eq, eachInputLine_eq, hc.stdin]
  exact (alike_eachLineOf h flaw _).bind_eq (fun _ => hleave) _ _ ⟨hc.stdin, hc.isOpen, hc.printed⟩

end Run

section Commands

/-- Whether the same files are there in two worlds, and nothing or the same is wrong with the standard input. -/
structure World.SameInputs (w w' : World) : Prop where
  find : w'.find = w.find
  stdinFlaw : w'.stdinFlaw = w.stdinFlaw

theorem alike_printOccurrences (r : Rule) (now stored : Date) (count : Nat) :
    (printOccurrences r now stored count).Alike Eq (printOccurrences r now stored count) := by
  induction count generalizing now stored with
  | zero => exact Run.alike_done rfl
  | succ count ih =>
    refine (Run.alike_record _ _).bind_eq fun _ => ?_
    refine (Run.alike_ofExcept _).bind_eq fun d => ?_
    exact (Run.alike_print d.compact).bind_eq fun _ => ih d d

theorem alike_printChecked (today : Date) (t : Task) :
    (t.printChecked today).Alike Eq (t.printChecked today) := by
  refine (Run.alike_record _ _).bind_eq fun _ => ?_
  exact (Run.alike_ofExcept _).bind_eq fun u => Run.alike_print u.json

theorem alike_printCompleted (today : Date) (t : Task) :
    (t.printCompleted today).Alike Eq (t.printCompleted today) := by
  refine (Run.alike_record _ _).bind_eq fun _ => ?_
  refine (Run.alike_ofExcept _).bind_eq fun completion => ?_
  cases completion with
  | removed => exact Run.alike_done rfl
  | rescheduled u => exact Run.alike_print u.json

variable {act act' : Task → Run Unit}

theorem alike_withTaskOn (h : ∀ t, (act t).Alike Eq (act' t)) (input : String) (l : Line) :
    (withTaskOn act input l).Alike Eq (withTaskOn act' input l) := by
  unfold withTaskOn
  split
  · exact Run.alike_done rfl
  · exact ((Run.alike_ofExcept _).bind_eq h).during _

theorem alike_withTasksOf {w w' : World} (hw : w.SameInputs w') (h : ∀ t, (act t).Alike Eq (act' t))
    (source : Source) : (withTasksOf w act source).Alike Eq (withTasksOf w' act' source) := by
  cases source with
  | stdin =>
    unfold withTasksOf
    rw [hw.stdinFlaw]
    exact Run.alike_eachInputLine (alike_withTaskOn h _) w.stdinFlaw
  | file path =>
    unfold withTasksOf
    dsimp only
    rw [hw.find]
    cases w.find path with
    | error flaw => exact Run.alike_stop _
    | ok entry =>
      cases entry with
      | folder => exact Run.alike_stop _
      | file content flaw =>
        dsimp only
        rw [Run.eachLineUpTo_done, Run.eachLineUpTo_done]
        exact Run.alike_eachLineOf (alike_withTaskOn h _) flaw _

variable {w w' : World}

theorem alike_referenceDate {given given' : Option Date} (h : given.getD w.todayDate = given'.getD w'.todayDate) :
    (w.referenceDate given).Alike Eq (w'.referenceDate given') := by
  -- only the record tells whether the date was given
  have hdate (w : World) (given : Option Date) : ∃ rs : List Record,
      w.referenceDate given = Run.record rs >>= fun _ => Run.done (given.getD w.todayDate) := by
    cases given with
    | none => exact ⟨[w.todayRecord], rfl⟩
    | some d => exact ⟨[], rfl⟩
  obtain ⟨rs, hrs⟩ := hdate w given
  obtain ⟨rs', hrs'⟩ := hdate w' given'
  rw [hrs, hrs', h]
  exact (Run.alike_record rs rs').bind_eq fun _ => Run.alike_done rfl

/-- Requests for the same with the same date of today are answered alike. -/
theorem NextRequest.alike_answer {q q' : NextRequest} (hstored : q.stored = q'.stored)
    (hrecurrence : q.recurrence = q'.recurrence) (hcount : q.count = q'.count)
    (hnow : q.now.getD w.todayDate = q'.now.getD w'.todayDate) : (q.answer w).Alike Eq (q'.answer w') := by
  unfold answer
  rw [hstored, hrecurrence, hcount]
  split
  · exact Run.alike_stop _
  · exact Run.alike_stop _
  · refine (Run.alike_ofExcept _).bind_eq fun rule => ?_
    exact (alike_referenceDate hnow).bind_eq fun now => alike_printOccurrences rule now _ _

theorem TaskRequest.alike_answer {q q' : TaskRequest} {act : Date → Task → Run Unit} (hw : w.SameInputs w')
    (hact : ∀ today t, (act today t).Alike Eq (act today t)) (hpaths : q.paths = q'.paths)
    (hnow : q.now.getD w.todayDate = q'.now.getD w'.todayDate) : (q.answer w act).Alike Eq (q'.answer w' act) := by
  have hsources : q.sources = q'.sources := by rw [sources, sources, hpaths]
  unfold answer
  rw [hsources]
  refine (alike_referenceDate hnow).bind_eq fun today => ?_
  exact Run.alike_each (alike_withTasksOf hw (hact today)) q'.sources

end Commands

/-- Whether two outcomes are the same but for the records. -/
structure Outcome.SameAnswer (o o' : Outcome) : Prop where
  exitCode : o'.exitCode = o.exitCode
  stdout : o'.stdout = o.stdout
  complaint : o'.complaint = o.complaint

section Outcomes

variable {w w' : World}

theorem Outcome.SameAnswer.refl (o : Outcome) : o.SameAnswer o :=
  ⟨rfl, rfl, rfl⟩

theorem Outcome.sameAnswer_ofRun {result result' : Except Stop Unit} {c c' : Console}
    (htold : ∀ f, complaintOf w'.environment f = complaintOf w.environment f) (hend : EndAlike Eq result result')
    (hled : c.Alike c') : (ofRun w (result, c)).SameAnswer (ofRun w' (result', c')) := by
  cases hend with
  | ok h => exact ⟨rfl, by rw [stdout, stdout, ofRun, ofRun, hled.printed], rfl⟩
  | error s =>
    cases s with
    | page text =>
      refine ⟨rfl, ?_, rfl⟩
      rw [stdout, stdout, ofRun, ofRun, hled.printed, hled.isOpen]
    | closed => exact ⟨rfl, by rw [stdout, stdout, ofRun, ofRun, hled.printed], rfl⟩
    | failed f =>
      refine ⟨rfl, ?_, congrArg some (htold f)⟩
      rw [stdout, stdout, ofRun, ofRun, hled.printed]

/-- Programs that answer alike, from the same input and with failures told in the same way, have the same answer, unless
a level of records that does not exist stops one of them. -/
theorem World.sameAnswer_of_alike (h : (runProgram w).Alike Eq (runProgram w')) (hstdin : w'.stdin = w.stdin)
    (hopen : w'.isOpen = w.isOpen) (hlevel : ∀ f, w.environment.level = .error f ↔ w'.environment.level = .error f)
    (htold : ∀ f, Outcome.complaintOf w'.environment f = Outcome.complaintOf w.environment f) :
    w.outcome.SameAnswer w'.outcome := by
  have hconsole : w.console.Alike w'.console := ⟨congrArg List.flatten hstdin, hopen, rfl⟩
  obtain ⟨hend, hled⟩ := h w.console w'.console hconsole
  unfold World.outcome
  cases hw : w.environment.level with
  | error f =>
    rw [(hlevel f).mp hw]
    exact ⟨rfl, rfl, congrArg some (htold f)⟩
  | ok level =>
    cases hw' : w'.environment.level with
    | error f =>
      rw [(hlevel f).mpr hw'] at hw
      cases hw
    | ok level' => exact Outcome.sameAnswer_ofRun htold hend hled

end Outcomes

end Agenda
