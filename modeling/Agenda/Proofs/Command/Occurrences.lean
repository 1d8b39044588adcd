import Agenda.Proofs.Calendar.DateText
import Agenda.Proofs.Command.Program
import Agenda.Proofs.Command.Setting
import Agenda.Proofs.Command.Token
import Agenda.Proofs.Recurrence.Grammar
import Agenda.Proofs.Recurrence.Terms
/-!
What the command that prints occurrences prints: the first dates of the row that its rule makes, as many as were asked
for. When the row is too short all of it is printed, and the run fails with a fault of the engine.
-/
namespace Agenda

open Text

namespace NextRequest

theorem isFault_takePlain {q : NextRequest} {value : Bytes} {f : Failure} (h : q.takePlain value = .error f) :
    f.isFault = false := by
  unfold takePlain at h
  split at h
  · cases h
    rfl
  · dsimp only at h
    split_ifs at h
    · rcases bind_eq_error_iff.mp h with hdate | ⟨d, -, hd⟩
      · obtain ⟨e, -, rfl⟩ := mapError_eq_error_iff.mp hdate
        rfl
      · cases hd
    · cases h
      rfl

theorem isWithin_take (q : NextRequest) (t : Token) : (q.take t).IsWithin .notes := by
  unfold take
  split
  case h_1 result hresult =>
    apply (Setting.isWithin_value Setting.isFault_readTimes hresult).bind
    intro n
    exact Run.isWithin_done _ _
  case h_2 =>
    split
    case h_1 result hresult => exact Setting.isWithin_now hresult _
    case h_2 =>
      split
      · exact Run.isWithin_ofExcept fun _ h => isFault_takePlain h
      · exact Run.isWithin_stop (Token.isFault_refuse _ _ _)

theorem isWithin_ofTokens (ts : List Token) : (ofTokens ts).IsWithin .notes :=
  Run.isWithin_foldlM (fun t _ q => isWithin_take q t) empty

variable {q : NextRequest} {d stored : Date} {n : Nat} {value : Bytes} {s : List Char}

theorem take_setting_count {name : OptionName} (q : NextRequest) (hname : Setting.count.isNamed name = true)
    (hread : Setting.count.ofValue Setting.readTimes value = .ok n) :
    q.take (.setting name value) = Run.done { q with count := n } := by
  unfold take
  rw [Setting.value?, if_pos hname, hread]
  rfl

theorem take_count (q : NextRequest) (hs : Utf8.decode? value = some s) (hn : readCount (String.ofList s) = .ok n) :
    q.take (.setting (.short 'c') value) = Run.done { q with count := n } := by
  have hread : Setting.count.ofValue Setting.readTimes value = .ok n := by
    rw [Setting.ofValue, hs]
    dsimp only
    rw [Setting.readTimes, hn]
    rfl
  exact take_setting_count q (by decide) hread

theorem take_plain {q' : NextRequest} (h : q.takePlain value = .ok q') : q.take (.plain value) = Run.done q' := by
  change Run.ofExcept (q.takePlain value) = _
  rw [h]
  rfl

theorem take_date (hq : q.stored = none) (hs : Utf8.decode? value = some s) (hd : Date.parse (String.ofList s) = .ok d) :
    q.take (.plain value) = Run.done { q with stored := some d } := by
  apply take_plain
  rw [takePlain, hs]
  dsimp only
  rw [hq, hd]
  rfl

theorem take_rule (hq : q.stored = some stored) (hq' : q.recurrence = none) (hs : Utf8.decode? value = some s) :
    q.take (.plain value) = Run.done { q with recurrence := some (String.ofList s) } := by
  apply take_plain
  rw [takePlain, hs]
  dsimp only
  rw [hq, hq']
  rfl

end NextRequest

/-- Whether a run is to print `count` occurrences of a rule after both dates: its arguments ask for them, all that they
name can be read, and somebody reads what is printed. -/
structure World.AsksNext (w : World) (r : Rule) (now stored : Date) (count : Nat) : Prop where
  isOpen : w.isOpen = true
  level : ∃ level, w.environment.level = .ok level
  request : ∃ a q text, (Arguments.ofList w.arguments).command Manual.program = .ok ("next", a) ∧
    (NextRequest.ofTokens (a.tokens NextRequest.takesValue) w.console).1 = .ok q ∧ q.stored = some stored ∧
    q.recurrence = some text ∧ Rule.parse text = .ok r ∧ q.now.getD w.todayDate = now ∧ q.count = count

variable {r : Rule} {now stored d : Date} {count : Nat} {f : Fault} {c c' : Console} {w : World}

def nextBytes : Bytes := Environment.bytesOf "next"

def countBytes : Bytes := Environment.bytesOf "-c"

/-- Any count, date and rule that can be read make a command line that asks for occurrences after today. -/
theorem World.asksNext_of_arguments {times date rule : Bytes} {ts ds rs : List Char}
    (hw : w.arguments = [nextBytes, countBytes, times, date, rule]) (hopen : w.isOpen = true)
    (hlevel : ∃ level, w.environment.level = .ok level)
    (hts : Utf8.decode? times = some ts) (hcount : readCount (String.ofList ts) = .ok count)
    (hds : Utf8.decode? date = some ds) (hstored : Date.parse (String.ofList ds) = .ok stored)
    (hrs : Utf8.decode? rule = some rs) (hrule : Rule.parse (String.ofList rs) = .ok r) :
    w.AsksNext r w.todayDate stored count := by
  have hdate := Date.head?_of_parse hstored
  have hword := Rule.head?_of_parse hrule
  rw [String.toList_ofList] at hdate hword
  have htokens : Token.ofArguments NextRequest.takesValue [countBytes, times, date, rule] =
      [.setting (.short 'c') times, .plain date, .plain rule] := by
    -- the option waits for its value, which is the argument after it whatever that begins with
    have hoption : Token.ofArgument NextRequest.takesValue countBytes = ([], some (.short 'c')) := by decide
    rw [Token.ofArguments_cons_waiting (by decide) hoption, Token.ofArguments_cons_plain _ (Token.head?_ne_dash hds hdate),
      Token.ofArguments_cons_plain _ (Token.head?_ne_dash hrs hword)]
    rfl
  refine ⟨hopen, hlevel, ⟨[countBytes, times, date, rule], false⟩, ⟨none, some stored, some (String.ofList rs), count⟩,
    String.ofList rs, ?_, ?_, rfl, rfl, hrule, rfl, rfl⟩
  · rw [hw]
    rfl
  · rw [Arguments.tokens, if_neg Bool.false_ne_true, htokens, NextRequest.ofTokens, List.foldlM_cons,
      NextRequest.take_count _ hts hcount, Run.done_bind, List.foldlM_cons, NextRequest.take_date rfl hds hstored,
      Run.done_bind, List.foldlM_cons, NextRequest.take_rule rfl rfl hrs]
    rfl

/-- How a run ends that printed occurrences until a fault, if there was one. -/
def endOf (fault : Option Fault) : Except Stop Unit :=
  fault.elim (.ok ()) fun f => .error (.failed (.ofEngine (.fault f)))

/-- The console with the record of a search, if that is kept. -/
def Console.searching (c : Console) (r : Rule) (now stored : Date) : Console :=
  { c with records := ([r.searchRecord now stored].filter (·.isKept c.level)).reverse ++ c.records }

theorem printOccurrences_succ_of_ok (h : c.isOpen = true) (hn : r.next now stored = .ok d) :
    printOccurrences r now stored (count + 1) c =
      printOccurrences r d d count { c.searching r now stored with printed := d.compact :: c.printed } := by
  have hopen : (c.searching r now stored).isOpen = true := h
  rw [printOccurrences, Run.bind_of_ok (Run.record_eq _ c), Run.ofExcept_of_ok hn, Run.done_bind]
  exact Run.bind_of_ok (Run.print_of_isOpen hopen _)

theorem printOccurrences_succ_of_error (hn : r.next now stored = .error f) :
    printOccurrences r now stored (count + 1) c = (endOf (some f), c.searching r now stored) := by
  rw [printOccurrences, Run.bind_of_ok (Run.record_eq _ c), Run.ofExcept_of_error hn]
  rfl

/-- Printing occurrences prints those that are listed, and fails as the list was cut short. -/
theorem printOccurrences_eq (r : Rule) (now stored : Date) (count : Nat) (h : c.isOpen = true) : ∃ c',
    printOccurrences r now stored count c = (endOf (r.occurrences now stored count).2, c') ∧
      c'.printed = ((r.occurrences now stored count).1.map Date.compact).reverse ++ c.printed := by
  induction count generalizing now stored c with
  | zero => exact ⟨c, rfl, rfl⟩
  | succ count ih =>
    -- a printed occurrence is the one that the rest of them come after
    cases hn : r.next now stored with
    | error f =>
      rw [Rule.occurrences_succ_of_error hn, printOccurrences_succ_of_error hn]
      exact ⟨_, rfl, rfl⟩
    | ok d =>
      rw [Rule.occurrences_succ_of_ok hn, printOccurrences_succ_of_ok h hn]
      have hopen : ({ c.searching r now stored with printed := d.compact :: c.printed } : Console).isOpen = true := h
      obtain ⟨c', hc', hp⟩ := ih d d hopen
      refine ⟨c', hc', hp.trans ?_⟩
      rw [List.map_cons, List.reverse_cons, List.append_assoc, List.singleton_append]

theorem NextRequest.answer_eq {q : NextRequest} {text : String} (hs : q.stored = some stored)
    (ht : q.recurrence = some text) (hr : Rule.parse text = .ok r) :
    q.answer w = w.referenceDate q.now >>= fun now => printOccurrences r now stored q.count := by
  rw [answer, hs, ht]
  dsimp only
  rw [Run.ofExcept_of_ok hr, Run.done_bind]

/-- The program, when it is asked for occurrences. -/
theorem World.AsksNext.runProgram_eq (h : w.AsksNext r now stored count) : ∃ c',
    runProgram w w.console = (endOf (r.occurrences now stored count).2, c') ∧
      c'.printed.reverse = (r.occurrences now stored count).1.map Date.compact := by
  obtain ⟨a, q, text, ha, hq, hs, ht, hr, hnow, hcount⟩ := h.request
  have hrun : runProgram w = runNext w a := runProgram_of_command ha
  -- reading what is asked for prints nothing, so that the occurrences are all that is printed
  obtain ⟨c₁, hc⟩ : ∃ c₁, NextRequest.ofTokens (a.tokens NextRequest.takesValue) w.console = (.ok q, c₁) :=
    ⟨_, Prod.ext hq rfl⟩
  obtain ⟨c₂, hdate, hnoted₂⟩ := w.referenceDate_eq q.now c₁
  have hnoted := ((NextRequest.isWithin_ofTokens _).of_eq hc).1.trans hnoted₂
  obtain ⟨c₃, hprint, hp₃⟩ := printOccurrences_eq r now stored count (hnoted.isOpen.trans h.isOpen)
  refine ⟨c₃, ?_, ?_⟩
  · rw [hrun, runNext, Run.bind_of_ok hc, NextRequest.answer_eq hs ht hr, Run.bind_of_ok hdate, hnow, hcount]
    exact hprint
  · rw [hp₃, hnoted.printed, List.reverse_append, List.reverse_reverse]
    exact List.nil_append _

/-- The outcome of a run that was asked for occurrences: they are printed, and there is a complaint only about a fault
that cut them short. -/
theorem World.AsksNext.outcome_spec (h : w.AsksNext r now stored count) :
    w.outcome.lines = (r.occurrences now stored count).1.map Date.compact ∧
      ((r.occurrences now stored count).2 = none ∧ w.outcome.exitCode = 0 ∧ w.outcome.complaint = none ∨
        ∃ f, (r.occurrences now stored count).2 = some f ∧ w.outcome.exitCode = 2 ∧
          w.outcome.complaint = some (Outcome.complaintOf w.environment (.ofEngine (.fault f)))) := by
  obtain ⟨level, hlevel⟩ := h.level
  obtain ⟨c, hrun, hp⟩ := h.runProgram_eq
  rw [World.outcome_of_level hlevel, hrun, ← hp]
  cases (r.occurrences now stored count).2 with
  | none => exact ⟨rfl, Or.inl ⟨rfl, rfl, rfl⟩⟩
  | some f => exact ⟨rfl, Or.inr ⟨f, rfl, rfl, rfl⟩⟩

/-- Asked for a number of occurrences, the program prints the first ones of the row that the rule makes, one on a line.
Where the row is too short, it prints all of it and ends with a fault of the engine and the exit code 2. -/
theorem next_prints_first_terms (h : w.AsksNext r now stored count) :
    (∀ d, r.Term now stored 0 d ↔ r.next now stored = .ok d) ∧
      (∀ i j d e, i < j → r.Term now stored i d → r.Term now stored j e → d < e) ∧
      ∃ ds : List Date, w.outcome.lines = ds.map Date.compact ∧
        (∀ i d, ds[i]? = some d ↔ i < count ∧ r.Term now stored i d) ∧
        (ds.length = count ∧ w.outcome.exitCode = 0 ∧ w.outcome.complaint = none ∨
          ds.length < count ∧ (∀ i d, r.Term now stored i d → i < ds.length) ∧ w.outcome.exitCode = 2 ∧
            ∃ f, w.outcome.complaint = some (Outcome.complaintOf w.environment (.ofEngine (.fault f)))) := by
  have hrow := r.term_isRow now stored
  obtain ⟨hget, hlen⟩ := hrow.occurrences_spec count
  obtain ⟨hlines, hend⟩ := h.outcome_spec
  refine ⟨hrow.zero_iff, fun i j d e hij hd he => hrow.lt hd he hij, _, hlines, hget, ?_⟩
  rcases hend with ⟨hnone, hcode, hquiet⟩ | ⟨f, hsome, hcode, hsays⟩
  · exact Or.inl ⟨hlen.mp hnone, hcode, hquiet⟩
  · have hne : (r.occurrences now stored count).1.length ≠ count := by
      rw [← hlen.ne, hsome]
      exact Option.some_ne_none f
    have hle : (r.occurrences now stored count).1.length ≤ count := by
      apply List.getElem?_eq_none_iff.mp
      cases hat : (r.occurrences now stored count).1[count]? with
      | none => rfl
      | some d => exact absurd ((hget count d).mp hat).1 (lt_irrefl count)
    have hlt := lt_of_le_of_ne hle hne
    refine Or.inr ⟨hlt, fun i d hd => ?_, hcode, f, hsays⟩
    by_contra hc
    -- with a term past the end of the list there would be one right at the end, and it would be listed
    obtain ⟨e, he⟩ := hrow.exists_of_le hd (not_lt.mp hc)
    have hat := (hget _ e).mpr ⟨hlt, he⟩
    rw [List.getElem?_eq_none le_rfl] at hat
    cases hat

/-- Every year from a leap day, up to the end of the calendar. -/
theorem next_prints_last_years : ∃ w : World,
    w.AsksNext .yearly ⟨9995, 12, 31, by decide, by decide, by decide⟩ ⟨2020, 2, 29, by decide, by decide, by decide⟩ 5 ∧
      "99970228" ∈ w.outcome.lines ∧ w.outcome.lines.length < 5 ∧ w.outcome.exitCode = 2 := by
  let arguments := ["next", "-c", "5", "20200229", "y"].map Environment.bytesOf
  let environment : Environment := ⟨some (Environment.bytesOf "99951231"), none, none, none, none, none, none⟩
  let w : World := ⟨arguments, environment, [], none, fun _ => .error .missing, 0, .shipped, true, false⟩
  have h : w.AsksNext .yearly ⟨9995, 12, 31, by decide, by decide, by decide⟩
      ⟨2020, 2, 29, by decide, by decide, by decide⟩ 5 :=
    World.asksNext_of_arguments rfl rfl ⟨none, rfl⟩ rfl rfl rfl rfl rfl rfl
  obtain ⟨-, -, ds, hlines, hget, hend⟩ := next_prints_first_terms h
  let x : Date := ⟨9996, 2, 29, by decide, by decide, by decide⟩
  have hx : Rule.yearly.next ⟨9995, 12, 31, by decide, by decide, by decide⟩
      ⟨2020, 2, 29, by decide, by decide, by decide⟩ = .ok x := by decide
  have hsecond : ds[1]? = some ⟨9997, 2, 28, by decide, by decide, by decide⟩ :=
    (hget 1 _).mpr ⟨by decide, x, hx, rfl, rfl, rfl⟩
  refine ⟨w, h, ?_, ?_⟩
  · rw [hlines]
    exact List.mem_map.mpr ⟨_, List.mem_of_getElem? hsecond, by decide +kernel⟩
  · rw [hlines, List.length_map]
    rcases hend with ⟨hlen, -⟩ | ⟨hlen, -, hcode, -⟩
    · -- a fifth term would be in the year 10000
      obtain ⟨-, y, hy, hyear, -⟩ := (hget 4 ds[4]).mp (List.getElem?_eq_getElem (by omega))
      obtain rfl := Except.ok.inj (hx.symm.trans hy)
      have hle := ds[4].year_mem.2
      rw [hyear] at hle
      cases hle
    · exact ⟨hlen, hcode⟩

end Agenda
