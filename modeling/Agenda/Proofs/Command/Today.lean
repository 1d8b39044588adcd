import Agenda.Proofs.Calendar.DateText
import Agenda.Proofs.Command.Alike
import Agenda.Proofs.Command.Occurrences
import Agenda.Proofs.Command.Rules
import Agenda.Proofs.Command.Tasks
import Agenda.Proofs.Text.Utf8
/-!
The two ways of fixing today: an option of the command, and a variable of the environment. They lead to the same
answers, and where the option is given neither the variable nor the time zone matters. The command that prints rules
goes by no date at all.
-/
namespace Agenda

open Text

/-- The commands that go by today's date. -/
inductive DatedCommand
  | next
  | tasks (command : TaskCommand)

namespace World

/-- The run with other arguments. -/
def asking (w : World) (items : List Bytes) : World :=
  { w with arguments := items }

/-- The run in an environment that sets today and the time zone otherwise. -/
def dated (w : World) (today timeZone : Option Bytes) : World :=
  { w with environment := { w.environment with today, timeZone } }

end World

/-- Whether a token is for an option with a value, be that there or not. -/
def Token.Gives (o : Setting) (t : Token) : Prop :=
  ∃ name, o.isNamed name = true ∧ (t = .missing name ∨ ∃ value, t = .setting name value)

def nowBytes : Bytes := Environment.bytesOf "-n"

/-- The request with a date for today, unless it has one. -/
def NextRequest.orNow (d : Date) (q : NextRequest) : NextRequest :=
  { q with now := some (q.now.getD d) }

/-- The request with a date for today, unless it has one. -/
def TaskRequest.orNow (d : Date) (q : TaskRequest) : TaskRequest :=
  { q with now := some (q.now.getD d) }

/-- Whether a change of a request has nothing to do with its plain arguments. -/
structure NextRequest.KeepsPlain (g : NextRequest → NextRequest) : Prop where
  stored (q : NextRequest) : (g q).stored = q.stored
  recurrence (q : NextRequest) : (g q).recurrence = q.recurrence
  set_stored (q : NextRequest) (d : Date) : g { q with stored := some d } = { g q with stored := some d }
  set_recurrence (q : NextRequest) (text : String) :
    g { q with recurrence := some text } = { g q with recurrence := some text }

/-- Whether a change of a request makes no difference to what tokens add to it. -/
structure NextRequest.Commutes (g : NextRequest → NextRequest) : Prop extends KeepsPlain g where
  set_now (q : NextRequest) (d : Date) : g { q with now := some d } = { g q with now := some d }
  set_count (q : NextRequest) (n : Nat) : g { q with count := n } = { g q with count := n }

/-- Whether a change of a request makes no difference to what tokens add to it. -/
structure TaskRequest.Commutes (g : TaskRequest → TaskRequest) : Prop where
  set_now (q : TaskRequest) (d : Date) : g { q with now := some d } = { g q with now := some d }
  add_path (q : TaskRequest) (path : Bytes) :
    g { q with paths := path :: q.paths } = { g q with paths := path :: (g q).paths }

section Requests

variable {t : Token} {ts : List Token} {d : Date} {c c' : Console} {text : String} {name : OptionName} {value : Bytes}
  {items : List Bytes}

theorem tokens_now {takesValue : OptionName → Bool} (hn : takesValue (.short 'n') = true) :
    Token.ofArguments takesValue (nowBytes :: value :: items) =
      .setting (.short 'n') value :: Token.ofArguments takesValue items := by
  -- the argument is the letter alone, so the value is awaited
  have hshort : Token.ofArgument takesValue nowBytes = ([], some (.short 'n')) := by
    change (if takesValue (.short 'n') = true then _ else _) = _
    rw [hn]
    rfl
  exact Token.ofArguments_cons_waiting (by decide) hshort

theorem Setting.ofValue_now (h : Date.parse text = .ok d) :
    Setting.now.ofValue Setting.readNow (Environment.bytesOf text) = .ok d := by
  rw [Setting.ofValue, Environment.bytesOf, Utf8.decode?_encode]
  dsimp only
  rw [String.ofList_toList, Setting.readNow, h]
  rfl

theorem Token.Gives.exists_value? {α : Type} {o : Setting} (h : t.Gives o) (read : String → Except Cause α) :
    ∃ result, o.value? read t = some result := by
  obtain ⟨name, hname, rfl | ⟨value, rfl⟩⟩ := h
  · exact ⟨_, if_pos hname⟩
  · exact ⟨_, if_pos hname⟩

theorem Token.not_gives_of_value? {α : Type} {o : Setting} {read : String → Except Cause α}
    (h : o.value? read t = none) : ¬ t.Gives o := by
  intro ht
  obtain ⟨result, hresult⟩ := ht.exists_value? read
  rw [hresult] at h
  cases h

theorem Setting.value?_count_of_gives (h : t.Gives .now) : Setting.count.value? Setting.readTimes t = none := by
  have hnot (name : OptionName) (hname : Setting.now.isNamed name = true) : ¬ Setting.count.isNamed name = true := by
    cases name with
    | short letter =>
      obtain rfl : 'n' = letter := by simpa [Setting.isNamed, Setting.now] using hname
      decide
    | long name =>
      obtain rfl : "now" = name := by simpa [Setting.isNamed, Setting.now] using hname
      decide
  obtain ⟨name, hname, rfl | ⟨value, rfl⟩⟩ := h
  · exact if_neg (hnot name hname)
  · exact if_neg (hnot name hname)

namespace NextRequest

variable {q q' : NextRequest}

theorem takePlain_map {g : NextRequest → NextRequest} (hg : KeepsPlain g) (q : NextRequest) (value : Bytes) :
    (g q).takePlain value = (q.takePlain value).map g := by
  unfold takePlain
  rw [hg.stored, hg.recurrence]
  cases Utf8.decode? value with
  | none => rfl
  | some s =>
    dsimp only
    split_ifs
    · cases Date.parse (String.ofList s) with
      | error e => rfl
      | ok d =>
        have hset := (hg.set_stored q d).symm
        dsimp only at hset
        rw [hg.recurrence] at hset
        exact congrArg Except.ok hset
    · have hset := (hg.set_recurrence q (String.ofList s)).symm
      dsimp only at hset
      rw [hg.stored] at hset
      exact congrArg Except.ok hset
    · rfl

theorem alike_take {g : NextRequest → NextRequest} (hg : Commutes g) (q : NextRequest) (t : Token) :
    ((g q).take t).Alike (fun a b => a = g b) (q.take t) := by
  unfold take
  cases Setting.count.value? Setting.readTimes t with
  | some result => exact (Run.alike_ofExcept result).bind_eq fun n => Run.alike_done (hg.set_count q n).symm
  | none =>
    cases Setting.now.value? Setting.readNow t with
    | some result =>
      refine (Run.alike_ofExcept result).bind_eq fun d => ?_
      exact (Run.alike_record _ _).bind_eq fun _ => Run.alike_done (hg.set_now q d).symm
    | none =>
      cases t with
      | plain value =>
        dsimp only
        rw [takePlain_map hg.toKeepsPlain]
        exact Run.alike_ofExcept_map _ _
      | flag | setting | missing | surplus => exact Run.alike_stop _

theorem alike_ofTokens {g : NextRequest → NextRequest} (hg : Commutes g) (ts : List Token) :
    (ts.foldlM take (g empty)).Alike (fun a b => a = g b) (ofTokens ts) := by
  refine Run.alike_foldlM (fun t _ a b h => ?_) rfl
  rw [h]
  exact alike_take hg b t

theorem commutes_id : Commutes id :=
  ⟨⟨fun _ => rfl, fun _ => rfl, fun _ _ => rfl, fun _ _ => rfl⟩, fun _ _ => rfl, fun _ _ => rfl⟩

theorem commutes_orNow (d : Date) : Commutes (orNow d) :=
  ⟨⟨fun _ => rfl, fun _ => rfl, fun _ _ => rfl, fun _ _ => rfl⟩, fun _ _ => rfl, fun _ _ => rfl⟩

theorem take_setting_now (hname : Setting.now.isNamed name = true)
    (hread : Setting.now.ofValue Setting.readNow value = .ok d) :
    q.take (.setting name value) = Run.record [nowRecord d] >>= fun _ => Run.done { q with now := some d } := by
  -- the count is looked for first, and no name is of both options
  have hgives : (Token.setting name value).Gives .now := ⟨name, hname, Or.inr ⟨value, rfl⟩⟩
  unfold take
  rw [Setting.value?_count_of_gives hgives, Setting.value?, if_pos hname, hread]
  rfl

theorem ofTokens_now (hname : Setting.now.isNamed name = true)
    (hread : Setting.now.ofValue Setting.readNow value = .ok d) :
    ofTokens (.setting name value :: ts) =
      Run.record [nowRecord d] >>= fun _ => ts.foldlM take (empty.orNow d) := by
  rw [ofTokens, List.foldlM_cons, take_setting_now hname hread]
  rfl

theorem now_of_takePlain (h : q.takePlain value = .ok q') : q'.now = q.now := by
  -- setting today to what it is in `q` changes nothing in `q`, and so nothing in what comes of it
  have hkeeps : KeepsPlain fun q' => { q' with now := q.now } :=
    ⟨fun _ => rfl, fun _ => rfl, fun _ _ => rfl, fun _ _ => rfl⟩
  have hsame : q.takePlain value = (q.takePlain value).map fun q' => { q' with now := q.now } :=
    takePlain_map hkeeps q value
  rw [h] at hsame
  have hnow : q'.now = ({ q' with now := q.now } : NextRequest).now := congrArg now (Except.ok.inj hsame)
  exact hnow

theorem isSome_now_of_take (hq : q.now.isSome = true ∨ t.Gives .now) (h : q.take t c = (.ok q', c')) :
    q'.now.isSome = true := by
  unfold take at h
  cases hcount : Setting.count.value? Setting.readTimes t with
  | some result =>
    rw [hcount] at h
    -- a token for the count is not one for today, so today was given before
    have hnot : ¬ t.Gives .now := by
      intro ht
      rw [Setting.value?_count_of_gives ht] at hcount
      cases hcount
    cases result with
    | ok n =>
      cases h
      exact hq.resolve_right hnot
    | error f => cases h
  | none =>
    rw [hcount] at h
    cases hnow : Setting.now.value? Setting.readNow t with
    | some result =>
      rw [hnow] at h
      cases result with
      | ok d =>
        cases h
        rfl
      | error f => cases h
    | none =>
      rw [hnow] at h
      have hnot := Token.not_gives_of_value? hnow
      cases t with
      | plain value =>
        rw [now_of_takePlain (Run.eq_ok_of_ofExcept h)]
        exact hq.resolve_right hnot
      | flag | setting | missing | surplus => cases h

theorem isSome_now_of_ofTokens (ht : ∃ t ∈ ts, t.Gives .now) (h : ofTokens ts c = (.ok q, c')) :
    q.now.isSome = true := by
  obtain ⟨t, ht, hgives⟩ := ht
  apply Run.of_foldlM_mem (P := fun q => q.now.isSome = true) ht _ _ h
  · exact fun h => isSome_now_of_take (Or.inr hgives) h
  · exact fun _ _ _ _ _ hq h => isSome_now_of_take (Or.inl hq) h

end NextRequest

namespace TaskRequest

variable {q q' : TaskRequest} {manual : Manual}

theorem alike_take (manual : Manual) {g : TaskRequest → TaskRequest} (hg : Commutes g) (q : TaskRequest) (t : Token) :
    ((g q).take manual t).Alike (fun a b => a = g b) (q.take manual t) := by
  unfold take
  cases Setting.now.value? Setting.readNow t with
  | some result =>
    refine (Run.alike_ofExcept result).bind_eq fun d => ?_
    exact (Run.alike_record _ _).bind_eq fun _ => Run.alike_done (hg.set_now q d).symm
  | none =>
    cases t with
    | plain value => exact Run.alike_done (hg.add_path q value).symm
    | flag | setting | missing | surplus => exact Run.alike_stop _

theorem alike_ofTokens (manual : Manual) {g : TaskRequest → TaskRequest} (hg : Commutes g) (ts : List Token) :
    (ts.foldlM (take manual) (g empty)).Alike (fun a b => a = g b) (ofTokens manual ts) := by
  refine Run.alike_foldlM (fun t _ a b h => ?_) rfl
  rw [h]
  exact alike_take manual hg b t

theorem commutes_id : Commutes id :=
  ⟨fun _ _ => rfl, fun _ _ => rfl⟩

theorem commutes_orNow (d : Date) : Commutes (orNow d) :=
  ⟨fun _ _ => rfl, fun _ _ => rfl⟩

theorem take_setting_now (hname : Setting.now.isNamed name = true)
    (hread : Setting.now.ofValue Setting.readNow value = .ok d) :
    q.take manual (.setting name value) =
      Run.record [NextRequest.nowRecord d] >>= fun _ => Run.done { q with now := some d } := by
  unfold take
  rw [Setting.value?, if_pos hname, hread]
  rfl

theorem ofTokens_now (hname : Setting.now.isNamed name = true)
    (hread : Setting.now.ofValue Setting.readNow value = .ok d) :
    ofTokens manual (.setting name value :: ts) =
      Run.record [NextRequest.nowRecord d] >>= fun _ => ts.foldlM (take manual) (empty.orNow d) := by
  rw [ofTokens, List.foldlM_cons, take_setting_now hname hread]
  rfl

theorem isSome_now_of_take (hq : q.now.isSome = true ∨ t.Gives .now) (h : q.take manual t c = (.ok q', c')) :
    q'.now.isSome = true := by
  unfold take at h
  cases hnow : Setting.now.value? Setting.readNow t with
  | some result =>
    rw [hnow] at h
    cases result with
    | ok d =>
      cases h
      rfl
    | error f => cases h
  | none =>
    rw [hnow] at h
    have hnot := Token.not_gives_of_value? hnow
    cases t with
    | plain value =>
      cases h
      exact hq.resolve_right hnot
    | flag | setting | missing | surplus => cases h

theorem isSome_now_of_ofTokens (ht : ∃ t ∈ ts, t.Gives .now) (h : ofTokens manual ts c = (.ok q, c')) :
    q.now.isSome = true := by
  obtain ⟨t, ht, hgives⟩ := ht
  apply Run.of_foldlM_mem (P := fun q => q.now.isSome = true) ht _ _ h
  · exact fun h => isSome_now_of_take (Or.inr hgives) h
  · exact fun _ _ _ _ _ hq h => isSome_now_of_take (Or.inl hq) h

end TaskRequest

end Requests

namespace DatedCommand

/-- The arguments that name a command. -/
def words : DatedCommand → List Bytes
  | next => [nextBytes]
  | tasks command => [taskBytes, Environment.bytesOf command.name]

/-- The options of a command that take a value. -/
def takesValue : DatedCommand → OptionName → Bool
  | next => NextRequest.takesValue
  | tasks _ => Setting.now.isNamed

/-- A command, once it is named. -/
def run (w : World) (items : List Bytes) : DatedCommand → Run Unit
  | next => NextRequest.ofTokens (Token.ofArguments NextRequest.takesValue items) >>= NextRequest.answer w
  | tasks command => TaskRequest.ofTokens command.manual (Token.ofArguments Setting.now.isNamed items) >>=
      TaskRequest.answer w command.act

variable {w w' : World} {command : DatedCommand} {items : List Bytes} {text : String} {d : Date}

theorem runProgram_of_words (h : w.arguments = command.words ++ items) : runProgram w = command.run w items := by
  unfold runProgram runCommand
  rw [h]
  cases command with
  | next => rfl
  | tasks command => cases command <;> rfl

theorem alike_act (command : TaskCommand) (today : Date) (t : Task) :
    (command.act today t).Alike Eq (command.act today t) := by
  cases command with
  | check => exact alike_printChecked today t
  | complete => exact alike_printCompleted today t

/-- The option sets today as the date that the other run takes for want of it. -/
theorem alike_run_of_option (hd : Date.parse text = .ok d) (htoday : w'.todayDate = d) (hw : w.SameInputs w')
    (command : DatedCommand) (items : List Bytes) :
    (command.run w (nowBytes :: Environment.bytesOf text :: items)).Alike Eq (command.run w' items) := by
  have hnow (given : Option Date) : (some (given.getD d)).getD w.todayDate = given.getD w'.todayDate := by
    rw [htoday, Option.getD_some]
  have hvalue := Setting.ofValue_now hd
  cases command with
  | next =>
    dsimp only [run]
    -- the option comes first, so all other tokens are added to a request that has the date
    rw [tokens_now (by decide), NextRequest.ofTokens_now (by decide) hvalue]
    refine ((NextRequest.alike_ofTokens (NextRequest.commutes_orNow d) _).record_left _).bind ?_
    rintro _ q rfl
    exact NextRequest.alike_answer rfl rfl rfl (hnow q.now)
  | tasks command =>
    dsimp only [run]
    rw [tokens_now (by decide), TaskRequest.ofTokens_now (by decide) hvalue]
    refine ((TaskRequest.alike_ofTokens command.manual (TaskRequest.commutes_orNow d) _).record_left _).bind ?_
    rintro _ q rfl
    exact TaskRequest.alike_answer hw (alike_act command) rfl (hnow q.now)

/-- Where the option is given today does not matter. -/
theorem alike_run_of_gives (hw : w.SameInputs w')
    (ht : ∃ t ∈ Token.ofArguments command.takesValue items, t.Gives .now) :
    (command.run w items).Alike Eq (command.run w' items) := by
  have hnow {given : Option Date} (h : given.isSome = true) : given.getD w.todayDate = given.getD w'.todayDate := by
    obtain ⟨d, rfl⟩ := Option.isSome_iff_exists.mp h
    rfl
  cases command with
  | next =>
    have htokens := (NextRequest.alike_ofTokens NextRequest.commutes_id _).and_of_result
      (NextRequest.isSome_now_of_ofTokens ht)
    refine htokens.bind ?_
    rintro q _ ⟨rfl, hq⟩
    exact NextRequest.alike_answer rfl rfl rfl (hnow hq)
  | tasks command =>
    have htokens := (TaskRequest.alike_ofTokens command.manual TaskRequest.commutes_id _).and_of_result
      (TaskRequest.isSome_now_of_ofTokens ht)
    refine htokens.bind ?_
    rintro q _ ⟨rfl, hq⟩
    exact TaskRequest.alike_answer hw (alike_act command) rfl (hnow hq)

end DatedCommand

theorem World.todayDate_dated {text : String} {d : Date} (h : Date.parse text = .ok d) (w : World)
    (timeZone : Option Bytes) : (w.dated (some (Environment.bytesOf text)) timeZone).todayDate = d := by
  have hd : Date.ofDigits text = .ok d := mapError_eq_ok_iff.mp h
  have hset : (w.dated (some (Environment.bytesOf text)) timeZone).setDate = .ok (some d) := by
    unfold setDate dated
    dsimp only
    rw [Environment.bytesOf, Utf8.decode?_encode]
    dsimp only
    rw [String.ofList_toList, hd]
  rw [World.todayDate, hset]

theorem World.sameInputs_dated (w : World) (items items' : List Bytes)
    (today today' timeZone timeZone' : Option Bytes) :
    ((w.asking items).dated today timeZone).SameInputs ((w.asking items').dated today' timeZone') :=
  ⟨rfl, rfl⟩

theorem World.sameAnswer_asking {w : World} {items items' : List Bytes}
    (h : (runProgram (w.asking items)).Alike Eq (runProgram (w.asking items'))) :
    (w.asking items).outcome.SameAnswer (w.asking items').outcome :=
  World.sameAnswer_of_alike h rfl rfl (fun _ => Iff.rfl) fun _ => rfl

theorem World.sameAnswer_dated {w : World} {items items' : List Bytes} {today today' timeZone timeZone' : Option Bytes}
    (h : (runProgram ((w.asking items).dated today timeZone)).Alike Eq
      (runProgram ((w.asking items').dated today' timeZone'))) :
    ((w.asking items).dated today timeZone).outcome.SameAnswer ((w.asking items').dated today' timeZone').outcome :=
  World.sameAnswer_of_alike h rfl rfl (fun _ => Iff.rfl) fun _ => rfl

/-- The option for today and the variable for it lead to the same answer, whatever else is asked for. Where the option
is given, neither the variable nor the time zone makes a difference, and to the printing of rules they make none at
all. -/
theorem ways_of_fixing_today_agree (w : World) (today today' timeZone timeZone' : Option Bytes) :
    (∀ (command : DatedCommand) (text : String) (d : Date) (items : List Bytes), Date.parse text = .ok d →
      let option := [nowBytes, Environment.bytesOf text]
      ((w.asking (command.words ++ (option ++ items))).dated today timeZone).outcome.SameAnswer
        ((w.asking (command.words ++ items)).dated (some (Environment.bytesOf text)) timeZone').outcome) ∧
    (∀ (command : DatedCommand) (items : List Bytes),
      (∃ t ∈ Token.ofArguments command.takesValue items, t.Gives .now) →
      ((w.asking (command.words ++ items)).dated today timeZone).outcome.SameAnswer
        ((w.asking (command.words ++ items)).dated today' timeZone').outcome) ∧
    ∀ items : List Bytes, ((w.asking (ruleBytes :: items)).dated today timeZone).outcome =
      ((w.asking (ruleBytes :: items)).dated today' timeZone').outcome := by
  have hrun (command : DatedCommand) (items : List Bytes) (today timeZone : Option Bytes) :
      runProgram ((w.asking (command.words ++ items)).dated today timeZone) =
        command.run ((w.asking (command.words ++ items)).dated today timeZone) items :=
    DatedCommand.runProgram_of_words rfl
  refine ⟨fun command text d items hd => ?_, fun command items ht => ?_, fun items => ?_⟩
  · apply World.sameAnswer_dated
    rw [hrun, hrun]
    exact DatedCommand.alike_run_of_option hd (World.todayDate_dated hd _ _) (w.sameInputs_dated _ _ _ _ _ _) command items
  · apply World.sameAnswer_dated
    rw [hrun, hrun]
    exact DatedCommand.alike_run_of_gives (w.sameInputs_dated _ _ _ _ _ _) ht
  · have hrules (today timeZone : Option Bytes) :
        runProgram ((w.asking (ruleBytes :: items)).dated today timeZone) = runRules w ⟨items, false⟩ :=
      runProgram_of_rule rfl
    rw [World.outcome, World.outcome, hrules, hrules]
    rfl

/-- The next occurrence in a row of weeks, with today fixed in one way and in the other, and with the option where the
variable is for another day. -/
theorem ways_of_fixing_today_agree_on_day_of_date : ∃ w w' w'' : World,
    w = World.ofTexts ["next", "-n", "20240115", "20240101", "d 7"] [] ∧
      w' = (World.ofTexts ["next", "20240101", "d 7"] []).dated (some (Environment.bytesOf "20240115")) none ∧
      w'' = w.dated (some (Environment.bytesOf "20230101")) (some (Environment.bytesOf "Asia/Tokyo")) ∧
      w'.outcome.stdout = w.outcome.stdout ∧ w''.outcome.stdout = w.outcome.stdout ∧
      w.outcome.stdout = "20240122\n" := by
  let date : Bytes := Environment.bytesOf "20240115"
  let items := ["20240101", "d 7"].map Environment.bytesOf
  let w := World.ofTexts ["next", "-n", "20240115", "20240101", "d 7"] []
  have hd : Date.parse "20240115" = .ok ⟨2024, 1, 15, by decide, by decide, by decide⟩ := rfl
  have hgives : ∃ t ∈ Token.ofArguments NextRequest.takesValue (nowBytes :: date :: items), t.Gives .now := by
    rw [tokens_now (by decide)]
    exact ⟨_, List.mem_cons_self, .short 'n', by decide, Or.inr ⟨date, rfl⟩⟩
  have hoption := (ways_of_fixing_today_agree w none none none none).1 .next "20240115" _ items hd
  have hneither := (ways_of_fixing_today_agree w none (some (Environment.bytesOf "20230101")) none
    (some (Environment.bytesOf "Asia/Tokyo"))).2.1 .next _ hgives
  have hprinted : w.outcome.stdout = "20240122\n" := by decide +kernel
  exact ⟨w, _, _, rfl, rfl, rfl, hoption.stdout, hneither.stdout, hprinted⟩

end Agenda
