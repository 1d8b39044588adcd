import Agenda.Proofs.Command.Today
import Agenda.Proofs.Text.Pieces
/-!
How the arguments of the command that prints occurrences are written does not matter. Its options may stand anywhere
among the plain arguments, in any spelling and as often as one likes: the last value of each option counts, and the
plain arguments in their order.
-/
namespace Agenda

open Text

/-- The options of the command that prints occurrences. -/
inductive NextOption
  | now
  | count

/-- The ways of writing an option with its value. -/
inductive Spelling
  /-- The letter, and the value as the next argument. -/
  | apart
  /-- The letter and the value in one argument. -/
  | attached
  /-- The letter, an equals sign and the value in one argument. -/
  | equals
  /-- The word, and the value as the next argument. -/
  | longApart
  /-- The word, an equals sign and the value in one argument. -/
  | longEquals

namespace NextOption

def short : NextOption → Bytes
  | now => nowBytes
  | count => countBytes

def long : NextOption → Bytes
  | now => Environment.bytesOf "--now"
  | count => Environment.bytesOf "--count"

def shortName : NextOption → OptionName
  | now => .short 'n'
  | count => .short 'c'

def longName : NextOption → OptionName
  | now => .long "now"
  | count => .long "count"

/-- The name by which an option is called in a spelling. -/
def calledAs (o : NextOption) : Spelling → OptionName
  | .apart => o.shortName
  | .attached => o.shortName
  | .equals => o.shortName
  | .longApart => o.longName
  | .longEquals => o.longName

/-- The arguments that an option with its value makes. -/
def written (o : NextOption) (spelling : Spelling) (value : Bytes) : List Bytes :=
  match spelling with
  | .apart => [o.short, value]
  | .attached => [o.short ++ value]
  | .equals => [o.short ++ Token.equalsByte :: value]
  | .longApart => [o.long, value]
  | .longEquals => [o.long ++ Token.equalsByte :: value]

end NextOption

variable {value : Bytes} {items : List Bytes} {d : Date} {n : Nat} {s : List Char}

section Written

theorem flatMap_pieceBytes (bs : Bytes) : (Utf8.pieces bs).flatMap Token.pieceBytes = bs := by
  have hsame : Token.pieceBytes = Utf8.Piece.bytes := by
    funext p
    cases p <;> rfl
  rw [hsame, Utf8.flatMap_bytes_pieces]

/-- A value is taken as it is when it begins with a character other than the equals sign. -/
theorem valueBytes_pieces (hs : Utf8.decode? value = some s) (hhead : ∃ c rest, s = c :: rest ∧ c ≠ '=') :
    Utf8.pieces value ≠ [] ∧ Token.valueBytes (Utf8.pieces value) = value := by
  obtain ⟨c, rest, rfl, hc⟩ := hhead
  -- a first equals sign would be taken for the one between the letter and its value
  have hpieces : Utf8.pieces value = .char c :: rest.map .char := by
    rw [Utf8.decode?_eq_some_iff.mp hs, Utf8.pieces_encode]
    rfl
  have hwhole := flatMap_pieceBytes value
  rw [hpieces] at hwhole ⊢
  refine ⟨List.cons_ne_nil _ _, ?_⟩
  rw [Token.valueBytes, if_neg (by simpa using hc)]
  exact hwhole

theorem ofArgument_short (o : NextOption) (bs : Bytes) : Token.ofArgument NextRequest.takesValue (o.short ++ bs) =
    if (Utf8.pieces bs).isEmpty then ([], some o.shortName)
    else ([.setting o.shortName (Token.valueBytes (Utf8.pieces bs))], none) := by
  cases o <;> rfl

theorem ofArgument_long (o : NextOption) (value : Bytes) :
    Token.ofArgument NextRequest.takesValue (o.long ++ Token.equalsByte :: value) =
      ([.setting o.longName value], none) := by
  cases o <;> rfl

theorem short_ne_endOfOptions (o : NextOption) (bs : Bytes) : o.short ++ bs ≠ Token.endOfOptions := by
  intro h
  have hletter := congrArg (·[1]?) h
  cases o <;> cases hletter

theorem long_ne_endOfOptions (o : NextOption) (bs : Bytes) : o.long ++ bs ≠ Token.endOfOptions := by
  intro h
  have hthird := congrArg (·[2]?) h
  cases o <;> cases hthird

/-- However an option is spelled, it is read as its name with its value. -/
theorem ofArguments_written (hs : Utf8.decode? value = some s) (hhead : ∃ c rest, s = c :: rest ∧ c ≠ '=')
    (o : NextOption) (spelling : Spelling) (items : List Bytes) :
    Token.ofArguments NextRequest.takesValue (o.written spelling value ++ items) =
      .setting (o.calledAs spelling) value :: Token.ofArguments NextRequest.takesValue items := by
  cases spelling with
  | apart =>
    have hwaits : Token.ofArgument NextRequest.takesValue o.short = ([], some o.shortName) := by
      cases o <;> rfl
    exact Token.ofArguments_cons_waiting (by cases o <;> decide) hwaits
  | attached =>
    obtain ⟨hne, hvalue⟩ := valueBytes_pieces hs hhead
    have hsets := ofArgument_short o value
    rw [if_neg (by simpa using hne), hvalue] at hsets
    exact Token.ofArguments_cons_setting (short_ne_endOfOptions o value) hsets
  | equals =>
    have hpieces : Utf8.pieces (Token.equalsByte :: value) = .char '=' :: Utf8.pieces value := rfl
    have hsets := ofArgument_short o (Token.equalsByte :: value)
    rw [hpieces, if_neg (by simp), Token.valueBytes, if_pos rfl, flatMap_pieceBytes] at hsets
    exact Token.ofArguments_cons_setting (short_ne_endOfOptions o _) hsets
  | longApart =>
    have hwaits : Token.ofArgument NextRequest.takesValue o.long = ([], some o.longName) := by
      cases o <;> rfl
    exact Token.ofArguments_cons_waiting (by cases o <;> decide) hwaits
  | longEquals => exact Token.ofArguments_cons_setting (long_ne_endOfOptions o _) (ofArgument_long o value)

end Written

section Values

/-- A date begins with a digit. -/
theorem exists_of_readNow (h : Setting.readNow (String.ofList s) = .ok d) : ∃ c rest, s = c :: rest ∧ c ≠ '=' := by
  have hd : Date.ofDigits (String.ofList s) = .ok d := mapError_eq_ok_iff.mp (mapError_eq_ok_iff.mp h)
  obtain ⟨hlength, hdigits⟩ := Date.eight_digits_of_ofDigits hd
  rw [String.toList_ofList] at hlength hdigits
  cases s with
  | nil => cases hlength
  | cons c rest =>
    refine ⟨c, rest, rfl, ?_⟩
    rintro rfl
    exact absurd (List.all_eq_true.mp hdigits '=' List.mem_cons_self) (by decide)

/-- A number of occurrences begins with a digit or a sign. -/
theorem exists_of_readTimes (h : Setting.readTimes (String.ofList s) = .ok n) : ∃ c rest, s = c :: rest ∧ c ≠ '=' := by
  obtain ⟨m, hm, -⟩ := bind_eq_ok_iff.mp (mapError_eq_ok_iff.mp h)
  have hnatural := mapError_eq_ok_iff.mp hm
  rw [String.toList_ofList] at hnatural
  cases s with
  | nil => cases hnatural
  | cons c rest =>
    refine ⟨c, rest, rfl, ?_⟩
    rintro rfl
    have hdigit : readNatural ('=' :: rest) = .error .digit := rfl
    rw [hdigit] at hnatural
    cases hnatural

end Values

/-- A part of the arguments of the command that prints occurrences: an option with a value that can be read, or an
argument that is plain by itself. -/
inductive NextPart
  | now (spelling : Spelling) (value : Bytes) (d : Date) (h : Setting.now.ofValue Setting.readNow value = .ok d)
  | count (spelling : Spelling) (value : Bytes) (n : Nat) (h : Setting.count.ofValue Setting.readTimes value = .ok n)
  | plain (value : Bytes) (h : value = dash ∨ value.head? ≠ some Token.dashByte)

namespace NextPart

def written : NextPart → List Bytes
  | now spelling value _ _ => NextOption.now.written spelling value
  | count spelling value _ _ => NextOption.count.written spelling value
  | plain value _ => [value]

def token : NextPart → Token
  | now spelling value _ _ => .setting (NextOption.now.calledAs spelling) value
  | count spelling value _ _ => .setting (NextOption.count.calledAs spelling) value
  | plain value _ => .plain value

def now? : NextPart → Option Date
  | now _ _ d _ => some d
  | _ => none

def count? : NextPart → Option Nat
  | count _ _ n _ => some n
  | _ => none

def value? : NextPart → Option Bytes
  | plain value _ => some value
  | _ => none

theorem ofArguments_written (p : NextPart) (items : List Bytes) :
    Token.ofArguments NextRequest.takesValue (p.written ++ items) =
      p.token :: Token.ofArguments NextRequest.takesValue items := by
  cases p with
  | now spelling value d h =>
    obtain ⟨s, hs, hread⟩ := Setting.exists_of_ofValue h
    exact Agenda.ofArguments_written hs (exists_of_readNow hread) .now spelling items
  | count spelling value n h =>
    obtain ⟨s, hs, hread⟩ := Setting.exists_of_ofValue h
    exact Agenda.ofArguments_written hs (exists_of_readTimes hread) .count spelling items
  | plain value h =>
    rcases h with rfl | hhead
    · rfl
    · exact Token.ofArguments_cons_plain _ hhead items

end NextPart

/-- The arguments of the command that prints occurrences: parts in any order, and perhaps a mark after which all
arguments are plain. -/
structure NextLine where
  parts : List NextPart
  rest : Option (List Bytes)

namespace NextLine

def written (l : NextLine) : List Bytes :=
  l.parts.flatMap NextPart.written ++ l.rest.elim [] (Token.endOfOptions :: ·)

/-- The plain arguments in their order. -/
def values (l : NextLine) : List Bytes :=
  l.parts.filterMap NextPart.value? ++ l.rest.getD []

/-- The date of the last option for today. -/
def lastNow (l : NextLine) : Option Date :=
  (l.parts.filterMap NextPart.now?).getLast?

/-- The number of the last option for the number of occurrences. -/
def lastCount (l : NextLine) : Option Nat :=
  (l.parts.filterMap NextPart.count?).getLast?

theorem ofArguments_written (l : NextLine) : Token.ofArguments NextRequest.takesValue l.written =
    l.parts.map NextPart.token ++ (l.rest.getD []).map Token.plain := by
  obtain ⟨parts, rest⟩ := l
  unfold written
  dsimp only
  induction parts with
  | nil => cases rest <;> rfl
  | cons p ps ih => rw [List.flatMap_cons, List.append_assoc, p.ofArguments_written, ih, List.map_cons, List.cons_append]

end NextLine

namespace NextRequest

/-- The request with the last values of the options, where they are given. -/
def lastly (q : NextRequest) (now : Option Date) (count : Option Nat) : NextRequest :=
  { q with now := now.or q.now, count := count.getD q.count }

theorem keepsPlain_lastly (now : Option Date) (count : Option Nat) : KeepsPlain fun q => q.lastly now count :=
  ⟨fun _ => rfl, fun _ => rfl, fun _ _ => rfl, fun _ _ => rfl⟩

theorem foldlM_plain (values : List Bytes) (q : NextRequest) :
    (values.map Token.plain).foldlM take q = Run.ofExcept (values.foldlM takePlain q) := by
  induction values generalizing q with
  | nil => rfl
  | cons value values ih =>
    rw [List.map_cons, List.foldlM_cons, List.foldlM_cons]
    change Run.ofExcept (q.takePlain value) >>= _ = _
    cases q.takePlain value with
    | error f => rfl
    | ok q' => exact ih q'

/-- Where the options stand among the plain arguments does not matter: the request is that of the plain arguments alone,
made with the last value of each option. -/
theorem alike_parts (ps : List NextPart) (rest : List Bytes) (q : NextRequest) :
    ((ps.map NextPart.token ++ rest.map Token.plain).foldlM take q).Alike Eq
      (Run.ofExcept ((ps.filterMap NextPart.value? ++ rest).foldlM takePlain
        (q.lastly (ps.filterMap NextPart.now?).getLast? (ps.filterMap NextPart.count?).getLast?))) := by
  induction ps generalizing q with
  | nil =>
    rw [List.map_nil, List.nil_append, foldlM_plain]
    exact Run.alike_ofExcept _
  | cons p ps ih =>
    rw [List.map_cons, List.cons_append, List.foldlM_cons]
    cases p with
    | now spelling value d h =>
      have hname : Setting.now.isNamed (NextOption.now.calledAs spelling) = true := by cases spelling <;> decide
      -- a later date counts, and this one if there is none later
      have hlast (x : Option Date) (count : Option Nat) :
          q.lastly (some (x.getD d)) count = ({ q with now := some d } : NextRequest).lastly x count := by
        cases x <;> rfl
      rw [NextPart.token, take_setting_now hname h]
      simp only [List.filterMap_cons, NextPart.now?, NextPart.count?, NextPart.value?, List.getLast?_cons]
      rw [hlast]
      exact (ih _).record_left _
    | count spelling value n h =>
      have hname : Setting.count.isNamed (NextOption.count.calledAs spelling) = true := by cases spelling <;> decide
      have hlast (now : Option Date) (x : Option Nat) :
          q.lastly now (some (x.getD n)) = ({ q with count := n } : NextRequest).lastly now x := by
        cases x <;> rfl
      rw [NextPart.token, take_setting_count q hname h]
      simp only [List.filterMap_cons, NextPart.now?, NextPart.count?, NextPart.value?, List.getLast?_cons]
      rw [hlast]
      exact ih _
    | plain value h =>
      simp only [List.filterMap_cons, NextPart.now?, NextPart.count?, NextPart.value?, List.cons_append]
      -- what a plain argument is taken for depends on the plain ones before it alone
      rw [List.foldlM_cons, takePlain_map (keepsPlain_lastly _ _)]
      change (Run.ofExcept (q.takePlain value) >>= _).Alike _ _
      cases q.takePlain value with
      | error f => exact Run.alike_stop _
      | ok q' => exact ih q'

end NextRequest

/-- What the command that prints occurrences answers depends only on the last value of each option and on the plain
arguments in their order. How the options are spelled, where they stand and how often they are given does not matter,
nor does a mark of the end of the options. -/
theorem next_goes_by_last_values (l l' : NextLine) (hnow : l.lastNow = l'.lastNow) (hcount : l.lastCount = l'.lastCount)
    (hvalues : l.values = l'.values) (w : World) :
    (w.asking (nextBytes :: l.written)).outcome.SameAnswer (w.asking (nextBytes :: l'.written)).outcome := by
  -- both lines make the request of the last values and the plain arguments
  have hrequest (l : NextLine) : (NextRequest.ofTokens (Token.ofArguments NextRequest.takesValue l.written)).Alike Eq
      (Run.ofExcept (l.values.foldlM NextRequest.takePlain (NextRequest.empty.lastly l.lastNow l.lastCount))) := by
    rw [l.ofArguments_written]
    exact NextRequest.alike_parts l.parts (l.rest.getD []) NextRequest.empty
  have hsame := hrequest l
  rw [hnow, hcount, hvalues] at hsame
  have hrun (l : NextLine) : runProgram (w.asking (nextBytes :: l.written)) =
      DatedCommand.next.run (w.asking (nextBytes :: l.written)) l.written :=
    DatedCommand.runProgram_of_words rfl
  apply World.sameAnswer_asking
  rw [hrun, hrun]
  exact (hsame.trans (hrequest l').symm).bind_eq fun q => NextRequest.alike_answer rfl rfl rfl rfl

/-- Options before, between and after the plain arguments, each given twice, and both once before a mark. -/
theorem next_goes_by_last_values_of_repeated_options : ∃ w w' : World,
    w = World.ofTexts ["next", "-c9", "-n=20240101", "20240101", "--count", "2", "d 7", "-n20240115"] [] ∧
      w' = World.ofTexts ["next", "--now=20240115", "-c", "2", "--", "20240101", "d 7"] [] ∧
      w'.outcome.stdout = w.outcome.stdout ∧ w'.outcome.stdout = "20240122\n20240129\n" := by
  let date : Bytes := Environment.bytesOf "20240101"
  let today : Bytes := Environment.bytesOf "20240115"
  let rule : Bytes := Environment.bytesOf "d 7"
  have hdate : Setting.now.ofValue Setting.readNow date = .ok ⟨2024, 1, 1, by decide, by decide, by decide⟩ := rfl
  have htoday : Setting.now.ofValue Setting.readNow today = .ok ⟨2024, 1, 15, by decide, by decide, by decide⟩ := rfl
  have htimes : Setting.count.ofValue Setting.readTimes (Environment.bytesOf "9") = .ok 9 := rfl
  have htimes' : Setting.count.ofValue Setting.readTimes (Environment.bytesOf "2") = .ok 2 := rfl
  let l : NextLine := ⟨[.count .attached _ _ htimes, .now .equals _ _ hdate, .plain date (Or.inr (by decide)),
    .count .longApart _ _ htimes', .plain rule (Or.inr (by decide)), .now .attached _ _ htoday], none⟩
  let l' : NextLine := ⟨[.now .longEquals _ _ htoday, .count .apart _ _ htimes'], some [date, rule]⟩
  have hsame := next_goes_by_last_values l l' rfl rfl rfl (World.ofTexts [] [])
  have hprinted : (World.ofTexts ["next", "--now=20240115", "-c", "2", "--", "20240101", "d 7"] []).outcome.stdout =
      "20240122\n20240129\n" := by decide +kernel
  exact ⟨_, _, rfl, rfl, hsame.stdout, hprinted⟩

end Agenda
