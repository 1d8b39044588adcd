import Agenda.Proofs.Command.Faultless
import Agenda.Proofs.Command.Printed
import Agenda.Proofs.Command.Rules
import Agenda.Proofs.Recurrence.Canonical
import Mathlib.Data.Set.List
/-!
The command that prints rules as a normaliser. Unless it is asked for something else it writes canonical texts, also when
it fails at last, and canonical texts on the lines of the standard input are written as they are.
-/
namespace Agenda

open Text

/-- Whether a line is the canonical text of a rule that can be written. -/
def Rule.IsCanonical (text : String) : Prop :=
  ∃ r : Rule, r.WellFormed ∧ text = r.canonical

/-- The option that a token is for, with a value or without. -/
def Token.option? : Token → Option OptionName
  | flag name => some name
  | setting name _ => some name
  | _ => none

/-- Whether a token asks for the manual or for the version. -/
def Token.AsksPage (t : Token) : Prop :=
  t.option? = some (.short 'h') ∨ t.option? = some (.long "help") ∨ t.option? = some (.long "version")

variable {bs : Bytes} {r : Rule} {w w' : World} {a : Arguments} {t : Token}

namespace Rule

theorem wellFormed_of_ofBytes (h : Rule.ofBytes bs = .ok r) : r.WellFormed := by
  unfold Rule.ofBytes at h
  split at h
  · cases h
  · exact wellFormed_of_parse (mapError_eq_ok_iff.mp h)

theorem ofBytes_canonical (h : r.WellFormed) : Rule.ofBytes (Environment.bytesOf r.canonical) = .ok r := by
  rw [Rule.ofBytes, Environment.bytesOf, Utf8.decode?_encode]
  dsimp only
  rw [String.ofList_toList, parse_canonical h]
  rfl

/-- No byte of a canonical text ends a line. -/
theorem not_mem_canonical {b : UInt8} (hb : 0x09 ≤ b.toNat ∧ b.toNat ≤ 0x0D) (h : r.WellFormed) :
    b ∉ Environment.bytesOf r.canonical := by
  intro hmem
  rw [Environment.bytesOf, Rule.canonical, String.toList_ofList] at hmem
  have hsmall : b < 0x80 := UInt8.lt_iff_toNat_lt.mpr (lt_of_le_of_lt hb.2 (by decide))
  obtain ⟨c, hc, hcode⟩ := Utf8.exists_of_mem_encode hsmall hmem
  rcases (spells_canonicalChars h).eq_space_or c hc with rfl | hblank
  · rw [← hcode] at hb
    exact absurd hb (by decide)
  · simp only [isBlank, Bool.or_eq_false_iff, Bool.and_eq_false_iff, decide_eq_false_iff_not] at hblank
    omega

theorem isEnded_canonical (h : r.WellFormed) :
    Line.IsEnded (Environment.bytesOf r.canonical) (Environment.bytesOf r.canonical ++ [Line.feed]) := by
  refine ⟨not_mem_canonical (by decide) h, fun hlast => ?_, Or.inl rfl⟩
  exact not_mem_canonical (by decide) h (List.mem_of_getLast? hlast)

end Rule

section Writing

theorem Token.refuse_ne_page (h : ¬ t.AsksPage) (short long text : String) : t.refuse short long ≠ .page text := by
  have hname {name : OptionName} (hn : t.option? = some name) : refuseFlag short long name ≠ .page text := by
    rw [AsksPage, hn] at h
    simp only [Option.some.injEq, not_or] at h
    rw [refuseFlag, if_neg h.1, if_neg h.2.1, if_neg h.2.2]
    exact Stop.noConfusion
  cases t with
  | flag name => exact hname rfl
  | setting name value => exact hname rfl
  | missing | surplus | plain => exact Stop.noConfusion

theorem RuleRequest.json_of_take {q q' : RuleRequest} {c c' : Console} (ht : t.option? ≠ some (.long "json"))
    (hq : q.json = false) (h : q.take t c = (.ok q', c')) : q'.json = false := by
  unfold take at h
  split at h
  · cases h
    exact hq
  · split_ifs at h with hjson
    · subst hjson
      exact absurd rfl ht
    · cases h

theorem RuleRequest.isWithin_take {P : String → Prop} (q : RuleRequest) (h : ¬ t.AsksPage) :
    (q.take t).IsWithin (.writing P) := by
  unfold take
  split
  · exact Run.isWithin_done _ _
  · split_ifs
    · exact Run.isWithin_done _ _
    · exact Run.isWithin_stop (Token.refuse_ne_page h _ _)

theorem Stop.during_ne_page {s : Stop} {context : Context} (h : ∀ text, s ≠ .page text) :
    ∀ text, s.during context ≠ .page text := by
  cases s with
  | page text => exact absurd rfl (h text)
  | closed | failed => exact fun _ => Stop.noConfusion

theorem isWithin_printRule (bs : Bytes) : (printRule false bs).IsWithin (.writing Rule.IsCanonical) := by
  have hread : (Run.ofExcept (Rule.ofBytes bs)).IsWithin (.writing Rule.IsCanonical) :=
    Run.isWithin_ofExcept fun _ _ _ => Stop.noConfusion
  apply hread.bind_of_results
  intro c r c' hr
  apply Run.isWithin_writing_print
  exact ⟨r, Rule.wellFormed_of_ofBytes (Run.eq_ok_of_ofExcept hr), rfl⟩

theorem isWithin_writing_runRules (hjson : ∀ t ∈ a.tokens fun _ => false, t.option? ≠ some (.long "json"))
    (hpage : ∀ t ∈ a.tokens fun _ => false, ¬ t.AsksPage) : (runRules w a).IsWithin (.writing Rule.IsCanonical) := by
  apply isWithin_runRules_of_printRule
  · exact fun c _ _ => ⟨[], rfl, List.forall_mem_nil _⟩
  · exact fun _ _ => Stop.noConfusion
  · exact fun context s hs => Stop.during_ne_page hs
  · exact Run.isWithin_foldlM (fun t ht q => q.isWithin_take (hpage t ht)) RuleRequest.empty
  · intro c q c' hq bs
    have hcanonical : q.json = false :=
      Run.of_foldlM (fun q => q.json = false) (fun t ht => RuleRequest.json_of_take (hjson t ht)) rfl hq
    rw [hcanonical]
    exact isWithin_printRule bs

/-- A run that is asked neither for JSON objects nor for a page writes canonical texts, whether it fails or not. -/
theorem World.exists_rules (h : (Arguments.ofList w.arguments).command Manual.program = .ok ("rule", a))
    (hjson : ∀ t ∈ a.tokens fun _ => false, t.option? ≠ some (.long "json"))
    (hpage : ∀ t ∈ a.tokens fun _ => false, ¬ t.AsksPage) :
    ∃ rs : List { r : Rule // r.WellFormed }, w.outcome.lines = rs.map fun r => r.1.canonical := by
  have hrun : runProgram w = runRules w a := runProgram_of_command h
  have hlines := World.forall_lines (hrun ▸ isWithin_writing_runRules hjson hpage)
  have hrange : w.outcome.lines ∈ Set.range (List.map fun r : { r : Rule // r.WellFormed } => r.1.canonical) := by
    rw [Set.range_list_map]
    intro text htext
    obtain ⟨r, hr, rfl⟩ := hlines text htext
    exact ⟨⟨r, hr⟩, rfl⟩
  obtain ⟨rs, hrs⟩ := hrange
  exact ⟨rs, hrs.symm⟩

/-- Canonical texts on the lines of the standard input are printed as they are. -/
theorem World.outcome_of_canonical {rs : List { r : Rule // r.WellFormed }} (hw : w.arguments = [ruleBytes])
    (hlevel : ∃ level, w.environment.level = .ok level) (hopen : w.isOpen = true)
    (hstdin : w.Gives (rs.map fun r => Environment.bytesOf r.1.canonical ++ [Line.feed]).flatten) :
    w.outcome.exitCode = 0 ∧ w.outcome.lines = rs.map fun r => r.1.canonical := by
  obtain ⟨level, hlevel⟩ := hlevel
  have hrules : ReadsRules Rule.ofBytes (rs.map fun r => Environment.bytesOf r.1.canonical) (rs.map Subtype.val) none := by
    rw [readsRules_none_iff, List.forall₂_map_left_iff, List.forall₂_map_right_iff, List.forall₂_same]
    exact fun r _ => Rule.ofBytes_canonical r.2
  have hlines : List.Forall₂ Line.IsEnded (rs.map fun r => Environment.bytesOf r.1.canonical)
      (rs.map fun r => Environment.bytesOf r.1.canonical ++ [Line.feed]) := by
    rw [List.forall₂_map_left_iff, List.forall₂_map_right_iff, List.forall₂_same]
    exact fun r _ => Rule.isEnded_canonical r.2
  have hreads := hrules.numbered hlines 1
  rw [← linesOf_of_isEnded hlines] at hreads
  have hprints : (runProgram w).Prints ((rs.map Subtype.val).map (Rule.shown false)) none w.console :=
    World.prints_of_lines hw hstdin hreads
  obtain ⟨hprinted, hcode, -⟩ := World.outcome_of_prints hprints hlevel
  have htold : w.told ((rs.map Subtype.val).map (Rule.shown false)) none = none := ite_self none
  rw [htold] at hcode
  rw [if_pos hopen, List.map_map] at hprinted
  exact ⟨hcode, hprinted⟩

end Writing

/-- The command that prints rules normalises them. What it prints for rules that it is asked for in canonical form, up to
the first that cannot be read if there is one, is printed again when it is given on the standard input. -/
theorem printed_rules_are_printed_again (h : (Arguments.ofList w.arguments).command Manual.program = .ok ("rule", a))
    (hjson : ∀ t ∈ a.tokens fun _ => false, t.option? ≠ some (.long "json"))
    (hpage : ∀ t ∈ a.tokens fun _ => false, ¬ t.AsksPage) (hw' : w'.arguments = [ruleBytes])
    (hlevel : ∃ level, w'.environment.level = .ok level) (hopen : w'.isOpen = true)
    (hstdin : w'.Gives (Environment.bytesOf w.outcome.stdout)) :
    w'.outcome.exitCode = 0 ∧ w'.outcome.stdout = w.outcome.stdout := by
  obtain ⟨rs, hprinted⟩ := World.exists_rules h hjson hpage
  have hbytes : Environment.bytesOf w.outcome.stdout =
      (rs.map fun r => Environment.bytesOf r.1.canonical ++ [Line.feed]).flatten := by
    rw [Outcome.stdout, Environment.bytesOf_lines, hprinted, List.map_map]
    rfl
  obtain ⟨hcode, hagain⟩ := World.outcome_of_canonical hw' hlevel hopen (hbytes ▸ hstdin)
  refine ⟨hcode, ?_⟩
  rw [Outcome.stdout, Outcome.stdout, hagain, hprinted]

/-- A list that is not in order, blanks around a rule, and a rule of no kind after them. -/
theorem printed_rules_are_printed_again_up_to_broken_rule : ∃ w w' : World,
    w = World.ofTexts ["rule", "w 2,1,+2", " y ", "x"] [] ∧ w' = World.ofTexts ["rule"] ["w 1,2\ny\n"] ∧
      w.outcome.exitCode = 1 ∧ w'.outcome.exitCode = 0 ∧ w'.outcome.stdout = w.outcome.stdout := by
  let w := World.ofTexts ["rule", "w 2,1,+2", " y ", "x"] []
  let w' := World.ofTexts ["rule"] ["w 1,2\ny\n"]
  let a : Arguments := ⟨["w 2,1,+2", " y ", "x"].map Environment.bytesOf, false⟩
  have h : (Arguments.ofList w.arguments).command Manual.program = .ok ("rule", a) := rfl
  have hplain : ∀ t ∈ a.tokens fun _ => false, t.option? = none := by decide
  have hjson : ∀ t ∈ a.tokens fun _ => false, t.option? ≠ some (.long "json") := by
    intro t ht
    simp [hplain t ht]
  have hpage : ∀ t ∈ a.tokens fun _ => false, ¬ t.AsksPage := by
    intro t ht
    simp [Token.AsksPage, hplain t ht]
  have hlines : w.outcome.lines = ["w 1,2", "y"] := by decide +kernel
  have hfails : w.outcome.exitCode = 1 := by decide +kernel
  have hstdin : w'.stdin.flatten = Environment.bytesOf w.outcome.stdout := by
    rw [Outcome.stdout, hlines]
    rfl
  obtain ⟨hcode, hagain⟩ := printed_rules_are_printed_again h hjson hpage rfl ⟨none, rfl⟩ rfl ⟨hstdin, rfl⟩
  exact ⟨w, w', rfl, rfl, hfails, hcode, hagain⟩

end Agenda
