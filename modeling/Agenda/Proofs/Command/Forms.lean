import Agenda.Proofs.Command.Rules
import Agenda.Proofs.Recurrence.Injective
/-!
The two forms in which rules are printed tell the same rules apart. No line of either form has an end of a line in
it, so the lines are found again in what is printed, and from each line its rule.
-/
namespace Agenda

open Text

/-- The run that is asked for the given rules in one of the forms, and is the same otherwise. -/
def World.givenRules (w : World) (json : Bool) (rules : List Bytes) : World :=
  { w with arguments := ruleBytes :: (jsonOption json ++ Token.endOfOptions :: rules) }

variable {w : World} {rules rules' : List Bytes} {rs rs' : List Rule} {ls ls' : List String} {json : Bool}

section Lines

/-- The lines that are printed are told apart if no end of a line is in one. -/
theorem join_lines_inj (hls : ∀ l ∈ ls, '\n' ∉ l.toList) (hls' : ∀ l ∈ ls', '\n' ∉ l.toList)
    (h : String.join (ls.map (· ++ "\n")) = String.join (ls'.map (· ++ "\n"))) : ls = ls' := by
  -- what is printed begins with the first line and the first end of a line
  have hchars (l : String) (ls : List String) : (String.join ((l :: ls).map (· ++ "\n"))).toList =
      l.toList ++ '\n' :: (String.join (ls.map (· ++ "\n"))).toList := by
    rw [List.map_cons, String.join_cons, String.toList_append, String.toList_append, List.append_assoc]
    rfl
  have hne (l : String) (ls : List String) : String.join ((l :: ls).map (· ++ "\n")) ≠ "" := by
    intro hempty
    have hnil := hchars l ls
    rw [hempty] at hnil
    exact List.append_ne_nil_of_right_ne_nil _ (List.cons_ne_nil _ _) hnil.symm
  induction ls generalizing ls' with
  | nil =>
    cases ls' with
    | nil => rfl
    | cons l' ls' => exact absurd h.symm (hne l' ls')
  | cons l ls ih =>
    cases ls' with
    | nil => exact absurd h (hne l ls)
    | cons l' ls' =>
      obtain ⟨hl, hrest⟩ := List.forall_mem_cons.mp hls
      obtain ⟨hl', hrest'⟩ := List.forall_mem_cons.mp hls'
      have hboth := congrArg String.toList h
      rw [hchars, hchars] at hboth
      obtain ⟨hfirst, hothers⟩ := append_stop_inj hl hl' hboth
      rw [String.toList_injective hfirst, ih hrest hrest' (String.toList_injective hothers)]

end Lines

namespace Rule

theorem canonical_inj (r s : Rule) : r.canonical = s.canonical ↔ r = s :=
  ⟨fun h => canonicalChars_injective (String.ofList_injective h), congrArg canonical⟩

theorem json_inj (r s : Rule) : r.json = s.json ↔ r = s :=
  ⟨fun h => jsonChars_injective (String.ofList_injective h), congrArg json⟩

theorem shown_injective (json : Bool) : Function.Injective (shown json) := by
  intro r s h
  cases json with
  | false => exact (canonical_inj r s).mp h
  | true => exact (json_inj r s).mp h

theorem newline_not_mem_numerals (ns : List Int) : '\n' ∉ numerals ns :=
  fun h => absurd (mem_numerals h) (by decide)

theorem newline_not_mem_jsonArray (ns : List Int) : '\n' ∉ jsonArray ns := by
  have hends : '\n' ∉ ['['] ∧ '\n' ∉ [']'] := by decide
  have hopened := List.not_mem_append hends.1 (newline_not_mem_numerals ns)
  exact List.not_mem_append hopened hends.2

theorem newline_not_mem_ofInt (n : Int) : '\n' ∉ Numeral.ofInt n :=
  newline_not_mem_numerals [n]

theorem newline_not_mem_canonicalChars (r : Rule) : '\n' ∉ r.canonicalChars := by
  cases r with
  | daily n => exact List.not_mem_append (by decide : '\n' ∉ ['d', ' ']) (newline_not_mem_ofInt n)
  | yearly => exact (by decide : '\n' ∉ ['y'])
  | weekly days => exact List.not_mem_append (by decide : '\n' ∉ ['w', ' ']) (newline_not_mem_numerals days)
  | monthly days months =>
    have hdays := List.not_mem_append (by decide : '\n' ∉ ['m', ' ']) (newline_not_mem_numerals days)
    cases months with
    | none => exact hdays
    | some months =>
      exact List.not_mem_append hdays (List.not_mem_append (by decide : '\n' ∉ [' ']) (newline_not_mem_numerals months))

theorem newline_not_mem_jsonChars (r : Rule) : '\n' ∉ r.jsonChars := by
  have hclosing : '\n' ∉ ['\x7d'] := by decide
  cases r with
  | daily n =>
    refine List.not_mem_append (List.not_mem_append ?_ (newline_not_mem_ofInt n)) hclosing
    decide +kernel
  | yearly =>
    unfold jsonChars
    decide +kernel
  | weekly days =>
    refine List.not_mem_append (List.not_mem_append ?_ (newline_not_mem_jsonArray days)) hclosing
    decide +kernel
  | monthly days months =>
    have hmonths : '\n' ∉ months.elim "null".toList jsonArray := by
      cases months with
      | none =>
        rw [Option.elim_none]
        decide +kernel
      | some months => exact newline_not_mem_jsonArray months
    refine List.not_mem_append (List.not_mem_append (List.not_mem_append (List.not_mem_append ?_
      (newline_not_mem_jsonArray days)) ?_) hmonths) hclosing
    · decide +kernel
    · decide +kernel

theorem newline_not_mem_shown (json : Bool) (r : Rule) : '\n' ∉ (r.shown json).toList := by
  cases json with
  | false =>
    rw [shown, if_neg Bool.false_ne_true, canonical, String.toList_ofList]
    exact r.newline_not_mem_canonicalChars
  | true =>
    rw [shown, if_pos rfl, Rule.json, String.toList_ofList]
    exact r.newline_not_mem_jsonChars

end Rule

namespace World

theorem stdout_givenRules (hopen : w.isOpen = true) (hlevel : ∃ level, w.environment.level = .ok level)
    (hne : rules ≠ []) (hread : List.Forall₂ (fun rule r => Rule.ofBytes rule = .ok r) rules rs) (json : Bool) :
    (w.givenRules json rules).outcome.stdout = String.join ((rs.map (Rule.shown json)).map (· ++ "\n")) := by
  obtain ⟨level, hlevel⟩ := hlevel
  have hprints : (runProgram (w.givenRules json rules)).Prints (rs.map (Rule.shown json)) none
      (w.givenRules json rules).console :=
    prints_of_arguments rfl hne (readsRules_none_iff.mpr hread)
  obtain ⟨hlines, -, -⟩ := outcome_of_prints hprints hlevel
  have hopen' : (w.givenRules json rules).isOpen = true := hopen
  rw [Outcome.stdout, hlines, if_pos hopen']

end World

/-- Both texts of a rule value are its own, whatever numbers it holds. So when rules are printed, in either form, the
same is printed exactly for the same rules. -/
theorem forms_distinguish_rules :
    (∀ r s : Rule, r.canonical = s.canonical ↔ r = s) ∧ (∀ r s : Rule, r.json = s.json ↔ r = s) ∧
    ∀ (w : World) (rules rules' : List Bytes) (rs rs' : List Rule),
      w.isOpen = true → (∃ level, w.environment.level = .ok level) →
      rules ≠ [] → List.Forall₂ (fun rule r => Rule.ofBytes rule = .ok r) rules rs →
      rules' ≠ [] → List.Forall₂ (fun rule r => Rule.ofBytes rule = .ok r) rules' rs' →
      ∀ json, (w.givenRules json rules).outcome.stdout = (w.givenRules json rules').outcome.stdout ↔ rs = rs' := by
  have hwhole (json : Bool) (rs : List Rule) : ∀ l ∈ rs.map (Rule.shown json), '\n' ∉ l.toList := by
    intro l hl
    obtain ⟨r, -, rfl⟩ := List.mem_map.mp hl
    exact r.newline_not_mem_shown json
  refine ⟨Rule.canonical_inj, Rule.json_inj, ?_⟩
  intro w rules rules' rs rs' hopen hlevel hne hread hne' hread' json
  rw [World.stdout_givenRules hopen hlevel hne hread, World.stdout_givenRules hopen hlevel hne' hread']
  constructor
  · intro h
    have hlines := join_lines_inj (hwhole json rs) (hwhole json rs') h
    exact List.map_injective_iff.mpr (Rule.shown_injective json) hlines
  · rintro rfl
    rfl

/-- A list of all months that is left out or written, among other rules: what is printed differs in both forms. -/
theorem forms_distinguish_rules_of_months : ∃ w : World, ∃ rules rules' : List Bytes,
    rules = ["y", "m 1"].map Environment.bytesOf ∧
      rules' = ["y", "m 1 1,2,3,4,5,6,7,8,9,10,11,12"].map Environment.bytesOf ∧
      ∀ json, (w.givenRules json rules).outcome.stdout ≠ (w.givenRules json rules').outcome.stdout := by
  let w := World.ofTexts [] []
  let rules := ["y", "m 1"].map Environment.bytesOf
  let rules' := ["y", "m 1 1,2,3,4,5,6,7,8,9,10,11,12"].map Environment.bytesOf
  let rs : List Rule := [.yearly, .monthly [1] none]
  let rs' : List Rule := [.yearly, .monthly [1] (some [1, 2, 3, 4, 5, 6, 7, 8, 9, 10, 11, 12])]
  have hread : List.Forall₂ (fun rule r => Rule.ofBytes rule = .ok r) rules rs := .cons rfl (.cons rfl .nil)
  have hread' : List.Forall₂ (fun rule r => Rule.ofBytes rule = .ok r) rules' rs' := .cons rfl (.cons rfl .nil)
  have hother : rs ≠ rs' := by decide
  have htold := forms_distinguish_rules.2.2 w rules rules' rs rs' rfl ⟨none, rfl⟩ (List.cons_ne_nil _ _) hread
    (List.cons_ne_nil _ _) hread'
  exact ⟨w, rules, rules', rfl, rfl, fun json h => hother ((htold json).mp h)⟩

end Agenda
