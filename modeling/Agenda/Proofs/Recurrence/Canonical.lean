import Agenda.Proofs.Recurrence.Grammar
/-!
Canonical texts. A rule that can be written is read back from its canonical text, and no other rule value is, since
everything that is read can be written. So the canonical text of a rule that was read tells it apart from all others.
-/
namespace Agenda

open Text

namespace Rule

variable {r s : Rule} {ns : List Int}

theorem numerals_eq_intercalate (ns : List Int) : numerals ns = [','].intercalate (ns.map Numeral.ofInt) := by
  induction ns with
  | nil => rfl
  | cons n ns ih =>
    cases ns with
    | nil => simp [numerals]
    | cons m ms =>
      rw [numerals, ih]
      · simp only [List.map_cons, List.intercalate_cons_cons, List.append_assoc, List.singleton_append]
      · exact List.cons_ne_nil _ _

theorem isList_numerals (hne : ns ≠ []) : IsList (numerals ns) ns := by
  refine ⟨ns.map Numeral.ofInt, by simpa using hne, numerals_eq_intercalate ns, ?_⟩
  rw [List.forall₂_map_left_iff, List.forall₂_same]
  intro n _
  exact Numeral.isInteger_ofInt n

/-- The canonical text is one of the texts of a rule that can be written. -/
theorem spells_canonicalChars (h : r.WellFormed) : Spells r.canonicalChars r := by
  have horders {ns : List Int} (hp : ns.Pairwise (· < ·)) : Orders ns ns := ⟨hp, fun _ => Iff.rfl⟩
  cases r with
  | daily interval => exact .daily (Numeral.isInteger_ofInt interval) h
  | yearly => exact .yearly
  | weekly days =>
    obtain ⟨hne, hp, hk⟩ := h
    exact .weekly (isList_numerals hne) (fun n hn => admits_weekday.mp (hk n hn)) (horders hp)
  | monthly days months =>
    obtain ⟨⟨hne, hp, hk⟩, hmonths⟩ := h
    have hdays (n : Int) (hn : n ∈ days) := admits_monthDay.mp (hk n hn)
    cases months with
    | none => exact .monthly (isList_numerals hne) hdays (horders hp)
    | some months =>
      obtain ⟨hne', hp', hk'⟩ := hmonths months rfl
      exact .monthlyOf (isList_numerals hne) hdays (horders hp) (isList_numerals hne')
        (fun n hn => admits_month.mp (hk' n hn)) (horders hp')

theorem parse_canonical (h : r.WellFormed) : parse r.canonical = .ok r := by
  have hblank : ∀ c ∈ ([] : List Char), isBlank c = true := by simp
  apply parse_eq_ok_iff.mpr
  refine ⟨[], r.canonicalChars, [], ?_, hblank, hblank, spells_canonicalChars h⟩
  rw [canonical, String.toList_ofList, List.nil_append, List.append_nil]

/-- A rule value is read back from its canonical text exactly when it can be written, what is read can be written,
and two rules that were read are equal exactly when their canonical texts are. -/
theorem canonical_identifies_rule :
    (∀ r : Rule, parse r.canonical = .ok r ↔ r.WellFormed) ∧
    (∀ text r, parse text = .ok r → r.WellFormed) ∧
    ∀ a b r s, parse a = .ok r → parse b = .ok s → (r = s ↔ r.canonical = s.canonical) := by
  refine ⟨fun r => ⟨wellFormed_of_parse, parse_canonical⟩, fun _ _ => wellFormed_of_parse, ?_⟩
  intro a b r s hr hs
  constructor
  · rintro rfl
    rfl
  · intro h
    have hr' := parse_canonical (wellFormed_of_parse hr)
    have hs' := parse_canonical (wellFormed_of_parse hs)
    rw [h, hs'] at hr'
    exact (Except.ok.inj hr').symm

/-- A list of all months that is left out or written makes two rules, and two texts. -/
theorem canonical_ne_of_months :
    let all : List Int := [1, 2, 3, 4, 5, 6, 7, 8, 9, 10, 11, 12]
    parse "m -1" = .ok (monthly [-1] none) ∧
      parse " m -01 12,1,2,3,4,5,6,7,8,9,10,+11,1" = .ok (monthly [-1] (some all)) ∧
      (monthly [-1] none).canonical ≠ (monthly [-1] (some all)).canonical := by
  intro all
  have hr : parse "m -1" = .ok (monthly [-1] none) := by rfl
  have hs : parse " m -01 12,1,2,3,4,5,6,7,8,9,10,+11,1" = .ok (monthly [-1] (some all)) := by rfl
  refine ⟨hr, hs, ?_⟩
  intro h
  have heq := (canonical_identifies_rule.2.2 _ _ _ _ hr hs).mpr h
  exact absurd heq (by decide)

end Rule

end Agenda
