import Agenda.Proofs.Recurrence.Canonical
/-!
The two texts of a rule value tell it apart from all others, whether or not it can be written. The first letter of the
kind stands at a fixed place. The numbers of a list are found again since a numeral has no comma in it and a list
nothing that ends one, and a list that is left out leaves another text than an empty one.
-/
namespace Agenda

open Text

/-- What stands before the first of a mark and what stands after it. -/
theorem append_stop_inj {α : Type} [DecidableEq α] {stop : α} {as bs rest rest' : List α} (has : stop ∉ as)
    (hbs : stop ∉ bs) (h : as ++ stop :: rest = bs ++ stop :: rest') : as = bs ∧ rest = rest' := by
  -- the mark is found right after what comes before it
  have hlength {ls : List α} (hls : stop ∉ ls) (tail : List α) : (ls ++ stop :: tail).idxOf stop = ls.length := by
    rw [List.idxOf_append_of_notMem hls, List.idxOf_cons_self, Nat.add_zero]
  have hlen : as.length = bs.length := by rw [← hlength has rest, h, hlength hbs rest']
  obtain ⟨hbefore, hafter⟩ := List.append_inj h hlen
  exact ⟨hbefore, (List.cons.inj hafter).2⟩

theorem Text.Numeral.ofInt_injective : Function.Injective Numeral.ofInt := by
  intro m n h
  have hm := Numeral.int?_eq_some_iff.mpr (Numeral.isInteger_ofInt m)
  have hn := Numeral.int?_eq_some_iff.mpr (Numeral.isInteger_ofInt n)
  rw [h, hn] at hm
  exact (Option.some.inj hm).symm

namespace Rule

variable {r s : Rule} {ns ms : List Int} {c stop : Char} {rest rest' : List Char}

section Lists

theorem numerals_eq_nil_iff : numerals ns = [] ↔ ns = [] := by
  constructor
  · intro h
    by_contra hne
    exact (isList_numerals hne).ne_nil h
  · rintro rfl
    rfl

theorem mem_numerals (h : c ∈ numerals ns) : c = ',' ∨ c = '+' ∨ c = '-' ∨ '0' ≤ c ∧ c ≤ '9' := by
  rw [numerals_eq_intercalate] at h
  rcases mem_intercalate h with hc | ⟨t, ht, hc⟩
  · exact Or.inl hc
  · obtain ⟨n, -, rfl⟩ := List.mem_map.mp ht
    exact Or.inr ((Numeral.isInteger_ofInt n).mem c hc)

theorem splitOn_numerals (hne : ns ≠ []) : (numerals ns).splitOn ',' = ns.map Numeral.ofInt := by
  -- no numeral has a comma in it, so cutting at the commas gives the numerals
  have hmembers : List.Forall₂ Numeral.IsInteger (ns.map Numeral.ofInt) ns := by
    rw [List.forall₂_map_left_iff, List.forall₂_same]
    exact fun n _ => Numeral.isInteger_ofInt n
  rw [numerals_eq_intercalate]
  exact splitOn_of_isInteger (by simpa using hne) hmembers

theorem numerals_injective : Function.Injective numerals := by
  intro ns ms h
  -- the empty list alone has no text, and any other is read back from between the commas
  by_cases hns : ns = []
  · rw [hns] at h ⊢
    exact (numerals_eq_nil_iff.mp h.symm).symm
  · have hms : ms ≠ [] := fun hms => hns (numerals_eq_nil_iff.mp (h.trans (numerals_eq_nil_iff.mpr hms)))
    have hmaps : ns.map Numeral.ofInt = ms.map Numeral.ofInt := by
      rw [← splitOn_numerals hns, ← splitOn_numerals hms, h]
    exact List.map_injective_iff.mpr Numeral.ofInt_injective hmaps

/-- A list ends where the first character stands that no list has in it. -/
theorem numerals_append_inj (hstop : ∀ ks, stop ∉ numerals ks)
    (h : numerals ns ++ stop :: rest = numerals ms ++ stop :: rest') : ns = ms ∧ rest = rest' := by
  obtain ⟨hnumbers, hrest⟩ := append_stop_inj (hstop ns) (hstop ms) h
  exact ⟨numerals_injective hnumbers, hrest⟩

theorem space_not_mem_numerals (ns : List Int) : ' ' ∉ numerals ns :=
  fun h => absurd (mem_numerals h) (by decide)

theorem bracket_not_mem_numerals (ns : List Int) : ']' ∉ numerals ns :=
  fun h => absurd (mem_numerals h) (by decide)

theorem jsonArray_injective : Function.Injective jsonArray :=
  fun _ _ h => numerals_injective (List.append_cancel_right (List.cons.inj h).2)

theorem jsonArray_append_inj (h : jsonArray ns ++ rest = jsonArray ms ++ rest') : ns = ms ∧ rest = rest' := by
  rw [jsonArray, jsonArray, List.cons_append, List.cons_append, List.append_assoc, List.append_assoc] at h
  exact numerals_append_inj bracket_not_mem_numerals (List.cons.inj h).2

end Lists

/-- The first letter of the kind of a rule, which is the same in both texts. -/
def letter : Rule → Char
  | daily _ => 'd'
  | yearly => 'y'
  | weekly _ => 'w'
  | monthly _ _ => 'm'

theorem head?_canonicalChars (r : Rule) : r.canonicalChars.head? = some r.letter := by
  cases r with
  | daily | yearly | weekly => rfl
  | monthly days months => cases months <;> rfl

theorem json_letter (r : Rule) : r.jsonChars[9]? = some r.letter := by
  cases r <;> rfl

/-- A text that shows the kind of a rule is its own text if it is among the rules of each kind. -/
theorem injective_of_kinds {f : Rule → List Char} (hletter : ∀ r s, f r = f s → r.letter = s.letter)
    (hdaily : ∀ m n, f (daily m) = f (daily n) → m = n)
    (hweekly : ∀ ns ms, f (weekly ns) = f (weekly ms) → ns = ms)
    (hmonthly : ∀ ns ms months months', f (monthly ns months) = f (monthly ms months') → ns = ms ∧ months = months') :
    Function.Injective f := by
  intro r s h
  have hkind := hletter r s h
  cases r with
  | daily m =>
    cases s with
    | daily n => exact congrArg daily (hdaily m n h)
    | _ => simp [letter] at hkind
  | yearly =>
    cases s with
    | yearly => rfl
    | _ => simp [letter] at hkind
  | weekly ns =>
    cases s with
    | weekly ms => exact congrArg weekly (hweekly ns ms h)
    | _ => simp [letter] at hkind
  | monthly ns months =>
    cases s with
    | monthly ms months' =>
      obtain ⟨rfl, rfl⟩ := hmonthly ns ms months months' h
      rfl
    | _ => simp [letter] at hkind

theorem monthly_inj_of_canonicalChars {days days' : List Int} {months months' : Option (List Int)}
    (h : (monthly days months).canonicalChars = (monthly days' months').canonicalChars) :
    days = days' ∧ months = months' := by
  have hspace (ds ds' ms : List Int) : numerals ds ≠ numerals ds' ++ ' ' :: numerals ms := by
    intro heq
    apply space_not_mem_numerals ds
    rw [heq]
    exact List.mem_append_right _ List.mem_cons_self
  -- a text with a list of months has a space more
  cases months with
  | none =>
    cases months' with
    | none => exact ⟨numerals_injective (congrArg (List.drop 2) h), rfl⟩
    | some ms' => exact absurd (congrArg (List.drop 2) h) (hspace days days' ms')
  | some ms =>
    cases months' with
    | none => exact absurd (congrArg (List.drop 2) h).symm (hspace days' days ms)
    | some ms' =>
      obtain ⟨hdays, hmonths⟩ := numerals_append_inj space_not_mem_numerals (congrArg (List.drop 2) h)
      exact ⟨hdays, congrArg some (numerals_injective hmonths)⟩

theorem canonicalChars_injective : Function.Injective canonicalChars := by
  refine injective_of_kinds ?_ ?_ ?_ fun _ _ _ _ => monthly_inj_of_canonicalChars
  · intro r s h
    have hhead := congrArg List.head? h
    rw [head?_canonicalChars, head?_canonicalChars] at hhead
    exact Option.some.inj hhead
  · exact fun m n h => Numeral.ofInt_injective (congrArg (List.drop 2) h)
  · exact fun ns ms h => numerals_injective (congrArg (List.drop 2) h)

theorem jsonMonths_injective :
    Function.Injective fun months : Option (List Int) => months.elim "null".toList jsonArray := by
  intro months months' h
  cases months with
  | none =>
    cases months' with
    | none => rfl
    | some ms => cases h
  | some ms =>
    cases months' with
    | none => cases h
    | some ms' => exact congrArg some (jsonArray_injective h)

/-- In the JSON object of a monthly rule the two lists stand between texts that are always the same. -/
theorem exists_jsonChars_monthly : ∃ opening middle : List Char, ∀ days months, jsonChars (monthly days months) =
    opening ++ jsonArray days ++ middle ++ months.elim "null".toList jsonArray ++ ['\x7d'] :=
  ⟨_, _, fun _ _ => rfl⟩

theorem jsonChars_injective : Function.Injective jsonChars := by
  refine injective_of_kinds ?_ ?_ ?_ ?_
  · intro r s h
    have hat := congrArg (fun t : List Char => t[9]?) h
    simp only [json_letter] at hat
    exact Option.some.inj hat
  · exact fun m n h => Numeral.ofInt_injective (List.append_cancel_left (List.append_cancel_right h))
  · exact fun ns ms h => jsonArray_injective (List.append_cancel_left (List.append_cancel_right h))
  · intro ns ms months months' h
    obtain ⟨opening, middle, hshape⟩ := exists_jsonChars_monthly
    simp only [hshape, List.append_assoc] at h
    obtain ⟨hdays, hrest⟩ := jsonArray_append_inj (List.append_cancel_left h)
    have hmonths := List.append_cancel_right (List.append_cancel_left hrest)
    exact ⟨hdays, jsonMonths_injective hmonths⟩

end Rule

end Agenda
