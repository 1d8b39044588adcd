import Agenda.Recurrence.RuleText
import Agenda.Proofs.Calendar.DayNumber
import Agenda.Proofs.Except
import Agenda.Proofs.Text.Numeral
/-!
Dates are read from the texts that they are written as, in the years 0 to 9999, and from no others: eight digits are the
padded numerals of a year, a month and a day.
-/
namespace Agenda

open Text

namespace Date

variable {d e : Date} {text : String}

theorem ofParts_eq_ok_iff {year month day : Nat} :
    ofParts year month day = .ok d ↔ d.year = year ∧ d.month = month ∧ d.day = day := by
  unfold ofParts
  constructor
  · intro h
    split at h
    · cases h
    · split at h
      · cases h
      · cases hp : ofParts? year month day with
        | none =>
          rw [hp] at h
          cases h
        | some e =>
          rw [hp] at h
          obtain rfl := Except.ok.inj h
          exact ofParts?_eq_some_iff.mp hp
  · intro h
    have hm := d.month_mem
    have hd := d.day_mem
    rw [if_neg (by omega), if_neg (by omega), ofParts?_eq_some_iff.mpr h]
    rfl

/-- The date in the years from 0 on as eight digits. -/
theorem compact_of_nonneg (h : 0 ≤ d.year) : d.compact = String.ofList
    (Numeral.padded 4 d.year.natAbs ++ Numeral.padded 2 d.month ++ Numeral.padded 2 d.day) := by
  rw [compact, if_neg (not_lt.mpr h)]

theorem ofDigits_ofList {a b c : List Char} {year month day : Nat} (ha : Numeral.IsNatural a year)
    (hb : Numeral.IsNatural b month) (hc : Numeral.IsNatural c day) (ha4 : a.length = 4) (hb2 : b.length = 2)
    (hc2 : c.length = 2) : ofDigits (String.ofList (a ++ b ++ c)) = ofParts year month day := by
  have hform : (a ++ b ++ c).length = 8 ∧ (a ++ b ++ c).all Numeral.isDigit := by
    rw [List.length_append, List.length_append, List.all_append, List.all_append, ha.all_isDigit, hb.all_isDigit,
      hc.all_isDigit]
    exact ⟨by omega, rfl⟩
  have htake : (a ++ b ++ c).take 4 = a := by
    rw [List.append_assoc]
    exact List.take_left' ha4
  have hmiddle : ((a ++ b ++ c).drop 4).take 2 = b := by
    rw [List.append_assoc, List.drop_left' ha4]
    exact List.take_left' hb2
  have hdrop : (a ++ b ++ c).drop 6 = c := List.drop_left' (by rw [List.length_append]; omega)
  rw [ofDigits, String.toList_ofList]
  rw [if_pos hform, htake, hmiddle, hdrop, ha.value_eq, hb.value_eq, hc.value_eq]

theorem eight_digits_of_ofDigits (h : ofDigits text = .ok d) :
    text.toList.length = 8 ∧ text.toList.all Numeral.isDigit = true := by
  by_contra hc
  have herr : ofDigits text = .error .form := if_neg hc
  rw [herr] at h
  cases h

/-- A text that is read has eight digits, those of a year, a month and a day. -/
theorem exists_of_ofDigits (h : ofDigits text = .ok d) : ∃ a b c year month day, text = String.ofList (a ++ b ++ c) ∧
    (Numeral.IsNatural a year ∧ a.length = 4) ∧ (Numeral.IsNatural b month ∧ b.length = 2) ∧
    (Numeral.IsNatural c day ∧ c.length = 2) := by
  have hform := eight_digits_of_ofDigits h
  have hsplit : text.toList = text.toList.take 4 ++ (text.toList.drop 4).take 2 ++ text.toList.drop 6 := by
    rw [List.append_assoc, show text.toList.drop 6 = (text.toList.drop 4).drop 2 by rw [List.drop_drop],
      List.take_append_drop, List.take_append_drop]
  -- each part is cut out of the text, so it is made of digits as well
  have hpart {s : List Char} {n : Nat} (hlen : s.length = n + 1) (hs : ∀ c ∈ s, c ∈ text.toList) :
      Numeral.IsNatural s (Numeral.value s) ∧ s.length = n + 1 := by
    have hne : s ≠ [] := List.ne_nil_of_length_eq_add_one hlen
    refine ⟨Numeral.isNatural_value hne (List.all_eq_true.mpr fun c hc => ?_), hlen⟩
    exact List.all_eq_true.mp hform.2 c (hs c hc)
  refine ⟨_, _, _, _, _, _, String.ofList_toList.symm.trans (congrArg String.ofList hsplit), hpart ?_ ?_, hpart ?_ ?_,
    hpart ?_ ?_⟩
  · rw [List.length_take]
    omega
  · exact fun c hc => List.mem_of_mem_take hc
  · rw [List.length_take, List.length_drop]
    omega
  · exact fun c hc => List.mem_of_mem_drop (List.mem_of_mem_take hc)
  · rw [List.length_drop]
    omega
  · exact fun c hc => List.mem_of_mem_drop hc

/-- The texts that are read are those that dates of the years from 0 on are written as. -/
theorem ofDigits_eq_ok_iff : ofDigits text = .ok d ↔ 0 ≤ d.year ∧ d.compact = text := by
  constructor
  · intro h
    obtain ⟨a, b, c, year, month, day, rfl, ⟨ha, ha4⟩, ⟨hb, hb2⟩, hc, hc2⟩ := exists_of_ofDigits h
    rw [ofDigits_ofList ha hb hc ha4 hb2 hc2, ofParts_eq_ok_iff] at h
    obtain ⟨hy, rfl, rfl⟩ := h
    have hnonneg : 0 ≤ d.year := by omega
    refine ⟨hnonneg, ?_⟩
    have ha' := ha.eq_padded
    have hb' := hb.eq_padded
    have hc' := hc.eq_padded
    rw [ha4] at ha'
    rw [hb2] at hb'
    rw [hc2] at hc'
    rw [compact_of_nonneg hnonneg, ha', hb', hc', hy, Int.natAbs_natCast]
  · intro h
    obtain ⟨hnonneg, rfl⟩ := h
    have hy := d.year_mem
    have hm := d.month_mem
    have hd := d.day_mem.2
    have hlength := (monthLength_bounds d.year d.month).2
    rw [compact_of_nonneg hnonneg, ofDigits_ofList (Numeral.isNatural_padded _ _) (Numeral.isNatural_padded _ _)
      (Numeral.isNatural_padded _ _) (Numeral.length_padded (by decide) (by omega))
      (Numeral.length_padded (by decide) (by omega)) (Numeral.length_padded (by decide) (by omega)), ofParts_eq_ok_iff]
    exact ⟨by omega, rfl, rfl⟩

theorem parse_eq_ok_iff : parse text = .ok d ↔ 0 ≤ d.year ∧ d.compact = text := by
  rw [parse, mapError_eq_ok_iff, ofDigits_eq_ok_iff]

theorem head?_of_parse (h : parse text = .ok d) : text.toList.head? ≠ some '-' := by
  intro hdash
  have hdigits := (eight_digits_of_ofDigits (mapError_eq_ok_iff.mp h)).2
  have hmem := List.mem_of_mem_head? hdash
  cases List.all_eq_true.mp hdigits _ hmem

/-- A date in the years from 0 on is written as an eight digit number, which has its parts in the order of their
weight. -/
theorem isNatural_compact (h : 0 ≤ d.year) :
    Numeral.IsNatural d.compact.toList ((d.year.natAbs * 100 + d.month) * 100 + d.day) ∧ d.compact.toList.length = 8 := by
  have hy := d.year_mem
  have hm := d.month_mem
  have hd := d.day_mem.2
  have hlength := (monthLength_bounds d.year d.month).2
  have hyear : (Numeral.padded 4 d.year.natAbs).length = 4 := Numeral.length_padded (by decide) (by omega)
  have hmonth : (Numeral.padded 2 d.month).length = 2 := Numeral.length_padded (by decide) (by omega)
  have hday : (Numeral.padded 2 d.day).length = 2 := Numeral.length_padded (by decide) (by omega)
  have hnumber := ((Numeral.isNatural_padded 4 d.year.natAbs).append (Numeral.isNatural_padded 2 d.month)).append
    (Numeral.isNatural_padded 2 d.day)
  rw [hmonth, hday] at hnumber
  rw [compact_of_nonneg h, String.toList_ofList]
  refine ⟨hnumber, ?_⟩
  rw [List.length_append, List.length_append, hyear, hmonth, hday]

theorem compact_lt_iff (hd : 0 ≤ d.year) (he : 0 ≤ e.year) : d < e ↔ d.compact < e.compact := by
  obtain ⟨hdn, hdl⟩ := isNatural_compact hd
  obtain ⟨hen, hel⟩ := isNatural_compact he
  have hdm := d.month_mem
  have hem := e.month_mem
  have hdd := d.day_mem
  have hed := e.day_mem
  have hdlength := (monthLength_bounds d.year d.month).2
  have helength := (monthLength_bounds e.year e.month).2
  rw [String.lt_iff, hdn.lt_iff hen (hdl.trans hel.symm), lt_def]
  omega

theorem compact_of_neg (h : d.year < 0) : d.compact = String.ofList
    ('-' :: (Numeral.padded 3 d.year.natAbs ++ Numeral.padded 2 d.month ++ Numeral.padded 2 d.day)) := by
  rw [compact, if_pos h]
  rfl

/-- The text of a negative year is not read, because of its sign. -/
theorem parse_compact_ne_ok (h : d.year < 0) : parse d.compact ≠ .ok e := by
  intro hp
  have hdash := head?_of_parse hp
  rw [compact_of_neg h, String.toList_ofList] at hdash
  exact hdash rfl

theorem exists_flaw_of_parse (h : ∀ e, parse text ≠ .ok e) : ∃ flaw, parse text = .error (.date text flaw) := by
  cases hp : ofDigits text with
  | ok e =>
    have hok : parse text = .ok e := mapError_eq_ok_iff.mpr hp
    exact absurd hok (h e)
  | error flaw =>
    refine ⟨flaw, ?_⟩
    rw [parse, hp]
    rfl

/-- Different dates have different texts: those of the years from 0 on are read back, and after the sign of the others
the parts have fixed places from the end. -/
theorem compact_injective : Function.Injective compact := by
  intro d e h
  by_cases hd : 0 ≤ d.year
  · have hp : parse e.compact = .ok d := parse_eq_ok_iff.mpr ⟨hd, h⟩
    have he : 0 ≤ e.year := by
      by_contra hneg
      exact parse_compact_ne_ok (not_le.mp hneg) hp
    have hp' : parse e.compact = .ok e := parse_eq_ok_iff.mpr ⟨he, rfl⟩
    exact Except.ok.inj (hp.symm.trans hp')
  · have he : e.year < 0 := by
      by_contra hpos
      have hp : parse d.compact = .ok e := parse_eq_ok_iff.mpr ⟨not_lt.mp hpos, h.symm⟩
      exact parse_compact_ne_ok (not_le.mp hd) hp
    have hdlength := (monthLength_bounds d.year d.month).2
    have helength := (monthLength_bounds e.year e.month).2
    have hlen (f : Date) (hf : monthLength f.year f.month ≤ 31) :
        (Numeral.padded 2 f.month).length = 2 ∧ (Numeral.padded 2 f.day).length = 2 := by
      have hm := f.month_mem
      have hday := f.day_mem
      exact ⟨Numeral.length_padded (by decide) (by omega), Numeral.length_padded (by decide) (by omega)⟩
    obtain ⟨hdm, hdd⟩ := hlen d hdlength
    obtain ⟨hem, hed⟩ := hlen e helength
    -- the month and the day are the last four digits, however many the year has
    rw [compact_of_neg (not_le.mp hd), compact_of_neg he, String.ofList_inj] at h
    obtain ⟨h, hday⟩ := List.append_inj' (List.tail_eq_of_cons_eq h) (hdd.trans hed.symm)
    obtain ⟨hyear, hmonth⟩ := List.append_inj' h (hdm.trans hem.symm)
    have hnumber {width m n : Nat} (heq : Numeral.padded width m = Numeral.padded width n) : m = n := by
      have hm := Numeral.isNatural_padded width m
      rw [heq] at hm
      exact hm.number_unique (Numeral.isNatural_padded width n)
    have hy := hnumber hyear
    exact ext_parts (by omega) (hnumber hmonth) (hnumber hday)

/-- Reading and writing are inverse on the years 0 to 9999: the texts read are those written for these years, each for
its date, and all others are refused as dates. In these years the order of texts is that of dates. Different dates have
different texts in all years, but the text of a negative year is refused. -/
theorem parse_inverts_compact :
    (∀ text (d : Date), parse text = .ok d ↔ (0 ≤ d.year ∧ d.year ≤ 9999) ∧ d.compact = text) ∧
      (∀ text, (∀ d : Date, 0 ≤ d.year → d.compact ≠ text) → ∃ flaw, parse text = .error (.date text flaw)) ∧
      (∀ d e : Date, 0 ≤ d.year → 0 ≤ e.year → (d < e ↔ d.compact < e.compact)) ∧ Function.Injective compact ∧
      ∀ d : Date, d.year < 0 → ∃ flaw, parse d.compact = .error (.date d.compact flaw) := by
  refine ⟨?_, ?_, fun d e hd he => compact_lt_iff hd he, compact_injective, ?_⟩
  · intro text d
    have htop := d.year_mem.2
    rw [parse_eq_ok_iff]
    constructor
    · intro h
      exact ⟨⟨h.1, htop⟩, h.2⟩
    · intro h
      exact ⟨h.1.1, h.2⟩
  · intro text h
    apply exists_flaw_of_parse
    intro e he
    obtain ⟨hy, htext⟩ := parse_eq_ok_iff.mp he
    exact h e hy htext
  · intro d hd
    apply exists_flaw_of_parse
    intro e
    exact parse_compact_ne_ok hd

-- the day before the first of year 0 has a sign, and there was no February 30
example : (⟨-1, 12, 31, by decide, by decide, by decide⟩ : Date).compact = "-0011231" ∧
    parse "20240230" = .error (.date "20240230" (.dayOfMonth 2024 2)) := by
  constructor <;> cbv

end Date

end Agenda
