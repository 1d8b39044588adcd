import Agenda.Recurrence.RuleText
import Agenda.Proofs.Except
import Agenda.Proofs.Text.Blank
import Agenda.Proofs.Text.Numeral
import Mathlib.Data.List.Sort
/-!
The language of rule texts, said without the reader, and that the reader accepts exactly this language and gives each
text the rule that it stands for. A text may have blanks at both ends; inside, tokens are separated by one space and
the numbers of a list by one comma.
-/
namespace Agenda

open Text

namespace Rule

/-- The texts of a list of integers: single commas stand between them. -/
def IsList (s : List Char) (ns : List Int) : Prop :=
  ∃ tokens : List (List Char), tokens ≠ [] ∧ s = [','].intercalate tokens ∧
    List.Forall₂ Numeral.IsInteger tokens ns

/-- Whether a list holds the given numbers in strictly ascending order. -/
def Orders (ordered ns : List Int) : Prop :=
  ordered.Pairwise (· < ·) ∧ ∀ n, n ∈ ordered ↔ n ∈ ns

/-- The texts of a rule, without blanks at their ends. -/
inductive Spells : List Char → Rule → Prop
  | daily {s : List Char} {n : Int} (h : Numeral.IsInteger s n) (hn : 1 ≤ n ∧ n ≤ 400) :
    Spells ('d' :: ' ' :: s) (daily n)
  | yearly : Spells ['y'] yearly
  | weekly {s : List Char} {ns days : List Int} (h : IsList s ns) (hn : ∀ n ∈ ns, 1 ≤ n ∧ n ≤ 7)
    (hd : Orders days ns) : Spells ('w' :: ' ' :: s) (weekly days)
  | monthly {s : List Char} {ns days : List Int} (h : IsList s ns)
    (hn : ∀ n ∈ ns, n = -2 ∨ n = -1 ∨ 1 ≤ n ∧ n ≤ 31) (hd : Orders days ns) :
    Spells ('m' :: ' ' :: s) (monthly days none)
  | monthlyOf {s s' : List Char} {ns ns' days months : List Int} (h : IsList s ns)
    (hn : ∀ n ∈ ns, n = -2 ∨ n = -1 ∨ 1 ≤ n ∧ n ≤ 31) (hd : Orders days ns) (h' : IsList s' ns')
    (hn' : ∀ n ∈ ns', 1 ≤ n ∧ n ≤ 12) (hm : Orders months ns') :
    Spells ('m' :: ' ' :: s ++ ' ' :: s') (monthly days (some months))

/-- The texts of a rule: those without blanks at their ends, and blanks around them. -/
def Denotes (text : String) (r : Rule) : Prop :=
  ∃ pre body post, text.toList = pre ++ body ++ post ∧ (∀ c ∈ pre, isBlank c = true) ∧
    (∀ c ∈ post, isBlank c = true) ∧ Spells body r

theorem mem_insert {n k : Int} {ms : List Int} : k ∈ insert n ms ↔ k = n ∨ k ∈ ms := by
  induction ms with
  | nil => simp only [insert, List.mem_cons, List.not_mem_nil]
  | cons m ms ih =>
    unfold insert
    split
    · simp only [List.mem_cons]
    · split
      · rename_i heq
        rw [heq, List.mem_cons, or_self_left]
      · rw [List.mem_cons, List.mem_cons, ih, or_left_comm]

theorem insert_pairwise {n : Int} {ms : List Int} (h : ms.Pairwise (· < ·)) : (insert n ms).Pairwise (· < ·) := by
  induction ms with
  | nil => exact List.pairwise_singleton _ _
  | cons m ms ih =>
    obtain ⟨hm, hms⟩ := List.pairwise_cons.mp h
    unfold insert
    split
    · refine List.pairwise_cons.mpr ⟨?_, h⟩
      intro k hk
      rcases List.mem_cons.mp hk with rfl | hk
      · assumption
      · exact lt_trans ‹_› (hm k hk)
    · split
      · exact h
      · refine List.pairwise_cons.mpr ⟨?_, ih hms⟩
        intro k hk
        rcases mem_insert.mp hk with rfl | hk
        · omega
        · exact hm k hk

/-- Reading a list as a set puts its numbers in order, and there is no other way to order them. -/
theorem ascending_orders (ns : List Int) : Orders (ascending ns) ns := by
  induction ns with
  | nil => exact ⟨List.Pairwise.nil, fun n => Iff.rfl⟩
  | cons n ns ih =>
    refine ⟨insert_pairwise ih.1, fun k => ?_⟩
    rw [ascending, List.foldr_cons, mem_insert, List.mem_cons]
    exact or_congr_right (ih.2 k)

theorem Orders.unique {a b ns : List Int} (ha : Orders a ns) (hb : Orders b ns) : a = b :=
  ha.1.eq_of_mem_iff hb.1 fun n => (ha.2 n).trans (hb.2 n).symm

theorem orders_iff {a ns : List Int} : Orders a ns ↔ a = ascending ns :=
  ⟨fun h => h.unique (ascending_orders ns), fun h => h ▸ ascending_orders ns⟩

theorem readInteger_eq_ok_iff {token : List Char} {n : Int} : readInteger token = .ok n ↔
    Numeral.IsInteger token n ∧ -Numeral.maxSigned - 1 ≤ n ∧ n ≤ Numeral.maxSigned := by
  unfold readInteger
  rw [← Numeral.int?_eq_some_iff]
  constructor
  · intro h
    split at h
    · cases h
    · cases hi : Numeral.int? token with
      | none =>
        rw [hi] at h
        cases h
      | some m =>
        rw [hi] at h
        dsimp only at h
        split at h
        · cases h
          exact ⟨rfl, ‹_›⟩
        · cases h
  · intro h
    obtain ⟨hi, hn⟩ := h
    have hne := (Numeral.int?_eq_some_iff.mp hi).ne_nil
    rw [if_neg (by simpa only [List.isEmpty_iff] using hne), hi]
    exact if_pos hn

theorem bounds_of_admits {field : RuleField} {n : Int} (h : field.admits n = true) : -2 ≤ n ∧ n ≤ 31 := by
  cases field <;>
    simp only [RuleField.admits, isWeekday, isMonthDay, isMonth, Bool.and_eq_true, Bool.or_eq_true,
      decide_eq_true_eq] at h <;>
    omega

/-- No member of a list is too great to be read. -/
theorem readMember_eq_ok_iff {field : RuleField} {token : List Char} {n : Int} :
    readMember field token = .ok n ↔ Numeral.IsInteger token n ∧ field.admits n = true := by
  unfold readMember
  rw [bind_eq_ok_iff]
  constructor
  · intro hx
    obtain ⟨m, hm, h⟩ := hx
    split at h
    · cases h
      exact ⟨(readInteger_eq_ok_iff.mp hm).1, ‹_›⟩
    · cases h
  · intro h
    obtain ⟨hi, hn⟩ := h
    have hb := bounds_of_admits hn
    exact ⟨n, readInteger_eq_ok_iff.mpr ⟨hi, by simp only [Numeral.maxSigned]; omega⟩, if_pos hn⟩

theorem forall₂_and_right {α β : Type} {R : α → β → Prop} {p : β → Prop} {xs : List α} {ys : List β} :
    List.Forall₂ (fun x y => R x y ∧ p y) xs ys ↔ List.Forall₂ R xs ys ∧ ∀ y ∈ ys, p y := by
  induction xs generalizing ys with
  | nil =>
    cases ys <;> simp
  | cons x xs ih =>
    cases ys with
    | nil => simp
    | cons y ys =>
      simp only [List.forall₂_cons, ih, List.forall_mem_cons]
      tauto

theorem isBlank_of_isInteger {s : List Char} {n : Int} (h : Numeral.IsInteger s n) (c : Char) (hc : c ∈ s) :
    c ≠ ',' ∧ isBlank c = false := by
  rcases h.mem c hc with rfl | rfl | ⟨hlo, hhi⟩
  · decide
  · decide
  · have hlo' : 48 ≤ c.toNat := hlo
    have hhi' : c.toNat ≤ 57 := hhi
    constructor
    · rintro rfl
      exact absurd hlo (by decide)
    · simp only [isBlank, Bool.or_eq_false_iff, Bool.and_eq_false_iff, decide_eq_false_iff_not, beq_eq_false_iff_ne]
      omega

theorem splitOn_of_isInteger {tokens : List (List Char)} {ns : List Int} (hne : tokens ≠ [])
    (h : List.Forall₂ Numeral.IsInteger tokens ns) : ([','].intercalate tokens).splitOn ',' = tokens := by
  have hsep : List.Forall₂ (fun t n => ',' ∉ t ∧ Numeral.IsInteger t n) tokens ns :=
    h.imp fun t n ht => ⟨fun hc => (isBlank_of_isInteger ht _ hc).1 rfl, ht⟩
  exact List.splitOn_intercalate ',' ((List.forall₂_and_left _ _).mp hsep).1 hne

theorem mem_intercalate {tokens : List (List Char)} {sep c : Char} (h : c ∈ [sep].intercalate tokens) :
    c = sep ∨ ∃ t ∈ tokens, c ∈ t := by
  induction tokens with
  | nil => cases h
  | cons t ts ih =>
    cases ts with
    | nil => exact Or.inr ⟨t, List.mem_cons_self, by simpa using h⟩
    | cons t' ts =>
      rw [List.intercalate_cons_cons, List.mem_append, List.mem_append, List.mem_singleton] at h
      rcases h with (h | h) | h
      · exact Or.inr ⟨t, List.mem_cons_self, h⟩
      · exact Or.inl h
      · rcases ih h with h | ⟨u, hu, hc⟩
        · exact Or.inl h
        · exact Or.inr ⟨u, List.mem_cons_of_mem t hu, hc⟩

theorem IsList.isBlank {s : List Char} {ns : List Int} (h : IsList s ns) (c : Char) (hc : c ∈ s) :
    isBlank c = false := by
  obtain ⟨tokens, -, rfl, h⟩ := h
  have hall : List.Forall₂ (fun t n => (∀ c ∈ t, Text.isBlank c = false) ∧ Numeral.IsInteger t n) tokens ns :=
    h.imp fun t n ht => ⟨fun c hc => (isBlank_of_isInteger ht c hc).2, ht⟩
  rcases mem_intercalate hc with rfl | ⟨t, ht, hc⟩
  · decide
  · exact ((List.forall₂_and_left _ _).mp hall).1 t ht c hc

theorem IsList.ne_nil {s : List Char} {ns : List Int} (h : IsList s ns) : s ≠ [] := by
  obtain ⟨tokens, hne, rfl, h⟩ := h
  cases h with
  | nil => exact absurd rfl hne
  | cons ht hs =>
    cases hs with
    | nil => simpa using ht.ne_nil
    | cons _ _ =>
      rw [List.intercalate_cons_cons]
      simp

theorem readList_eq_ok_iff {field : RuleField} {s : List Char} {days : List Int} :
    readList field s = .ok days ↔
      ∃ ns, IsList s ns ∧ (∀ n ∈ ns, field.admits n = true) ∧ Orders days ns := by
  unfold readList
  rw [bind_eq_ok_iff]
  constructor
  · intro hx
    obtain ⟨ns, hns, h⟩ := hx
    cases h
    simp only [mapM_eq_ok_iff, readMember_eq_ok_iff, forall₂_and_right] at hns
    exact ⟨ns, ⟨_, List.splitOn_ne_nil _ _, (List.intercalate_splitOn ',').symm, hns.1⟩, hns.2, ascending_orders ns⟩
  · intro hx
    obtain ⟨ns, ⟨tokens, hne, rfl, h⟩, hn, hd⟩ := hx
    refine ⟨ns, ?_, congrArg Except.ok (orders_iff.mp hd).symm⟩
    rw [splitOn_of_isInteger hne h]
    simp only [mapM_eq_ok_iff, readMember_eq_ok_iff, forall₂_and_right]
    exact ⟨h, hn⟩

theorem admits_weekday {n : Int} : RuleField.weekday.admits n = true ↔ 1 ≤ n ∧ n ≤ 7 := by
  simp only [RuleField.admits, isWeekday, Bool.and_eq_true, decide_eq_true_eq]

theorem admits_monthDay {n : Int} : RuleField.monthDay.admits n = true ↔ n = -2 ∨ n = -1 ∨ 1 ≤ n ∧ n ≤ 31 := by
  simp only [RuleField.admits, isMonthDay, Bool.or_eq_true, Bool.and_eq_true, decide_eq_true_eq]
  omega

theorem admits_month {n : Int} : RuleField.month.admits n = true ↔ 1 ≤ n ∧ n ≤ 12 := by
  simp only [RuleField.admits, isMonth, Bool.and_eq_true, decide_eq_true_eq]

theorem intercalate_two (k : Char) (s : List Char) : [' '].intercalate [[k], s] = k :: ' ' :: s := by
  simp

theorem intercalate_three (k : Char) (s s' : List Char) :
    [' '].intercalate [[k], s, s'] = k :: ' ' :: s ++ ' ' :: s' := by
  simp

/-- Whatever tokens are read as a rule, the rule is the one that they spell. -/
theorem spells_of_readTokens {tokens : List (List Char)} {r : Rule} (h : readTokens tokens = .ok r) :
    Spells ([' '].intercalate tokens) r := by
  unfold readTokens at h
  split at h
  · unfold readDaily at h
    split at h
    · obtain ⟨n, hn, h⟩ := bind_eq_ok_iff.mp h
      split at h
      · cases h
        rw [intercalate_two]
        exact .daily (readInteger_eq_ok_iff.mp hn).1 ‹_›
      · cases h
    · cases h
  · unfold readYearly at h
    split at h
    · cases h
      exact .yearly
    · cases h
  · unfold readWeekly at h
    split at h
    · obtain ⟨days, hdays, h⟩ := bind_eq_ok_iff.mp h
      obtain ⟨ns, hs, hn, hd⟩ := readList_eq_ok_iff.mp hdays
      cases h
      rw [intercalate_two]
      exact .weekly hs (fun n hm => admits_weekday.mp (hn n hm)) hd
    · cases h
  · unfold readMonthly at h
    split at h
    · obtain ⟨days, hdays, h⟩ := bind_eq_ok_iff.mp h
      obtain ⟨ns, hs, hn, hd⟩ := readList_eq_ok_iff.mp hdays
      cases h
      rw [intercalate_two]
      exact .monthly hs (fun n hm => admits_monthDay.mp (hn n hm)) hd
    · obtain ⟨days, hdays, h⟩ := bind_eq_ok_iff.mp h
      obtain ⟨months, hmonths, h⟩ := bind_eq_ok_iff.mp h
      obtain ⟨ns, hs, hn, hd⟩ := readList_eq_ok_iff.mp hdays
      obtain ⟨ns', hs', hn', hm⟩ := readList_eq_ok_iff.mp hmonths
      cases h
      rw [intercalate_three]
      exact .monthlyOf hs (fun n hmem => admits_monthDay.mp (hn n hmem)) hd hs'
        (fun n hmem => admits_month.mp (hn' n hmem)) hm
    · cases h
  · cases h
  · cases h

theorem not_mem_space {s : List Char} (h : ∀ c ∈ s, isBlank c = false) : ' ' ∉ s := by
  intro hc
  exact absurd (h _ hc) (by decide)

theorem splitOn_two {k : Char} {s : List Char} (hk : ' ' ≠ k) (hs : ' ' ∉ s) :
    (k :: ' ' :: s).splitOn ' ' = [[k], s] := by
  rw [← intercalate_two]
  exact List.splitOn_intercalate ' ' (by simpa using ⟨hk, hs⟩) (List.cons_ne_nil _ _)

theorem splitOn_three {k : Char} {s s' : List Char} (hk : ' ' ≠ k) (hs : ' ' ∉ s) (hs' : ' ' ∉ s') :
    (k :: ' ' :: s ++ ' ' :: s').splitOn ' ' = [[k], s, s'] := by
  rw [← intercalate_three]
  exact List.splitOn_intercalate ' ' (by simpa using ⟨hk, hs, hs'⟩) (List.cons_ne_nil _ _)

theorem readTokens_of_spells {body : List Char} {r : Rule} (h : Spells body r) :
    readTokens (body.splitOn ' ') = .ok r := by
  cases h with
  | @daily s n h hn =>
    rw [splitOn_two (by decide) (not_mem_space fun c hc => (isBlank_of_isInteger h c hc).2)]
    have hi : readInteger s = .ok n :=
      readInteger_eq_ok_iff.mpr ⟨h, by simp only [Numeral.maxSigned]; omega⟩
    exact bind_eq_ok_iff.mpr ⟨n, hi, if_pos hn⟩
  | yearly => rfl
  | weekly h hn hd =>
    rw [splitOn_two (by decide) (not_mem_space h.isBlank)]
    have hl := readList_eq_ok_iff.mpr ⟨_, h, fun n hm => admits_weekday.mpr (hn n hm), hd⟩
    exact bind_eq_ok_iff.mpr ⟨_, hl, rfl⟩
  | monthly h hn hd =>
    rw [splitOn_two (by decide) (not_mem_space h.isBlank)]
    have hl := readList_eq_ok_iff.mpr ⟨_, h, fun n hm => admits_monthDay.mpr (hn n hm), hd⟩
    exact bind_eq_ok_iff.mpr ⟨_, hl, rfl⟩
  | monthlyOf h hn hd h' hn' hm =>
    rw [splitOn_three (by decide) (not_mem_space h.isBlank) (not_mem_space h'.isBlank)]
    have hl := readList_eq_ok_iff.mpr ⟨_, h, fun n hmem => admits_monthDay.mpr (hn n hmem), hd⟩
    have hl' := readList_eq_ok_iff.mpr ⟨_, h', fun n hmem => admits_month.mpr (hn' n hmem), hm⟩
    exact bind_eq_ok_iff.mpr ⟨_, hl, bind_eq_ok_iff.mpr ⟨_, hl', rfl⟩⟩

theorem isTight_cons_append {k : Char} {t s : List Char} (hk : isBlank k = false) (hne : s ≠ [])
    (hs : ∀ c ∈ s, isBlank c = false) : IsTight (k :: t ++ s) := by
  constructor
  · intro c hc
    cases hc
    exact hk
  · intro c hc
    rw [List.getLast?_append_of_ne_nil _ hne] at hc
    exact hs c (List.mem_of_getLast? hc)

theorem Spells.isTight {body : List Char} {r : Rule} (h : Spells body r) : IsTight body := by
  cases h with
  | daily h _ => exact isTight_cons_append (t := [' ']) rfl h.ne_nil fun c hc => (isBlank_of_isInteger h c hc).2
  | yearly =>
    constructor <;>
    · intro c hc
      cases hc
      rfl
  | weekly h _ _ => exact isTight_cons_append (t := [' ']) rfl h.ne_nil h.isBlank
  | monthly h _ _ => exact isTight_cons_append (t := [' ']) rfl h.ne_nil h.isBlank
  | @monthlyOf s s' _ _ _ _ _ _ _ h' _ _ =>
    have ht := isTight_cons_append (k := 'm') (t := ' ' :: s ++ [' ']) rfl h'.ne_nil h'.isBlank
    simpa using ht

/-- The only blanks inside are the spaces between the tokens. -/
theorem Spells.eq_space_or {body : List Char} {r : Rule} (h : Spells body r) :
    ∀ c ∈ body, c = ' ' ∨ isBlank c = false := by
  have hlist {s : List Char} {ns : List Int} (hs : IsList s ns) : ∀ c ∈ s, c = ' ' ∨ isBlank c = false :=
    fun c hc => Or.inr (hs.isBlank c hc)
  have hspace {s : List Char} (hs : ∀ c ∈ s, c = ' ' ∨ isBlank c = false) : ∀ c ∈ ' ' :: s, c = ' ' ∨ isBlank c = false :=
    List.forall_mem_cons.mpr ⟨Or.inl rfl, hs⟩
  have hkind {k : Char} {s : List Char} (hk : isBlank k = false) (hs : ∀ c ∈ s, c = ' ' ∨ isBlank c = false) :
      ∀ c ∈ k :: s, c = ' ' ∨ isBlank c = false :=
    List.forall_mem_cons.mpr ⟨Or.inr hk, hs⟩
  cases h with
  | daily hs => exact hkind rfl (hspace fun c hc => Or.inr (isBlank_of_isInteger hs c hc).2)
  | yearly => exact hkind rfl (List.forall_mem_nil _)
  | weekly hs => exact hkind rfl (hspace (hlist hs))
  | monthly hs => exact hkind rfl (hspace (hlist hs))
  | monthlyOf hs _ _ hs' => exact hkind rfl (hspace (List.forall_mem_append.mpr ⟨hlist hs, hspace (hlist hs')⟩))

theorem Spells.ne_nil {body : List Char} {r : Rule} (h : Spells body r) : body ≠ [] := by
  cases h <;> exact List.cons_ne_nil _ _

theorem parse_eq_ok_iff {text : String} {r : Rule} : parse text = .ok r ↔ Denotes text r := by
  unfold parse
  dsimp only
  constructor
  · intro h
    split at h
    · cases h
    · have hb := spells_of_readTokens (mapError_eq_ok_iff.mp h)
      -- the tokens with spaces between them are the trimmed text
      rw [List.intercalate_splitOn] at hb
      obtain ⟨pre, post, he, hpre, hpost⟩ := exists_trim text.toList
      exact ⟨pre, _, post, he, hpre, hpost, hb⟩
  · intro h
    obtain ⟨pre, body, post, he, hpre, hpost, hb⟩ := h
    have ht : trim text.toList = body := by
      rw [he]
      exact trim_of_isTight hpre hpost hb.ne_nil hb.isTight
    rw [ht, if_neg (by simpa only [List.isEmpty_iff] using hb.ne_nil)]
    exact mapError_eq_ok_iff.mpr (readTokens_of_spells hb)

theorem head?_of_parse {text : String} {r : Rule} (h : parse text = .ok r) : text.toList.head? ≠ some '-' := by
  obtain ⟨pre, body, post, htext, hpre, -, hbody⟩ := parse_eq_ok_iff.mp h
  intro hdash
  rw [htext] at hdash
  cases pre with
  | cons k pre =>
    obtain rfl := Option.some.inj hdash
    cases hpre '-' List.mem_cons_self
  | nil => cases hbody <;> cases hdash

/-- A text with a rule in it is not blank. -/
theorem allBlank_of_parse {text : String} {r : Rule} (h : parse text = .ok r) : allBlank text = false := by
  obtain ⟨pre, body, post, htext, -, -, hbody⟩ := parse_eq_ok_iff.mp h
  obtain ⟨c, hc⟩ := Option.isSome_iff_exists.mp (List.isSome_head?.mpr hbody.ne_nil)
  have hmem : c ∈ text.toList := by
    rw [htext]
    exact List.mem_append_left post (List.mem_append_right pre (List.mem_of_head? hc))
  apply Bool.eq_false_iff.mpr
  intro hblank
  exact absurd (List.all_eq_true.mp hblank c hmem) (Bool.eq_false_iff.mp (hbody.isTight.1 c hc))

theorem Orders.isSet {kind : Int → Bool} {s : List Char} {ns ordered : List Int} (h : IsList s ns)
    (ho : Orders ordered ns) (hk : ∀ n ∈ ns, kind n = true) : IsSet kind ordered := by
  refine ⟨?_, ho.1, fun v hv => hk v ((ho.2 v).mp hv)⟩
  rintro rfl
  obtain ⟨tokens, hne, -, ht⟩ := h
  cases ht with
  | nil => exact hne rfl
  | @cons t n ts ns _ _ => exact absurd ((ho.2 n).mpr List.mem_cons_self) List.not_mem_nil

/-- Every rule that is read is one that can be written. -/
theorem wellFormed_of_parse {text : String} {r : Rule} (h : parse text = .ok r) : r.WellFormed := by
  obtain ⟨-, body, -, -, -, -, hb⟩ := parse_eq_ok_iff.mp h
  cases hb with
  | daily _ hn => exact hn
  | yearly => trivial
  | weekly hs hn hd => exact hd.isSet hs fun n hm => admits_weekday.mpr (hn n hm)
  | monthly hs hn hd => exact ⟨hd.isSet hs fun n hm => admits_monthDay.mpr (hn n hm), fun _ hms => by cases hms⟩
  | monthlyOf hs hn hd hs' hn' hm =>
    refine ⟨hd.isSet hs fun n hmem => admits_monthDay.mpr (hn n hmem), fun ms hms => ?_⟩
    cases hms
    exact hm.isSet hs' fun n hmem => admits_month.mpr (hn' n hmem)

/-- A text is read as a rule exactly when it denotes it; every other text is refused as an invalid specification. -/
theorem parse_reads_language (text : String) :
    (∀ r, parse text = .ok r ↔ Denotes text r) ∧
    ((∃ e, (parse text).mapError EngineError.spec = .error (.spec e)) ↔ ¬ ∃ r, Denotes text r) := by
  refine ⟨fun r => parse_eq_ok_iff, ?_⟩
  constructor
  · intro h h'
    obtain ⟨e, he⟩ := h
    obtain ⟨r, hr⟩ := h'
    rw [parse_eq_ok_iff.mpr hr] at he
    cases he
  · intro h
    cases hp : parse text with
    | error e => exact ⟨e, rfl⟩
    | ok r => exact absurd ⟨r, parse_eq_ok_iff.mp hp⟩ h

end Rule

end Agenda
