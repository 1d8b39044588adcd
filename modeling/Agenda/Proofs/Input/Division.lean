import Agenda.Input.Lines
import Mathlib.Data.List.Basic
import Mathlib.Data.List.TakeWhile
/-!
The division of data into lines, said without a reader: the data is cut after each line feed and nowhere else. There is
exactly one such division, and it can be taken apart at its first line. Where reading fails, what was begun of a line
does not count. The content of a line and the end that it leaves off are the line again.
-/
namespace Agenda

open Text

/-- Whether data is cut into lines after each line feed; no line is empty, and the last one may lack its line feed. -/
structure IsDivision (data : Bytes) (lines : List Bytes) : Prop where
  flatten : lines.flatten = data
  ne_nil : ∀ l ∈ lines, l ≠ []
  inner : ∀ l ∈ lines, Line.feed ∉ l.dropLast
  ended : ∀ l ∈ lines.dropLast, l.getLast? = some Line.feed

/-- Whether the first line of some bytes is `line`, with `rest` after it. -/
structure IsFirst (line rest : Bytes) : Prop where
  ne_nil : line ≠ []
  inner : Line.feed ∉ line.dropLast
  ended : line.getLast? = some Line.feed ∨ rest = []

variable {bs data line line' rest rest' begun : Bytes} {lines ls : List Bytes}

theorem mem_dropLast_append {b : UInt8} {a : Bytes} (hb : line.getLast? = some b) (ha : a ≠ []) :
    b ∈ (line ++ a).dropLast := by
  rw [List.dropLast_append_of_ne_nil ha]
  exact List.mem_append_left _ (List.mem_of_getLast? hb)

/-- The longer of two first lines would have a line feed inside. -/
theorem IsFirst.length_le (h : IsFirst line rest) (h' : IsFirst line' rest') (he : line ++ rest = line' ++ rest') :
    line'.length ≤ line.length := by
  by_contra hlt
  obtain ⟨a, rfl, rfl⟩ : ∃ a, line' = line ++ a ∧ rest = a ++ rest' := by
    rcases List.append_eq_append_iff.mp he with ⟨a, ha, hr⟩ | ⟨a, ha, hr⟩
    · exact ⟨a, ha, hr⟩
    · rw [ha, List.length_append] at hlt
      omega
  have ha : a ≠ [] := by
    rintro rfl
    exact hlt (by simp)
  rcases h.ended with hend | hend
  · exact h'.inner (mem_dropLast_append hend ha)
  · exact ha (List.append_eq_nil_iff.mp hend).1

theorem IsFirst.unique (h : IsFirst line rest) (h' : IsFirst line' rest') (he : line ++ rest = line' ++ rest') :
    line = line' ∧ rest = rest' := by
  have hlen := le_antisymm (h'.length_le h he.symm) (h.length_le h' he)
  exact List.append_inj he hlen

theorem isDivision_nil_iff : IsDivision [] lines ↔ lines = [] := by
  constructor
  · intro h
    rw [List.eq_nil_iff_forall_not_mem]
    intro l hl
    exact h.ne_nil l hl (List.flatten_eq_nil_iff.mp h.flatten l hl)
  · rintro rfl
    exact ⟨rfl, by simp, by simp, by simp⟩

theorem IsDivision.isFirst (h : IsDivision data (line :: ls)) : IsFirst line ls.flatten := by
  refine ⟨h.ne_nil line List.mem_cons_self, h.inner line List.mem_cons_self, ?_⟩
  cases ls with
  | nil => exact Or.inr rfl
  | cons l ls => exact Or.inl (h.ended line (by simp))

theorem IsDivision.tail (h : IsDivision data (line :: ls)) : IsDivision ls.flatten ls := by
  refine ⟨rfl, fun l hl => h.ne_nil l (List.mem_cons_of_mem _ hl), fun l hl => h.inner l (List.mem_cons_of_mem _ hl), ?_⟩
  intro l hl
  apply h.ended l
  cases ls with
  | nil => cases hl
  | cons l' ls => exact List.mem_cons_of_mem _ hl

theorem IsDivision.cons (hf : IsFirst line rest) (h : IsDivision rest ls) : IsDivision (line ++ rest) (line :: ls) := by
  refine ⟨by rw [List.flatten_cons, h.flatten], ?_, ?_, ?_⟩
  · exact List.forall_mem_cons.mpr ⟨hf.ne_nil, h.ne_nil⟩
  · exact List.forall_mem_cons.mpr ⟨hf.inner, h.inner⟩
  · cases ls with
    | nil => simp
    | cons l ls =>
      have hrest : rest ≠ [] := by
        rw [← h.flatten, List.flatten_cons]
        simp [h.ne_nil l List.mem_cons_self]
      exact List.forall_mem_cons.mpr ⟨hf.ended.resolve_right hrest, h.ended⟩

/-- The first line of a division is the first line of the data. -/
theorem isDivision_append_iff (hf : IsFirst line rest) :
    IsDivision (line ++ rest) lines ↔ ∃ ls, lines = line :: ls ∧ IsDivision rest ls := by
  constructor
  · intro h
    cases lines with
    | nil =>
      have hnil := List.append_eq_nil_iff.mp h.flatten.symm
      exact absurd hnil.1 hf.ne_nil
    | cons l ls =>
      have he := h.flatten.symm
      rw [List.flatten_cons] at he
      obtain ⟨rfl, rfl⟩ := hf.unique h.isFirst he
      exact ⟨ls, rfl, h.tail⟩
  · rintro ⟨ls, rfl, h⟩
    exact IsDivision.cons hf h

theorem feed_not_mem_of_firstLine? (h : firstLine? bs = none) : Line.feed ∉ bs := by
  unfold firstLine? at h
  split at h
  · rename_i hd
    intro hmem
    have hne := List.dropWhile_eq_nil_iff.mp hd _ hmem
    exact absurd hne (by simp)
  · cases h

theorem firstLine?_spec (h : firstLine? bs = some (line, rest)) :
    bs = line ++ rest ∧ line.getLast? = some Line.feed ∧ Line.feed ∉ line.dropLast := by
  unfold firstLine? at h
  split at h
  · cases h
  · rename_i b rest' hd
    obtain ⟨rfl, rfl⟩ := Prod.mk.inj (Option.some.inj h)
    have hb : b = Line.feed := by
      have hhead := List.head?_dropWhile_not (· != Line.feed) bs
      rw [hd] at hhead
      simpa using hhead
    refine ⟨?_, by simp [hb], ?_⟩
    · rw [List.append_assoc, List.singleton_append, ← hd, List.takeWhile_append_dropWhile]
    · rw [List.dropLast_concat]
      intro hmem
      exact absurd (List.mem_takeWhile_imp hmem) (by simp)

/-- What was read of a line before makes no difference to where it ends. -/
theorem isFirst_append (hb : Line.feed ∉ begun) (hi : Line.feed ∉ line.dropLast)
    (he : line.getLast? = some Line.feed) : IsFirst (begun ++ line) rest := by
  have hne : line ≠ [] := by
    rintro rfl
    cases he
  refine ⟨by simp [hne], ?_, ?_⟩
  · rw [List.dropLast_append_of_ne_nil hne, List.mem_append]
    exact not_or.mpr ⟨hb, hi⟩
  · rw [List.getLast?_append_of_ne_nil _ hne]
    exact Or.inl he

/-- The bytes of data up to its last line feed. -/
def wholeLines (data : Bytes) : Bytes :=
  (data.reverse.dropWhile (· != Line.feed)).reverse

/-- The bytes whose lines can be read of data: all of them, unless reading fails after them. -/
def delivered {ε : Type} : Option ε → Bytes → Bytes
  | none, data => data
  | some _, data => wholeLines data

theorem delivered_map {ε ε' : Type} (g : ε → ε') (flaw : Option ε) : delivered (flaw.map g) = delivered flaw := by
  cases flaw <;> rfl

theorem wholeLines_append (h : line.getLast? = some Line.feed) (rest : Bytes) :
    wholeLines (line ++ rest) = line ++ wholeLines rest := by
  have hstop : line.reverse.dropWhile (· != Line.feed) = line.reverse := by
    cases hr : line.reverse with
    | nil => rfl
    | cons b bs =>
      rw [← List.head?_reverse, hr] at h
      obtain rfl : b = Line.feed := Option.some.inj h
      exact List.dropWhile_cons_of_neg (by simp)
  rw [wholeLines, wholeLines, List.reverse_append, List.dropWhile_append, hstop]
  split
  · rename_i hnone
    rw [List.isEmpty_iff.mp hnone, List.reverse_reverse, List.reverse_nil, List.append_nil]
  · rw [List.reverse_append, List.reverse_reverse]

theorem wholeLines_of_feed_not_mem (h : Line.feed ∉ bs) : wholeLines bs = [] := by
  rw [wholeLines, List.reverse_eq_nil_iff, List.dropWhile_eq_nil_iff]
  intro b hb
  simpa using ne_of_mem_of_not_mem (List.mem_reverse.mp hb) h

variable {ε : Type} {flaw : Option ε}

theorem delivered_append (h : line.getLast? = some Line.feed) (rest : Bytes) :
    delivered flaw (line ++ rest) = line ++ delivered flaw rest := by
  cases flaw with
  | none => rfl
  | some e => exact wholeLines_append h rest

/-- A line that is read with its line feed is the first one of those that can be read. -/
theorem IsDivision.of_delivered (hi : Line.feed ∉ line.dropLast) (he : line.getLast? = some Line.feed)
    (hd : IsDivision (delivered flaw (line ++ rest)) lines) :
    ∃ ls, lines = line :: ls ∧ IsDivision (delivered flaw rest) ls := by
  have hfirst : IsFirst line (delivered flaw rest) := isFirst_append List.not_mem_nil hi he
  rw [delivered_append he] at hd
  exact (isDivision_append_iff hfirst).mp hd

theorem IsDivision.of_firstLine? {tail : Bytes} (h : firstLine? bs = some (line, rest))
    (hd : IsDivision (delivered flaw (bs ++ tail)) lines) :
    ∃ ls, lines = line :: ls ∧ IsDivision (delivered flaw (rest ++ tail)) ls := by
  obtain ⟨rfl, hend, hi⟩ := firstLine?_spec h
  rw [List.append_assoc] at hd
  exact hd.of_delivered hi hend

/-- What the data ends in without a line feed is its last line. -/
theorem isFirst_of_feed_not_mem (hne : line ≠ []) (h : Line.feed ∉ line) : IsFirst line [] :=
  ⟨hne, fun hmem => h (List.dropLast_subset _ hmem), Or.inr rfl⟩

/-- The lines of data. -/
def divided : Bytes → List Bytes
  | [] => []
  | b :: bs =>
    if b = Line.feed then [b] :: divided bs
    else
      match divided bs with
      | [] => [[b]]
      | l :: ls => (b :: l) :: ls

theorem isFirst_feed (rest : Bytes) : IsFirst [Line.feed] rest :=
  ⟨List.cons_ne_nil _ _, List.not_mem_nil, Or.inl rfl⟩

theorem IsFirst.cons {b : UInt8} (hb : b ≠ Line.feed) (h : IsFirst line rest) : IsFirst (b :: line) rest := by
  refine ⟨List.cons_ne_nil _ _, ?_, ?_⟩
  · rw [List.dropLast_cons_of_ne_nil h.ne_nil, List.mem_cons]
    exact not_or.mpr ⟨Ne.symm hb, h.inner⟩
  · rw [List.getLast?_cons_of_ne_nil h.ne_nil]
    exact h.ended

theorem isDivision_divided (data : Bytes) : IsDivision data (divided data) := by
  induction data with
  | nil => exact isDivision_nil_iff.mpr rfl
  | cons b bs ih =>
    by_cases hb : b = Line.feed
    · subst hb
      exact IsDivision.cons (isFirst_feed bs) ih
    · rw [divided, if_neg hb]
      cases hd : divided bs with
      | nil =>
        rw [hd] at ih
        obtain rfl : bs = [] := ih.flatten.symm
        have hlast : IsFirst [b] [] := isFirst_of_feed_not_mem (List.cons_ne_nil b []) (by simpa using Ne.symm hb)
        exact IsDivision.cons hlast (isDivision_nil_iff.mpr rfl)
      | cons l ls =>
        rw [hd] at ih
        have hfirst : IsFirst (b :: l) ls.flatten := ih.isFirst.cons hb
        have hbs : b :: bs = (b :: l) ++ ls.flatten := by rw [← ih.flatten, List.flatten_cons, List.cons_append]
        rw [hbs]
        exact IsDivision.cons hfirst ih.tail

/-- Data is divided in one way: the first lines of two divisions are the same, and so are the divisions of the rest. -/
theorem IsDivision.unique (h : IsDivision data lines) (h' : IsDivision data ls) : lines = ls := by
  induction lines generalizing data ls with
  | nil =>
    obtain rfl : [] = data := h.flatten
    exact (isDivision_nil_iff.mp h').symm
  | cons line lines ih =>
    have hdata : data = line ++ lines.flatten := by rw [← h.flatten, List.flatten_cons]
    rw [hdata] at h'
    obtain ⟨ls', rfl, hrest⟩ := (isDivision_append_iff h.isFirst).mp h'
    rw [ih h.tail hrest]

/-- Lines of which each has a line feed at its end and nowhere else are the lines of their bytes. -/
theorem isDivision_of_feeds (h : ∀ l ∈ lines, ∃ bs, l = bs ++ [Line.feed] ∧ Line.feed ∉ bs) :
    IsDivision lines.flatten lines := by
  have hended : ∀ l ∈ lines, l ≠ [] ∧ Line.feed ∉ l.dropLast ∧ l.getLast? = some Line.feed := by
    intro l hl
    obtain ⟨bs, rfl, hbs⟩ := h l hl
    rw [List.dropLast_concat]
    exact ⟨List.concat_ne_nil _ _, hbs, List.getLast?_concat⟩
  exact ⟨rfl, fun l hl => (hended l hl).1, fun l hl => (hended l hl).2.1,
    fun l hl => (hended l (List.dropLast_subset _ hl)).2.2⟩

/-- All data has a division into lines, and only one. -/
theorem existsUnique_isDivision (data : Bytes) : ∃ lines, IsDivision data lines ∧ ∀ ls, IsDivision data ls → ls = lines :=
  ⟨divided data, isDivision_divided data, fun _ h => h.unique (isDivision_divided data)⟩

namespace Line

/-- What the content of a line leaves off. -/
def ending (l : Line) : Bytes :=
  l.full.drop l.content.length

/-- Whether the content of a line is the line without one line feed at its end, or without that and one carriage return
before it; a line without a line feed is its own content. -/
def IsStripped (l : Line) : Prop :=
  l.content ++ l.ending = l.full ∧
    (l.ending = [carriage, feed] ∨ l.ending = [feed] ∧ l.content.getLast? ≠ some carriage ∨
      l.ending = [] ∧ l.full.getLast? ≠ some feed)

theorem ending_eq {l : Line} {t : Bytes} (h : l.full = l.content ++ t) : l.ending = t := by
  rw [ending, h, List.drop_left]

theorem isStripped (l : Line) : l.IsStripped := by
  suffices hsplit : ∃ t, l.full = l.content ++ t ∧ (t = [carriage, feed] ∨
      t = [feed] ∧ l.content.getLast? ≠ some carriage ∨ t = [] ∧ l.full.getLast? ≠ some feed) by
    obtain ⟨t, ht, h⟩ := hsplit
    obtain rfl := ending_eq ht
    exact ⟨ht.symm, h⟩
  obtain ⟨n, full⟩ := l
  -- the content is found from the end
  obtain ⟨bs, rfl⟩ : ∃ bs : Bytes, full = bs.reverse := ⟨full.reverse, full.reverse_reverse.symm⟩
  cases bs with
  | nil => exact ⟨[], by simp [content], Or.inr (Or.inr (by simp))⟩
  | cons a bs =>
    by_cases ha : a = feed
    · subst ha
      cases bs with
      | nil => exact ⟨[feed], by simp [content], Or.inr (Or.inl (by simp [content]))⟩
      | cons b bs =>
        by_cases hb : b = carriage
        · exact ⟨[carriage, feed], by simp [content, hb], Or.inl rfl⟩
        · exact ⟨[feed], by simp [content, hb], Or.inr (Or.inl (by simp [content, hb]))⟩
    · have hwhole : (⟨n, (a :: bs).reverse⟩ : Line).content = (a :: bs).reverse := by
        cases bs <;> simp [content, ha]
      exact ⟨[], by rw [hwhole, List.append_nil], Or.inr (Or.inr (by simp [ha]))⟩

/-- The content of a line is what stands before the line feed, unless that ends in a carriage return. -/
theorem content_of_feed {bs : Bytes} (h : bs.getLast? ≠ some carriage) (n : Nat) :
    (⟨n, bs ++ [feed]⟩ : Line).content = bs := by
  obtain ⟨hsplit, hend⟩ := isStripped ⟨n, bs ++ [feed]⟩
  rcases hend with hboth | ⟨hfeed, -⟩ | ⟨-, hnone⟩
  · -- with both marks at the end of the line the carriage return would end `bs`
    rw [hboth] at hsplit
    have hbs : content ⟨n, bs ++ [feed]⟩ ++ [carriage] = bs := by
      have hends : (content ⟨n, bs ++ [feed]⟩ ++ [carriage]) ++ [feed] = bs ++ [feed] := by
        rw [List.append_assoc]
        exact hsplit
      exact List.append_cancel_right hends
    rw [← hbs, List.getLast?_concat] at h
    exact absurd rfl h
  · rw [hfeed] at hsplit
    exact List.append_cancel_right hsplit
  · exact absurd List.getLast?_concat hnone

/-- A carriage return before the line feed is no part of the content. -/
theorem content_of_carriage (bs : Bytes) (n : Nat) : (⟨n, bs ++ [carriage, feed]⟩ : Line).content = bs := by
  rw [content, List.reverse_append]
  exact bs.reverse_reverse

end Line

end Agenda
