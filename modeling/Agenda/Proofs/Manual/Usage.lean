import Agenda.Manual.Usage
import Agenda.Proofs.Text.Wrap
/-!
The long documentation of usages. Its descriptions are lines with a margin on both sides, and reading past the blanks
the documentation is the formats and the descriptions one after another.
-/
namespace Agenda.Usage

open Text

section Paragraphs

theorem flatten_paragraphs_sublist (s : List Char) : (paragraphs s).flatten.Sublist s := by
  induction s using paragraphs.induct with
  | case1 => simp [paragraphs]
  | case2 cs ih => simpa [paragraphs] using (ih.cons '\n').cons '\n'
  | case3 c cs hc ih =>
    rw [paragraphs.eq_3 _ _ hc, flatten_consFirst]
    exact ih.cons_cons c

theorem nonblank_paragraphs (s : List Char) : (paragraphs s).flatMap nonblank = nonblank s := by
  rw [← nonblank_flatten]
  induction s using paragraphs.induct with
  | case1 => simp [paragraphs]
  | case2 cs ih =>
    have hbreak : nonblank ('\n' :: '\n' :: cs) = nonblank cs := by simp [nonblank, isBlank]
    simpa [paragraphs, hbreak] using ih
  | case3 c cs hc ih =>
    rw [paragraphs.eq_3 _ _ hc, flatten_consFirst, nonblank_cons, ih, ← nonblank_cons]

/-- A paragraph in one line. -/
def flat (s : List Char) : List Char :=
  s.map fun c => if c = '\n' then ' ' else c

theorem nonblank_flat (s : List Char) : nonblank (flat s) = nonblank s := by
  induction s with
  | nil => rfl
  | cons c s ih =>
    rw [flat, List.map_cons, nonblank_cons, ← flat, ih, nonblank_cons c s]
    congr 1
    split
    · rename_i hc
      subst hc
      rfl
    · rfl

theorem newline_notMem_flat (s : List Char) : '\n' ∉ flat s := by
  intro h
  obtain ⟨c, -, hc⟩ := List.mem_map.mp h
  split at hc <;> simp_all

theorem mem_of_mem_flat {s : List Char} {c : Char} (hc : c ∈ flat s) (hspace : c ≠ ' ') : c ∈ s := by
  obtain ⟨d, hd, rfl⟩ := List.mem_map.mp hc
  split at hspace
  · exact absurd rfl hspace
  · rename_i hnewline
    simpa [if_neg hnewline] using hd

end Paragraphs

section Intercalate

variable {α β : Type}

theorem flatMap_intercalate (f : α → List β) (sep : List α) (ls : List (List α)) :
    (sep.intercalate ls).flatMap f = (sep.flatMap f).intercalate (ls.map (·.flatMap f)) := by
  induction ls with
  | nil => rfl
  | cons l ls ih => cases ls <;> simp_all

theorem mem_of_mem_intercalate {sep : List α} {ls : List (List α)} {a : α} (ha : a ∈ sep.intercalate ls) :
    a ∈ sep ∨ ∃ l ∈ ls, a ∈ l := by
  induction ls with
  | nil => simp at ha
  | cons l ls ih =>
    cases ls with
    | nil => simp_all
    | cons l' ls =>
      simp only [List.intercalate_cons_cons, List.mem_append] at ha
      rcases ha with (ha | ha) | ha
      · exact .inr ⟨l, .head _, ha⟩
      · exact .inl ha
      · exact (ih ha).imp_right fun ⟨k, hk, hak⟩ => ⟨k, .tail _ hk, hak⟩

theorem nonblank_intercalate {sep : List Char} (hsep : nonblank sep = []) (ls : List (List Char)) :
    nonblank (sep.intercalate ls) = ls.flatMap nonblank := by
  induction ls with
  | nil => rfl
  | cons l ls ih => cases ls <;> simp_all

end Intercalate

section Descriptions

/-- The lines of a paragraph with their indent. -/
def paragraphLines (s : List Char) : List (List Char) :=
  (Wrap.lines (pageWidth - indent) (flat s)).map (spaces indent ++ ·)

/-- The lines of the long description, an empty one between paragraphs. -/
def description (u : Usage) : List (List Char) :=
  [[]].intercalate ((paragraphs (trim u.long.toList)).map paragraphLines)

/-- Lines with their line ends. -/
def ended (ls : List (List Char)) : List Char :=
  ls.flatMap (· ++ ['\n'])

theorem nonblank_newline : nonblank ['\n'] = [] :=
  rfl

theorem paragraph_eq (s : List Char) : paragraph s = ended (paragraphLines s) := by
  rw [ended, paragraphLines, List.flatMap_map]
  rfl

theorem nonblank_paragraph (s : List Char) : nonblank (paragraph s) = nonblank s := by
  simp only [paragraph, nonblank_flatMap, nonblank_append, spaces, nonblank_spaces, nonblank_newline, List.nil_append,
    List.append_nil]
  rw [Wrap.nonblank_lines, ← flat, nonblank_flat]

theorem ended_description (u : Usage) :
    ended u.description = separated ((paragraphs (trim u.long.toList)).map paragraph) := by
  rw [ended, description, flatMap_intercalate, List.map_map, funext paragraph_eq]
  rfl

/-- The description is the long text but for blanks. -/
theorem nonblank_description (u : Usage) : nonblank (ended u.description) = nonblank u.long.toList := by
  rw [ended_description]
  calc nonblank (separated ((paragraphs (trim u.long.toList)).map paragraph))
      = ((paragraphs (trim u.long.toList)).map paragraph).flatMap nonblank := nonblank_intercalate nonblank_newline _
    _ = (paragraphs (trim u.long.toList)).flatMap nonblank := by simp only [List.flatMap_map, nonblank_paragraph]
    _ = nonblank (trim u.long.toList) := nonblank_paragraphs _
    _ = nonblank u.long.toList := nonblank_trim _

theorem block_eq (u : Usage) : block u = spaces 4 ++ u.format.toList ++ ['\n'] ++ ended u.description := by
  rw [ended_description, block]

theorem nonblank_block (u : Usage) : nonblank (block u) = nonblank u.format.toList ++ nonblank u.long.toList := by
  rw [block_eq]
  simp only [nonblank_append, spaces, nonblank_spaces, nonblank_newline, nonblank_description, List.nil_append,
    List.append_nil]

/-- A line of a paragraph keeps to both margins. -/
theorem margins_of_mem_paragraphLines {s : List Char} (hs : '\x1b' ∉ s) {l : List Char} (hl : l ∈ paragraphLines s) :
    '\n' ∉ l ∧ spaces 8 <+: l ∧ Wrap.breadth l ≤ 79 := by
  obtain ⟨body, hbody, rfl⟩ := List.mem_map.mp hl
  have hescape : '\x1b' ∉ flat s := fun hc => hs (mem_of_mem_flat hc (by decide))
  have hnewline : '\n' ∉ body := fun hc => newline_notMem_flat s (Wrap.mem_of_mem_lines hbody hc)
  have hbreadth : Wrap.breadth body ≤ 71 := Wrap.breadth_le_of_mem_lines (by decide) hescape body hbody
  refine ⟨?_, List.prefix_append _ _, ?_⟩
  · simpa [spaces] using hnewline
  · rw [Wrap.breadth_append, spaces, Wrap.breadth_spaces]
    exact Nat.add_le_add_left hbreadth 8

theorem escape_notMem_of_mem_paragraphs {s p : List Char} (hs : '\x1b' ∉ s) (hp : p ∈ paragraphs s) : '\x1b' ∉ p :=
  fun hc => hs ((flatten_paragraphs_sublist s).subset (List.mem_flatten.mpr ⟨p, hp, hc⟩))

/-- A line of a description is empty or keeps to both margins. -/
theorem margins_of_mem_description {u : Usage} (hu : '\x1b' ∉ u.long.toList) {l : List Char} (hl : l ∈ u.description) :
    '\n' ∉ l ∧ (l = [] ∨ spaces 8 <+: l ∧ Wrap.breadth l ≤ 79) := by
  rcases mem_of_mem_intercalate hl with hempty | ⟨ls, hls, hl⟩
  · rw [List.mem_singleton.mp hempty]
    exact ⟨List.not_mem_nil, .inl rfl⟩
  · obtain ⟨p, hp, rfl⟩ := List.mem_map.mp hls
    have htrim : '\x1b' ∉ trim u.long.toList := fun hc => hu (mem_of_mem_trim hc)
    obtain ⟨hnewline, hmargins⟩ := margins_of_mem_paragraphLines (escape_notMem_of_mem_paragraphs htrim hp) hl
    exact ⟨hnewline, .inr hmargins⟩

end Descriptions

/-- The long documentation loses nothing and keeps to its margins. But for blanks it is every format with its long text
after it, in order. Below a format stand the lines of its description. Each of them is empty, or it begins with eight
spaces and is at most 79 columns wide, however long a word is. -/
theorem sections_keep_text_in_margins (usages : List Usage) :
    nonblank (sections usages).toList = usages.flatMap (fun u => nonblank u.format.toList ++ nonblank u.long.toList) ∧
    (sections usages).toList =
      separated (usages.map fun u => spaces 4 ++ u.format.toList ++ ['\n'] ++ ended u.description) ∧
    ∀ u ∈ usages, '\x1b' ∉ u.long.toList →
      ∀ l ∈ u.description, '\n' ∉ l ∧ (l = [] ∨ spaces 8 <+: l ∧ Wrap.breadth l ≤ 79) := by
  refine ⟨?_, ?_, fun u _ hu l hl => margins_of_mem_description hu hl⟩
  · rw [sections, String.toList_ofList]
    calc nonblank (separated (usages.map block))
        = (usages.map block).flatMap nonblank := nonblank_intercalate nonblank_newline _
      _ = usages.flatMap fun u => nonblank u.format.toList ++ nonblank u.long.toList := by
        simp only [List.flatMap_map, nonblank_block]
  · rw [sections, String.toList_ofList, funext block_eq]

/-- Two usages of two paragraphs each. The second paragraph of one is a word of forty wide characters, which does not
fit in one line; the other has blanks before, between and after its paragraphs. -/
theorem sections_keep_wide_word :
    let wide : Usage :=
      ⟨"--wide", "Wide.", "A word too wide\nfor a line.\n\n" ++ String.ofList (List.replicate 40 '\u1100')⟩
    let plain : Usage := ⟨"[FILE ...]", "Files.", "\n  Any files.\n\n\nWithout one, the standard input. "⟩
    (∀ u ∈ [wide, plain], '\x1b' ∉ u.long.toList) ∧ wide.description.length = 4 ∧ plain.description.length = 3 ∧
      nonblank (sections [wide, plain]).toList =
        "--wide".toList ++ nonblank wide.long.toList ++ ("[FILE...]".toList ++ nonblank plain.long.toList) ∧
      ∀ u ∈ [wide, plain], ∀ l ∈ u.description, l = [] ∨ spaces 8 <+: l ∧ Wrap.breadth l ≤ 79 := by
  intro wide plain
  have hlong : wide.long.toList = "A word too wide\nfor a line.\n\n".toList ++ List.replicate 40 '\u1100' := by
    rw [String.toList_append, String.toList_ofList (l := List.replicate 40 '\u1100')]
  have hescape : ∀ u ∈ [wide, plain], '\x1b' ∉ u.long.toList := by
    rw [List.forall_mem_cons, List.forall_mem_singleton, hlong]
    decide +kernel
  have hwide : wide.description.length = 4 := by
    rw [description, hlong]
    decide +kernel
  have hplain : plain.description.length = 3 := by decide +kernel
  obtain ⟨hkeeps, -, hmargins⟩ := sections_keep_text_in_margins [wide, plain]
  refine ⟨hescape, hwide, hplain, ?_, fun u hu l hl => (hmargins u hu (hescape u hu) l hl).2⟩
  have hformat : nonblank "--wide".toList = "--wide".toList := by decide +kernel
  have hformat' : nonblank "[FILE ...]".toList = "[FILE...]".toList := by decide +kernel
  rw [hkeeps, List.flatMap_cons, List.flatMap_cons, List.flatMap_nil, List.append_nil, hformat, hformat']

end Agenda.Usage
