import Agenda.Proofs.Text.Blank
import Agenda.Text.Wrap
import Mathlib.Data.List.Basic
/-!
Wrapped text. Cutting a line into words, parts and pieces keeps all of its characters; laying them out drops spaces
only. Every line keeps to the width, because no piece is wider than a line and a piece without room goes on to the next.

The width is counted in columns, for texts without escape characters.
-/
namespace Agenda.Text.Wrap

/-- The word with its spaces. -/
def Word.text (w : Word) : List Char :=
  w.chars ++ List.replicate w.spaces ' '

section Characters

theorem Word.text_ofRun (s : List Char) : (Word.ofRun s).text = s := by
  -- only the number of the spaces is kept, and they are all alike
  have hspaces : List.replicate (Word.ofRun s).spaces ' ' = (s.reverse.takeWhile (· == ' ')).reverse := by
    rw [eq_comm, List.eq_replicate_iff]
    exact ⟨List.length_reverse, fun c hc => by simpa using List.mem_takeWhile_imp (List.mem_reverse.mp hc)⟩
  rw [Word.text, hspaces, Word.ofRun, ← List.reverse_append, List.takeWhile_append_dropWhile, List.reverse_reverse]

theorem text_words (line : List Char) : (words line).flatMap Word.text = line := by
  rw [words, List.flatMap_map]
  simp only [Word.text_ofRun, List.flatMap_id', flatten_runs]

theorem text_ofPieces (spaces : Nat) {ss : List (List Char)} (hss : ss ≠ []) :
    (Word.ofPieces spaces ss).flatMap Word.text = ss.flatten ++ List.replicate spaces ' ' := by
  induction ss using Word.ofPieces.induct with
  | case1 => exact absurd rfl hss
  | case2 s => simp [Word.ofPieces, Word.text]
  | case3 s ss hne ih => simp [Word.ofPieces, Word.text, ih (by simpa using hne)]

theorem chars_mem_of_ofPieces {spaces : Nat} {ss : List (List Char)} {w : Word} (hw : w ∈ Word.ofPieces spaces ss) :
    w.chars ∈ ss := by
  induction ss using Word.ofPieces.induct with
  | case1 => simp [Word.ofPieces] at hw
  | case2 s => simp_all [Word.ofPieces]
  | case3 s ss hne ih =>
    rw [Word.ofPieces.eq_3 _ _ _ hne, List.mem_cons] at hw
    rcases hw with rfl | hw
    · exact .head _
    · exact .tail _ (ih hw)

/-- Cutting a word into pieces keeps its text. -/
theorem text_ofPieces_runs {σ : Type} (step : σ → Char → Bool × σ) (s : σ) (w : Word) :
    (Word.ofPieces w.spaces (runs step s w.chars)).flatMap Word.text = w.text := by
  rw [text_ofPieces w.spaces (runs_ne_nil step s w.chars), flatten_runs, Word.text]

theorem Word.text_parts (w : Word) : w.parts.flatMap Word.text = w.text :=
  text_ofPieces_runs ..

theorem Word.text_pieces (limit : Nat) (w : Word) : (w.pieces limit).flatMap Word.text = w.text := by
  unfold Word.pieces
  split
  · exact text_ofPieces_runs ..
  · simp

theorem text_fitting (limit : Nat) (s : List Char) : (fitting limit s).flatMap Word.text = s := by
  simp only [fitting, List.flatMap_assoc, Word.text_pieces, Word.text_parts, text_words]

/-- A line is its words without the spaces after the last one. -/
theorem exists_text_eq_lineChars (ws : List Word) :
    ∃ n, ws.flatMap Word.text = lineChars ws ++ List.replicate n ' ' := by
  induction ws using lineChars.induct with
  | case1 => exact ⟨0, rfl⟩
  | case2 w => exact ⟨w.spaces, by simp [lineChars, Word.text]⟩
  | case3 w ws hne ih =>
    obtain ⟨n, hn⟩ := ih
    exact ⟨n, by simp [lineChars.eq_3 _ _ hne, Word.text, hn]⟩

theorem nonblank_lineChars (ws : List Word) : nonblank (lineChars ws) = nonblank (ws.flatMap Word.text) := by
  obtain ⟨n, hn⟩ := exists_text_eq_lineChars ws
  simp [hn]

/-- The words of all lines have the characters of the text. -/
theorem text_runs_lineStep (limit : Nat) (s : List Char) :
    (runs (lineStep limit) none (Word.empty :: fitting limit s)).flatten.flatMap Word.text = s := by
  rw [flatten_runs, List.flatMap_cons, text_fitting]
  rfl

/-- Wrapping loses no character that is not blank and moves none. -/
theorem nonblank_lines (limit : Nat) (s : List Char) : (lines limit s).flatMap nonblank = nonblank s := by
  conv_rhs => rw [← text_runs_lineStep limit s]
  simp only [lines, List.flatMap_map, nonblank_lineChars, nonblank_flatMap, List.flatten_eq_flatMap, List.flatMap_assoc,
    id]

theorem mem_text_of_mem_chars {ws : List Word} {w : Word} (hw : w ∈ ws) {c : Char} (hc : c ∈ w.chars) :
    c ∈ ws.flatMap Word.text :=
  List.mem_flatMap.mpr ⟨w, hw, List.mem_append_left _ hc⟩

/-- The lines have no characters of their own. -/
theorem mem_of_mem_lines {limit : Nat} {s l : List Char} (hl : l ∈ lines limit s) {c : Char} (hc : c ∈ l) : c ∈ s := by
  obtain ⟨ws, hws, rfl⟩ := List.mem_map.mp hl
  obtain ⟨n, hn⟩ := exists_text_eq_lineChars ws
  have hctext : c ∈ ws.flatMap Word.text := by
    rw [hn]
    exact List.mem_append_left _ hc
  obtain ⟨w, hw, hcw⟩ := List.mem_flatMap.mp hctext
  rw [← text_runs_lineStep limit s]
  exact List.mem_flatMap.mpr ⟨w, List.mem_flatten.mpr ⟨ws, hws, hw⟩, hcw⟩

end Characters

section Columns

/-- The columns of a text without escape characters. -/
def breadth : List Char → Nat
  | [] => 0
  | c :: s => columns c + breadth s

@[simp] theorem breadth_nil : breadth [] = 0 :=
  rfl

@[simp] theorem breadth_cons (c : Char) (s : List Char) : breadth (c :: s) = columns c + breadth s :=
  rfl

@[simp] theorem breadth_append (s t : List Char) : breadth (s ++ t) = breadth s + breadth t := by
  induction s with
  | nil => simp
  | cons c s ih => simp [ih, Nat.add_assoc]

@[simp] theorem breadth_spaces (n : Nat) : breadth (List.replicate n ' ') = n := by
  induction n with
  | zero => rfl
  | succ n ih =>
    rw [List.replicate_succ, breadth_cons, ih, show columns ' ' = 1 from rfl, Nat.add_comm]

variable {limit : Nat} {s : List Char}

theorem columns_le_two (c : Char) : columns c ≤ 2 := by
  unfold columns
  split <;> omega

theorem Mode.step_text {c : Char} (hc : c ≠ '\x1b') : Mode.text.step c = (.text, columns c) := by
  simp [Mode.step, hc]

theorem width_eq_breadth (hs : '\x1b' ∉ s) : width s = breadth s := by
  unfold width
  induction s with
  | nil => rfl
  | cons c s ih =>
    rw [List.mem_cons, not_or] at hs
    rw [widthFrom, Mode.step_text (Ne.symm hs.1), ih hs.2, breadth_cons]

theorem pieceStep_text (limit n : Nat) {c : Char} (hc : c ≠ '\x1b') : pieceStep limit (.text, n) c =
    if 0 < n ∧ limit < n + columns c then (true, .text, columns c) else (false, .text, n + columns c) := by
  rw [pieceStep, Mode.step_text hc]

/-- A piece ends before it is too wide. The room for it is two columns or more, so one character always has room. -/
theorem pieces_rule (hlimit : 2 ≤ limit) (hs : '\x1b' ∉ s) :
    RunRule (pieceStep limit) s (fun t => ∃ n ≤ limit, t = (.text, n)) (fun t r => t.2 + breadth r ≤ limit)
      (fun r => breadth r ≤ limit) where
  keep := by
    rintro _ c hc ⟨n, hn, rfl⟩
    have hcolumns := columns_le_two c
    rw [pieceStep_text limit n (ne_of_mem_of_not_mem hc hs)]
    split
    · exact ⟨columns c, by omega, rfl⟩
    · exact ⟨n + columns c, by omega, rfl⟩
  nil := by
    rintro _ ⟨n, hn, rfl⟩
    exact hn
  stay := by
    rintro _ c hc r ⟨n, hn, rfl⟩ hstay hr
    rw [pieceStep_text limit n (ne_of_mem_of_not_mem hc hs)] at hstay hr
    split at hr
    · rename_i hfull
      simp [if_pos hfull] at hstay
    · simpa [Nat.add_assoc] using hr
  cut := by
    rintro _ c hc r ⟨n, hn, rfl⟩ hcut hr
    rw [pieceStep_text limit n (ne_of_mem_of_not_mem hc hs)] at hcut hr
    split at hr
    · simpa using hr
    · rename_i hroom
      simp [if_neg hroom] at hcut

theorem Word.breadth_le_of_mem_pieces (hlimit : 2 ≤ limit) {w : Word} (hw : '\x1b' ∉ w.chars) :
    ∀ w' ∈ w.pieces limit, breadth w'.chars ≤ limit := by
  intro w' hw'
  unfold Word.pieces at hw'
  split at hw'
  · obtain ⟨r, rs, hr, hrest, hwhole⟩ := (pieces_rule hlimit hw).exists_runs ⟨0, Nat.zero_le _, rfl⟩
    have hpiece := chars_mem_of_ofPieces hw'
    rw [hr] at hpiece
    rcases List.mem_cons.mp hpiece with hpiece | hpiece
    · simpa [hpiece] using hrest
    · exact hwhole _ hpiece
  · rename_i hwide
    rw [List.mem_singleton.mp hw', ← width_eq_breadth hw]
    exact Nat.le_of_not_lt hwide

theorem breadth_le_of_mem_fitting (hlimit : 2 ≤ limit) (hs : '\x1b' ∉ s) :
    ∀ w ∈ fitting limit s, '\x1b' ∉ w.chars ∧ breadth w.chars ≤ limit := by
  intro w hw
  refine ⟨fun hc => hs (text_fitting limit s ▸ mem_text_of_mem_chars hw hc), ?_⟩
  obtain ⟨part, hpart, hpiece⟩ := List.mem_flatMap.mp hw
  refine Word.breadth_le_of_mem_pieces hlimit (fun hc => hs ?_) w hpiece
  have hparts : ((words s).flatMap Word.parts).flatMap Word.text = s := by
    simp only [List.flatMap_assoc, Word.text_parts, text_words]
  exact hparts ▸ mem_text_of_mem_chars hpart hc

theorem lineStep_of_stay {taken : Option Nat} {w : Word} (h : (lineStep limit taken w).1 = false) :
    (∀ n ∈ taken, n + width w.chars ≤ limit) ∧
      (lineStep limit taken w).2 = some (taken.getD 0 + width w.chars + w.spaces) := by
  simp only [lineStep] at h ⊢
  split at h
  · cases h
  · rename_i hroom
    refine ⟨?_, by rw [if_neg hroom]⟩
    rintro n rfl
    simpa using hroom

theorem lineStep_of_cut {taken : Option Nat} {w : Word} (h : (lineStep limit taken w).1 = true) :
    (lineStep limit taken w).2 = some (width w.chars + w.spaces) := by
  simp only [lineStep] at h ⊢
  split at h
  · rename_i hroom
    rw [if_pos hroom]
  · cases h

/-- A line with one more word in front keeps to the width when the word does and the rest does after its spaces. -/
theorem breadth_lineChars_cons_le {n : Nat} {w : Word} {ws : List Word} (hw : n + breadth w.chars ≤ limit)
    (hws : ws ≠ [] → n + breadth w.chars + w.spaces + breadth (lineChars ws) ≤ limit) :
    n + breadth (lineChars (w :: ws)) ≤ limit := by
  cases ws with
  | nil => exact hw
  | cons w' ws =>
    have hrest := hws (by simp)
    simp only [lineChars, breadth_append, breadth_spaces]
    omega

/-- A line takes a word only where there is room for it. -/
theorem lines_rule {ws : List Word}
    (hws : ∀ w ∈ ws, width w.chars = breadth w.chars ∧ breadth w.chars ≤ limit) :
    RunRule (lineStep limit) ws (fun _ => True) (fun t ws => ws ≠ [] → t.getD 0 + breadth (lineChars ws) ≤ limit)
      (fun ws => breadth (lineChars ws) ≤ limit) where
  keep := fun _ _ _ _ => trivial
  nil := fun _ _ hne => absurd rfl hne
  stay := by
    intro t w hw r _ hstay hr _
    obtain ⟨hwidth, hfits⟩ := hws w hw
    obtain ⟨hroom, hnext⟩ := lineStep_of_stay hstay
    rw [hnext, hwidth] at hr
    refine breadth_lineChars_cons_le ?_ hr
    -- the first word is not compared with the width, but no word is wider
    cases t with
    | none => simpa using hfits
    | some n => exact hwidth ▸ hroom n rfl
  cut := by
    intro t w hw r _ hcut hr
    obtain ⟨hwidth, hfits⟩ := hws w hw
    rw [lineStep_of_cut hcut, hwidth] at hr
    have hline := breadth_lineChars_cons_le (n := 0) (by simpa using hfits) (by simpa using hr)
    simpa using hline

/-- Every line of a wrapped text keeps to the width, however long its words are. -/
theorem breadth_le_of_mem_lines (hlimit : 2 ≤ limit) (hs : '\x1b' ∉ s) :
    ∀ l ∈ lines limit s, breadth l ≤ limit := by
  have hwords : ∀ w ∈ Word.empty :: fitting limit s, width w.chars = breadth w.chars ∧ breadth w.chars ≤ limit := by
    rintro w (_ | ⟨_, hw⟩)
    · exact ⟨rfl, Nat.zero_le _⟩
    · have hfits := breadth_le_of_mem_fitting hlimit hs w hw
      exact ⟨width_eq_breadth hfits.1, hfits.2⟩
  obtain ⟨r, rs, hr, hrest, hwhole⟩ := (lines_rule hwords).exists_runs (s := none) trivial
  intro l hl
  rw [lines, hr] at hl
  obtain ⟨ws, hws, rfl⟩ := List.mem_map.mp hl
  rcases List.mem_cons.mp hws with rfl | hws
  · -- the first line is read on from no words at all
    by_cases hne : ws = []
    · simp [hne, lineChars]
    · simpa using hrest hne
  · exact hwhole ws hws

end Columns

end Agenda.Text.Wrap
