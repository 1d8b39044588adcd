import Agenda.Text.Blank
import Mathlib.Data.List.Basic
import Mathlib.Data.List.TakeWhile
/-!
Trimming takes blanks off both ends and nothing else, so a text with blanks around a body that neither begins nor ends
with one is trimmed to the body, and trimming keeps the characters that are not blank.
-/
namespace Agenda.Text

/-- Whether a text neither begins nor ends with a blank. -/
def IsTight (s : List Char) : Prop :=
  (∀ c ∈ s.head?, isBlank c = false) ∧ ∀ c ∈ s.getLast?, isBlank c = false

theorem dropWhile_blank_append {pre s : List Char} (hp : ∀ c ∈ pre, isBlank c = true)
    (hs : ∀ c ∈ s.head?, isBlank c = false) : (pre ++ s).dropWhile isBlank = s := by
  rw [List.dropWhile_append_of_pos hp]
  cases s with
  | nil => rfl
  | cons c s => exact List.dropWhile_cons_of_neg (by simp [hs c rfl])

theorem trimEnd_append {s post : List Char} (hp : ∀ c ∈ post, isBlank c = true)
    (hs : ∀ c ∈ s.getLast?, isBlank c = false) : trimEnd (s ++ post) = s := by
  have hrev : ∀ c ∈ post.reverse, isBlank c = true := fun c hc => hp c (List.mem_reverse.mp hc)
  have hhead : ∀ c ∈ s.reverse.head?, isBlank c = false := by simpa only [List.head?_reverse] using hs
  rw [trimEnd, List.reverse_append, dropWhile_blank_append hrev hhead, List.reverse_reverse]

theorem trim_of_isTight {pre s post : List Char} (hpre : ∀ c ∈ pre, isBlank c = true)
    (hpost : ∀ c ∈ post, isBlank c = true) (hne : s ≠ []) (hs : IsTight s) : trim (pre ++ s ++ post) = s := by
  have hhead : ∀ c ∈ (s ++ post).head?, isBlank c = false := by
    rw [List.head?_append_of_ne_nil _ hne]
    exact hs.1
  rw [trim, List.append_assoc, dropWhile_blank_append hpre hhead, trimEnd_append hpost hs.2]

theorem exists_trim (s : List Char) : ∃ pre post, s = pre ++ trim s ++ post ∧
    (∀ c ∈ pre, isBlank c = true) ∧ ∀ c ∈ post, isBlank c = true := by
  refine ⟨s.takeWhile isBlank, ((s.dropWhile isBlank).reverse.takeWhile isBlank).reverse, ?_, ?_, ?_⟩
  · rw [trim, trimEnd, List.append_assoc, ← List.reverse_append, List.takeWhile_append_dropWhile,
      List.reverse_reverse, List.takeWhile_append_dropWhile]
  · intro c hc
    exact List.mem_takeWhile_imp hc
  · intro c hc
    exact List.mem_takeWhile_imp (List.mem_reverse.mp hc)

theorem mem_of_mem_trim {s : List Char} {c : Char} (hc : c ∈ trim s) : c ∈ s := by
  obtain ⟨pre, post, hs, -, -⟩ := exists_trim s
  rw [hs]
  exact List.mem_append_left _ (List.mem_append_right _ hc)

/-- The characters of a text that are not blank. -/
def nonblank (s : List Char) : List Char :=
  s.filter (!isBlank ·)

@[simp] theorem nonblank_append (s t : List Char) : nonblank (s ++ t) = nonblank s ++ nonblank t :=
  List.filter_append ..

theorem nonblank_cons (c : Char) (s : List Char) : nonblank (c :: s) = nonblank [c] ++ nonblank s :=
  nonblank_append [c] s

@[simp] theorem nonblank_flatten (ss : List (List Char)) : nonblank ss.flatten = ss.flatMap nonblank := by
  rw [nonblank, List.filter_flatten]
  rfl

@[simp] theorem nonblank_flatMap {α : Type} (f : α → List Char) (as : List α) :
    nonblank (as.flatMap f) = as.flatMap fun a => nonblank (f a) :=
  List.filter_flatMap ..

theorem nonblank_of_blank {s : List Char} (hs : ∀ c ∈ s, isBlank c = true) : nonblank s = [] := by
  simpa [nonblank, List.filter_eq_nil_iff] using hs

@[simp] theorem nonblank_spaces (n : Nat) : nonblank (List.replicate n ' ') = [] :=
  nonblank_of_blank fun c hc => by rw [List.eq_of_mem_replicate hc]; rfl

theorem nonblank_trim (s : List Char) : nonblank (trim s) = nonblank s := by
  obtain ⟨pre, post, hs, hpre, hpost⟩ := exists_trim s
  conv_rhs => rw [hs]
  simp [nonblank_of_blank hpre, nonblank_of_blank hpost]

end Agenda.Text
