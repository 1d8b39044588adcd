import Agenda.Command.Token
import Agenda.Input.Source
/-!
Which arguments are plain: those that do not begin with a dash. A text begins with a dash when its bytes do.
-/
namespace Agenda

open Text

namespace Token

variable {a : Bytes} {s : List Char}

theorem decode?_cons_dash (bs : Bytes) : Utf8.decode? (dashByte :: bs) = (Utf8.decode? bs).map ('-' :: ·) := by
  have hpieces : Utf8.pieces (dashByte :: bs) = .char '-' :: Utf8.pieces bs := rfl
  rw [Utf8.decode?, Utf8.decode?, hpieces, List.mapM_cons]
  cases (Utf8.pieces bs).mapM Utf8.Piece.char? with
  | none => rfl
  | some s => rfl

theorem head?_ne_dash (h : Utf8.decode? a = some s) (hs : s.head? ≠ some '-') : a.head? ≠ some dashByte := by
  intro ha
  cases a with
  | nil => cases ha
  | cons b bs =>
    obtain rfl := Option.some.inj ha
    rw [decode?_cons_dash] at h
    obtain ⟨t, -, rfl⟩ := Option.map_eq_some_iff.mp h
    exact hs rfl

variable {takesValue : OptionName → Bool} {name : OptionName} {value : Bytes} {rest : List Bytes}

/-- The argument after an option that waits for its value is the value, whatever it begins with. -/
theorem ofArguments_cons_waiting (hne : a ≠ endOfOptions) (h : ofArgument takesValue a = ([], some name)) :
    ofArguments takesValue (a :: value :: rest) = setting name value :: ofArguments takesValue rest := by
  rw [ofArguments, if_neg hne, h]
  rfl

theorem ofArguments_cons_setting (hne : a ≠ endOfOptions) (h : ofArgument takesValue a = ([setting name value], none)) :
    ofArguments takesValue (a :: rest) = setting name value :: ofArguments takesValue rest := by
  rw [ofArguments, if_neg hne, h]
  rfl

theorem ofArguments_cons_plain (takesValue : OptionName → Bool) (h : a.head? ≠ some dashByte) (rest : List Bytes) :
    ofArguments takesValue (a :: rest) = plain a :: ofArguments takesValue rest := by
  have hend : a ≠ endOfOptions := by
    rintro rfl
    exact h rfl
  have hplain : ofArgument takesValue a = ([plain a], none) := by
    match a with
    | [] => rfl
    | [_] => rfl
    | x :: y :: bs => exact if_neg fun hx => h (congrArg some hx)
  rw [ofArguments, if_neg hend, hplain]
  rfl

/-- A path that is a dash alone is plain as well. -/
theorem ofArguments_paths (takesValue : OptionName → Bool) {paths : List Bytes}
    (h : ∀ path ∈ paths, path = dash ∨ path.head? ≠ some dashByte) : ofArguments takesValue paths = paths.map plain := by
  induction paths with
  | nil => rfl
  | cons path paths ih =>
    obtain ⟨hpath, hpaths⟩ := List.forall_mem_cons.mp h
    rw [List.map_cons, ← ih hpaths]
    rcases hpath with rfl | hhead
    · rfl
    · exact ofArguments_cons_plain takesValue hhead paths

end Token

end Agenda
