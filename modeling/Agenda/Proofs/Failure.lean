import Agenda.Failure
/-!
Failures: what a failure tells begins with what was being done, and only the engine's faults count as faults. What is told
of a fault begins in a way of its own.
-/
namespace Agenda

theorem Fault.isPrefix_message (fault : Fault) : "internal error: ".toList <+: fault.message.toList := by
  cases fault with
  | interval n =>
    unfold Fault.message
    simp only [String.toList_append, List.append_assoc]
    exact List.IsPrefix.trans (by decide) (List.prefix_append _ _)
  | exhausted rule unit now =>
    unfold Fault.message
    simp only [String.toList_append, List.append_assoc]
    exact List.IsPrefix.trans (by decide) (List.prefix_append _ _)
  | range origin limit =>
    unfold Fault.message
    simp only [String.toList_append, List.append_assoc]
    exact List.IsPrefix.trans (by decide) (List.prefix_append _ _)

theorem getElem?_append_ne {l rest : List Char} {i : Nat} {c d : Char} (hl : l[i]? = some d) (hd : d ≠ c) :
    (l ++ rest)[i]? ≠ some c := by
  obtain ⟨hlt, -⟩ := List.getElem?_eq_some_iff.mp hl
  rw [List.getElem?_append_left hlt, hl]
  exact fun h => hd (Option.some.inj h)

/-- What is told of a fault is not told of a refused date or rule: already the third characters differ. -/
theorem Fault.message_ne (fault : Fault) (e : SpecError) : fault.message ≠ e.message := by
  have hfault : fault.message.toList[2]? = some 't' := by
    obtain ⟨rest, hrest⟩ := fault.isPrefix_message
    rw [← hrest]
    rfl
  have hspec : e.message.toList[2]? ≠ some 't' := by
    cases e with
    | date text flaw =>
      cases flaw <;>
      · unfold SpecError.message DateFlaw.message
        simp only [String.toList_append, List.append_assoc]
        exact getElem?_append_ne (d := 'v') rfl (by decide)
    | emptyRule => decide
    | rule text flaw =>
      unfold SpecError.message
      simp only [String.toList_append, List.append_assoc]
      exact getElem?_append_ne (d := 'v') rfl (by decide)
  intro h
  exact hspec (h ▸ hfault)

namespace Failure

variable {f : Failure}

theorem message_during (context : Context) (f : Failure) :
    (f.during context).message = context.message ++ ": " ++ f.message := by
  have hcause : f.messages ≠ [] := List.append_ne_nil_of_right_ne_nil _ (List.cons_ne_nil _ _)
  exact String.intercalate_cons_of_ne_nil hcause

theorem isFault_iff : f.isFault = true ↔ ∃ fault, f.cause = .engine (.fault fault) := by
  unfold isFault
  split
  · rename_i fault h
    simp [h]
  · rename_i h
    simpa using h

end Failure

end Agenda
