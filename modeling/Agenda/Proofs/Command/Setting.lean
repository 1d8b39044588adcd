import Agenda.Command.Occurrences
import Agenda.Proofs.Command.Run
import Agenda.Proofs.Except
/-!
Failures to read what the arguments ask for. They come from the arguments themselves: the engine finds at most that a
text is no date, which is not a fault.
-/
namespace Agenda

open Text

variable {f : Failure} {t : Token} {s : Stop}

namespace Setting

theorem isFault_readNow {text : String} {cause : Cause} (h : readNow text = .error cause) :
    (Failure.of cause).isFault = false := by
  obtain ⟨e, -, rfl⟩ := mapError_eq_error_iff.mp h
  rfl

theorem isFault_readTimes {text : String} {cause : Cause} (h : readTimes text = .error cause) :
    (Failure.of cause).isFault = false := by
  obtain ⟨flaw, -, rfl⟩ := mapError_eq_error_iff.mp h
  cases flaw with
  | numeral text flaw => rfl
  | zero => rfl

variable {α : Type} {o : Setting} {read : String → Except Cause α} {result : Except Failure α}

theorem isFault_ofValue (hread : ∀ {text cause}, read text = .error cause → (Failure.of cause).isFault = false)
    {value : Bytes} (h : o.ofValue read value = .error f) : f.isFault = false := by
  obtain ⟨cause, hcause, rfl⟩ := mapError_eq_error_iff.mp h
  split at hcause
  · cases hcause
    rfl
  · exact hread hcause

theorem exists_of_ofValue {value : Bytes} {a : α} (h : o.ofValue read value = .ok a) :
    ∃ s, Utf8.decode? value = some s ∧ read (String.ofList s) = .ok a := by
  have hread := mapError_eq_ok_iff.mp h
  cases hs : Utf8.decode? value with
  | none =>
    rw [hs] at hread
    cases hread
  | some s =>
    rw [hs] at hread
    exact ⟨s, rfl, hread⟩

/-- An option whose value is read without a fault has no other faults. -/
theorem isFault_value? (hread : ∀ {text cause}, read text = .error cause → (Failure.of cause).isFault = false)
    (h : o.value? read t = some result) (hf : result = .error f) : f.isFault = false := by
  subst hf
  unfold value? at h
  split at h
  · split at h
    · exact isFault_ofValue hread (Option.some.inj h)
    · cases h
  · split at h
    · cases h
      rfl
    · cases h
  · cases h

theorem isWithin_value (hread : ∀ {text cause}, read text = .error cause → (Failure.of cause).isFault = false)
    (h : o.value? read t = some result) : (Run.ofExcept result).IsWithin .notes :=
  Run.isWithin_ofExcept fun _ hf => isFault_value? hread h hf

/-- The date that an option gives is noted. -/
theorem isWithin_now {result : Except Failure Date} (h : now.value? readNow t = some result) (add : Date → α) :
    (Run.ofExcept result >>= fun d => Run.record [NextRequest.nowRecord d] >>= fun _ => Run.done (add d)).IsWithin
      .notes := by
  have hlevel (d : Date) : (NextRequest.nowRecord d).level ≠ .debug := Level.noConfusion
  apply (isWithin_value isFault_readNow h).bind
  intro d
  exact (Run.isWithin_record (hlevel d)).bind fun _ => Run.isWithin_done _ _

end Setting

theorem Token.isFault_refuse (short long : String) (t : Token) : (t.refuse short long).isFault = false := by
  have hflag (name : OptionName) : (refuseFlag short long name).isFault = false := by
    unfold refuseFlag
    split_ifs <;> rfl
  cases t with
  | flag name => exact hflag name
  | setting name value => exact hflag name
  | missing name => rfl
  | surplus name value => rfl
  | plain value => rfl

theorem Arguments.isFault_command {manual : String} {a : Arguments} (h : a.command manual = .error s) :
    s.isFault = false := by
  unfold command at h
  split at h
  · cases h
    rfl
  · split at h
    · cases h
    · cases h
      rfl
  · cases h
    exact Token.isFault_refuse _ _ _

end Agenda
