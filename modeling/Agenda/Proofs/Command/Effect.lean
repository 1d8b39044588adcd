import Agenda.Proofs.Command.Lines
/-!
What a run does for those who watch it. An effect is what is printed and recorded until the end or a failure; effects
that follow one another make one effect, of which nothing comes after a failure. A run has an effect when it has it
wherever it starts with the same data to read.
-/
namespace Agenda

open Text

/-- The lines that are printed, the records, and the failure at the end, if there is one. -/
structure Effect where
  lines : List String
  records : List Record
  failure : Option Failure

namespace Effect

def idle : Effect :=
  ⟨[], [], none⟩

/-- The effect of going on after an effect, unless that was a failure. -/
def followedBy (e e' : Effect) : Effect :=
  match e.failure with
  | none => ⟨e.lines ++ e'.lines, e.records ++ e'.records, e'.failure⟩
  | some _ => e

def during (context : Context) (e : Effect) : Effect :=
  { e with failure := e.failure.map (Failure.during context) }

def inOrder (es : List Effect) : Effect :=
  es.foldr followedBy idle

/-- The effect of meeting a flaw in what is read, or the end when there is none. -/
def ofFlaw : Option FileFlaw → Effect
  | none => idle
  | some flaw => ⟨[], [], some (.of (.file flaw))⟩

/-- How a run with this effect ends. -/
def result (e : Effect) : Except Stop Unit :=
  e.failure.elim (.ok ()) fun f => .error (.failed f)

variable {e e' : Effect} {f : Failure}

theorem followedBy_of_none (h : e.failure = none) (e' : Effect) :
    e.followedBy e' = ⟨e.lines ++ e'.lines, e.records ++ e'.records, e'.failure⟩ := by
  rw [followedBy, h]

theorem followedBy_of_some (h : e.failure = some f) (e' : Effect) : e.followedBy e' = e := by
  rw [followedBy, h]

theorem result_of_none (h : e.failure = none) : e.result = .ok () := by
  rw [result, h]
  rfl

theorem result_of_some (h : e.failure = some f) : e.result = .error (.failed f) := by
  rw [result, h]
  rfl

theorem followedBy_assoc (e e' e'' : Effect) : (e.followedBy e').followedBy e'' = e.followedBy (e'.followedBy e'') := by
  rcases e with ⟨lines, records, _ | f⟩
  · rcases e' with ⟨lines', records', _ | f'⟩
    · simp only [followedBy, List.append_assoc]
    · rfl
  · rfl

theorem inOrder_append (es es' : List Effect) : inOrder (es ++ es') = (inOrder es).followedBy (inOrder es') := by
  induction es with
  | nil => rfl
  | cons e es ih =>
    calc inOrder (e :: es ++ es')
        = e.followedBy ((inOrder es).followedBy (inOrder es')) := congrArg e.followedBy ih
      _ = (inOrder (e :: es)).followedBy (inOrder es') := (followedBy_assoc _ _ _).symm

end Effect

/-- Whether a console shows an effect when it comes from another. -/
structure Console.Shows (c c' : Console) (e : Effect) : Prop where
  isOpen : c'.isOpen = c.isOpen
  level : c'.level = c.level
  printed : c'.printed = e.lines.reverse ++ c.printed
  records : c'.records = (e.records.filter (·.isKept c.level)).reverse ++ c.records

theorem Console.Shows.trans {a b c : Console} {e e' : Effect} (h : a.Shows b e) (h' : b.Shows c e')
    (he : e.failure = none) : a.Shows c (e.followedBy e') := by
  rw [Effect.followedBy_of_none he]
  refine ⟨h'.isOpen.trans h.isOpen, h'.level.trans h.level, ?_, ?_⟩
  · rw [h'.printed, h.printed, List.reverse_append, List.append_assoc]
  · rw [h'.records, h.records, h.level, List.filter_append, List.reverse_append, List.append_assoc]

namespace Run

/-- Whether a run that finds `before` to read has an effect, and leaves `after` unless it fails. -/
def HasEffect (run : Run Unit) (before : Bytes) (e : Effect) (after : Bytes) : Prop :=
  ∀ c, c.isOpen = true → c.stdin.flatten = before →
    ∃ c', run c = (e.result, c') ∧ c.Shows c' e ∧ (e.failure = none → c'.stdin.flatten = after)

variable {α : Type} {run run' : Run Unit} {before between after : Bytes} {e e' : Effect} {f : Failure}

theorem hasEffect_done (before : Bytes) : (done ()).HasEffect before .idle before :=
  fun c _ hin => ⟨c, rfl, ⟨rfl, rfl, rfl, rfl⟩, fun _ => hin⟩

theorem hasEffect_fail (f : Failure) (before after : Bytes) : (fail f).HasEffect before ⟨[], [], some f⟩ after := by
  intro c _ _
  refine ⟨c, rfl, ⟨rfl, rfl, rfl, rfl⟩, fun h => ?_⟩
  cases h

theorem hasEffect_record (rs : List Record) (before : Bytes) : (record rs).HasEffect before ⟨[], rs, none⟩ before :=
  fun _ _ hin => ⟨_, rfl, ⟨rfl, rfl, rfl, rfl⟩, fun _ => hin⟩

theorem hasEffect_print (line : String) (before : Bytes) : (print line).HasEffect before ⟨[line], [], none⟩ before :=
  fun _ hopen hin => ⟨_, print_of_isOpen hopen line, ⟨rfl, rfl, rfl, rfl⟩, fun _ => hin⟩

theorem HasEffect.bind (h : run.HasEffect before e between) (h' : run'.HasEffect between e' after) :
    (run >>= fun _ => run').HasEffect before (e.followedBy e') after := by
  intro c hopen hin
  obtain ⟨c₁, hrun, hshows, hleft⟩ := h c hopen hin
  -- the second run is reached only when the first one did not fail, and then it finds what that left
  cases hf : e.failure with
  | none =>
    obtain ⟨c₂, hrun', hshows', hleft'⟩ := h' c₁ (hshows.isOpen.trans hopen) (hleft hf)
    rw [Effect.result_of_none hf] at hrun
    have hshown := hshows.trans hshows' hf
    rw [Effect.followedBy_of_none hf] at hshown ⊢
    exact ⟨c₂, (bind_of_ok hrun).trans hrun', hshown, hleft'⟩
  | some f =>
    rw [Effect.followedBy_of_some hf]
    rw [Effect.result_of_some hf] at hrun ⊢
    refine ⟨c₁, bind_of_error hrun, hshows, fun hnone => ?_⟩
    rw [hf] at hnone
    cases hnone

theorem HasEffect.during (h : run.HasEffect before e after) (context : Context) :
    (Run.during context run).HasEffect before (e.during context) after := by
  intro c hopen hin
  obtain ⟨c', hrun, hshows, hleft⟩ := h c hopen hin
  have hshown : c.Shows c' (e.during context) := ⟨hshows.isOpen, hshows.level, hshows.printed, hshows.records⟩
  refine ⟨c', ?_, hshown, fun hnone => hleft (Option.map_eq_none_iff.mp hnone)⟩
  rcases e with ⟨lines, records, _ | f⟩
  · rw [Run.during, hrun]
    rfl
  · rw [Run.during, hrun]
    rfl

theorem hasEffect_each {act : α → Run Unit} {effect : α → Effect} {as : List α}
    (h : ∀ a ∈ as, (act a).HasEffect before (effect a) before) :
    (each act as).HasEffect before (.inOrder (as.map effect)) before := by
  induction as with
  | nil => exact hasEffect_done before
  | cons a as ih =>
    obtain ⟨ha, has⟩ := List.forall_mem_cons.mp h
    exact ha.bind (ih has)

variable {act : Line → Run Unit} {flaw : Option FileFlaw} {data : Bytes}

theorem hasEffect_meet (flaw : Option FileFlaw) (before : Bytes) :
    (meet flaw).HasEffect before (.ofFlaw flaw) before := by
  cases flaw with
  | none => exact hasEffect_done before
  | some x => exact hasEffect_fail _ before before

theorem hasEffect_eachLineOf (h : (each act (linesOf (delivered flaw data))).HasEffect before e between) :
    (eachLineOf flaw act data).HasEffect before (e.followedBy (.ofFlaw flaw)) between :=
  h.bind (hasEffect_meet flaw between)

/-- Going through the lines of the standard input leaves nothing of it. -/
theorem hasEffect_eachInputLine (h : (eachLineOf flaw act before).HasEffect before e after) :
    (eachInputLine flaw act).HasEffect before e [] := by
  intro c hopen hin
  -- that the standard input was asked for is noted before it is read, and is no part of the effect
  obtain ⟨c', hrun, hshows, hleft⟩ := h { c with wasAsked := true } hopen hin
  rw [eachInputLine_eq, hin]
  have hshown : c.Shows c' e := ⟨hshows.isOpen, hshows.level, hshows.printed, hshows.records⟩
  cases hf : e.failure with
  | none =>
    rw [Effect.result_of_none hf] at hrun ⊢
    have hleft : c.Shows { c' with stdin := [] } e :=
      ⟨hshown.isOpen, hshown.level, hshown.printed, hshown.records⟩
    exact ⟨{ c' with stdin := [] }, bind_of_ok hrun, hleft, fun _ => rfl⟩
  | some f =>
    rw [Effect.result_of_some hf] at hrun ⊢
    refine ⟨c', bind_of_error hrun, hshown, fun hnone => ?_⟩
    cases hnone

end Run

end Agenda
