import Agenda.Command.World
/-!
What runs may do. A scope says which consoles they may lead to and how they may be stopped, and what is put together
from runs within a scope is within it. Reading what the arguments ask for only adds notes, and the engine is not asked.
-/
namespace Agenda

/-- Whether a console comes from another by notes alone: nothing was read or printed, and no record was added that says
what became of a task. -/
structure Console.Noted (c c' : Console) : Prop where
  printed : c'.printed = c.printed
  isOpen : c'.isOpen = c.isOpen
  stdin : c'.stdin = c.stdin
  level : c'.level = c.level
  records : ∃ rs, c'.records = rs ++ c.records ∧ ∀ r ∈ rs, r.level ≠ .debug

theorem Console.Noted.refl (c : Console) : c.Noted c :=
  ⟨rfl, rfl, rfl, rfl, [], rfl, List.forall_mem_nil _⟩

theorem Console.Noted.trans {a b c : Console} (h : a.Noted b) (h' : b.Noted c) : a.Noted c := by
  obtain ⟨rs, hrs, hlevel⟩ := h.records
  obtain ⟨rs', hrs', hlevel'⟩ := h'.records
  have hrecords : c.records = (rs' ++ rs) ++ a.records := by rw [hrs', hrs, List.append_assoc]
  exact ⟨h'.printed.trans h.printed, h'.isOpen.trans h.isOpen, h'.stdin.trans h.stdin, h'.level.trans h.level, _,
    hrecords, List.forall_mem_append.mpr ⟨hlevel', hlevel⟩⟩

/-- Whether a run was stopped by a fault of the engine. -/
def Stop.isFault : Stop → Bool
  | failed f => f.isFault
  | _ => false

/-- Telling what was being done does not hide a fault. -/
theorem Stop.isFault_during (context : Context) (s : Stop) : (s.during context).isFault = s.isFault := by
  cases s with
  | failed f => rfl
  | page text => rfl
  | closed => rfl

/-- What runs may do: where they may lead from a console, and what may stop them. -/
structure Scope where
  leads : Console → Console → Prop
  stops : Stop → Prop
  refl (c : Console) : leads c c
  trans {a b c : Console} (h : leads a b) (h' : leads b c) : leads a c

namespace Scope

/-- To add notes, without asking the engine. -/
def notes : Scope :=
  ⟨Console.Noted, fun s => s.isFault = false, Console.Noted.refl, Console.Noted.trans⟩

end Scope

namespace Run

variable {α β : Type} {run : Run α} {f : α → Run β} {a : α} {s : Stop} {c c' : Console} {p : Scope}

theorem done_bind (a : α) (f : α → Run β) : done a >>= f = f a :=
  rfl

theorem bind_of_ok (h : run c = (.ok a, c')) : (run >>= f) c = f a c' := by
  change andThen run f c = _
  rw [andThen, h]

theorem bind_of_error (h : run c = (.error s, c')) : (run >>= f) c = (.error s, c') := by
  change andThen run f c = _
  rw [andThen, h]

theorem bind_done (run : Run Unit) : (run >>= fun _ => done ()) = run := by
  funext c
  rcases hc : run c with ⟨s | _, c'⟩
  · exact bind_of_error hc
  · exact bind_of_ok hc

/-- A result that a run is left with is what the next one begins with. -/
theorem bind_done_bind {γ : Type} (run : Run α) (b : β) (g : β → Run γ) :
    (run >>= fun _ => done b) >>= g = run >>= fun _ => g b := by
  funext c
  rcases hc : run c with ⟨s | a, c'⟩
  · exact (bind_of_error (bind_of_error hc)).trans (bind_of_error hc).symm
  · have hdone : (run >>= fun _ => done b) c = (.ok b, c') := bind_of_ok hc
    rw [bind_of_ok hdone, bind_of_ok hc]

theorem exists_of_bind {b : β} (h : (run >>= f) c = (.ok b, c')) :
    ∃ a c₁, run c = (.ok a, c₁) ∧ f a c₁ = (.ok b, c') := by
  rcases hc : run c with ⟨_ | a, c₁⟩
  · rw [bind_of_error hc] at h
    cases h
  · rw [bind_of_ok hc] at h
    exact ⟨a, c₁, rfl, h⟩

theorem eq_ok_of_ofExcept {result : Except Failure α} (h : ofExcept result c = (.ok a, c')) : result = .ok a := by
  cases result with
  | ok a' =>
    cases h
    rfl
  | error f => cases h

theorem ofExcept_of_ok {ε : Type} {result : Except ε α} {g : ε → Failure} (h : result = .ok a) :
    ofExcept (result.mapError g) = done a := by
  rw [h]
  rfl

theorem ofExcept_of_error {ε : Type} {result : Except ε α} {g : ε → Failure} {e : ε} (h : result = .error e) :
    ofExcept (result.mapError g) = fail (g e) := by
  rw [h]
  rfl

theorem record_eq (rs : List Record) (c : Console) :
    record rs c = (.ok (), { c with records := (rs.filter (·.isKept c.level)).reverse ++ c.records }) :=
  rfl

theorem print_of_isOpen (h : c.isOpen = true) (line : String) :
    print line c = (.ok (), { c with printed := line :: c.printed }) :=
  if_pos h

/-- Whether a run is within a scope, wherever it starts. -/
def IsWithin (p : Scope) (run : Run α) : Prop :=
  ∀ c, p.leads c (run c).2 ∧ ∀ s, (run c).1 = .error s → p.stops s

theorem IsWithin.of_eq (h : run.IsWithin p) {result : Except Stop α} (hc : run c = (result, c')) :
    p.leads c c' ∧ ∀ s, result = .error s → p.stops s := by
  have hrun := h c
  rw [hc] at hrun
  exact hrun

theorem isWithin_done (p : Scope) (a : α) : (done a).IsWithin p := by
  intro c
  refine ⟨p.refl c, fun s h => ?_⟩
  cases h

theorem isWithin_stop (h : p.stops s) : (stop s : Run α).IsWithin p := by
  intro c
  refine ⟨p.refl c, fun s' hs => ?_⟩
  cases hs
  exact h

theorem isWithin_ofExcept {result : Except Failure α} (h : ∀ f, result = .error f → p.stops (.failed f)) :
    (ofExcept result).IsWithin p := by
  cases result with
  | ok a => exact isWithin_done p a
  | error f => exact isWithin_stop (h f rfl)

theorem isWithin_record {r : Record} (h : r.level ≠ .debug) : (record [r]).IsWithin .notes := by
  intro c
  have hmade : ∀ r' ∈ ([r].filter (·.isKept c.level)).reverse, r'.level ≠ .debug := by
    intro r' hr'
    obtain rfl := List.mem_singleton.mp (List.mem_filter.mp (List.mem_reverse.mp hr')).1
    exact h
  refine ⟨⟨rfl, rfl, rfl, rfl, _, rfl, hmade⟩, fun s hs => ?_⟩
  cases hs

theorem IsWithin.mono {q : Scope} (h : run.IsWithin p) (hleads : ∀ {c c'}, p.leads c c' → q.leads c c')
    (hstops : ∀ {s}, p.stops s → q.stops s) : run.IsWithin q :=
  fun c => ⟨hleads (h c).1, fun s hs => hstops ((h c).2 s hs)⟩

/-- A run goes on within a scope if it does so with the results that it can have. -/
theorem IsWithin.bind_of_results (h : run.IsWithin p) (hf : ∀ {c a c'}, run c = (.ok a, c') → (f a).IsWithin p) :
    (run >>= f).IsWithin p := by
  intro c
  rcases hc : run c with ⟨result, c'⟩
  obtain ⟨hlead, hstop⟩ := h.of_eq hc
  cases result with
  | ok a =>
    rw [bind_of_ok hc]
    exact ⟨p.trans hlead (hf hc c').1, (hf hc c').2⟩
  | error s =>
    rw [bind_of_error hc]
    refine ⟨hlead, fun s' hs => ?_⟩
    cases hs
    exact hstop s rfl

theorem IsWithin.bind (h : run.IsWithin p) (hf : ∀ a, (f a).IsWithin p) : (run >>= f).IsWithin p :=
  h.bind_of_results fun _ => hf _

theorem IsWithin.during {context : Context} (h : run.IsWithin p)
    (hp : ∀ s, p.stops s → p.stops (s.during context)) : (Run.during context run).IsWithin p := by
  intro c
  rcases hc : run c with ⟨result, c'⟩
  obtain ⟨hlead, hstop⟩ := h.of_eq hc
  rw [Run.during, hc]
  cases result with
  | ok a => exact ⟨hlead, hstop⟩
  | error s =>
    refine ⟨hlead, fun s' hs => ?_⟩
    cases hs
    exact hp s (hstop s rfl)

theorem isWithin_each {act : α → Run Unit} (h : ∀ a, (act a).IsWithin p) (as : List α) :
    (each act as).IsWithin p := by
  induction as with
  | nil => exact isWithin_done p ()
  | cons a as ih => exact (h a).bind fun _ => ih

theorem isWithin_foldlM {f : β → α → Run β} {as : List α} (hf : ∀ a ∈ as, ∀ b, (f b a).IsWithin p) (b : β) :
    (as.foldlM f b).IsWithin p := by
  induction as generalizing b with
  | nil => exact isWithin_done p b
  | cons a as ih =>
    obtain ⟨ha, has⟩ := List.forall_mem_cons.mp hf
    rw [List.foldlM_cons]
    exact (ha b).bind fun b' => ih has b'

/-- What is added to a request one by one is in it in the end, the latest first. -/
theorem foldlM_collect {τ : Type} {f : β → τ → Run β} {t : α → τ} {add : List α → β}
    (h : ∀ as a, f (add as) (t a) = done (add (a :: as))) (as bs : List α) (c : Console) :
    (bs.map t).foldlM f (add as) c = (.ok (add (bs.reverse ++ as)), c) := by
  induction bs generalizing as with
  | nil => rfl
  | cons b bs ih =>
    rw [List.map_cons, List.foldlM_cons, h, done_bind, ih, List.reverse_cons, List.append_assoc, List.singleton_append]

/-- What a request is at first and stays with each token it is at the end. -/
theorem of_foldlM {f : β → α → Run β} {as : List α} {b b' : β} (P : β → Prop)
    (hf : ∀ a ∈ as, ∀ {b b' c c'}, P b → f b a c = (.ok b', c') → P b') (hb : P b)
    (h : as.foldlM f b c = (.ok b', c')) : P b' := by
  induction as generalizing b c with
  | nil =>
    cases h
    exact hb
  | cons a as ih =>
    obtain ⟨ha, has⟩ := List.forall_mem_cons.mp hf
    rw [List.foldlM_cons] at h
    obtain ⟨b₁, c₁, hstep, hrest⟩ := exists_of_bind h
    exact ih has (ha hb hstep) hrest

/-- What a token brings about and every token keeps holds in the end. -/
theorem of_foldlM_mem {f : β → α → Run β} {as : List α} {b b' : β} {P : β → Prop} (ha : a ∈ as)
    (hset : ∀ {b b' c c'}, f b a c = (.ok b', c') → P b')
    (hkeep : ∀ a, ∀ {b b' c c'}, P b → f b a c = (.ok b', c') → P b') (h : as.foldlM f b c = (.ok b', c')) : P b' := by
  induction as generalizing b c with
  | nil => exact absurd ha List.not_mem_nil
  | cons a' as ih =>
    rw [List.foldlM_cons] at h
    obtain ⟨b₁, c₁, hstep, hrest⟩ := exists_of_bind h
    rcases List.mem_cons.mp ha with rfl | ha
    · exact of_foldlM P (fun a _ => hkeep a) (hset hstep) hrest
    · exact ih ha hrest

end Run

namespace World

variable (w : World) (given : Option Date)

theorem level_todayRecord : w.todayRecord.level ≠ .debug := by
  unfold todayRecord
  split <;> exact Level.noConfusion

theorem isWithin_referenceDate : (w.referenceDate given).IsWithin .notes := by
  cases given with
  | some d => exact Run.isWithin_done _ d
  | none => exact (Run.isWithin_record w.level_todayRecord).bind fun _ => Run.isWithin_done _ _

theorem referenceDate_eq (c : Console) :
    ∃ c', w.referenceDate given c = (.ok (given.getD w.todayDate), c') ∧ c.Noted c' := by
  have hled := (w.isWithin_referenceDate given c).1
  cases given with
  | some d => exact ⟨_, rfl, hled⟩
  | none => exact ⟨_, rfl, hled⟩

end World

end Agenda
