/-!
Cutting a list into runs. A step reads one item in a state and says whether a new run begins with the item; joined
again, the runs are the list.
-/
namespace Agenda.Text

/-- Puts an item in front of the first run. -/
def consFirst {α : Type} (a : α) : List (List α) → List (List α)
  | [] => [[a]]
  | r :: rs => (a :: r) :: rs

@[simp] theorem flatten_consFirst {α : Type} (a : α) (rs : List (List α)) :
    (consFirst a rs).flatten = a :: rs.flatten := by
  cases rs <;> simp [consFirst]

/-- The runs of a list, with the first one empty when the first item begins a run. -/
def runs {α σ : Type} (step : σ → α → Bool × σ) : σ → List α → List (List α)
  | _, [] => [[]]
  | s, a :: as =>
    let (cut, next) := step s a
    let rest := consFirst a (runs step next as)
    if cut then [] :: rest else rest

@[simp] theorem flatten_runs {α σ : Type} (step : σ → α → Bool × σ) (s : σ) (as : List α) :
    (runs step s as).flatten = as := by
  induction as generalizing s with
  | nil => simp [runs]
  | cons a as ih =>
    simp only [runs]
    split <;> simp [ih]

theorem runs_ne_nil {α σ : Type} (step : σ → α → Bool × σ) (s : σ) (as : List α) : runs step s as ≠ [] := by
  cases as with
  | nil => exact List.cons_ne_nil _ _
  | cons a as =>
    simp only [runs]
    split
    · exact List.cons_ne_nil _ _
    · cases runs step (step s a).2 as <;> exact List.cons_ne_nil _ _

/-- What the runs of a list are like, told by what a step does. `Rest` is said of a run that is read on in a state,
`Whole` of a run from the item that begins it. The state keeps `Inv`. -/
structure RunRule {α σ : Type} (step : σ → α → Bool × σ) (as : List α) (Inv : σ → Prop) (Rest : σ → List α → Prop)
    (Whole : List α → Prop) : Prop where
  keep : ∀ s, ∀ a ∈ as, Inv s → Inv (step s a).2
  nil : ∀ s, Inv s → Rest s []
  stay : ∀ s, ∀ a ∈ as, ∀ r, Inv s → (step s a).1 = false → Rest (step s a).2 r → Rest s (a :: r)
  cut : ∀ s, ∀ a ∈ as, ∀ r, Inv s → (step s a).1 = true → Rest (step s a).2 r → Whole (a :: r)

theorem RunRule.exists_runs {α σ : Type} {step : σ → α → Bool × σ} {Inv : σ → Prop} {Rest : σ → List α → Prop}
    {Whole : List α → Prop} {as : List α} (rule : RunRule step as Inv Rest Whole) {s : σ} (hs : Inv s) :
    ∃ r rs, runs step s as = r :: rs ∧ Rest s r ∧ ∀ r' ∈ rs, Whole r' := by
  induction as generalizing s with
  | nil => exact ⟨[], [], rfl, rule.nil s hs, by simp⟩
  | cons a as ih =>
    have htail : RunRule step as Inv Rest Whole :=
      ⟨fun s b hb => rule.keep s b (.tail _ hb), rule.nil, fun s b hb => rule.stay s b (.tail _ hb),
        fun s b hb => rule.cut s b (.tail _ hb)⟩
    obtain ⟨r, rs, hr, hrest, hwhole⟩ := ih htail (rule.keep s a (.head _) hs)
    simp only [runs, hr, consFirst]
    cases hcut : (step s a).1 with
    | true =>
      have ha : Whole (a :: r) := rule.cut s a (.head _) r hs hcut hrest
      exact ⟨[], (a :: r) :: rs, rfl, rule.nil s hs, by simpa using ⟨ha, hwhole⟩⟩
    | false => exact ⟨a :: r, rs, rfl, rule.stay s a (.head _) r hs hcut hrest, hwhole⟩

end Agenda.Text
