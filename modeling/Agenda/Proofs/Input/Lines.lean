import Agenda.Proofs.Input.Division
/-!
A reader is visited line by line, whatever its chunks are. The lines are those of the division of its bytes, numbered
from 1; each is visited once and in order, up to the first visit that stops or fails, and the bytes after that line are
left unread. A line may be visited where it stands in a chunk or be put together from several, and both ways take the
first line off the bytes that are left. A reader that fails delivers its whole lines in the same way, and then its
failure is told, unless a visit stopped or failed before.
-/
namespace Agenda

open Text

/-- Byte strings as lines, the first of them with number `n`. -/
def Line.numbered (n : Nat) : List Bytes → List Line
  | [] => []
  | l :: ls => ⟨n, l⟩ :: numbered (n + 1) ls

section Visits

variable {σ ε : Type} (visit : σ → Line → σ × Verdict ε)

/-- Visits to the given lines, from state `s` to state `s'`: all but the last say to go on, and the last says `v`. -/
inductive Calls : σ → List Line → σ → Verdict ε → Prop
  | none (s : σ) : Calls s [] s .next
  | next {s s' s'' : σ} {l : Line} {ls : List Line} {v : Verdict ε} (h : visit s l = (s', .next))
    (hs : Calls s' ls s'' v) : Calls s (l :: ls) s'' v
  | last {s s' : σ} {l : Line} {v : Verdict ε} (h : visit s l = (s', v)) (hv : v ≠ .next) : Calls s [l] s' v

/-- What comes of visiting `calls` and leaving `rest`: lines are left only when the last visit stopped or failed, its
failure is told, and their bytes are unread. -/
structure Visits (s : σ) (calls rest : List Line) (out : Visited σ ε) : Prop where
  last : ∃ v, Calls visit s calls out.state v ∧ (v = .next → rest = []) ∧ out.error = v.error?
  unread : out.unread.flatten = rest.flatMap Line.full

/-- The failure at the end, when the last visit says `v` and there is a flaw after the lines. -/
def Verdict.errorOr (flaw : Option ε) : Verdict ε → Option ε
  | next => flaw
  | stop => none
  | fail e => some e

/-- Whether visiting lines in order, up to the first visit that stops or fails, comes to `out`, when there is a flaw after
the lines. What is left unread of lines with a flaw after them is not told. -/
def ComesTo (flaw : Option ε) (s : σ) (lines : List Line) (out : Visited σ ε) : Prop :=
  ∃ calls rest, lines = calls ++ rest ∧
    (∃ v, Calls visit s calls out.state v ∧ (v = .next → rest = []) ∧ out.error = v.errorOr flaw) ∧
    (flaw = none → out.unread.flatten = rest.flatMap Line.full)

/-- A visit that also notes the line that it is made to. -/
def noting (p : σ × List Line) (l : Line) : (σ × List Line) × Verdict ε :=
  (((visit p.1 l).1, p.2 ++ [l]), (visit p.1 l).2)

end Visits

variable {σ ε : Type} {visit : σ → Line → σ × Verdict ε} {s s' s₁ s₂ : σ} {n : Nat} {l : Line} {v v' : Verdict ε}
  {ls calls calls' rest rest' : List Line} {out : Visited σ ε} {flaw : Option ε}

theorem Verdict.errorOr_of_ne (hv : v ≠ .next) : v.errorOr flaw = v.error? := by
  cases v with
  | next => exact absurd rfl hv
  | stop | fail e => rfl

theorem Verdict.errorOr_none (v : Verdict ε) : v.errorOr none = v.error? := by
  cases v <;> rfl

theorem ComesTo.visits (h : ComesTo visit none s ls out) :
    ∃ calls rest, ls = calls ++ rest ∧ Visits visit s calls rest out := by
  obtain ⟨calls, rest, he, ⟨v, hcalls, hend, herror⟩, hunread⟩ := h
  exact ⟨calls, rest, he, ⟨v, hcalls, hend, herror.trans v.errorOr_none⟩, hunread rfl⟩

theorem comesTo_nil {unread : Reader} (h : flaw = none → unread.flatten = []) :
    ComesTo visit flaw s [] ⟨s, flaw, unread⟩ :=
  ⟨[], [], rfl, ⟨.next, .none s, fun _ => rfl, rfl⟩, h⟩

theorem ComesTo.next (h : visit s l = (s', .next)) (hc : ComesTo visit flaw s' ls out) :
    ComesTo visit flaw s (l :: ls) out := by
  obtain ⟨calls, rest, rfl, ⟨v, hv, hend, herr⟩, hunread⟩ := hc
  exact ⟨l :: calls, rest, rfl, ⟨v, .next h hv, hend, herr⟩, hunread⟩

theorem comesTo_last {unread : Reader} (h : visit s l = (s', v)) (hv : v ≠ .next)
    (hu : flaw = none → unread.flatten = ls.flatMap Line.full) :
    ComesTo visit flaw s (l :: ls) ⟨s', v.error?, unread⟩ :=
  ⟨[l], ls, rfl, ⟨v, .last h hv, fun hc => absurd hc hv, (Verdict.errorOr_of_ne hv).symm⟩, hu⟩

/-- The lines that are visited in order are determined by the visits. -/
theorem Calls.unique (h : Calls visit s calls s₁ v) (h' : Calls visit s calls' s₂ v') (hv : v = .next → rest = [])
    (hv' : v' = .next → rest' = []) (he : calls ++ rest = calls' ++ rest') : calls = calls' := by
  -- both begin with the same visit, whose verdict says for both whether there is another one
  induction h generalizing calls' with
  | none s =>
    rw [hv rfl] at he
    exact (List.append_eq_nil_iff.mp he.symm).1.symm
  | next hl _ ih =>
    cases h' with
    | none =>
      rw [hv' rfl] at he
      cases he
    | next hl' hs' =>
      obtain ⟨rfl, htail⟩ := List.cons.inj he
      obtain ⟨rfl, -⟩ := Prod.mk.inj (hl.symm.trans hl')
      rw [ih hs' hv htail]
    | last hl' hne =>
      obtain ⟨rfl, -⟩ := List.cons.inj he
      exact absurd (Prod.mk.inj (hl.symm.trans hl')).2.symm hne
  | last hl hne =>
    cases h' with
    | none =>
      rw [hv' rfl] at he
      cases he
    | next hl' _ =>
      obtain ⟨rfl, -⟩ := List.cons.inj he
      exact absurd (Prod.mk.inj (hl.symm.trans hl')).2 hne
    | last _ _ =>
      obtain ⟨rfl, -⟩ := List.cons.inj he
      rfl

theorem Calls.of_noting {p p' : σ × List Line} (h : Calls (noting visit) p ls p' v) :
    Calls visit p.1 ls p'.1 v ∧ p'.2 = p.2 ++ ls := by
  induction h with
  | none p => exact ⟨.none p.1, (List.append_nil p.2).symm⟩
  | @next p p₁ p₂ l ls v hl _ ih =>
    obtain ⟨hp, hv⟩ := Prod.mk.inj hl
    subst hp
    refine ⟨.next (Prod.ext rfl hv) ih.1, ?_⟩
    rw [ih.2, List.append_assoc, List.singleton_append]
  | @last p p₁ l v hl hne =>
    obtain ⟨hp, hv⟩ := Prod.mk.inj hl
    subst hp
    exact ⟨.last (Prod.ext rfl hv) hne, rfl⟩

theorem flatMap_full_numbered (n : Nat) (lines : List Bytes) : (Line.numbered n lines).flatMap Line.full = lines.flatten := by
  induction lines generalizing n with
  | nil => rfl
  | cons l ls ih => rw [Line.numbered, List.flatMap_cons, List.flatten_cons, ih]

section Reading

variable {chunk bs begun line : Bytes} {lines ls : List Bytes} {chunks r unread : Reader} {used n' : Nat}

/-- Where visiting stands after the first bytes of a chunk, when `lines` begin at line `n`: at the end, with the rest
of the chunk unread, or in a line without a line feed so far, from which the visits go on. -/
inductive Follows (visit : σ → Line → σ × Verdict ε) (flaw : Option ε) (s : σ) (n : Nat) (lines : List Bytes)
    (chunk : Bytes) (chunks : Reader) : Progress σ ε → Prop
  | done {s' : σ} {e : Option ε} {used : Nat}
    (h : ComesTo visit flaw s (Line.numbered n lines) ⟨s', e, chunk.drop used :: chunks⟩) :
    Follows visit flaw s n lines chunk chunks (.done s' e used)
  | reading {s' : σ} {n' : Nat} {begun : Bytes} {ls : List Bytes} (hb : Line.feed ∉ begun)
    (hd : IsDivision (delivered flaw (begun ++ chunks.flatten)) ls)
    (h : ∀ out, ComesTo visit flaw s' (Line.numbered n' ls) out → ComesTo visit flaw s (Line.numbered n lines) out) :
    Follows visit flaw s n lines chunk chunks (.reading s' n' begun)

/-- A line that is visited and does not end the visits comes before what follows. -/
theorem Follows.next {progress : Progress σ ε} (h : visit s ⟨n, line⟩ = (s', .next))
    (hf : Follows visit flaw s' (n + 1) ls chunk chunks progress) :
    Follows visit flaw s n (line :: ls) chunk chunks progress := by
  cases hf with
  | done hc => exact .done (hc.next h)
  | reading hb hd hc => exact .reading hb hd fun out ho => (hc out ho).next h

/-- The bytes used are always those before the ones that are left: `pre` is what was used of the chunk. -/
theorem visitChunk_follows {pre : Bytes} (hu : pre.length = used)
    (hd : IsDivision (delivered flaw (bs ++ chunks.flatten)) lines) :
    Follows visit flaw s n lines (pre ++ bs) chunks (visitChunk visit s n used bs) := by
  fun_induction visitChunk visit s n used bs generalizing pre lines with
  | case1 s n used bs hf =>
    exact .reading (feed_not_mem_of_firstLine? hf) hd fun _ ho => ho
  | case2 s n used bs line rest hf s' hv ih =>
    obtain ⟨ls, rfl, hls⟩ := hd.of_firstLine? hf
    have hlen : (pre ++ line).length = used + line.length := by rw [List.length_append, hu]
    have hnext := ih hlen hls
    rw [List.append_assoc, ← (firstLine?_spec hf).1] at hnext
    exact hnext.next hv
  | case3 s n used bs line rest hf s' v hne hv =>
    obtain ⟨ls, rfl, hls⟩ := hd.of_firstLine? hf
    have hlen : (pre ++ line).length = used + line.length := by rw [List.length_append, hu]
    refine .done (comesTo_last hv hne ?_)
    rintro rfl
    have hrest : ls.flatten = rest ++ chunks.flatten := hls.flatten
    -- the bytes used end with the line, so those after it are dropped to
    rw [(firstLine?_spec hf).1, ← List.append_assoc, ← hlen, List.drop_left, List.flatten_cons, ← hrest,
      flatMap_full_numbered]

/-- A line that is read on ends at the first line feed, with chunks left, or else with the reader. -/
theorem readLine_cases {rest : Reader} (hb : Line.feed ∉ begun) (h : readLine begun r = (line, rest)) :
    rest = [] ∧ line = begun ++ r.flatten ∧ Line.feed ∉ line ∨
      rest ≠ [] ∧ begun ++ r.flatten = line ++ rest.flatten ∧ Line.feed ∉ line.dropLast ∧
        line.getLast? = some Line.feed := by
  induction r generalizing begun with
  | nil =>
    obtain ⟨rfl, rfl⟩ := Prod.mk.inj h
    exact Or.inl ⟨rfl, (List.append_nil begun).symm, hb⟩
  | cons chunk chunks ih =>
    unfold readLine at h
    rw [List.flatten_cons]
    split at h
    · rename_i line' rest' hf
      obtain ⟨rfl, rfl⟩ := Prod.mk.inj h
      obtain ⟨rfl, hend, hi⟩ := firstLine?_spec hf
      have hfirst : IsFirst (begun ++ line') [] := isFirst_append hb hi hend
      refine Or.inr ⟨List.cons_ne_nil _ _, by simp only [List.flatten_cons, List.append_assoc], hfirst.inner, ?_⟩
      rw [List.getLast?_append, hend]
      rfl
    · rename_i hf
      have hb' : Line.feed ∉ begun ++ chunk := by
        rw [List.mem_append]
        exact not_or.mpr ⟨hb, feed_not_mem_of_firstLine? hf⟩
      rw [← List.append_assoc]
      exact ih hb' h

/-- Where reading a line meets a flaw, no more lines can be read. -/
theorem IsDivision.of_readLine_flawed {rest : Reader} (hb : Line.feed ∉ begun) (h : readLine begun r = (line, rest))
    (hd : IsDivision (delivered flaw (begun ++ r.flatten)) lines) (hflaw : rest.isEmpty ∧ flaw.isSome) : lines = [] := by
  obtain ⟨e, rfl⟩ := Option.isSome_iff_exists.mp hflaw.2
  rcases readLine_cases hb h with ⟨-, hline, hnone⟩ | ⟨hrest, -⟩
  · rw [← hline, delivered, wholeLines_of_feed_not_mem hnone] at hd
    exact isDivision_nil_iff.mp hd
  · exact absurd (List.isEmpty_iff.mp hflaw.1) hrest

/-- The line that is read to its end is the first one of what was begun and what is left. -/
theorem IsDivision.of_readLine {rest : Reader} (hb : Line.feed ∉ begun) (h : readLine begun r = (line, rest))
    (hd : IsDivision (delivered flaw (begun ++ r.flatten)) lines) (hflaw : ¬ (rest.isEmpty ∧ flaw.isSome)) :
    (line = [] → lines = [] ∧ flaw = none ∧ rest.flatten = []) ∧
      (line ≠ [] → ∃ ls, lines = line :: ls ∧ IsDivision (delivered flaw rest.flatten) ls) := by
  rcases readLine_cases hb h with ⟨rfl, hline, hnone⟩ | ⟨hrest, he, hi, hend⟩
  · obtain rfl : flaw = none := by simpa using hflaw
    rw [← hline] at hd
    refine ⟨?_, fun hne => ?_⟩
    · rintro rfl
      exact ⟨isDivision_nil_iff.mp hd, rfl, rfl⟩
    · have hfirst := isFirst_of_feed_not_mem hne hnone
      rw [← List.append_nil line] at hd
      exact (isDivision_append_iff hfirst).mp hd
  · rw [he] at hd
    refine ⟨?_, fun _ => hd.of_delivered hi hend⟩
    rintro rfl
    cases hend

theorem flatten_dropWhile_isEmpty (r : Reader) : (r.dropWhile List.isEmpty).flatten = r.flatten := by
  induction r with
  | nil => rfl
  | cons chunk chunks ih =>
    cases chunk with
    | nil => simpa using ih
    | cons b bs => rfl

/-- Empty chunks make no difference, and the first other one is visited from its start. -/
theorem follows_of_chunk (hr : r.dropWhile List.isEmpty = chunk :: chunks)
    (hd : IsDivision (delivered flaw r.flatten) lines) :
    Follows visit flaw s n lines chunk chunks (visitChunk visit s n 0 chunk) := by
  rw [← flatten_dropWhile_isEmpty, hr, List.flatten_cons] at hd
  have hpre : ([] : Bytes).length = 0 := rfl
  exact visitChunk_follows hpre hd

theorem comesTo_of_done {e : Option ε} (hr : r.dropWhile List.isEmpty = chunk :: chunks)
    (hd : IsDivision (delivered flaw r.flatten) lines) (hc : visitChunk visit s n 0 chunk = .done s' e used) :
    ComesTo visit flaw s (Line.numbered n lines) ⟨s', e, chunk.drop used :: chunks⟩ := by
  have hf : Follows visit flaw s n lines chunk chunks (visitChunk visit s n 0 chunk) := follows_of_chunk hr hd
  rw [hc] at hf
  cases hf with
  | done h => exact h

theorem exists_of_reading (hr : r.dropWhile List.isEmpty = chunk :: chunks)
    (hd : IsDivision (delivered flaw r.flatten) lines) (hc : visitChunk visit s n 0 chunk = .reading s' n' begun) :
    Line.feed ∉ begun ∧ ∃ ls, IsDivision (delivered flaw (begun ++ chunks.flatten)) ls ∧
      ∀ out, ComesTo visit flaw s' (Line.numbered n' ls) out → ComesTo visit flaw s (Line.numbered n lines) out := by
  have hf : Follows visit flaw s n lines chunk chunks (visitChunk visit s n 0 chunk) := follows_of_chunk hr hd
  rw [hc] at hf
  cases hf with
  | reading hb hls h => exact ⟨hb, _, hls, h⟩

/-- The lines that can be read are visited in order; a flaw is met when all of them were. -/
theorem visitFrom_comesTo (hd : IsDivision (delivered flaw r.flatten) lines) :
    ComesTo visit flaw s (Line.numbered n lines) (visitFrom visit flaw s n r) := by
  fun_induction visitFrom visit flaw s n r generalizing lines with
  | case1 s n r hr =>
    have hnil : r.flatten = [] := by rw [← flatten_dropWhile_isEmpty, hr, List.flatten_nil]
    have hnone : delivered flaw [] = [] := by cases flaw <;> rfl
    rw [hnil, hnone, isDivision_nil_iff] at hd
    subst hd
    exact comesTo_nil fun _ => rfl
  | case2 s n r chunk chunks hr s' e used hc => exact comesTo_of_done hr hd hc
  -- the line goes on where the flaw is met
  | case3 s n r chunk chunks hr s' n' begun hc line rest hl hflaw =>
    obtain ⟨hb, ls, hls, h⟩ := exists_of_reading hr hd hc
    obtain rfl := hls.of_readLine_flawed hb hl hflaw
    refine h _ (comesTo_nil ?_)
    rintro rfl
    cases hflaw.2
  -- no more lines: nothing was begun, and nothing is left
  | case4 s n r chunk chunks hr s' n' begun hc line rest hl hflaw hnil =>
    obtain ⟨hb, ls, hls, h⟩ := exists_of_reading hr hd hc
    obtain ⟨rfl, rfl, hrest⟩ := (hls.of_readLine hb hl hflaw).1 (List.isEmpty_iff.mp hnil)
    exact h _ (comesTo_nil fun _ => hrest)
  | case5 s n r chunk chunks hr s' n' begun hc line rest hl hflaw hnil s'' hv ih =>
    obtain ⟨hb, ls, hls, h⟩ := exists_of_reading hr hd hc
    obtain ⟨ls', rfl, hrest⟩ := (hls.of_readLine hb hl hflaw).2 (mt List.isEmpty_iff.mpr hnil)
    exact h _ ((ih hrest).next hv)
  | case6 s n r chunk chunks hr s' n' begun hc line rest hl hflaw hnil s'' v hne hv =>
    obtain ⟨hb, ls, hls, h⟩ := exists_of_reading hr hd hc
    obtain ⟨ls', rfl, hrest⟩ := (hls.of_readLine hb hl hflaw).2 (mt List.isEmpty_iff.mpr hnil)
    apply h
    apply comesTo_last hv hne
    rintro rfl
    rw [flatMap_full_numbered, hrest.flatten]
    rfl

theorem Verdict.error?_ne_none (hne : v ≠ .next) (hstop : v ≠ .stop) : v.error? ≠ none := by
  cases v with
  | next => exact absurd rfl hne
  | stop => exact absurd rfl hstop
  | fail e => exact Option.some_ne_none e

/-- There is no line to read only when nothing is left. -/
theorem rest_of_readLine {rest : Reader} (h : readLine begun r = ([], rest)) : rest = [] := by
  induction r generalizing begun with
  | nil => exact (Prod.mk.inj h).2.symm
  | cons chunk chunks ih =>
    unfold readLine at h
    split at h
    · rename_i line rest' hf
      obtain ⟨-, hend, -⟩ := firstLine?_spec hf
      obtain ⟨-, rfl⟩ := List.append_eq_nil_iff.mp (Prod.mk.inj h).1
      cases hend
    · exact ih h

theorem error_of_visitChunk {e : Option ε} (hstop : ∀ s l, (visit s l).2 ≠ .stop)
    (h : visitChunk visit s n used bs = .done s' e n') : e ≠ none := by
  fun_induction visitChunk visit s n used bs with
  | case1 s n used bs hf => cases h
  | case2 s n used bs line rest hf s₁ hv ih => exact ih h
  | case3 s n used bs line rest hf s₁ v hne hv =>
    cases h
    have hv' := hstop s ⟨n, line⟩
    rw [hv] at hv'
    exact Verdict.error?_ne_none hne hv'

/-- Visits that never just stop leave nothing unread, unless one of them fails. -/
theorem unread_of_visitFrom (hstop : ∀ s l, (visit s l).2 ≠ .stop) (h : (visitFrom visit flaw s n r).error = none) :
    (visitFrom visit flaw s n r).unread = [] := by
  fun_induction visitFrom visit flaw s n r with
  | case1 s n r hr => rfl
  | case2 s n r chunk chunks hr s' e used hc => exact absurd h (error_of_visitChunk hstop hc)
  | case3 s n r chunk chunks hr s' n' begun hc line rest hl hflaw =>
    exact List.isEmpty_iff.mp hflaw.1
  | case4 s n r chunk chunks hr s' n' begun hc line rest hl hflaw hnil =>
    rw [List.isEmpty_iff.mp hnil] at hl
    exact rest_of_readLine hl
  | case5 s n r chunk chunks hr s' n' begun hc line rest hl hflaw hnil s'' hv ih => exact ih h
  | case6 s n r chunk chunks hr s' n' begun hc line rest hl hflaw hnil s'' v hne hv =>
    have hv' := hstop s' ⟨n', line⟩
    rw [hv] at hv'
    exact absurd h (Verdict.error?_ne_none hne hv')

end Reading

/-- Whatever the chunks of a reader are, the visits are made to the lines of its data, numbered from 1, up to the first
one that stops or fails, and to no others; its failure is told, and the bytes of the other lines are left unread. The
contents of the lines and the ends that they leave off are the data again. -/
theorem visitLines_visits_each_line {σ ε : Type} (visit : σ → Line → σ × Verdict ε) (s : σ) (r : Reader) :
    ∃ lines, IsDivision r.flatten lines ∧ (∀ ls, IsDivision r.flatten ls → ls = lines) ∧
      (∃ calls rest, Line.numbered 1 lines = calls ++ rest ∧ Visits visit s calls rest (visitLines visit s r) ∧
        (visitLines (noting visit) (s, []) r).state.2 = calls) ∧
      (Line.numbered 1 lines).flatMap (fun l => l.content ++ l.ending) = r.flatten ∧ ∀ l : Line, l.IsStripped := by
  obtain ⟨lines, hd, huniq⟩ := existsUnique_isDivision r.flatten
  refine ⟨lines, hd, huniq, ?_, ?_, Line.isStripped⟩
  · have hplain : ComesTo visit none s (Line.numbered 1 lines) (visitLines visit s r) := visitFrom_comesTo hd
    have hnoting : ComesTo (noting visit) none (s, []) (Line.numbered 1 lines) (visitLines (noting visit) (s, []) r) :=
      visitFrom_comesTo hd
    obtain ⟨calls, rest, he, hv⟩ := hplain.visits
    obtain ⟨calls', rest', he', hv'⟩ := hnoting.visits
    refine ⟨calls, rest, he, hv, ?_⟩
    obtain ⟨v, hcalls, hend, -⟩ := hv.last
    obtain ⟨v', hcalls', hend', -⟩ := hv'.last
    obtain ⟨hcalls', hnoted⟩ := hcalls'.of_noting
    have hsame : calls = calls' := hcalls.unique hcalls' hend hend' (he.symm.trans he')
    rw [hsame]
    exact hnoted
  · calc (Line.numbered 1 lines).flatMap (fun l => l.content ++ l.ending)
        = (Line.numbered 1 lines).flatMap Line.full := List.flatMap_congr fun l _ => l.isStripped.1
      _ = lines.flatten := flatMap_full_numbered 1 lines
      _ = r.flatten := hd.flatten

-- the second line goes on over three chunks, and the visit to it is the last one
example :
    let visit (seen : List Bytes) (l : Line) : List Bytes × Verdict Unit :=
      (seen ++ [l.content], if l.number = 2 then .stop else .next)
    visitLines visit [] [[97, 13], [10, 98], [99], [100, 13, 10, 101]] = ⟨[[97], [98, 99, 100]], none, [[101]]⟩ := by
  cbv

end Agenda
