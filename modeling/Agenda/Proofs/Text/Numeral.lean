import Agenda.Text.Numeral
import Mathlib.Data.List.Induction
import Mathlib.Data.Nat.Digits.Defs
/-!
What the numeral readers accept: one or more ASCII digits in base ten, for an integer with at most one sign in front.
What the writers write is among it, so each number is read back from its own numeral.
-/
namespace Agenda.Text.Numeral

/-- The texts of a natural number: one or more digits, leading zeros among them. -/
def IsNatural (s : List Char) (n : Nat) : Prop :=
  s ≠ [] ∧ (∀ c ∈ s, '0' ≤ c ∧ c ≤ '9') ∧ n = Nat.ofDigits 10 (s.reverse.map digitValue)

/-- The texts of an integer: those of a natural number, alone or after a single sign. -/
inductive IsInteger : List Char → Int → Prop
  | plain {s : List Char} {n : Nat} (h : IsNatural s n) : IsInteger s n
  | plus {s : List Char} {n : Nat} (h : IsNatural s n) : IsInteger ('+' :: s) n
  | minus {s : List Char} {n : Nat} (h : IsNatural s n) : IsInteger ('-' :: s) (-n)

theorem isDigit_iff {c : Char} : isDigit c = true ↔ '0' ≤ c ∧ c ≤ '9' := by
  simp only [isDigit, Bool.and_eq_true, decide_eq_true_eq]

theorem value_append_digit (s : List Char) (c : Char) : value (s ++ [c]) = 10 * value s + digitValue c := by
  simp only [value, List.foldl_append, List.foldl_cons, List.foldl_nil]

theorem value_eq_ofDigits (s : List Char) : value s = Nat.ofDigits 10 (s.reverse.map digitValue) := by
  induction s using List.reverseRecOn with
  | nil => rfl
  | append_singleton s c ih =>
    rw [value_append_digit, ih, List.reverse_append, List.reverse_singleton, List.singleton_append, List.map_cons,
      Nat.ofDigits_cons]
    omega

theorem nat?_eq_some_iff {s : List Char} {n : Nat} : nat? s = some n ↔ IsNatural s n := by
  have hall : s.all isDigit = true ↔ ∀ c ∈ s, '0' ≤ c ∧ c ≤ '9' := by
    simp only [List.all_eq_true, isDigit_iff]
  unfold nat? IsNatural
  rw [← value_eq_ofDigits, ← hall]
  cases s with
  | nil => simp
  | cons c s => cases h : (c :: s).all isDigit <;> simp [eq_comm]

theorem IsNatural.ne_cons {s t : List Char} {n : Nat} {c : Char} (h : IsNatural s n) (hc : ¬ '0' ≤ c) :
    s ≠ c :: t := by
  rintro rfl
  exact hc (h.2.1 c List.mem_cons_self).1

theorem int?_eq_some_iff {s : List Char} {n : Int} : int? s = some n ↔ IsInteger s n := by
  unfold int?
  constructor
  · intro h
    split at h <;> obtain ⟨m, hm, rfl⟩ := Option.map_eq_some_iff.mp h
    · exact .plus (nat?_eq_some_iff.mp hm)
    · exact .minus (nat?_eq_some_iff.mp hm)
    · exact .plain (nat?_eq_some_iff.mp hm)
  · intro h
    cases h with
    | plus h => exact Option.map_eq_some_iff.mpr ⟨_, nat?_eq_some_iff.mpr h, rfl⟩
    | minus h => exact Option.map_eq_some_iff.mpr ⟨_, nat?_eq_some_iff.mpr h, rfl⟩
    | plain h =>
      split
      · exact absurd rfl (h.ne_cons (by decide))
      · exact absurd rfl (h.ne_cons (by decide))
      · exact Option.map_eq_some_iff.mpr ⟨_, nat?_eq_some_iff.mpr h, rfl⟩

/-- Integers are written with digits and signs alone. -/
theorem IsInteger.mem {s : List Char} {n : Int} (h : IsInteger s n) (c : Char) (hc : c ∈ s) :
    c = '+' ∨ c = '-' ∨ '0' ≤ c ∧ c ≤ '9' := by
  cases h with
  | plain h => exact Or.inr (Or.inr (h.2.1 c hc))
  | plus h =>
    rcases List.mem_cons.mp hc with hc | hc
    · exact Or.inl hc
    · exact Or.inr (Or.inr (h.2.1 c hc))
  | minus h =>
    rcases List.mem_cons.mp hc with hc | hc
    · exact Or.inr (Or.inl hc)
    · exact Or.inr (Or.inr (h.2.1 c hc))

theorem IsInteger.ne_nil {s : List Char} {n : Int} (h : IsInteger s n) : s ≠ [] := by
  cases h with
  | plain h => exact h.1
  | plus h => exact List.cons_ne_nil _ _
  | minus h => exact List.cons_ne_nil _ _

theorem digit_of_lt : ∀ n < 10, ('0' ≤ digit n ∧ digit n ≤ '9') ∧ digitValue (digit n) = n := by
  decide

theorem digit_spec (n : Nat) : ('0' ≤ digit n ∧ digit n ≤ '9') ∧ digitValue (digit n) = n % 10 := by
  have hmod : digit n = digit (n % 10) := by
    unfold digit
    rw [Nat.mod_mod]
  rw [hmod]
  exact digit_of_lt (n % 10) (Nat.mod_lt n (by decide))

theorem isNatural_digit (n : Nat) : IsNatural [digit n] (n % 10) := by
  refine ⟨List.cons_ne_nil _ _, ?_, ?_⟩
  · intro c hc
    rw [List.mem_singleton.mp hc]
    exact (digit_spec n).1
  · exact (digit_spec n).2.symm

theorem IsNatural.append_digit {s : List Char} {m : Nat} (h : IsNatural s m) (n : Nat) :
    IsNatural (s ++ [digit n]) (10 * m + n % 10) := by
  obtain ⟨hne, hd, hm⟩ := h
  refine ⟨by simp [hne], ?_, ?_⟩
  · intro c hc
    rcases List.mem_append.mp hc with hc | hc
    · exact hd c hc
    · rw [List.mem_singleton.mp hc]
      exact (digit_spec n).1
  · rw [← value_eq_ofDigits] at hm ⊢
    rw [value_append_digit, ← hm, (digit_spec n).2]

/-- A numeral stands for the number that it was written for. -/
theorem isNatural_digits (n : Nat) : IsNatural (digits n) n := by
  induction n using digits.induct with
  | case1 n hn =>
    have h := isNatural_digit n
    rw [digits, if_pos hn]
    rwa [Nat.mod_eq_of_lt hn] at h
  | case2 n hn ih =>
    have h := ih.append_digit n
    rw [digits, if_neg hn]
    rwa [Nat.div_add_mod] at h

theorem isInteger_ofInt (n : Int) : IsInteger (ofInt n) n := by
  unfold ofInt
  split
  · have h := IsInteger.minus (isNatural_digits n.natAbs)
    rwa [show -(n.natAbs : Int) = n by omega] at h
  · have h := IsInteger.plain (isNatural_digits n.natAbs)
    rwa [show (n.natAbs : Int) = n by omega] at h

theorem isNatural_value {s : List Char} (hne : s ≠ []) (hd : s.all isDigit = true) : IsNatural s (value s) :=
  ⟨hne, fun c hc => isDigit_iff.mp (List.all_eq_true.mp hd c hc), value_eq_ofDigits s⟩

theorem IsNatural.value_eq {s : List Char} {n : Nat} (h : IsNatural s n) : value s = n :=
  (value_eq_ofDigits s).trans h.2.2.symm

theorem IsNatural.all_isDigit {s : List Char} {n : Nat} (h : IsNatural s n) : s.all isDigit = true :=
  List.all_eq_true.mpr fun c hc => isDigit_iff.mpr (h.2.1 c hc)

/-- A digit is determined by its value, which is below ten. -/
theorem digitValue_spec {c : Char} (h : '0' ≤ c ∧ c ≤ '9') : digitValue c < 10 ∧ digit (digitValue c) = c := by
  have hlo : 48 ≤ c.toNat := h.1
  have hhi : c.toNat ≤ 57 := h.2
  have hlt : c.toNat - 48 < 10 := by omega
  refine ⟨hlt, ?_⟩
  rw [digit, digitValue, Nat.mod_eq_of_lt hlt, Nat.add_sub_cancel' hlo]
  exact Char.ofNat_toNat c

theorem digitValue_lt {s : List Char} (h : ∀ c ∈ s, '0' ≤ c ∧ c ≤ '9') : ∀ v ∈ s.reverse.map digitValue, v < 10 := by
  intro v hv
  obtain ⟨c, hc, rfl⟩ := List.mem_map.mp hv
  exact (digitValue_spec (h c (List.mem_reverse.mp hc))).1

theorem value_lt_pow {s : List Char} (h : ∀ c ∈ s, '0' ≤ c ∧ c ≤ '9') : value s < 10 ^ s.length := by
  have hlt := Nat.ofDigits_lt_base_pow_length (by decide) (digitValue_lt h)
  rwa [← value_eq_ofDigits, List.length_map, List.length_reverse] at hlt

theorem IsNatural.lt_pow {s : List Char} {n : Nat} (h : IsNatural s n) : n < 10 ^ s.length := by
  have hlt := value_lt_pow h.2.1
  rwa [h.value_eq] at hlt

/-- Of each length there is at most one text of a number. -/
theorem IsNatural.unique {s t : List Char} {n : Nat} (hs : IsNatural s n) (ht : IsNatural t n)
    (hlen : s.length = t.length) : s = t := by
  -- the values of the digits are those of the number in base ten, and each is the value of one digit
  have hvalues : s.reverse.map digitValue = t.reverse.map digitValue := by
    apply Nat.ofDigits_inj_of_len_eq (by decide) _ (digitValue_lt hs.2.1) (digitValue_lt ht.2.1)
    · rw [← hs.2.2, ← ht.2.2]
    · simpa using hlen
  rw [List.map_reverse, List.map_reverse, List.reverse_inj] at hvalues
  have hback (u : List Char) (hu : IsNatural u n) : (u.map digitValue).map digit = u := by
    rw [List.map_map]
    calc
      u.map (digit ∘ digitValue) = u.map id := List.map_congr_left fun c hc => (digitValue_spec (hu.2.1 c hc)).2
      _ = u := List.map_id u
  rw [← hback s hs, ← hback t ht, hvalues]

theorem length_digits_le {n width : Nat} (hw : 0 < width) (h : n < 10 ^ width) : (digits n).length ≤ width := by
  induction n using digits.induct generalizing width with
  | case1 n hn =>
    rw [digits, if_pos hn]
    exact hw
  | case2 n hn ih =>
    obtain ⟨width, rfl⟩ := Nat.exists_eq_add_of_lt hw
    rw [Nat.zero_add, Nat.pow_succ] at h
    have hpos : 0 < width := by
      by_contra hc
      rw [Nat.eq_zero_of_not_pos hc] at h
      omega
    have hlen := ih hpos (by omega)
    rw [digits, if_neg hn, List.length_append, List.length_singleton]
    omega

theorem length_padded {n width : Nat} (hw : 0 < width) (h : n < 10 ^ width) : (padded width n).length = width := by
  rw [padded, List.length_append, List.length_replicate, Nat.sub_add_cancel (length_digits_le hw h)]

theorem isNatural_padded (width n : Nat) : IsNatural (padded width n) n := by
  obtain ⟨hne, hd, hn⟩ := isNatural_digits n
  refine ⟨List.append_ne_nil_of_right_ne_nil _ hne, ?_, ?_⟩
  · intro c hc
    rcases List.mem_append.mp hc with hc | hc
    · rw [List.eq_of_mem_replicate hc]
      decide
    · exact hd c hc
  · rw [padded, List.reverse_append, List.reverse_replicate, List.map_append, List.map_replicate,
      show digitValue '0' = 0 from rfl, Nat.ofDigits_append_replicate_zero]
    exact hn

/-- A number with as many digits as are asked for is padded. -/
theorem IsNatural.eq_padded {s : List Char} {n : Nat} (h : IsNatural s n) : s = padded s.length n := by
  apply h.unique (isNatural_padded _ n)
  exact (length_padded (List.length_pos_iff.mpr h.1) h.lt_pow).symm

theorem IsNatural.number_unique {s : List Char} {m n : Nat} (hm : IsNatural s m) (hn : IsNatural s n) : m = n :=
  hm.value_eq.symm.trans hn.value_eq

/-- One numeral after the other: the first one moves up by the digits of the second. -/
theorem IsNatural.append {s t : List Char} {m n : Nat} (hs : IsNatural s m) (ht : IsNatural t n) :
    IsNatural (s ++ t) (m * 10 ^ t.length + n) := by
  obtain ⟨hne, hsd, hm⟩ := hs
  obtain ⟨-, htd, hn⟩ := ht
  refine ⟨by simp [hne], ?_, ?_⟩
  · intro c hc
    rcases List.mem_append.mp hc with hc | hc
    · exact hsd c hc
    · exact htd c hc
  · rw [List.reverse_append, List.map_append, Nat.ofDigits_append, ← hm, ← hn, List.length_map, List.length_reverse,
      Nat.add_comm, Nat.mul_comm]

theorem value_cons (c : Char) (s : List Char) : value (c :: s) = digitValue c * 10 ^ s.length + value s := by
  rw [value_eq_ofDigits, value_eq_ofDigits, List.reverse_cons, List.map_append, Nat.ofDigits_append, List.map_singleton,
    Nat.ofDigits_singleton, List.length_map, List.length_reverse, Nat.add_comm, Nat.mul_comm]

theorem digitValue_inj {a b : Char} (ha : '0' ≤ a ∧ a ≤ '9') (hb : '0' ≤ b ∧ b ≤ '9') (h : digitValue a = digitValue b) :
    a = b := by
  rw [← (digitValue_spec ha).2, ← (digitValue_spec hb).2, h]

theorem digitValue_lt_iff {a b : Char} (ha : '0' ≤ a) (hb : '0' ≤ b) : digitValue a < digitValue b ↔ a < b := by
  have hlow : 48 ≤ a.toNat := ha
  have hlow' : 48 ≤ b.toNat := hb
  change a.toNat - 48 < b.toNat - 48 ↔ a.toNat < b.toNat
  omega

/-- Among numerals of one length the order of texts is that of numbers. The induction is on the first digit, which
outweighs all that follow it. -/
theorem lt_iff_value_lt {s t : List Char} (hs : ∀ c ∈ s, '0' ≤ c ∧ c ≤ '9') (ht : ∀ c ∈ t, '0' ≤ c ∧ c ≤ '9')
    (hlen : s.length = t.length) : s < t ↔ value s < value t := by
  induction s generalizing t with
  | nil =>
    rw [List.length_nil] at hlen
    rw [List.eq_nil_of_length_eq_zero hlen.symm]
    simp
  | cons a s ih =>
    cases t with
    | nil => cases hlen
    | cons b t =>
      obtain ⟨ha, hs⟩ := List.forall_mem_cons.mp hs
      obtain ⟨hb, ht⟩ := List.forall_mem_cons.mp ht
      have hlen' : s.length = t.length := Nat.succ.inj hlen
      have hsv := value_lt_pow hs
      have htv := value_lt_pow ht
      rw [hlen'] at hsv
      rw [List.cons_lt_cons_iff, ih hs ht hlen', value_cons, value_cons, hlen']
      rcases Nat.lt_trichotomy (digitValue a) (digitValue b) with h | h | h
      · have hpow := Nat.mul_le_mul_right (10 ^ t.length) (Nat.succ_le_of_lt h)
        rw [Nat.succ_mul] at hpow
        have hab := (digitValue_lt_iff ha.1 hb.1).mp h
        constructor
        · intro _
          omega
        · exact fun _ => Or.inl hab
      · obtain rfl := digitValue_inj ha hb h
        simp
      · have hpow := Nat.mul_le_mul_right (10 ^ t.length) (Nat.succ_le_of_lt h)
        rw [Nat.succ_mul] at hpow
        have hba := (digitValue_lt_iff hb.1 ha.1).mp h
        constructor
        · rintro (hlt | ⟨rfl, -⟩)
          · exact absurd hlt (Char.lt_asymm hba)
          · exact absurd hba (Char.lt_irrefl _)
        · intro hlt
          omega

theorem IsNatural.lt_iff {s t : List Char} {m n : Nat} (hs : IsNatural s m) (ht : IsNatural t n)
    (hlen : s.length = t.length) : s < t ↔ m < n := by
  rw [lt_iff_value_lt hs.2.1 ht.2.1 hlen, hs.value_eq, ht.value_eq]

end Agenda.Text.Numeral
