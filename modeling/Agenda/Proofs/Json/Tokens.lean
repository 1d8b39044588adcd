import Agenda.Json.Skip
import Agenda.Proofs.Except
import Mathlib.Data.List.TakeWhile
/-!
The tokens of JSON as languages of bytes, and that the scanners which skip them take these languages and no others off
the front of a text. A number has no end of its own, so what may follow it belongs to the statements about it.
-/
namespace Agenda.Json

open Text

/-- The byte between a name and its value. -/
def colon : UInt8 := 0x3A

/-- The byte between two items of a bracket. -/
def comma : UInt8 := 0x2C

/-- White space, or nothing. -/
def Spaces (w : Bytes) : Prop :=
  ∀ b ∈ w, isSpace b = true

/-- Digits, one at least. -/
def IsDigits (ds : Bytes) : Prop :=
  ds ≠ [] ∧ ∀ d ∈ ds, isDigitByte d = true

/-- The digits of a number before its point. No other digit follows a zero. -/
inductive IsWhole : Bytes → Prop
  | zero : IsWhole [0x30]
  | digits {d : UInt8} {ds : Bytes} (hd : isDigitByte d = true) (hne : d ≠ 0x30)
    (hds : ∀ d ∈ ds, isDigitByte d = true) : IsWhole (d :: ds)

/-- The point of a number and the digits after it, or nothing. -/
inductive IsFraction : Bytes → Prop
  | none : IsFraction []
  | digits {ds : Bytes} (h : IsDigits ds) : IsFraction (0x2E :: ds)

/-- The sign of an exponent, or nothing. -/
def IsSign (sign : Bytes) : Prop :=
  sign = [] ∨ sign = [0x2B] ∨ sign = [0x2D]

/-- The power of ten by which a number is multiplied, or nothing. -/
inductive IsExponent : Bytes → Prop
  | none : IsExponent []
  | digits {e : UInt8} {sign ds : Bytes} (he : e = 0x65 ∨ e = 0x45) (hsign : IsSign sign)
    (h : IsDigits ds) : IsExponent (e :: (sign ++ ds))

/-- A number without its sign. -/
inductive IsMagnitude : Bytes → Prop
  | mk {whole fraction exponent : Bytes} (hw : IsWhole whole) (hf : IsFraction fraction) (he : IsExponent exponent) :
    IsMagnitude (whole ++ (fraction ++ exponent))

/-- The bytes between the quotes of a string, by their form alone. -/
inductive IsContent : Bytes → Prop
  | nil : IsContent []
  | byte {b : UInt8} {bs : Bytes} (hquote : b ≠ quote) (hback : b ≠ backslash) (hlow : ¬ b < 0x20) (h : IsContent bs) :
    IsContent (b :: bs)
  | letter {b : UInt8} {bs : Bytes} (hb : (escaped? b).isSome = true) (h : IsContent bs) :
    IsContent (backslash :: b :: bs)
  | number {digits bs : Bytes} (hlen : digits.length = 4)
    (hdigits : ∀ d ∈ digits, (Hexadecimal.byteValue? d).isSome = true) (h : IsContent bs) :
    IsContent (backslash :: letterU :: (digits ++ bs))

/-- A value without brackets. -/
inductive IsScalar : Bytes → Prop
  | isNull : IsScalar (0x6E :: ull)
  | isTrue : IsScalar (0x74 :: rue)
  | isFalse : IsScalar (0x66 :: alse)
  | positive {bs : Bytes} (h : IsMagnitude bs) : IsScalar bs
  | negative {bs : Bytes} (h : IsMagnitude bs) : IsScalar (0x2D :: bs)
  | string {bs : Bytes} (h : IsContent bs) : IsScalar (quote :: (bs ++ [quote]))

variable {w s r bs ds word fraction exponent : Bytes} {b : UInt8}

theorem spaces_nil : Spaces [] :=
  List.forall_mem_nil _

theorem skipSpace_cons (h : isSpace b = false) (bs : Bytes) : skipSpace (b :: bs) = b :: bs := by
  rw [skipSpace, List.dropWhile_cons_of_neg]
  rw [h]
  exact Bool.false_ne_true

theorem skipSpace_append (hw : Spaces w) (s : Bytes) : skipSpace (w ++ s) = skipSpace s :=
  List.dropWhile_append_of_pos hw

theorem skipSpace_append_cons (hw : Spaces w) (h : isSpace b = false) (s : Bytes) :
    skipSpace (w ++ b :: s) = b :: s := by
  rw [skipSpace_append hw, skipSpace_cons h]

theorem exists_dropWhile (p : UInt8 → Bool) (s : Bytes) : ∃ w, (∀ b ∈ w, p b = true) ∧ s = w ++ s.dropWhile p :=
  ⟨s.takeWhile p, fun _ hb => List.mem_takeWhile_imp hb, List.takeWhile_append_dropWhile.symm⟩

theorem exists_skipSpace (h : skipSpace s = bs) : ∃ w, Spaces w ∧ s = w ++ bs := by
  obtain ⟨w, hw, hs⟩ := exists_dropWhile isSpace s
  rw [← h]
  exact ⟨w, hw, hs⟩

theorem skipIdent_eq_ok_iff : skipIdent word s = .ok r ↔ s = word ++ r := by
  induction word generalizing s with
  | nil =>
    rw [skipIdent, Except.ok.injEq]
    rfl
  | cons x word ih =>
    cases s with
    | nil => simp [skipIdent]
    | cons b bs =>
      rw [skipIdent, List.cons_append, List.cons.injEq]
      split_ifs with hb
      · rw [ih]
        exact (and_iff_right hb).symm
      · simp [hb]

/-- Whether a text begins without a digit. -/
def NoDigit (s : Bytes) : Prop :=
  ∀ b ∈ s.head?, isDigitByte b = false

/-- Whether a number may end in front of a text. -/
def EndsNumber (s : Bytes) : Prop :=
  ∀ b ∈ s.head?, isDigitByte b = false ∧ b ≠ 0x2E ∧ b ≠ 0x65 ∧ b ≠ 0x45

theorem EndsNumber.noDigit (h : EndsNumber r) : NoDigit r :=
  fun b hb => (h b hb).1

theorem dropDigits_append (hds : ∀ d ∈ ds, isDigitByte d = true) (hr : NoDigit r) :
    (ds ++ r).dropWhile isDigitByte = r := by
  rw [List.dropWhile_append_of_pos hds]
  cases r with
  | nil => rfl
  | cons b r => exact List.dropWhile_cons_of_neg (Bool.eq_false_iff.mp (hr b rfl))

theorem IsDigits.exists_cons (h : IsDigits ds) :
    ∃ d ds', ds = d :: ds' ∧ isDigitByte d = true ∧ ∀ d ∈ ds', isDigitByte d = true := by
  cases ds with
  | nil => exact absurd rfl h.1
  | cons d ds => exact ⟨d, ds, rfl, List.forall_mem_cons.mp h.2⟩

theorem isDigits_cons (hb : isDigitByte b = true) (hds : ∀ d ∈ ds, isDigitByte d = true) : IsDigits (b :: ds) :=
  ⟨List.cons_ne_nil b ds, List.forall_mem_cons.mpr ⟨hb, hds⟩⟩

theorem skipExponent_eq_ok_iff : skipExponent s = .ok r ↔ ∃ sign d ds, IsSign sign ∧ s = sign ++ d :: ds ∧
    isDigitByte d = true ∧ r = ds.dropWhile isDigitByte := by
  constructor
  · intro h
    unfold skipExponent at h
    cases s with
    | nil => cases h
    | cons b bs =>
      dsimp only at h
      by_cases hb : b = 0x2B ∨ b = 0x2D
      · rw [if_pos hb] at h
        cases bs with
        | nil => cases h
        | cons d ds =>
          dsimp only at h
          split_ifs at h with hd
          have hsign : IsSign [b] := Or.inr (hb.imp (congrArg fun x => [x]) (congrArg fun x => [x]))
          exact ⟨[b], d, ds, hsign, rfl, hd, (Except.ok.inj h).symm⟩
      · rw [if_neg hb] at h
        dsimp only at h
        split_ifs at h with hd
        exact ⟨[], b, bs, Or.inl rfl, rfl, hd, (Except.ok.inj h).symm⟩
  · rintro ⟨sign, d, ds, rfl | rfl | rfl, rfl, hd, rfl⟩
    · have hsign : ¬ (d = 0x2B ∨ d = 0x2D) := by
        rintro (rfl | rfl)
        all_goals cases hd
      unfold skipExponent
      dsimp only [List.nil_append]
      rw [if_neg hsign]
      exact if_pos hd
    · exact if_pos hd
    · exact if_pos hd

theorem IsExponent.skipExponentPart_append (h : IsExponent exponent) (hr : EndsNumber r) :
    skipExponentPart (exponent ++ r) = .ok r := by
  cases h with
  | none =>
    cases r with
    | nil => rfl
    | cons b r =>
      obtain ⟨-, -, he, hE⟩ := hr b rfl
      exact if_neg fun h => h.elim he hE
  | @digits e sign ds he hsign h =>
    obtain ⟨d, ds, rfl, hd, hds⟩ := h.exists_cons
    have hdrop := (dropDigits_append hds hr.noDigit).symm
    have hskip := skipExponent_eq_ok_iff.mpr ⟨sign, d, ds ++ r, hsign, rfl, hd, hdrop⟩
    rw [List.cons_append, skipExponentPart, if_pos he, List.append_assoc]
    exact hskip

theorem exists_of_skipExponentPart (h : skipExponentPart s = .ok r) : ∃ e, IsExponent e ∧ s = e ++ r := by
  unfold skipExponentPart at h
  split at h
  · split_ifs at h with he
    · obtain ⟨sign, d, ds, hsign, rfl, hd, rfl⟩ := skipExponent_eq_ok_iff.mp h
      obtain ⟨ds', hds, hsplit⟩ := exists_dropWhile isDigitByte ds
      refine ⟨_, IsExponent.digits he hsign (isDigits_cons hd hds), ?_⟩
      rw [List.cons_append, List.append_assoc, List.cons_append, ← hsplit]
    · cases h
      exact ⟨[], IsExponent.none, rfl⟩
  · cases h
    exact ⟨[], IsExponent.none, rfl⟩

/-- Neither a digit nor a point begins an exponent or what follows it. -/
theorem IsExponent.head_append (h : IsExponent exponent) (hr : EndsNumber r) :
    ∀ b ∈ (exponent ++ r).head?, isDigitByte b = false ∧ b ≠ 0x2E := by
  cases h with
  | none => exact fun b hb => ⟨(hr b hb).1, (hr b hb).2.1⟩
  | digits he hsign h =>
    rintro b hb
    cases hb
    rcases he with rfl | rfl
    · decide
    · decide

theorem IsFraction.skipFractionPart_append (h : IsFraction fraction) (he : IsExponent exponent) (hr : EndsNumber r) :
    skipFractionPart (fraction ++ (exponent ++ r)) = .ok r := by
  have hskip := he.skipExponentPart_append hr
  have hhead := he.head_append hr
  cases h with
  | none =>
    rw [List.nil_append]
    generalize exponent ++ r = s at hskip hhead
    cases s with
    | nil => exact hskip
    | cons b s => rw [skipFractionPart, if_neg (hhead b rfl).2, hskip]
  | digits h =>
    obtain ⟨d, ds, rfl, hd, hds⟩ := h.exists_cons
    have hdrop := dropDigits_append hds (fun b hb => (hhead b hb).1)
    rw [List.cons_append, skipFractionPart, if_pos rfl, List.cons_append, skipFraction, if_pos hd, hdrop, hskip]

theorem exists_of_skipFractionPart (h : skipFractionPart s = .ok r) :
    ∃ f e, IsFraction f ∧ IsExponent e ∧ s = f ++ (e ++ r) := by
  unfold skipFractionPart at h
  split at h
  · split_ifs at h with hpoint
    · unfold skipFraction at h
      split at h
      · split_ifs at h with hd
        next b bs d ds =>
        obtain ⟨ds', hds, hsplit⟩ := exists_dropWhile isDigitByte ds
        obtain ⟨e, he, hrest⟩ := exists_of_skipExponentPart h
        refine ⟨_, e, IsFraction.digits (isDigits_cons hd hds), he, ?_⟩
        rw [hpoint, List.cons_append, List.cons_append, ← hrest, ← hsplit]
      · cases h
    · obtain ⟨e, he, hs⟩ := exists_of_skipExponentPart h
      exact ⟨[], e, IsFraction.none, he, hs⟩
  · cases h
    exact ⟨[], [], IsFraction.none, IsExponent.none, rfl⟩

/-- Neither a digit begins a fraction, nor an exponent or what follows it. -/
theorem IsFraction.noDigit_append (h : IsFraction fraction) (he : IsExponent exponent) (hr : EndsNumber r) :
    NoDigit (fraction ++ (exponent ++ r)) := by
  cases h with
  | none => exact fun b hb => (he.head_append hr b hb).1
  | digits h =>
    rintro b hb
    cases hb
    decide

theorem IsMagnitude.skipMagnitude_append (h : IsMagnitude bs) (hr : EndsNumber r) :
    skipMagnitude (bs ++ r) = .ok r := by
  obtain ⟨hw, hf, he⟩ := h
  have hskip := hf.skipFractionPart_append he hr
  have hdigit := hf.noDigit_append he hr
  rw [List.append_assoc, List.append_assoc]
  cases hw with
  | zero =>
    have hnone : ∀ {s : Bytes}, NoDigit s → s.head?.any isDigitByte = false := by
      intro s hs
      cases s with
      | nil => rfl
      | cons b s => exact hs b rfl
    rw [List.singleton_append, skipMagnitude, if_pos rfl, hnone hdigit, if_neg Bool.false_ne_true, hskip]
  | digits hd hne hds =>
    have hdrop := dropDigits_append hds hdigit
    rw [List.cons_append, skipMagnitude, if_neg hne, if_pos hd, hdrop, hskip]

theorem exists_of_skipMagnitude (h : skipMagnitude s = .ok r) : ∃ bs, IsMagnitude bs ∧ s = bs ++ r := by
  unfold skipMagnitude at h
  split at h
  · next b s =>
    split_ifs at h with hzero hnone hd
    · obtain ⟨f, e, hf, he, rfl⟩ := exists_of_skipFractionPart h
      refine ⟨_, IsMagnitude.mk IsWhole.zero hf he, ?_⟩
      rw [hzero, List.append_assoc, List.append_assoc]
      rfl
    · obtain ⟨f, e, hf, he, hrest⟩ := exists_of_skipFractionPart h
      obtain ⟨ds, hds, hsplit⟩ := exists_dropWhile isDigitByte s
      refine ⟨_, IsMagnitude.mk (IsWhole.digits hd hzero hds) hf he, ?_⟩
      rw [List.append_assoc, List.append_assoc, List.cons_append, ← hrest, ← hsplit]
  · cases h

theorem ne_of_isDigitByte {d : UInt8} (hd : isDigitByte d = true) (hb : isDigitByte b = false) : d ≠ b := by
  rintro rfl
  rw [hd] at hb
  cases hb

/-- A number begins with a digit. -/
theorem IsMagnitude.exists_cons (h : IsMagnitude bs) : ∃ d bs', bs = d :: bs' ∧ isDigitByte d = true := by
  obtain ⟨hw, hf, he⟩ := h
  cases hw with
  | zero => exact ⟨_, _, rfl, by decide⟩
  | digits hd _ _ => exact ⟨_, _, rfl, hd⟩

/-- The digits of an escape by number are skipped when all of them are digits. -/
theorem skipStringFrom_digits {digits : Bytes} (hne : digits ≠ [])
    (h : ∀ d ∈ digits, (Hexadecimal.byteValue? d).isSome = true) (s : Bytes) :
    skipStringFrom (.hex digits.length true) (digits ++ s) = skipStringFrom .plain s := by
  -- the last digit ends the escape, so a single one is the case to start from
  induction digits with
  | nil => exact absurd rfl hne
  | cons d digits ih =>
    obtain ⟨hd, hdigits⟩ := List.forall_mem_cons.mp h
    cases digits with
    | nil =>
      rw [List.length_singleton, List.singleton_append, skipStringFrom, hd]
      rfl
    | cons e digits =>
      rw [List.length_cons, List.cons_append, skipStringFrom, hd, if_neg (by simp)]
      exact ih (List.cons_ne_nil e digits) hdigits

theorem IsContent.skipString_append (h : IsContent bs) (r : Bytes) : skipString (bs ++ quote :: r) = .ok r := by
  rw [skipString]
  induction h with
  | nil => rfl
  | byte hquote hback hlow _ ih => rw [List.cons_append, skipStringFrom, if_neg hquote, if_neg hback, if_neg hlow, ih]
  | @letter b bs hb _ ih =>
    have hu : b ≠ letterU := by
      rintro rfl
      cases hb
    rw [List.cons_append, List.cons_append, skipStringFrom, if_neg (by decide), if_pos rfl, skipStringFrom, if_neg hu,
      if_pos hb, ih]
  | @number digits bs hlen hdigits _ ih =>
    have hne : digits ≠ [] := List.ne_nil_of_length_eq_add_one hlen
    have hskip := skipStringFrom_digits hne hdigits (bs ++ quote :: r)
    rw [hlen] at hskip
    rw [List.cons_append, List.cons_append, List.append_assoc, skipStringFrom, if_neg (by decide), if_pos rfl,
      skipStringFrom, if_pos rfl, hskip, ih]

theorem exists_of_skipStringFrom_hex (k : Nat) {valid : Bool} (h : skipStringFrom (.hex (k + 1) valid) s = .ok r) :
    valid = true ∧ ∃ digits s', s = digits ++ s' ∧ digits.length = k + 1 ∧
      (∀ d ∈ digits, (Hexadecimal.byteValue? d).isSome = true) ∧ skipStringFrom .plain s' = .ok r := by
  induction k generalizing valid s with
  | zero =>
    cases s with
    | nil => cases h
    | cons b s =>
      rw [skipStringFrom, if_pos (le_refl 1)] at h
      split_ifs at h with hvalid
      obtain ⟨hvalid, hb⟩ := (Bool.and_eq_true _ _).mp hvalid
      exact ⟨hvalid, [b], s, rfl, rfl, List.forall_mem_singleton.mpr hb, h⟩
  | succ k ih =>
    cases s with
    | nil => cases h
    | cons b s =>
      rw [skipStringFrom, if_neg (show ¬ k + 1 + 1 ≤ 1 by omega)] at h
      obtain ⟨hvalid, digits, s', rfl, hlen, hdigits, hrest⟩ := ih h
      obtain ⟨hvalid, hb⟩ := (Bool.and_eq_true _ _).mp hvalid
      exact ⟨hvalid, b :: digits, s', rfl, congrArg Nat.succ hlen, List.forall_mem_cons.mpr ⟨hb, hdigits⟩, hrest⟩

theorem exists_of_skipString (h : skipString s = .ok r) : ∃ bs, IsContent bs ∧ s = bs ++ quote :: r := by
  rw [skipString] at h
  -- an escape takes several bytes at once, so the induction is on how many are left
  induction hlen : s.length using Nat.strong_induction_on generalizing s with
  | _ len ih =>
  subst hlen
  cases s with
  | nil => cases h
  | cons b s =>
    rw [skipStringFrom] at h
    split_ifs at h with hquote hback hlow
    · cases h
      exact ⟨[], IsContent.nil, by rw [hquote]; rfl⟩
    · cases s with
      | nil => cases h
      | cons c s =>
        rw [skipStringFrom] at h
        split_ifs at h with hu hletter
        · obtain ⟨-, digits, s', rfl, hlen, hdigits, hrest⟩ := exists_of_skipStringFrom_hex 3 h
          obtain ⟨bs, hbs, rfl⟩ := ih s'.length (by simp only [List.length_cons, List.length_append]; omega) hrest rfl
          refine ⟨_, IsContent.number hlen hdigits hbs, ?_⟩
          rw [hback, hu, List.cons_append, List.cons_append, List.append_assoc]
        · obtain ⟨bs, hbs, rfl⟩ := ih s.length (by simp only [List.length_cons]; omega) h rfl
          refine ⟨_, IsContent.letter hletter hbs, ?_⟩
          rw [hback]
          rfl
    · obtain ⟨bs, hbs, rfl⟩ := ih s.length (by simp only [List.length_cons]; omega) h rfl
      exact ⟨_, IsContent.byte hquote hback hlow hbs, rfl⟩

theorem skipColon_append (hw : Spaces w) (r : Bytes) : skipColon (w ++ colon :: r) = .ok r := by
  rw [skipColon, skipSpace_append_cons hw rfl]
  exact if_pos rfl

theorem skipColon_eq_ok_iff : skipColon s = .ok r ↔ ∃ w, Spaces w ∧ s = w ++ colon :: r := by
  constructor
  · intro h
    unfold skipColon at h
    split at h
    · next b bs hb =>
      split_ifs at h with hcolon
      cases h
      rw [hcolon] at hb
      exact exists_skipSpace hb
    · cases h
  · rintro ⟨w, hw, rfl⟩
    exact skipColon_append hw r

/-- The name of an item of an object and the colon after it. -/
inductive IsKey : Bytes → Prop
  | mk {w bs w' : Bytes} (hw : Spaces w) (h : IsContent bs) (hw' : Spaces w') :
    IsKey (w ++ quote :: (bs ++ quote :: (w' ++ [colon])))

theorem IsKey.skipKey_append {k : Bytes} (h : IsKey k) (r : Bytes) : skipKey (k ++ r) = .ok r := by
  obtain @⟨w, bs, w', hw, h, hw'⟩ := h
  have hsplit : w ++ quote :: (bs ++ quote :: (w' ++ [colon])) ++ r =
      w ++ quote :: (bs ++ quote :: (w' ++ colon :: r)) := by
    simp only [List.append_assoc, List.cons_append, List.nil_append]
  rw [hsplit, skipKey, skipSpace_append_cons hw rfl]
  dsimp only
  rw [if_pos rfl, h.skipString_append]
  exact skipColon_append hw' r

theorem skipKey_eq_ok_iff : skipKey s = .ok r ↔ ∃ k, IsKey k ∧ s = k ++ r := by
  constructor
  · intro h
    unfold skipKey at h
    split at h
    · next b bs hb =>
      split_ifs at h with hquote
      obtain ⟨t, ht, hcolon⟩ := bind_eq_ok_iff.mp h
      obtain ⟨content, hcontent, rfl⟩ := exists_of_skipString ht
      obtain ⟨w', hw', rfl⟩ := skipColon_eq_ok_iff.mp hcolon
      rw [hquote] at hb
      obtain ⟨w, hw, rfl⟩ := exists_skipSpace hb
      refine ⟨_, IsKey.mk hw hcontent hw', ?_⟩
      simp only [List.append_assoc, List.cons_append, List.nil_append]
    · cases h
  · rintro ⟨k, h, rfl⟩
    exact h.skipKey_append r

theorem IsScalar.skipScalar_append (h : IsScalar bs) (hr : EndsNumber r) : skipScalar (bs ++ r) = .ok r := by
  have hword {word : Bytes} : skipIdent word (word ++ r) = .ok r := skipIdent_eq_ok_iff.mpr rfl
  cases h with
  | isNull => exact hword
  | isTrue => exact hword
  | isFalse => exact hword
  | positive h =>
    have hskip := h.skipMagnitude_append hr
    obtain ⟨d, ds, rfl, hd⟩ := h.exists_cons
    have hne {b : UInt8} (hb : isDigitByte b = false) : d ≠ b := ne_of_isDigitByte hd hb
    rw [List.cons_append] at hskip ⊢
    rw [skipScalar, if_neg (hne (by decide)), if_neg (hne (by decide)), if_neg (hne (by decide)),
      if_neg (hne (by decide)), if_pos hd, hskip]
  | negative h => exact h.skipMagnitude_append hr
  | @string bs h =>
    have hskip := h.skipString_append r
    rw [List.cons_append, List.append_assoc]
    exact hskip

theorem exists_of_skipScalar (h : skipScalar s = .ok r) : ∃ bs, IsScalar bs ∧ s = bs ++ r := by
  unfold skipScalar at h
  split at h
  · cases h
  · next b s =>
    split_ifs at h with hn ht hf hsign hd hquote
    · rw [hn, skipIdent_eq_ok_iff.mp h]
      exact ⟨_, IsScalar.isNull, rfl⟩
    · rw [ht, skipIdent_eq_ok_iff.mp h]
      exact ⟨_, IsScalar.isTrue, rfl⟩
    · rw [hf, skipIdent_eq_ok_iff.mp h]
      exact ⟨_, IsScalar.isFalse, rfl⟩
    · obtain ⟨bs, hbs, rfl⟩ := exists_of_skipMagnitude h
      rw [hsign]
      exact ⟨_, IsScalar.negative hbs, rfl⟩
    · obtain ⟨bs, hbs, hs⟩ := exists_of_skipMagnitude h
      exact ⟨bs, IsScalar.positive hbs, hs⟩
    · obtain ⟨bs, hbs, rfl⟩ := exists_of_skipString h
      rw [hquote]
      refine ⟨_, IsScalar.string hbs, ?_⟩
      rw [List.cons_append, List.append_assoc]
      rfl

/-- A value without brackets begins neither with white space nor with a bracket. -/
theorem IsScalar.exists_cons (h : IsScalar bs) :
    ∃ b bs', bs = b :: bs' ∧ isSpace b = false ∧ ∀ k : Bracket, b ≠ k.opening ∧ b ≠ k.closing := by
  cases h with
  | isNull => exact ⟨_, _, rfl, by decide, by rintro (_ | _) <;> decide⟩
  | isTrue => exact ⟨_, _, rfl, by decide, by rintro (_ | _) <;> decide⟩
  | isFalse => exact ⟨_, _, rfl, by decide, by rintro (_ | _) <;> decide⟩
  | positive h =>
    obtain ⟨d, ds, rfl, hd⟩ := h.exists_cons
    have hne {b : UInt8} (hb : isDigitByte b = false) : (d == b) = false :=
      beq_false_of_ne (ne_of_isDigitByte hd hb)
    have hspace : isSpace d = false := by
      rw [isSpace, hne (by decide), hne (by decide), hne (by decide), hne (by decide)]
      rfl
    refine ⟨d, ds, rfl, hspace, ?_⟩
    rintro (_ | _)
    all_goals exact ⟨ne_of_isDigitByte hd (by decide), ne_of_isDigitByte hd (by decide)⟩
  | negative h => exact ⟨_, _, rfl, by decide, by rintro (_ | _) <;> decide⟩
  | string h => exact ⟨_, _, rfl, by decide, by rintro (_ | _) <;> decide⟩

end Agenda.Json
