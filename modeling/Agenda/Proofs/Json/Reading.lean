import Agenda.Proofs.Json.Strings
import Agenda.Proofs.Text.Pieces
/-!
A string that is read was spelled. The scanner keeps bytes and finds out at the closing quote whether they are text, so
what it reads is taken apart first into bytes that stand for themselves and escaped characters. An escaped character is
never put in the middle of another one, so these are the characters of the text, each spelled in its place.
-/
namespace Agenda.Json

open Text

/-- The bytes that are added to a text by bytes of a string that are taken in one go. -/
inductive Adds : Bytes → Bytes → Prop
  /-- A byte that stands for itself. -/
  | plain {b : UInt8} (hquote : b ≠ quote) (hback : b ≠ backslash) (hlow : ¬ b < 0x20) : Adds [b] [b]
  /-- An escaped character. -/
  | escape {bs : Bytes} {c : Char} (h : Spells (backslash :: bs) c) :
    Adds (backslash :: bs) (String.utf8EncodeChar c)

/-- The bytes that are added to a text by bytes of a string. -/
inductive AddsAll : Bytes → Bytes → Prop
  | nil : AddsAll [] []
  | cons {bs bs' added added' : Bytes} (h : Adds bs added) (hs : AddsAll bs' added') :
    AddsAll (bs ++ bs') (added ++ added')

variable {state next : Inside} {found added bs s rest : Bytes} {b : UInt8} {c : Char} {t : List Char} {n : Nat}
  {high value : Option Nat} {p : List Char × Bytes}

theorem exists_step (hinside : state ≠ .plain) (h : scanStringFrom state found s = .ok p) :
    ∃ b bs added next, s = b :: bs ∧ stringStep state b = .ok (added, next) ∧
      scanStringFrom next (added.reverse ++ found) bs = .ok p := by
  cases s with
  | nil => cases h
  | cons b bs =>
    rw [scanStringFrom, if_neg fun hend => hinside hend.1] at h
    cases hstep : stringStep state b with
    | error r =>
      rw [hstep] at h
      cases h
    | ok q =>
      obtain ⟨added, next⟩ := q
      rw [hstep] at h
      exact ⟨b, bs, added, next, rfl, hstep, h⟩

/-- An escape by number is read up to its last digit. -/
theorem exists_digits (k : Nat) (h : scanStringFrom (.hex (k + 1) value high) found s = .ok p) :
    ∃ digits s' added next, s = digits ++ s' ∧ digits.length = k + 1 ∧
      endHex (digits.foldl pushHex value) high = .ok (added, next) ∧
        scanStringFrom next (added.reverse ++ found) s' = .ok p := by
  induction k generalizing value s with
  | zero =>
    obtain ⟨b, bs, added, next, rfl, hstep, h⟩ := exists_step (by simp) h
    exact ⟨[b], bs, added, next, rfl, rfl, hstep, h⟩
  | succ k ih =>
    obtain ⟨b, bs, added, next, rfl, hstep, h⟩ := exists_step (by simp) h
    rw [stringStep, if_neg (show ¬ k + 1 + 1 ≤ 1 by omega)] at hstep
    cases hstep
    obtain ⟨digits, s', added, next, rfl, hlen, hend, h⟩ := ih h
    exact ⟨b :: digits, s', added, next, rfl, congrArg Nat.succ hlen, hend, h⟩

theorem exists_number (h : scanStringFrom (.hex 4 (some 0) high) found s = .ok p) :
    ∃ digits n s' added next, s = digits ++ s' ∧ digits.length = 4 ∧ hexValue? digits = some n ∧
      endHex (some n) high = .ok (added, next) ∧ scanStringFrom next (added.reverse ++ found) s' = .ok p := by
  obtain ⟨digits, s', added, next, hs, hlen, hend, h⟩ := exists_digits 3 h
  change endHex (hexValue? digits) high = _ at hend
  cases hvalue : hexValue? digits with
  | none =>
    rw [hvalue] at hend
    cases hend
  | some n =>
    rw [hvalue] at hend
    exact ⟨digits, n, s', added, next, hs, hlen, hvalue, hend, h⟩

/-- After a first number the escape is over, or it was the first half of a pair. -/
theorem endHex_first (h : endHex (some n) none = .ok (added, next)) :
    (isHighSurrogate n = false ∧ isLowSurrogate n = false ∧ added = String.utf8EncodeChar (Char.ofNat n) ∧
      next = .plain) ∨ (isHighSurrogate n = true ∧ added = [] ∧ next = .pair n) := by
  rw [endHex] at h
  split_ifs at h with hlow hhigh
  all_goals
    rw [Except.ok.injEq, Prod.mk.injEq] at h
  · exact Or.inr ⟨hhigh, h.1.symm, h.2.symm⟩
  · exact Or.inl ⟨Bool.eq_false_of_not_eq_true hhigh, Bool.eq_false_of_not_eq_true hlow, h.1.symm, h.2.symm⟩

theorem endHex_second {high : Nat} (h : endHex (some n) (some high) = .ok (added, next)) :
    isLowSurrogate n = true ∧ added = String.utf8EncodeChar (pairedChar high n) ∧ next = .plain := by
  rw [endHex] at h
  split_ifs at h with hlow
  rw [Except.ok.injEq, Prod.mk.injEq] at h
  exact ⟨hlow, h.1.symm, h.2.symm⟩

/-- What is read after the first half of a pair: a second escape by number, which is the other half. -/
theorem exists_second_half {high : Nat} (h : scanStringFrom (.pair high) found s = .ok p) :
    ∃ digits low s', s = backslash :: letterU :: digits ++ s' ∧ digits.length = 4 ∧ hexValue? digits = some low ∧
      isLowSurrogate low = true ∧
        scanStringFrom .plain ((String.utf8EncodeChar (pairedChar high low)).reverse ++ found) s' = .ok p := by
  obtain ⟨b, bs, added, next, rfl, hstep, hescape⟩ := exists_step (by simp) h
  rw [stringStep] at hstep
  split_ifs at hstep with hb
  cases hstep
  obtain ⟨u, bs, added, next, rfl, hstep, hnumber⟩ := exists_step (by simp) hescape
  rw [stringStep] at hstep
  split_ifs at hstep with hu
  cases hstep
  obtain ⟨digits, low, s', added, next, rfl, hlen, hvalue, hend, hrest⟩ := exists_number hnumber
  obtain ⟨hlow, hadded, rfl⟩ := endHex_second hend
  rw [hadded] at hrest
  subst hb hu
  exact ⟨digits, low, s', rfl, hlen, hvalue, hlow, hrest⟩

/-- What is read after a backslash: the rest of an escape. -/
theorem exists_escaped (h : scanStringFrom .escape found s = .ok p) :
    ∃ bs c s', s = bs ++ s' ∧ Spells (backslash :: bs) c ∧
      scanStringFrom .plain ((String.utf8EncodeChar c).reverse ++ found) s' = .ok p := by
  obtain ⟨b, bs, added, next, rfl, hstep, h⟩ := exists_step (by simp) h
  rw [stringStep] at hstep
  by_cases hu : b = letterU
  · subst hu
    rw [if_pos rfl] at hstep
    cases hstep
    obtain ⟨digits, n, s', added, next, rfl, hlen, hvalue, hend, h⟩ := exists_number h
    rcases endHex_first hend with ⟨hhigh, hlow, rfl, rfl⟩ | ⟨hhigh, rfl, rfl⟩
    · exact ⟨letterU :: digits, Char.ofNat n, s', rfl, Spells.number hlen hvalue hhigh hlow, h⟩
    · obtain ⟨digits', low, s'', rfl, hlen', hvalue', hlow, h⟩ := exists_second_half h
      refine ⟨letterU :: digits ++ backslash :: letterU :: digits', pairedChar n low, s'', ?_, ?_, h⟩
      · rw [List.append_assoc]
        rfl
      · exact Spells.pair hlen hlen' hvalue hvalue' hhigh hlow
  · rw [if_neg hu] at hstep
    cases hb : escaped? b with
    | none =>
      rw [hb] at hstep
      cases hstep
    | some x =>
      rw [hb] at hstep
      cases hstep
      have hbytes := Utf8.encodeChar_of_lt (escaped?_lt hb).2
      refine ⟨[b], Char.ofNat x.toNat, bs, rfl, Spells.letter hb, ?_⟩
      rw [hbytes]
      exact h

/-- Up to the closing quote a string is made of bytes that stand for themselves and escapes. -/
theorem exists_addsAll (h : scanStringFrom .plain found s = .ok (t, rest)) :
    ∃ bs added, s = bs ++ quote :: rest ∧ AddsAll bs added ∧ Utf8.decode? (found.reverse ++ added) = some t := by
  -- an escape takes several bytes at once, so the induction is on how many are left
  induction hlen : s.length using Nat.strong_induction_on generalizing found s with
  | _ len ih =>
  subst hlen
  cases s with
  | nil => cases h
  | cons b s =>
    by_cases hquote : b = quote
    · subst hquote
      rw [scanStringFrom, if_pos ⟨rfl, rfl⟩] at h
      cases hdecode : Utf8.decode? found.reverse with
      | none =>
        rw [hdecode] at h
        cases h
      | some t' =>
        rw [hdecode] at h
        cases h
        refine ⟨[], [], rfl, AddsAll.nil, ?_⟩
        rw [List.append_nil, hdecode]
    rw [scanStringFrom, if_neg fun hend => hquote hend.2, stringStep] at h
    split_ifs at h with hback hlow
    · subst hback
      obtain ⟨bs, c, s', rfl, hspells, h⟩ := exists_escaped h
      have hless : s'.length < (backslash :: (bs ++ s')).length := by
        rw [List.length_cons, List.length_append]
        omega
      obtain ⟨bs', added, rfl, hadds, hdecode⟩ := ih s'.length hless h rfl
      have hall := AddsAll.cons (Adds.escape hspells) hadds
      refine ⟨backslash :: bs ++ bs', String.utf8EncodeChar c ++ added, ?_, hall, ?_⟩
      · rw [List.append_assoc]
        rfl
      · rw [← hdecode, List.reverse_append, List.reverse_reverse, List.append_assoc]
        rfl
    · obtain ⟨bs, added, rfl, hadds, hdecode⟩ := ih s.length (Nat.lt_succ_self s.length) h rfl
      refine ⟨b :: bs, b :: added, rfl, AddsAll.cons (Adds.plain hquote hback hlow) hadds, ?_⟩
      rw [← hdecode, List.reverse_append, List.append_assoc]
      rfl

/-- Whether a byte belongs to a character that has begun before it. -/
def isTail (b : UInt8) : Bool :=
  0x80 ≤ b && b ≤ 0xBF

theorem isTail_tail (n : Nat) : isTail (Utf8.tail n) = true := by
  rw [isTail, Bool.and_eq_true, decide_eq_true_eq, decide_eq_true_eq, UInt8.le_iff_toNat_le, UInt8.le_iff_toNat_le,
    Utf8.toNat_tail]
  exact Utf8.tail_bounds n

theorem isTail_ofNat (h : n < 0x80 ∨ 0xBF < n ∧ n < 0x100) : isTail (UInt8.ofNat n) = false := by
  rw [isTail, Bool.and_eq_false_iff, decide_eq_false_iff_not, decide_eq_false_iff_not, UInt8.le_iff_toNat_le,
    UInt8.le_iff_toNat_le, UInt8.toNat_ofNat_of_lt' (show n < 256 by omega)]
  exact h.imp not_le.mpr fun hn => not_le.mpr hn.1

/-- Only the first byte of a character could begin one. -/
theorem exists_encodeChar_eq (c : Char) :
    ∃ b bs, String.utf8EncodeChar c = b :: bs ∧ isTail b = false ∧ ∀ x ∈ bs, isTail x = true := by
  rcases Nat.lt_or_ge 0x7F c.toNat with h | h
  · rcases Nat.lt_or_ge 0x7FF c.toNat with h' | h'
    · rcases Nat.lt_or_ge 0xFFFF c.toNat with h'' | h''
      · exact ⟨_, _, Utf8.encodeChar_four h'', isTail_ofNat (by omega), by simp [isTail_tail]⟩
      · exact ⟨_, _, Utf8.encodeChar_three h' h'', isTail_ofNat (by omega), by simp [isTail_tail]⟩
    · exact ⟨_, _, Utf8.encodeChar_two h h', isTail_ofNat (by omega), by simp [isTail_tail]⟩
  · exact ⟨_, _, Utf8.encodeChar_one h, isTail_ofNat (by omega), List.forall_mem_nil _⟩

theorem AddsAll.eq_nil (h : AddsAll bs []) : bs = [] := by
  generalize hadded : ([] : Bytes) = added at h
  cases h with
  | nil => rfl
  | cons h hs =>
    cases h with
    | plain _ _ _ => cases hadded
    | @escape _ c _ =>
      obtain ⟨b, bs, hchar, -, -⟩ := exists_encodeChar_eq c
      rw [hchar] at hadded
      cases hadded

/-- A first byte is added by itself, or by an escape together with the rest of its character. -/
theorem AddsAll.of_cons (h : AddsAll bs (b :: added)) :
    (∃ bs', bs = b :: bs' ∧ (b ≠ quote ∧ b ≠ backslash ∧ ¬ b < 0x20) ∧ AddsAll bs' added) ∨
      ∃ bs' bs'' c added', bs = bs' ++ bs'' ∧ Spells bs' c ∧ b :: added = String.utf8EncodeChar c ++ added' ∧
        AddsAll bs'' added' := by
  generalize hadded : b :: added = all at h
  cases h with
  | nil => cases hadded
  | cons h hs =>
    cases h with
    | plain hquote hback hlow =>
      obtain ⟨rfl, rfl⟩ := List.cons.inj hadded
      exact Or.inl ⟨_, rfl, ⟨hquote, hback, hlow⟩, hs⟩
    | escape h => exact Or.inr ⟨_, _, _, _, rfl, h, rfl, hs⟩

/-- Bytes in the middle of a character stand for themselves, since no escape adds such a byte first. -/
theorem AddsAll.of_tails {tails : Bytes} (htails : ∀ b ∈ tails, isTail b = true) (h : AddsAll bs (tails ++ added)) :
    ∃ bs', bs = tails ++ bs' ∧ AddsAll bs' added := by
  induction tails generalizing bs with
  | nil => exact ⟨bs, rfl, h⟩
  | cons x tails ih =>
    obtain ⟨hx, htails⟩ := List.forall_mem_cons.mp htails
    rcases h.of_cons with ⟨bs', rfl, -, hs⟩ | ⟨-, -, c, added', -, -, hchar, -⟩
    · obtain ⟨bs'', rfl, hrest⟩ := ih htails hs
      exact ⟨bs'', rfl, hrest⟩
    · obtain ⟨y, ys, hfirst, hy, -⟩ := exists_encodeChar_eq c
      rw [hfirst] at hchar
      obtain ⟨rfl, -⟩ := List.cons.inj hchar
      rw [hx] at hy
      cases hy

theorem spells_of_plain {bs : Bytes} (hchar : String.utf8EncodeChar c = b :: bs)
    (hb : b ≠ quote ∧ b ≠ backslash ∧ ¬ b < 0x20) : Spells (b :: bs) c := by
  rw [← hchar]
  refine Spells.plain ?_ ?_ ?_
  · rintro rfl
    exact hb.1 (List.cons.inj hchar).1.symm
  · rintro rfl
    exact hb.2.1 (List.cons.inj hchar).1.symm
  · refine not_lt.mp fun h => hb.2.2 ?_
    rw [Utf8.encodeChar_one (by omega)] at hchar
    rw [← (List.cons.inj hchar).1, UInt8.lt_iff_toNat_lt, UInt8.toNat_ofNat_of_lt' (show c.toNat < 256 by omega)]
    exact h

/-- Bytes that add the bytes of a text spell it. -/
theorem AddsAll.spellsText (h : AddsAll bs (Utf8.encode t)) : SpellsText bs t := by
  induction t generalizing bs with
  | nil =>
    rw [h.eq_nil]
    exact SpellsText.nil
  | cons c t ih =>
    have hencode : Utf8.encode (c :: t) = String.utf8EncodeChar c ++ Utf8.encode t := List.flatMap_cons
    obtain ⟨b, tails, hchar, -, htails⟩ := exists_encodeChar_eq c
    rw [hencode, hchar, List.cons_append] at h
    rcases h.of_cons with ⟨bs', rfl, hb, hs⟩ | ⟨bs', bs'', d, added, rfl, hspells, hbytes, hs⟩
    · obtain ⟨bs'', rfl, hrest⟩ := hs.of_tails htails
      rw [← List.cons_append]
      exact SpellsText.cons (spells_of_plain hchar hb) (ih hrest)
    · -- the bytes of an escaped character are taken apart as that character, so it is the one of the text
      rw [← List.cons_append, ← hchar] at hbytes
      have hpieces := congrArg (Utf8.scan none) hbytes
      rw [Utf8.scan_encodeChar, Utf8.scan_encodeChar] at hpieces
      obtain rfl := Utf8.Piece.char.inj (List.cons.inj hpieces).1
      rw [List.append_cancel_left hbytes] at ih
      exact SpellsText.cons hspells (ih hs)

/-- A string is read exactly when the bytes before a closing quote spell it. -/
theorem scanString_eq_ok_iff : scanString s = .ok (t, rest) ↔ ∃ bs, s = bs ++ quote :: rest ∧ SpellsText bs t := by
  constructor
  · intro h
    obtain ⟨bs, added, hs, hadds, hdecode⟩ := exists_addsAll h
    obtain rfl : added = Utf8.encode t := Utf8.decode?_eq_some_iff.mp hdecode
    exact ⟨bs, hs, hadds.spellsText⟩
  · rintro ⟨bs, rfl, h⟩
    exact h.scanString_eq rest

end Agenda.Json
