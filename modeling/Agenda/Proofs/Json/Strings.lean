import Agenda.Json.Strings
import Agenda.Json.Write
import Agenda.Proofs.Text.Utf8
/-!
Strings of JSON are read as the texts that they spell. A character is spelled by itself, by an escape with a letter, by
its number, or by two escapes for the halves of a surrogate pair. What is written spells the text that it was written
for, and it has no control character.
-/
namespace Agenda.Json

open Text

/-- The number that hexadecimal digits stand for. -/
def hexValue? (digits : Bytes) : Option Nat :=
  digits.foldl pushHex (some 0)

/-- Whether bytes of a string are one character of the text that it stands for. -/
inductive Spells : Bytes → Char → Prop
  /-- The character itself, unless it is a quote, a backslash or a control character. -/
  | plain {c : Char} (hquote : c ≠ '"') (hback : c ≠ '\\') (hlow : 0x20 ≤ c.toNat) : Spells (String.utf8EncodeChar c) c
  /-- A backslash and a letter. -/
  | letter {b x : UInt8} (h : escaped? b = some x) : Spells [backslash, b] (Char.ofNat x.toNat)
  /-- The number of a character, in four digits. -/
  | number {digits : Bytes} {n : Nat} (hlen : digits.length = 4) (h : hexValue? digits = some n)
    (hhigh : isHighSurrogate n = false) (hlow : isLowSurrogate n = false) :
    Spells (backslash :: letterU :: digits) (Char.ofNat n)
  /-- The numbers of the halves of a surrogate pair. -/
  | pair {first second : Bytes} {high low : Nat} (hlen : first.length = 4) (hlen' : second.length = 4)
    (h : hexValue? first = some high) (h' : hexValue? second = some low) (hhigh : isHighSurrogate high = true)
    (hlow : isLowSurrogate low = true) :
    Spells (backslash :: letterU :: first ++ backslash :: letterU :: second) (pairedChar high low)

variable {state next : Inside} {found added bs digits rest : Bytes} {b x : UInt8} {c : Char} {s : List Char}

theorem scanStringFrom_step (hend : ¬ (state = .plain ∧ b = quote)) (h : stringStep state b = .ok (added, next)) :
    scanStringFrom state found (b :: bs) = scanStringFrom next (added.reverse ++ found) bs := by
  rw [scanStringFrom, if_neg hend, h]

/-- Bytes that stand for themselves are kept. -/
theorem scanStringFrom_plain (h : ∀ b ∈ bs, b ≠ quote ∧ b ≠ backslash ∧ ¬ b < 0x20) :
    scanStringFrom .plain found (bs ++ rest) = scanStringFrom .plain (bs.reverse ++ found) rest := by
  induction bs generalizing found with
  | nil => rfl
  | cons b bs ih =>
    obtain ⟨⟨hquote, hback, hlow⟩, htail⟩ := List.forall_mem_cons.mp h
    have hstep : stringStep .plain b = .ok ([b], .plain) := by
      rw [stringStep, if_neg hback, if_neg hlow]
    have hreverse : (b :: bs).reverse ++ found = bs.reverse ++ ([b].reverse ++ found) := by
      rw [List.reverse_cons, List.append_assoc]
      rfl
    rw [List.cons_append, scanStringFrom_step (fun h => hquote h.2) hstep, ih htail, hreverse]

/-- Digits are taken up to the last one, which ends the escape. -/
theorem scanStringFrom_hex (hne : digits ≠ []) (value high : Option Nat)
    (h : endHex (digits.foldl pushHex value) high = .ok (added, next)) :
    scanStringFrom (.hex digits.length value high) found (digits ++ rest) =
      scanStringFrom next (added.reverse ++ found) rest := by
  -- the digit that ends the escape has none after it, so a single digit is the case to start from
  induction digits generalizing value with
  | nil => exact absurd rfl hne
  | cons d digits ih =>
    cases digits with
    | nil =>
      have hstep : stringStep (.hex 1 value high) d = .ok (added, next) := h
      exact scanStringFrom_step (fun h => by cases h.1) hstep
    | cons e digits =>
      have hstep : stringStep (.hex (digits.length + 2) value high) d =
          .ok ([], .hex (digits.length + 1) (pushHex value d) high) := by
        rw [stringStep]
        exact if_neg (by omega)
      have hrest := ih (List.cons_ne_nil e digits) (pushHex value d) h
      rw [List.length_cons, List.length_cons, List.cons_append, scanStringFrom_step (fun h => by cases h.1) hstep]
      exact hrest

/-- Reading goes on after a backslash and a `u` with four digits, of which the first half of a pair may have been read
before. -/
theorem scanStringFrom_number (hlen : digits.length = 4) {value : Option Nat} (hvalue : hexValue? digits = value)
    {high : Option Nat} (h : endHex value high = .ok (added, next)) :
    scanStringFrom (.hex 4 (some 0) high) found (digits ++ rest) = scanStringFrom next (added.reverse ++ found) rest := by
  have hne : digits ≠ [] := List.ne_nil_of_length_eq_add_one hlen
  rw [← hlen]
  apply scanStringFrom_hex hne
  change endHex (hexValue? digits) high = _
  rw [hvalue, h]

theorem scanStringFrom_backslash (bs : Bytes) :
    scanStringFrom .plain found (backslash :: letterU :: bs) = scanStringFrom (.hex 4 (some 0) none) found bs := by
  have hfirst : stringStep .plain backslash = .ok ([], .escape) := rfl
  have hsecond : stringStep .escape letterU = .ok ([], .hex 4 (some 0) none) := rfl
  rw [scanStringFrom_step (by decide) hfirst, scanStringFrom_step (by decide) hsecond]
  rfl

theorem scanStringFrom_pair (high : Nat) (bs : Bytes) : scanStringFrom (.pair high) found (backslash :: letterU :: bs) =
    scanStringFrom (.hex 4 (some 0) (some high)) found bs := by
  have hfirst : stringStep (.pair high) backslash = .ok ([], .pairEscape high) := rfl
  have hsecond : stringStep (.pairEscape high) letterU = .ok ([], .hex 4 (some 0) (some high)) := rfl
  rw [scanStringFrom_step (fun h => by cases h.1) hfirst, scanStringFrom_step (fun h => by cases h.1) hsecond]
  rfl

theorem escaped?_lt (h : escaped? b = some x) : b ≠ letterU ∧ x.toNat < 0x80 := by
  unfold escaped? at h
  split_ifs at h with h1 h2 h3 h4 h5 h6
  · obtain rfl := Option.some.inj h
    rcases h1 with rfl | rfl | rfl <;> decide
  all_goals
    obtain rfl := Option.some.inj h
    subst b
    decide

theorem stringStep_escape (hu : b ≠ letterU) (h : escaped? b = some x) : stringStep .escape b = .ok ([x], .plain) := by
  rw [stringStep, if_neg hu, h]

theorem endHex_number {n : Nat} (hhigh : isHighSurrogate n = false) (hlow : isLowSurrogate n = false) :
    endHex (some n) none = .ok (String.utf8EncodeChar (Char.ofNat n), .plain) := by
  rw [endHex, hlow, hhigh]
  rfl

theorem endHex_high {n : Nat} (h : isHighSurrogate n = true) : endHex (some n) none = .ok ([], .pair n) := by
  -- the ranges of the two halves are apart
  have hlow : isLowSurrogate n = false := by
    rw [isHighSurrogate, Bool.and_eq_true, decide_eq_true_eq, decide_eq_true_eq] at h
    rw [isLowSurrogate, Bool.and_eq_false_iff, decide_eq_false_iff_not]
    exact Or.inl (by omega)
  rw [endHex, hlow, h]
  rfl

theorem endHex_pair (high : Nat) {low : Nat} (h : isLowSurrogate low = true) :
    endHex (some low) (some high) = .ok (String.utf8EncodeChar (pairedChar high low), .plain) := by
  rw [endHex, h]
  rfl

/-- The bytes of a character that needs no escape stand for themselves. -/
theorem plain_of_mem_encodeChar (hquote : c ≠ '"') (hback : c ≠ '\\') (hlow : 0x20 ≤ c.toNat)
    (hb : b ∈ String.utf8EncodeChar c) : b ≠ quote ∧ b ≠ backslash ∧ ¬ b < 0x20 := by
  have hne {a : UInt8} (h : b.toNat ≠ a.toNat) : b ≠ a := fun he => h (congrArg UInt8.toNat he)
  rcases Nat.lt_or_ge 0x7F c.toNat with h | h
  · -- the bytes of a character past ASCII are larger than all of the three kinds
    have hbyte := Utf8.le_of_mem_encodeChar h hb
    refine ⟨hne ?_, hne ?_, ?_⟩
    · exact Nat.ne_of_gt (lt_of_lt_of_le (by decide) hbyte)
    · exact Nat.ne_of_gt (lt_of_lt_of_le (by decide) hbyte)
    · rw [UInt8.lt_iff_toNat_lt]
      exact not_lt.mpr (le_trans (by decide) hbyte)
  · rw [Utf8.encodeChar_one h, List.mem_singleton] at hb
    have hbyte : b.toNat = c.toNat := by
      rw [hb]
      exact UInt8.toNat_ofNat_of_lt' (show c.toNat < 256 by omega)
    refine ⟨hne ?_, hne ?_, ?_⟩
    · rw [hbyte]
      exact fun he => hquote (Char.toNat_inj.mp he)
    · rw [hbyte]
      exact fun he => hback (Char.toNat_inj.mp he)
    · rw [UInt8.lt_iff_toNat_lt, hbyte]
      exact not_lt.mpr hlow

/-- A spelled character is read with the bytes that it is written with. -/
theorem Spells.scanStringFrom_append (h : Spells bs c) (found rest : Bytes) :
    scanStringFrom .plain found (bs ++ rest) =
      scanStringFrom .plain ((String.utf8EncodeChar c).reverse ++ found) rest := by
  cases h with
  | plain hquote hback hlow => exact scanStringFrom_plain fun b hb => plain_of_mem_encodeChar hquote hback hlow hb
  | letter h =>
    obtain ⟨hu, hlt⟩ := escaped?_lt h
    have hfirst : stringStep .plain backslash = .ok ([], .escape) := rfl
    have hsecond := stringStep_escape hu h
    rw [Utf8.encodeChar_of_lt hlt, List.cons_append, scanStringFrom_step (by decide) hfirst, List.singleton_append,
      scanStringFrom_step (fun h => by cases h.1) hsecond]
    rfl
  | number hlen hvalue hhigh hlow =>
    have hend := endHex_number hhigh hlow
    rw [List.cons_append, List.cons_append, scanStringFrom_backslash, scanStringFrom_number hlen hvalue hend]
  | @pair _ _ high _ hlen hlen' hvalue hvalue' hhigh hlow =>
    -- nothing is added for the first half, which the state keeps until the second one is read
    have hend := endHex_high hhigh
    have hend' := endHex_pair high hlow
    rw [List.append_assoc, List.cons_append, List.cons_append, List.cons_append, List.cons_append,
      scanStringFrom_backslash, scanStringFrom_number hlen hvalue hend, List.reverse_nil, List.nil_append,
      scanStringFrom_pair, scanStringFrom_number hlen' hvalue' hend']

theorem foldl_pushHex_none (digits : Bytes) : digits.foldl pushHex none = none := by
  induction digits with
  | nil => rfl
  | cons d digits ih => exact ih

theorem isSome_of_foldl_pushHex {value : Option Nat} {n : Nat} (h : digits.foldl pushHex value = some n) :
    ∀ d ∈ digits, (Hexadecimal.byteValue? d).isSome = true := by
  induction digits generalizing value with
  | nil => exact List.forall_mem_nil _
  | cons d digits ih =>
    refine List.forall_mem_cons.mpr ⟨?_, ih h⟩
    cases hd : Hexadecimal.byteValue? d with
    | some v => rfl
    | none =>
      have hnone : pushHex value d = none := by
        unfold pushHex
        rw [hd]
        cases value <;> rfl
      rw [List.foldl_cons, hnone, foldl_pushHex_none] at h
      cases h

theorem not_lt_of_foldl_pushHex {value : Option Nat} {n : Nat} (h : digits.foldl pushHex value = some n) :
    ∀ b ∈ digits, ¬ b < 0x20 := by
  intro b hb hlow
  -- a control character is no digit, so nothing would be read
  have hdigit : Hexadecimal.byteValue? b = none := by
    rw [UInt8.lt_iff_toNat_lt] at hlow
    have hnot {a : UInt8} (ha : 0x20 ≤ a.toNat) : ¬ a ≤ b := by
      rw [UInt8.le_iff_toNat_le]
      exact not_le.mpr (lt_of_lt_of_le hlow ha)
    rw [Hexadecimal.byteValue?, if_neg fun hd => hnot (by decide) hd.1, if_neg fun hd => hnot (by decide) hd.1,
      if_neg fun hd => hnot (by decide) hd.1]
  have hsome := isSome_of_foldl_pushHex h b hb
  rw [hdigit] at hsome
  cases hsome

theorem not_lt_of_escaped? (h : escaped? b = some x) : ¬ b < 0x20 := by
  unfold escaped? at h
  split_ifs at h with h1 h2 h3 h4 h5 h6
  · rcases h1 with rfl | rfl | rfl <;> decide
  all_goals
    subst b
    decide

/-- No control character stands in a string. -/
theorem Spells.not_lt_of_mem (h : Spells bs c) : ∀ b ∈ bs, ¬ b < 0x20 := by
  have hnumber {digits : Bytes} {n : Nat} (h : hexValue? digits = some n) :
      ∀ b ∈ backslash :: letterU :: digits, ¬ b < 0x20 :=
    List.forall_mem_cons.mpr ⟨by decide, List.forall_mem_cons.mpr ⟨by decide, not_lt_of_foldl_pushHex h⟩⟩
  cases h with
  | plain hquote hback hlow => exact fun b hb => (plain_of_mem_encodeChar hquote hback hlow hb).2.2
  | letter h => exact List.forall_mem_cons.mpr ⟨by decide, List.forall_mem_singleton.mpr (not_lt_of_escaped? h)⟩
  | number hlen h _ _ => exact hnumber h
  | pair _ _ h h' _ _ => exact List.forall_mem_append.mpr ⟨hnumber h, hnumber h'⟩

/-- Whether bytes are a text, spelled character by character. -/
inductive SpellsText : Bytes → List Char → Prop
  | nil : SpellsText [] []
  | cons {bs bs' : Bytes} {c : Char} {s : List Char} (h : Spells bs c) (hs : SpellsText bs' s) :
    SpellsText (bs ++ bs') (c :: s)

theorem SpellsText.scanStringFrom_append (h : SpellsText bs s) (found rest : Bytes) :
    scanStringFrom .plain found (bs ++ rest) = scanStringFrom .plain ((Utf8.encode s).reverse ++ found) rest := by
  induction h generalizing found with
  | nil => rfl
  | @cons bs bs' c s h hs ih =>
    have hencode : Utf8.encode (c :: s) = String.utf8EncodeChar c ++ Utf8.encode s := List.flatMap_cons
    rw [List.append_assoc, h.scanStringFrom_append, ih, hencode, List.reverse_append, List.append_assoc]

/-- A string is read as the text that it spells. -/
theorem SpellsText.scanString_eq (h : SpellsText bs s) (rest : Bytes) :
    scanString (bs ++ quote :: rest) = .ok (s, rest) := by
  rw [scanString, h.scanStringFrom_append, List.append_nil, scanStringFrom, if_pos ⟨rfl, rfl⟩, List.reverse_reverse,
    Utf8.decode?_encode]

theorem SpellsText.not_lt_of_mem (h : SpellsText bs s) : ∀ b ∈ bs, ¬ b < 0x20 := by
  induction h with
  | nil => exact List.forall_mem_nil _
  | cons h hs ih => exact List.forall_mem_append.mpr ⟨h.not_lt_of_mem, ih⟩

theorem pushHex_eq {value digit : Nat} (h : Hexadecimal.byteValue? b = some digit) :
    pushHex (some value) b = some (value * 16 + digit) := by
  unfold pushHex
  rw [h]

theorem encode_digit : ∀ n < 16, (Utf8.encode [Hexadecimal.digit n]).map Hexadecimal.byteValue? = [some n] := by
  decide

theorem exists_encode_digit (n : Nat) : ∃ b, Utf8.encode [Hexadecimal.digit n] = [b] ∧
    Hexadecimal.byteValue? b = some (n % 16) := by
  have hmod : Hexadecimal.digit n = Hexadecimal.digit (n % 16) := by
    rw [Hexadecimal.digit, Hexadecimal.digit, Nat.mod_mod]
  have h := encode_digit (n % 16) (Nat.mod_lt n (by decide))
  rw [hmod]
  exact List.map_eq_singleton_iff.mp h

/-- A control character is spelled by its number. -/
theorem spells_number (h : c.toNat < 0x20) :
    Spells (Utf8.encode ('\\' :: 'u' :: '0' :: '0' :: Hexadecimal.pair c.toNat)) c := by
  obtain ⟨high, hfirst, hvalue⟩ := exists_encode_digit (c.toNat / 16)
  obtain ⟨low, hsecond, hvalue'⟩ := exists_encode_digit c.toNat
  have hbytes : Utf8.encode ('\\' :: 'u' :: '0' :: '0' :: Hexadecimal.pair c.toNat) =
      backslash :: letterU :: [0x30, 0x30, high, low] := by
    have hpair : Utf8.encode (Hexadecimal.pair c.toNat) = [high] ++ [low] := by
      rw [← hfirst, ← hsecond, ← Utf8.encode_append]
      rfl
    calc Utf8.encode ('\\' :: 'u' :: '0' :: '0' :: Hexadecimal.pair c.toNat)
        = Utf8.encode ['\\', 'u', '0', '0'] ++ Utf8.encode (Hexadecimal.pair c.toNat) :=
          Utf8.encode_append ['\\', 'u', '0', '0'] (Hexadecimal.pair c.toNat)
      _ = backslash :: letterU :: [0x30, 0x30, high, low] := by rw [hpair]; rfl
  have hnumber : hexValue? [0x30, 0x30, high, low] = some c.toNat := by
    change pushHex (pushHex (some 0) high) low = _
    rw [pushHex_eq hvalue, pushHex_eq hvalue']
    apply congrArg some
    omega
  have hhigh : isHighSurrogate c.toNat = false := by
    rw [isHighSurrogate, decide_eq_false (show ¬ 0xD800 ≤ c.toNat by omega)]
    rfl
  have hlow : isLowSurrogate c.toNat = false := by
    rw [isLowSurrogate, decide_eq_false (show ¬ 0xDC00 ≤ c.toNat by omega)]
    rfl
  have hchar := Spells.number rfl hnumber hhigh hlow
  rw [Char.ofNat_toNat] at hchar
  rw [hbytes]
  exact hchar

/-- What is written for a character spells it. The cases are those of the writer. -/
theorem spells_escape (c : Char) : Spells (Utf8.encode (escape c)) c := by
  unfold escape
  by_cases hquote : c = '"'
  · subst hquote
    exact Spells.letter (b := 0x22) (x := 0x22) rfl
  by_cases hback : c = '\\'
  · subst hback
    exact Spells.letter (b := 0x5C) (x := 0x5C) rfl
  by_cases hb : c = '\x08'
  · subst hb
    exact Spells.letter (b := 0x62) (x := 0x08) rfl
  by_cases hf : c = '\x0c'
  · subst hf
    exact Spells.letter (b := 0x66) (x := 0x0C) rfl
  by_cases hn : c = '\n'
  · subst hn
    exact Spells.letter (b := 0x6E) (x := 0x0A) rfl
  by_cases hr : c = '\r'
  · subst hr
    exact Spells.letter (b := 0x72) (x := 0x0D) rfl
  by_cases ht : c = '\t'
  · subst ht
    exact Spells.letter (b := 0x74) (x := 0x09) rfl
  -- without a letter for it a character is written by its number or as it is
  rw [if_neg hquote, if_neg hback, if_neg hb, if_neg hf, if_neg hn, if_neg hr, if_neg ht]
  by_cases hlow : c.toNat < 0x20
  · rw [if_pos hlow]
    exact spells_number hlow
  · rw [if_neg hlow]
    have hchar : Utf8.encode [c] = String.utf8EncodeChar c := List.flatMap_singleton _ _
    rw [hchar]
    exact Spells.plain hquote hback (not_lt.mp hlow)

theorem spellsText_escape (s : List Char) : SpellsText (Utf8.encode (s.flatMap escape)) s := by
  induction s with
  | nil => exact SpellsText.nil
  | cons c s ih =>
    rw [List.flatMap_cons, Utf8.encode_append]
    exact SpellsText.cons (spells_escape c) ih

end Agenda.Json
