import Agenda.Text.Utf8
import Mathlib.Data.UInt
/-!
Text that was written as bytes is read back. The bytes of a character take the reader from the state between two
characters back to it, with that character and nothing else read, so any text can be read one character after the other.
-/
namespace Agenda.Text.Utf8

/-- A byte of a character after its first one. It holds the last six bits of a number. -/
def tail (n : Nat) : UInt8 :=
  UInt8.ofNat (n % 64 + 128)

variable {n code missing after : Nat} {low high : UInt8} {taken bs : Bytes} {g : Begun} {c : Char}

theorem toNat_tail (n : Nat) : (tail n).toNat = n % 64 + 128 :=
  UInt8.toNat_ofNat_of_lt' (show n % 64 + 128 < 256 by omega)

theorem begun?_two (h : 0xC2 ≤ n ∧ n < 0xE0) :
    begun? (UInt8.ofNat n) = some ⟨n % 32, [UInt8.ofNat n], 1, 0x80, 0xBF⟩ := by
  have hn : (UInt8.ofNat n).toNat = n := UInt8.toNat_ofNat_of_lt' (show n < 256 by omega)
  unfold begun?
  rw [if_neg, if_pos, hn]
  · rw [UInt8.lt_iff_toNat_lt, hn]
    exact h.2
  · rw [UInt8.lt_iff_toNat_lt, hn]
    exact not_lt.mpr h.1

/-- The first byte of three. After two of these bytes not every second byte may follow. -/
theorem begun?_three (h : 0xE0 ≤ n ∧ n < 0xF0) : ∃ low high : UInt8,
    begun? (UInt8.ofNat n) = some ⟨n % 16, [UInt8.ofNat n], 2, low, high⟩ ∧ ∀ m, 0x80 ≤ m → m ≤ 0xBF →
      (n = 0xE0 → 0xA0 ≤ m) → (n = 0xED → m ≤ 0x9F) → low.toNat ≤ m ∧ m ≤ high.toNat := by
  have hn : (UInt8.ofNat n).toNat = n := UInt8.toNat_ofNat_of_lt' (show n < 256 by omega)
  -- after 0xE0 a small byte would be a longer form than needed, after 0xED a large one would make a surrogate
  by_cases hE0 : n = 0xE0
  · subst hE0
    exact ⟨0xA0, 0xBF, rfl, fun m _ hm hmin _ => ⟨hmin rfl, hm⟩⟩
  by_cases hED : n = 0xED
  · subst hED
    exact ⟨0x80, 0x9F, rfl, fun m hm _ _ hmax => ⟨hm, hmax rfl⟩⟩
  refine ⟨0x80, 0xBF, ?_, fun m hm hm' _ _ => ⟨hm, hm'⟩⟩
  have hlow : ¬ UInt8.ofNat n < 0xC2 := by
    rw [UInt8.lt_iff_toNat_lt, hn]
    exact not_lt.mpr (le_trans (by decide) h.1)
  have hlow' : ¬ UInt8.ofNat n < 0xE0 := by
    rw [UInt8.lt_iff_toNat_lt, hn]
    exact not_lt.mpr h.1
  have hhigh : UInt8.ofNat n < 0xF0 := by
    rw [UInt8.lt_iff_toNat_lt, hn]
    exact h.2
  have hne (b : UInt8) (hb : n ≠ b.toNat) : UInt8.ofNat n ≠ b := by
    rintro rfl
    exact hb hn.symm
  unfold begun?
  rw [if_neg hlow, if_neg hlow', if_neg (hne 0xE0 hE0), if_neg (hne 0xED hED), if_pos hhigh, hn]

/-- The first byte of four. -/
theorem begun?_four (h : 0xF0 ≤ n ∧ n < 0xF5) : ∃ low high : UInt8,
    begun? (UInt8.ofNat n) = some ⟨n % 8, [UInt8.ofNat n], 3, low, high⟩ ∧ ∀ m, 0x80 ≤ m → m ≤ 0xBF →
      (n = 0xF0 → 0x90 ≤ m) → (n = 0xF4 → m ≤ 0x8F) → low.toNat ≤ m ∧ m ≤ high.toNat := by
  obtain ⟨k, hk, rfl⟩ : ∃ k < 5, n = 0xF0 + k := ⟨n - 0xF0, by omega, by omega⟩
  have hcases : k = 0 ∨ k = 1 ∨ k = 2 ∨ k = 3 ∨ k = 4 := by omega
  -- only the first and the last of these bytes keep some from following them
  rcases hcases with rfl | rfl | rfl | rfl | rfl
  · exact ⟨0x90, 0xBF, rfl, fun m _ hm hmin _ => ⟨hmin rfl, hm⟩⟩
  · exact ⟨0x80, 0xBF, rfl, fun m hm hm' _ _ => ⟨hm, hm'⟩⟩
  · exact ⟨0x80, 0xBF, rfl, fun m hm hm' _ _ => ⟨hm, hm'⟩⟩
  · exact ⟨0x80, 0xBF, rfl, fun m hm hm' _ _ => ⟨hm, hm'⟩⟩
  · exact ⟨0x80, 0x8F, rfl, fun m hm _ _ hmax => ⟨hm, hmax rfl⟩⟩

theorem scan_begun (bs : Bytes) (hn : 0x80 ≤ n ∧ n < 256) (h : begun? (UInt8.ofNat n) = some g) :
    scan none (UInt8.ofNat n :: bs) = scan (some g) bs := by
  have hbyte : (UInt8.ofNat n).toNat = n := UInt8.toNat_ofNat_of_lt' hn.2
  have hlarge : ¬ UInt8.ofNat n < 0x80 := by
    rw [UInt8.lt_iff_toNat_lt, hbyte]
    exact not_lt.mpr hn.1
  rw [scan, enter, if_neg hlarge, h]
  rfl

theorem admits_tail (hlow : low.toNat ≤ n % 64 + 128) (hhigh : n % 64 + 128 ≤ high.toNat) :
    (Begun.mk code taken missing low high).admits (tail n) = true := by
  rw [Begun.admits, Bool.and_eq_true, decide_eq_true_eq, decide_eq_true_eq, UInt8.le_iff_toNat_le, UInt8.le_iff_toNat_le,
    toNat_tail]
  exact ⟨hlow, hhigh⟩

theorem codeWith_tail (g : Begun) (n : Nat) : g.codeWith (tail n) = g.code * 64 + n % 64 := by
  rw [Begun.codeWith, toNat_tail]
  omega

/-- The last byte of a character ends it. -/
theorem scan_last (hlow : low.toNat ≤ n % 64 + 128) (hhigh : n % 64 + 128 ≤ high.toNat) :
    scan (some ⟨code, taken, 1, low, high⟩) (tail n :: bs) = .char (Char.ofNat (code * 64 + n % 64)) :: scan none bs := by
  rw [scan, resume, if_pos (admits_tail hlow hhigh), if_pos rfl, codeWith_tail]
  rfl

/-- Any other byte of a character adds its bits. -/
theorem scan_more (hmore : after + 1 = missing) (hafter : after ≠ 0) (hlow : low.toNat ≤ n % 64 + 128)
    (hhigh : n % 64 + 128 ≤ high.toNat) : scan (some ⟨code, taken, missing, low, high⟩) (tail n :: bs) =
      scan (some ⟨code * 64 + n % 64, taken ++ [tail n], after, 0x80, 0xBF⟩) bs := by
  subst hmore
  rw [scan, resume, if_pos (admits_tail hlow hhigh), if_neg (show ¬ after + 1 = 1 by omega), Begun.push, codeWith_tail]
  rfl

theorem tail_bounds (n : Nat) : (0x80 : UInt8).toNat ≤ n % 64 + 128 ∧ n % 64 + 128 ≤ (0xBF : UInt8).toNat :=
  ⟨show 128 ≤ n % 64 + 128 by omega, show n % 64 + 128 ≤ 191 by omega⟩

theorem encodeChar_one (h : c.toNat ≤ 0x7F) : String.utf8EncodeChar c = [UInt8.ofNat c.toNat] :=
  if_pos h

theorem toNat_ofNat (h : n < 0xD800 ∨ 0xDFFF < n ∧ n < 0x110000) : (Char.ofNat n).toNat = n := by
  have hvalid : n.isValidChar := h
  rw [Char.ofNat, dif_pos hvalid]
  rfl

theorem encodeChar_of_lt {b : UInt8} (h : b.toNat < 0x80) : String.utf8EncodeChar (Char.ofNat b.toNat) = [b] := by
  have hnat : (Char.ofNat b.toNat).toNat = b.toNat := toNat_ofNat (by omega)
  rw [encodeChar_one (by omega), hnat, UInt8.ofNat_toNat]

theorem encodeChar_two (h : 0x7F < c.toNat) (h' : c.toNat ≤ 0x7FF) :
    String.utf8EncodeChar c = [UInt8.ofNat (c.toNat / 64 % 32 + 192), tail c.toNat] :=
  (if_neg (not_le.mpr h)).trans (if_pos h')

theorem encodeChar_three (h : 0x7FF < c.toNat) (h' : c.toNat ≤ 0xFFFF) : String.utf8EncodeChar c =
    [UInt8.ofNat (c.toNat / 4096 % 16 + 224), tail (c.toNat / 64), tail c.toNat] :=
  (if_neg (not_le.mpr (lt_trans (by decide) h))).trans ((if_neg (not_le.mpr h)).trans (if_pos h'))

theorem encodeChar_four (h : 0xFFFF < c.toNat) : String.utf8EncodeChar c =
    [UInt8.ofNat (c.toNat / 262144 % 8 + 240), tail (c.toNat / 4096), tail (c.toNat / 64), tail c.toNat] :=
  (if_neg (not_le.mpr (lt_trans (by decide) h))).trans
    ((if_neg (not_le.mpr (lt_trans (by decide) h))).trans (if_neg (not_le.mpr h)))

/-- A character past ASCII has no ASCII byte. -/
theorem le_of_mem_encodeChar {b : UInt8} (h : 0x7F < c.toNat) (hb : b ∈ String.utf8EncodeChar c) : 0x80 ≤ b.toNat := by
  have htail (n : Nat) : 0x80 ≤ (tail n).toNat := by
    rw [toNat_tail]
    omega
  have hlead {n : Nat} (hn : 0x80 ≤ n ∧ n < 256) : 0x80 ≤ (UInt8.ofNat n).toNat := by
    rw [UInt8.toNat_ofNat_of_lt' hn.2]
    exact hn.1
  rcases Nat.lt_or_ge 0x7FF c.toNat with h' | h'
  · rcases Nat.lt_or_ge 0xFFFF c.toNat with h'' | h''
    · rw [encodeChar_four h''] at hb
      simp only [List.mem_cons, List.not_mem_nil, or_false] at hb
      rcases hb with rfl | rfl | rfl | rfl
      · exact hlead (by omega)
      all_goals exact htail _
    · rw [encodeChar_three h' h''] at hb
      simp only [List.mem_cons, List.not_mem_nil, or_false] at hb
      rcases hb with rfl | rfl | rfl
      · exact hlead (by omega)
      all_goals exact htail _
  · rw [encodeChar_two h h'] at hb
    simp only [List.mem_cons, List.not_mem_nil, or_false] at hb
    rcases hb with rfl | rfl
    · exact hlead (by omega)
    · exact htail _

/-- A byte of an ASCII character comes from that character. -/
theorem exists_of_mem_encode {s : List Char} {b : UInt8} (hb : b < 0x80) (h : b ∈ encode s) :
    ∃ c ∈ s, c.toNat = b.toNat := by
  obtain ⟨c, hc, hmem⟩ := List.mem_flatMap.mp h
  rcases Nat.lt_or_ge 0x7F c.toNat with hlarge | hsmall
  · exact absurd (UInt8.lt_iff_toNat_lt.mp hb) (not_lt.mpr (le_of_mem_encodeChar hlarge hmem))
  · rw [encodeChar_one hsmall, List.mem_singleton] at hmem
    refine ⟨c, hc, ?_⟩
    rw [hmem, UInt8.toNat_ofNat_of_lt' (show c.toNat < 256 by omega)]

/-- The bytes of a character are read as that character. The cases are the numbers of bytes. -/
theorem scan_encodeChar (c : Char) (bs : Bytes) :
    scan none (String.utf8EncodeChar c ++ bs) = .char c :: scan none bs := by
  have hvalid : c.toNat < 0xD800 ∨ 0xDFFF < c.toNat ∧ c.toNat < 0x110000 := c.valid
  have hchar {m : Nat} (hm : m = c.toNat) : Char.ofNat m = c := by rw [hm, Char.ofNat_toNat]
  rcases Nat.lt_or_ge 0x7F c.toNat with h | h
  · rcases Nat.lt_or_ge 0x7FF c.toNat with h' | h'
    · rcases Nat.lt_or_ge 0xFFFF c.toNat with h'' | h''
      · -- the byte after the first one is in the range of that one, since the number is that of a character
        obtain ⟨low, high, hbegun, hrange⟩ := begun?_four (n := c.toNat / 262144 % 8 + 240) (by omega)
        obtain ⟨hlow, hhigh⟩ := hrange (c.toNat / 4096 % 64 + 128) (by omega) (by omega) (by omega) (by omega)
        obtain ⟨hlow', hhigh'⟩ := tail_bounds (c.toNat / 64)
        obtain ⟨hlow'', hhigh''⟩ := tail_bounds c.toNat
        have hlead := scan_begun (tail (c.toNat / 4096) :: tail (c.toNat / 64) :: tail c.toNat :: bs) (by omega) hbegun
        calc scan none (String.utf8EncodeChar c ++ bs)
            = scan none (UInt8.ofNat (c.toNat / 262144 % 8 + 240) ::
                tail (c.toNat / 4096) :: tail (c.toNat / 64) :: tail c.toNat :: bs) := by rw [encodeChar_four h'']; rfl
          _ = .char c :: scan none bs := by
            rw [hlead, scan_more (rfl : 2 + 1 = 3) (by decide) hlow hhigh,
              scan_more (rfl : 1 + 1 = 2) (by decide) hlow' hhigh', scan_last hlow'' hhigh'', hchar (by omega)]
      · obtain ⟨low, high, hbegun, hrange⟩ := begun?_three (n := c.toNat / 4096 % 16 + 224) (by omega)
        obtain ⟨hlow, hhigh⟩ := hrange (c.toNat / 64 % 64 + 128) (by omega) (by omega) (by omega) (by omega)
        obtain ⟨hlow', hhigh'⟩ := tail_bounds c.toNat
        have hlead := scan_begun (tail (c.toNat / 64) :: tail c.toNat :: bs) (by omega) hbegun
        calc scan none (String.utf8EncodeChar c ++ bs)
            = scan none (UInt8.ofNat (c.toNat / 4096 % 16 + 224) :: tail (c.toNat / 64) :: tail c.toNat :: bs) := by
              rw [encodeChar_three h' h'']; rfl
          _ = .char c :: scan none bs := by
            rw [hlead, scan_more (rfl : 1 + 1 = 2) (by decide) hlow hhigh, scan_last hlow' hhigh', hchar (by omega)]
    · have hbegun := begun?_two (n := c.toNat / 64 % 32 + 192) (by omega)
      obtain ⟨hlow, hhigh⟩ := tail_bounds c.toNat
      have hlead := scan_begun (tail c.toNat :: bs) (by omega) hbegun
      calc scan none (String.utf8EncodeChar c ++ bs)
          = scan none (UInt8.ofNat (c.toNat / 64 % 32 + 192) :: tail c.toNat :: bs) := by rw [encodeChar_two h h']; rfl
        _ = .char c :: scan none bs := by rw [hlead, scan_last hlow hhigh, hchar (by omega)]
  · have hbyte : (UInt8.ofNat c.toNat).toNat = c.toNat := UInt8.toNat_ofNat_of_lt' (show c.toNat < 256 by omega)
    have hsmall : UInt8.ofNat c.toNat < 0x80 := by
      rw [UInt8.lt_iff_toNat_lt, hbyte]
      exact Nat.lt_succ_of_le h
    rw [encodeChar_one h, List.singleton_append, scan, enter, if_pos hsmall, hbyte, hchar rfl]
    rfl

theorem pieces_encode (s : List Char) : pieces (encode s) = s.map .char := by
  induction s with
  | nil => rfl
  | cons c s ih =>
    have hcons : encode (c :: s) = String.utf8EncodeChar c ++ encode s := List.flatMap_cons
    rw [hcons, pieces, scan_encodeChar, List.map_cons, ← ih]
    rfl

theorem decode?_encode (s : List Char) : decode? (encode s) = some s := by
  rw [decode?, pieces_encode]
  induction s with
  | nil => rfl
  | cons c s ih =>
    rw [List.map_cons, List.mapM_cons, ih]
    rfl

theorem encode_append (s t : List Char) : encode (s ++ t) = encode s ++ encode t :=
  List.flatMap_append

end Agenda.Text.Utf8
