import Agenda.Proofs.Text.Utf8
/-!
Taking bytes apart loses none of them: the pieces put together are the bytes again. So the bytes that are decoded as a
text are the bytes of that text and no others.
-/
namespace Agenda.Text.Utf8

/-- The bytes that a piece was taken from. -/
def Piece.bytes : Piece → Bytes
  | char c => String.utf8EncodeChar c
  | broken bytes => bytes

/-- The last bytes of the character with a number, as many as are asked for. -/
def tails (n : Nat) : Nat → Bytes
  | 0 => []
  | k + 1 => tail (n / 64 ^ k) :: tails n k

/-- The bytes taken of a character that has begun, and none before it does. -/
def takenBytes : Option Begun → Bytes
  | none => []
  | some g => g.taken

variable {n code : Nat} {b low high : UInt8} {bs : Bytes} {g : Begun} {s : List Char}

/-- What is known of a character that has begun fits each character that may still come of it: its bytes are those that
were taken and those that are missing. -/
structure Begun.Fits (g : Begun) : Prop where
  missing_pos : 0 < g.missing
  le_low : 0x80 ≤ g.low.toNat
  high_le : g.high.toNat ≤ 0xBF
  encode_eq : ∀ n, n / 64 ^ g.missing = g.code → g.low.toNat ≤ n / 64 ^ (g.missing - 1) % 64 + 128 →
    n / 64 ^ (g.missing - 1) % 64 + 128 ≤ g.high.toNat →
      String.utf8EncodeChar (Char.ofNat n) = g.taken ++ tails n g.missing

theorem ofNat_eq (h : n = b.toNat) : UInt8.ofNat n = b := by
  rw [h, UInt8.ofNat_toNat]

/-- The byte after those taken is one of the last bytes of any number that has its bits. -/
theorem tail_eq (hlow : 0x80 ≤ b.toNat) (hhigh : b.toNat ≤ 0xBF) (h : n % 64 = b.toNat % 64) : tail n = b := by
  rw [← UInt8.toNat_inj, toNat_tail]
  omega

theorem Begun.fits_two (h : 0xC2 ≤ b.toNat) (h' : b.toNat < 0xE0) : Fits ⟨b.toNat % 32, [b], 1, 0x80, 0xBF⟩ := by
  refine ⟨Nat.one_pos, le_refl 0x80, le_refl 0xBF, fun n hn _ _ => ?_⟩
  have hcode : n / 64 = b.toNat % 32 := hn
  have hnat : (Char.ofNat n).toNat = n := toNat_ofNat (by omega)
  have hfirst : UInt8.ofNat (n / 64 % 32 + 192) = b := ofNat_eq (by omega)
  rw [encodeChar_two (by omega) (by omega), hnat, hfirst]
  simp [tails]

theorem Begun.fits_three (h : 0xE0 ≤ b.toNat) (h' : b.toNat < 0xF0) (hcode : code = b.toNat % 16)
    (hlow : 0x80 ≤ low.toNat) (hhigh : high.toNat ≤ 0xBF) (hmin : b.toNat = 0xE0 → 0xA0 ≤ low.toNat)
    (hmax : b.toNat = 0xED → high.toNat ≤ 0x9F) : Fits ⟨code, [b], 2, low, high⟩ := by
  refine ⟨Nat.two_pos, hlow, hhigh, fun n hn hn' hn'' => ?_⟩
  have hbits : n / 4096 = b.toNat % 16 := hn.trans hcode
  have hsecond : low.toNat ≤ n / 64 % 64 + 128 := hn'
  have hsecond' : n / 64 % 64 + 128 ≤ high.toNat := hn''
  -- the range of the second byte keeps the number out of the shorter form and out of the surrogates
  have hlong : 0x7FF < n := by
    by_cases hE0 : b.toNat = 0xE0
    · have := hmin hE0
      omega
    · omega
  have hvalid : n < 0xD800 ∨ 0xDFFF < n ∧ n < 0x110000 := by
    by_cases hED : b.toNat = 0xED
    · have := hmax hED
      omega
    · omega
  have hnat := toNat_ofNat hvalid
  have hfirst : UInt8.ofNat (n / 4096 % 16 + 224) = b := ofNat_eq (by omega)
  rw [encodeChar_three (by omega) (by omega), hnat, hfirst]
  simp [tails]

theorem Begun.fits_four (h : 0xF0 ≤ b.toNat) (h' : b.toNat < 0xF5) (hcode : code = b.toNat % 8)
    (hlow : 0x80 ≤ low.toNat) (hhigh : high.toNat ≤ 0xBF) (hmin : b.toNat = 0xF0 → 0x90 ≤ low.toNat)
    (hmax : b.toNat = 0xF4 → high.toNat ≤ 0x8F) : Fits ⟨code, [b], 3, low, high⟩ := by
  refine ⟨Nat.succ_pos 2, hlow, hhigh, fun n hn hn' hn'' => ?_⟩
  have hbits : n / 262144 = b.toNat % 8 := hn.trans hcode
  have hsecond : low.toNat ≤ n / 4096 % 64 + 128 := hn'
  have hsecond' : n / 4096 % 64 + 128 ≤ high.toNat := hn''
  have hlong : 0xFFFF < n := by
    by_cases hF0 : b.toNat = 0xF0
    · have := hmin hF0
      omega
    · omega
  have hvalid : n < 0x110000 := by
    by_cases hF4 : b.toNat = 0xF4
    · have := hmax hF4
      omega
    · omega
  have hnat : (Char.ofNat n).toNat = n := toNat_ofNat (by omega)
  have hfirst : UInt8.ofNat (n / 262144 % 8 + 240) = b := ofNat_eq (by omega)
  rw [encodeChar_four (by omega), hnat, hfirst]
  simp [tails]

/-- A first byte fits the characters that begin with it. The cases are those of the reader. -/
theorem fits_of_begun? (h : begun? b = some g) : g.Fits := by
  unfold begun? at h
  have hne {a : UInt8} (ha : ¬ b = a) : b.toNat ≠ a.toNat := fun he => ha (UInt8.toNat_inj.mp he)
  split_ifs at h with hC2 hE0 he hd hF0 h0 hF4 h4
  all_goals
    obtain rfl := Option.some.inj h
  · exact Begun.fits_two (not_lt.mp hC2) hE0
  · subst he
    exact Begun.fits_three (by decide) (by decide) rfl (by decide) (by decide) (by decide) (by decide)
  · subst hd
    exact Begun.fits_three (by decide) (by decide) rfl (by decide) (by decide) (by decide) (by decide)
  · exact Begun.fits_three (not_lt.mp hE0) hF0 rfl (by decide) (by decide) (fun hb => absurd hb (hne he))
      (fun hb => absurd hb (hne hd))
  · subst h0
    exact Begun.fits_four (by decide) (by decide) rfl (by decide) (by decide) (by decide) (by decide)
  · have hlt : b.toNat < 0xF4 := hF4
    exact Begun.fits_four (not_lt.mp hF0) (by omega) rfl (by decide) (by decide) (fun hb => absurd hb (hne h0))
      (fun hb => absurd hb (by omega))
  · subst h4
    exact Begun.fits_four (by decide) (by decide) rfl (by decide) (by decide) (by decide) (by decide)

/-- What a byte that is admitted may be, and what it holds. -/
theorem Begun.Fits.of_admits (h : g.Fits) (hb : g.admits b = true) :
    g.low.toNat ≤ b.toNat ∧ b.toNat ≤ g.high.toNat ∧ 0x80 ≤ b.toNat ∧ b.toNat ≤ 0xBF := by
  rw [Begun.admits, Bool.and_eq_true, decide_eq_true_eq, decide_eq_true_eq, UInt8.le_iff_toNat_le,
    UInt8.le_iff_toNat_le] at hb
  exact ⟨hb.1, hb.2, le_trans h.le_low hb.1, le_trans hb.2 h.high_le⟩

/-- A number with the bits of the bytes taken and of one more has that byte next. -/
theorem Begun.Fits.encode_codeWith (h : g.Fits) (hb : g.admits b = true) {k : Nat} (hk : g.missing = k + 1)
    (hn : n / 64 ^ k = g.codeWith b) : String.utf8EncodeChar (Char.ofNat n) = g.taken ++ b :: tails n k := by
  obtain ⟨hlow, hhigh, hmin, hmax⟩ := h.of_admits hb
  rw [Begun.codeWith] at hn
  have hcode : n / 64 ^ g.missing = g.code := by
    rw [hk, pow_succ, ← Nat.div_div_eq_div_mul, hn]
    omega
  have hdigit : n / 64 ^ (g.missing - 1) % 64 + 128 = b.toNat := by
    rw [hk, Nat.add_sub_cancel, hn]
    omega
  have htail : tail (n / 64 ^ k) = b := tail_eq hmin hmax (by omega)
  rw [h.encode_eq n hcode (by omega) (by omega), hk, tails, htail]

theorem Begun.Fits.push (h : g.Fits) (hb : g.admits b = true) (hmore : g.missing ≠ 1) : (g.push b).Fits := by
  obtain ⟨k, hk⟩ : ∃ k, g.missing = k + 2 := ⟨g.missing - 2, by have := h.missing_pos; omega⟩
  have hmissing : (g.push b).missing = k + 1 := by
    rw [Begun.push, hk]
    rfl
  refine ⟨?_, le_refl 0x80, le_refl 0xBF, fun n hn _ _ => ?_⟩
  · rw [hmissing]
    exact Nat.succ_pos k
  · rw [hmissing] at hn ⊢
    have hencode := h.encode_codeWith hb hk hn
    rw [hencode, Begun.push, List.append_assoc]
    rfl

theorem taken_of_begun? (h : begun? b = some g) : g.taken = [b] := by
  unfold begun? at h
  split_ifs at h
  all_goals
    obtain rfl := Option.some.inj h
    rfl

/-- Between two characters a byte is kept: in a piece, or as the first byte of a character. -/
theorem enter_keeps (b : UInt8) :
    (enter b).1.flatMap Piece.bytes ++ takenBytes (enter b).2 = [b] ∧ ∀ g ∈ (enter b).2, g.Fits := by
  unfold enter
  split_ifs with hlow
  · refine ⟨?_, fun g hg => by cases hg⟩
    simpa [Piece.bytes, takenBytes] using encodeChar_of_lt (UInt8.lt_iff_toNat_lt.mp hlow)
  · cases hb : begun? b with
    | none => exact ⟨rfl, fun g hg => by cases hg⟩
    | some g =>
      refine ⟨?_, fun g' hg => ?_⟩
      · exact taken_of_begun? hb
      · obtain rfl := Option.some.inj hg
        exact fits_of_begun? hb

/-- In the middle of a character a byte is kept, and so are those taken before it. -/
theorem Begun.Fits.resume_keeps (h : g.Fits) (b : UInt8) :
    (resume g b).1.flatMap Piece.bytes ++ takenBytes (resume g b).2 = g.taken ++ [b] ∧
      ∀ g' ∈ (resume g b).2, g'.Fits := by
  unfold resume
  split_ifs with hb hlast
  · refine ⟨?_, fun g hg => by cases hg⟩
    have hencode := h.encode_codeWith hb hlast (n := g.codeWith b) (Nat.div_one _)
    simpa [Piece.bytes, takenBytes, tails] using hencode
  · refine ⟨rfl, fun g' hg => ?_⟩
    obtain rfl := Option.some.inj hg
    exact h.push hb hlast
  · obtain ⟨hbytes, hfits⟩ := enter_keeps b
    refine ⟨?_, hfits⟩
    rw [List.flatMap_cons, List.append_assoc, hbytes]
    rfl

theorem flatMap_bytes_scan {st : Option Begun} (h : ∀ g ∈ st, g.Fits) (bs : Bytes) :
    (scan st bs).flatMap Piece.bytes = takenBytes st ++ bs := by
  induction bs generalizing st with
  | nil =>
    cases st with
    | none => rfl
    | some g => simp [scan, Piece.bytes, takenBytes]
  | cons b bs ih =>
    -- what a byte adds to the pieces and to the character that has begun is itself
    cases st with
    | none =>
      obtain ⟨hbytes, hfits⟩ := enter_keeps b
      rw [scan, List.flatMap_append, ih hfits, ← List.append_assoc, hbytes]
      rfl
    | some g =>
      obtain ⟨hbytes, hfits⟩ := (h g rfl).resume_keeps b
      rw [scan, List.flatMap_append, ih hfits, ← List.append_assoc, hbytes, List.append_assoc]
      rfl

/-- No byte is lost: the pieces put together are the bytes again. -/
theorem flatMap_bytes_pieces (bs : Bytes) : (pieces bs).flatMap Piece.bytes = bs :=
  flatMap_bytes_scan (fun g hg => by cases hg) bs

theorem encode_of_char? {ps : List Piece} (h : ps.mapM Piece.char? = some s) : ps.flatMap Piece.bytes = encode s := by
  induction ps generalizing s with
  | nil =>
    obtain rfl := Option.some.inj h
    rfl
  | cons p ps ih =>
    rw [List.mapM_cons, Option.bind_eq_bind, Option.bind_eq_some_iff] at h
    obtain ⟨c, hc, h⟩ := h
    obtain ⟨s', hs, h⟩ := Option.bind_eq_some_iff.mp h
    obtain rfl := Option.some.inj h
    cases p with
    | char d =>
      obtain rfl := Option.some.inj hc
      rw [List.flatMap_cons, ih hs]
      rfl
    | broken bytes => cases hc

/-- Bytes are decoded as a text exactly when they are the bytes of that text. -/
theorem decode?_eq_some_iff : decode? bs = some s ↔ bs = encode s := by
  constructor
  · intro h
    rw [← flatMap_bytes_pieces bs]
    exact encode_of_char? h
  · rintro rfl
    exact decode?_encode s

end Agenda.Text.Utf8
