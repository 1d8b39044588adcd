import Agenda.Proofs.Json.Reading
import Agenda.Proofs.Json.Values
/-!
Strings with their quotes, and brackets around items whose content matters. A bracket is given by the language of its
items, so that the members of an object and the strings of an array are two cases of one notion.
-/
namespace Agenda.Json

open Text

variable {bs : Bytes} {c : Char} {s : List Char}

theorem IsContent.plain_append (h : IsContent bs) {plain : Bytes}
    (hplain : ∀ b ∈ plain, b ≠ quote ∧ b ≠ backslash ∧ ¬ b < 0x20) : IsContent (plain ++ bs) := by
  induction plain with
  | nil => exact h
  | cons b plain ih =>
    obtain ⟨⟨hquote, hback, hlow⟩, htail⟩ := List.forall_mem_cons.mp hplain
    exact IsContent.byte hquote hback hlow (ih htail)

/-- A spelled character has the form of a part of a string. -/
theorem Spells.isContent_append (h : Spells bs c) {rest : Bytes} (hrest : IsContent rest) : IsContent (bs ++ rest) := by
  cases h with
  | plain hquote hback hlow =>
    exact hrest.plain_append fun b hb => plain_of_mem_encodeChar hquote hback hlow hb
  | letter h =>
    have hb := congrArg Option.isSome h
    exact IsContent.letter hb hrest
  | number hlen h _ _ => exact IsContent.number hlen (isSome_of_foldl_pushHex h) hrest
  | pair hlen hlen' h h' _ _ =>
    have hsecond := IsContent.number hlen' (isSome_of_foldl_pushHex h') hrest
    have hfirst := IsContent.number hlen (isSome_of_foldl_pushHex h) hsecond
    rw [List.append_assoc]
    exact hfirst

theorem SpellsText.isContent (h : SpellsText bs s) : IsContent bs := by
  induction h with
  | nil => exact IsContent.nil
  | cons h hs ih => exact h.isContent_append ih

/-- A string with its quotes, and the text that it spells. -/
inductive IsString : Bytes → String → Prop
  | mk {bs : Bytes} {t : String} (h : SpellsText bs t.toList) : IsString (quote :: (bs ++ [quote])) t

theorem IsString.head? {t : String} (h : IsString bs t) : bs.head? = some quote := by
  obtain ⟨h⟩ := h
  rfl

theorem IsString.isJson {t : String} (h : IsString bs t) : IsJson .value bs := by
  obtain ⟨h⟩ := h
  exact IsJson.scalar (IsScalar.string h.isContent)

/-- A string is skipped whatever follows it, since it has an end of its own. -/
theorem IsString.skipValue_append {t : String} (h : IsString bs t) (r : Bytes) : skipValue (bs ++ r) = .ok r := by
  obtain @⟨content, t, h⟩ := h
  have hskip : skipScalar (quote :: (content ++ quote :: r)) = .ok r := h.isContent.skipString_append r
  rw [List.cons_append, List.append_assoc, List.singleton_append, skipValue,
    skipFrom_scalar (skipSpace_cons rfl _) hskip, skipFrom]

theorem encode_quoted (s : List Char) :
    Utf8.encode (quoted s) = quote :: (Utf8.encode (s.flatMap escape) ++ [quote]) := by
  calc Utf8.encode (quoted s)
      = Utf8.encode ['"'] ++ Utf8.encode (s.flatMap escape ++ ['"']) :=
        Utf8.encode_append ['"'] (s.flatMap escape ++ ['"'])
    _ = quote :: (Utf8.encode (s.flatMap escape) ++ [quote]) := by rw [Utf8.encode_append (s.flatMap escape)]; rfl

/-- What is written for a text is a string that spells it. -/
theorem isString_quoted (text : String) : IsString (Utf8.encode (quoted text.toList)) text := by
  rw [encode_quoted]
  exact IsString.mk (spellsText_escape text.toList)

/-- The items of a bracket from the first one on, with commas between them, and the end of the bracket. -/
inductive Items {α : Type} (item : Bytes → α → Prop) (k : Bracket) : Bytes → List α → Prop
  | last {w m w' : Bytes} {a : α} (hw : Spaces w) (h : item m a) (hw' : Spaces w') :
    Items item k (w ++ (m ++ (w' ++ [k.closing]))) [a]
  | more {w m w' bs : Bytes} {a : α} {as : List α} (hw : Spaces w) (h : item m a) (hw' : Spaces w')
    (hs : Items item k bs as) : Items item k (w ++ (m ++ (w' ++ comma :: bs))) (a :: as)

theorem Items.spaces_append {α : Type} {item : Bytes → α → Prop} {k : Bracket} {as : List α} {w : Bytes}
    (h : Items item k bs as) (hw : Spaces w) : Items item k (w ++ bs) as := by
  cases h with
  | last hw' h hw'' =>
    rw [← List.append_assoc]
    exact Items.last (List.forall_mem_append.mpr ⟨hw, hw'⟩) h hw''
  | more hw' h hw'' hs =>
    rw [← List.append_assoc]
    exact Items.more (List.forall_mem_append.mpr ⟨hw, hw'⟩) h hw'' hs

/-- A text that is a bracket around items and nothing else, but for white space. -/
inductive Encloses {α : Type} (item : Bytes → α → Prop) (k : Bracket) : Bytes → List α → Prop
  | empty {w w' w'' : Bytes} (hw : Spaces w) (hw' : Spaces w') (hw'' : Spaces w'') :
    Encloses item k (w ++ k.opening :: (w' ++ k.closing :: w'')) []
  | items {w bs w' : Bytes} {as : List α} (hw : Spaces w) (h : Items item k bs as) (hw' : Spaces w') :
    Encloses item k (w ++ k.opening :: (bs ++ w')) as

/-- A bracket is told by its first byte. -/
theorem Encloses.exists_opening {α : Type} {item : Bytes → α → Prop} {k : Bracket} {as : List α}
    (h : Encloses item k bs as) : ∃ r, skipSpace bs = k.opening :: r := by
  cases h with
  | empty hw _ _ => exact ⟨_, skipSpace_append_cons hw (isSpace_opening k) _⟩
  | items hw _ _ => exact ⟨_, skipSpace_append_cons hw (isSpace_opening k) _⟩

end Agenda.Json
