import Agenda.Proofs.Json.Tokens
/-!
The values of JSON, with brackets nested to any depth, and that a value is skipped exactly when it is one. The grammar
has a part for what is left of a bracket after one of its items, since that is what the stack of open brackets stands
for: each of them is still to be closed by such a part.
-/
namespace Agenda.Json

open Text

/-- What of a value is meant. -/
inductive Part
  /-- All of it. -/
  | value
  /-- What follows an item of a bracket, with the end of the bracket. -/
  | rest (k : Bracket)

/-- What stands in front of the value of an item: only white space in an array, a name in an object. -/
inductive IsLead : Bracket → Bytes → Prop
  | array {w : Bytes} (hw : Spaces w) : IsLead .array w
  | object {key w : Bytes} (h : IsKey key) (hw : Spaces w) : IsLead .object (key ++ w)

/-- The texts of JSON. -/
inductive IsJson : Part → Bytes → Prop
  | scalar {bs : Bytes} (h : IsScalar bs) : IsJson .value bs
  | empty {k : Bracket} {w : Bytes} (hw : Spaces w) : IsJson .value (k.opening :: (w ++ [k.closing]))
  | items {k : Bracket} {lead v bs : Bytes} (hlead : IsLead k lead) (h : IsJson .value v)
    (hrest : IsJson (.rest k) bs) : IsJson .value (k.opening :: (lead ++ (v ++ bs)))
  | close {k : Bracket} {w : Bytes} (hw : Spaces w) : IsJson (.rest k) (w ++ [k.closing])
  | item {k : Bracket} {w lead v bs : Bytes} (hw : Spaces w) (hlead : IsLead k lead) (h : IsJson .value v)
    (hrest : IsJson (.rest k) bs) : IsJson (.rest k) (w ++ comma :: (lead ++ (v ++ bs)))

variable {k : Bracket} {stack : List Bracket} {part : Part} {b : UInt8} {s r v bs w lead rest : Bytes}

/-! ### The steps of the skipping -/

theorem isSpace_opening (k : Bracket) : isSpace k.opening = false := by
  cases k <;> decide

theorem isSpace_closing (k : Bracket) : isSpace k.closing = false := by
  cases k <;> decide

theorem skipFrom_open (h : skipSpace s = k.opening :: bs) :
    skipFrom .value stack s = skipFrom .first (k :: stack) bs := by
  rw [skipFrom]
  split
  case h_1 hs => cases hs.symm.trans h
  case h_2 hs =>
    obtain ⟨rfl, rfl⟩ := List.cons.inj (hs.symm.trans h)
    cases k with
    | array => rw [if_pos rfl]
    | object => rw [if_neg (by decide), if_pos rfl]

theorem skipFrom_scalar (h : skipSpace s = b :: bs) (hr : skipScalar (b :: bs) = .ok rest) :
    skipFrom .value stack s = skipFrom .next stack rest := by
  have hopening (k : Bracket) : b ≠ k.opening := by
    rintro rfl
    cases k <;> cases hr
  rw [skipFrom]
  split
  case h_1 hs => cases hs.symm.trans h
  case h_2 hs =>
    obtain ⟨rfl, rfl⟩ := List.cons.inj (hs.symm.trans h)
    rw [if_neg (hopening .array), if_neg (hopening .object)]
    split
    case h_1 he => cases he.symm.trans hr
    case h_2 he =>
      cases he.symm.trans hr
      rfl

theorem skipFrom_empty (h : skipSpace s = k.closing :: bs) :
    skipFrom .first (k :: stack) s = skipFrom .next stack bs := by
  rw [skipFrom]
  split
  case h_1 hs => cases hs.symm.trans h
  case h_2 hs =>
    obtain ⟨rfl, rfl⟩ := List.cons.inj (hs.symm.trans h)
    rw [if_pos rfl]

theorem skipFrom_first (h : skipSpace s = b :: bs) (hb : b ≠ k.closing) (hr : skipItemKey k (b :: bs) = .ok rest) :
    skipFrom .first (k :: stack) s = skipFrom .value (k :: stack) rest := by
  conv_lhs => rw [skipFrom]
  split
  case h_1 hs => cases hs.symm.trans h
  case h_2 hs =>
    obtain ⟨rfl, rfl⟩ := List.cons.inj (hs.symm.trans h)
    rw [if_neg hb]
    split
    case h_1 he => cases he.symm.trans hr
    case h_2 he =>
      cases he.symm.trans hr
      rfl

theorem skipFrom_close (h : skipSpace s = k.closing :: bs) :
    skipFrom .next (k :: stack) s = skipFrom .next stack bs := by
  rw [skipFrom]
  split
  case h_1 hs => cases hs.symm.trans h
  case h_2 hs =>
    obtain ⟨rfl, rfl⟩ := List.cons.inj (hs.symm.trans h)
    have hcomma : k.closing ≠ 0x2C := by cases k <;> decide
    rw [if_neg hcomma, if_pos rfl]

theorem skipFrom_item (h : skipSpace s = comma :: bs) (hr : skipItemKey k bs = .ok rest) :
    skipFrom .next (k :: stack) s = skipFrom .value (k :: stack) rest := by
  conv_lhs => rw [skipFrom]
  split
  case h_1 hs => cases hs.symm.trans h
  case h_2 hs =>
    obtain ⟨rfl, rfl⟩ := List.cons.inj (hs.symm.trans h)
    rw [if_pos (show comma = 0x2C from rfl)]
    split
    case h_1 he => cases he.symm.trans hr
    case h_2 he =>
      cases he.symm.trans hr
      rfl

/-! ### A value is skipped -/

/-- What stands in front of the value of an item is skipped but for white space. -/
theorem IsLead.skipItemKey_append (h : IsLead k lead) (s : Bytes) :
    ∃ w, Spaces w ∧ skipItemKey k (lead ++ s) = .ok (w ++ s) := by
  cases h with
  | array hw => exact ⟨lead, hw, rfl⟩
  | @object key w h hw =>
    refine ⟨w, hw, ?_⟩
    rw [List.append_assoc]
    exact h.skipKey_append (w ++ s)

theorem IsJson.exists_cons (h : IsJson .value v) :
    ∃ b bs, v = b :: bs ∧ isSpace b = false ∧ ∀ k : Bracket, b ≠ k.closing := by
  have hopening (k k' : Bracket) : k.opening ≠ k'.closing := by
    cases k <;> cases k' <;> decide
  cases h with
  | scalar h =>
    obtain ⟨b, bs, hv, hspace, hne⟩ := h.exists_cons
    exact ⟨b, bs, hv, hspace, fun k => (hne k).2⟩
  | @empty k w hw => exact ⟨k.opening, _, rfl, isSpace_opening k, hopening k⟩
  | @items k _ _ _ _ _ _ => exact ⟨k.opening, _, rfl, isSpace_opening k, hopening k⟩

/-- The first item of a bracket is skipped as a value is, once its name is. -/
theorem IsLead.skipFrom_first (h : IsLead k lead) (hv : IsJson .value v) (stack : List Bracket) (s : Bytes) :
    ∃ w, Spaces w ∧ skipFrom .first (k :: stack) (lead ++ (v ++ s)) = skipFrom .value (k :: stack) (w ++ (v ++ s)) := by
  cases h with
  | array hw =>
    obtain ⟨b, bs, rfl, hspace, hne⟩ := hv.exists_cons
    exact ⟨[], spaces_nil, Json.skipFrom_first (skipSpace_append_cons hw hspace (bs ++ s)) (hne .array) rfl⟩
  | @object _ w h hw =>
    obtain ⟨hfront, hcontent, hback⟩ := h
    have hkey := (IsKey.mk spaces_nil hcontent hback).skipKey_append (w ++ (v ++ s))
    refine ⟨w, hw, Json.skipFrom_first ?_ (show quote ≠ _ by decide) hkey⟩
    rw [List.append_assoc, List.append_assoc, List.cons_append]
    exact skipSpace_append_cons hfront rfl _

theorem EndsNumber.spaces_append (hw : Spaces w) (h : EndsNumber s) : EndsNumber (w ++ s) := by
  cases w with
  | nil => exact h
  | cons b w =>
    rintro b hb
    cases hb
    have hspace := hw b List.mem_cons_self
    simp only [isSpace, Bool.or_eq_true, beq_iff_eq] at hspace
    rcases hspace with ((rfl | rfl) | rfl) | rfl <;> decide

theorem endsNumber_closing (hw : Spaces w) (k : Bracket) (r : Bytes) : EndsNumber (w ++ k.closing :: r) := by
  apply EndsNumber.spaces_append hw
  rintro b hb
  cases hb
  cases k <;> decide

theorem endsNumber_comma (hw : Spaces w) (r : Bytes) : EndsNumber (w ++ comma :: r) := by
  apply EndsNumber.spaces_append hw
  rintro b hb
  cases hb
  decide

/-- A number may end before what follows an item. -/
theorem IsJson.endsNumber_rest (h : IsJson (.rest k) bs) (r : Bytes) : EndsNumber (bs ++ r) := by
  cases h with
  | close hw =>
    rw [List.append_assoc]
    exact endsNumber_closing hw k r
  | item hw hlead h hrest =>
    rw [List.append_assoc]
    exact endsNumber_comma hw _

/-- What the skipping comes to when it reads a part of a value. -/
def IsSkipped : Part → Bytes → Prop
  | .value, v => ∀ stack w r, Spaces w → EndsNumber r → skipFrom .value stack (w ++ (v ++ r)) = skipFrom .next stack r
  | .rest k, bs => ∀ stack r, skipFrom .next (k :: stack) (bs ++ r) = skipFrom .next stack r

/-- Values are skipped, and so are the ends of brackets. -/
theorem IsJson.isSkipped (h : IsJson part bs) : IsSkipped part bs := by
  induction h with
  | scalar h =>
    intro stack w r hw hr
    obtain ⟨b, bs, rfl, hspace, -⟩ := h.exists_cons
    exact skipFrom_scalar (skipSpace_append_cons hw hspace (bs ++ r)) (h.skipScalar_append hr)
  | @empty k w' hw' =>
    intro stack w r hw hr
    have hopen := skipSpace_append_cons hw (isSpace_opening k) (w' ++ [k.closing] ++ r)
    have hclose := skipSpace_append_cons hw' (isSpace_closing k) r
    rw [List.cons_append, skipFrom_open hopen, List.append_assoc, List.singleton_append, skipFrom_empty hclose]
  | @items k lead v bs hlead h hrest ih ihrest =>
    intro stack w r hw hr
    -- the bracket stands on the stack from here to its end, which the rest of the items takes off again
    have hopen := skipSpace_append_cons hw (isSpace_opening k) (lead ++ (v ++ bs) ++ r)
    obtain ⟨w', hw', hfirst⟩ := hlead.skipFrom_first h stack (bs ++ r)
    rw [List.cons_append, skipFrom_open hopen, List.append_assoc, List.append_assoc, hfirst,
      ih (k :: stack) w' (bs ++ r) hw' (hrest.endsNumber_rest r), ihrest stack r]
  | @close k w hw =>
    intro stack r
    rw [List.append_assoc, List.singleton_append, skipFrom_close (skipSpace_append_cons hw (isSpace_closing k) r)]
  | @item k w lead v bs hw hlead h hrest ih ihrest =>
    intro stack r
    obtain ⟨w', hw', hkey⟩ := hlead.skipItemKey_append (v ++ (bs ++ r))
    have hcomma := skipSpace_append_cons hw (show isSpace comma = false by decide) (lead ++ (v ++ (bs ++ r)))
    have hsplit : w ++ comma :: (lead ++ (v ++ bs)) ++ r = w ++ comma :: (lead ++ (v ++ (bs ++ r))) := by
      simp only [List.append_assoc, List.cons_append]
    rw [hsplit, skipFrom_item hcomma hkey, ih (k :: stack) w' (bs ++ r) hw' (hrest.endsNumber_rest r), ihrest stack r]

/-! ### What is skipped is a value -/

theorem exists_lead (h : skipItemKey k s = .ok (w ++ r)) (hw : Spaces w) : ∃ lead, IsLead k lead ∧ s = lead ++ r := by
  cases k with
  | array =>
    cases h
    exact ⟨w, IsLead.array hw, rfl⟩
  | object =>
    obtain ⟨key, hkey, rfl⟩ := skipKey_eq_ok_iff.mp h
    exact ⟨key ++ w, IsLead.object hkey hw, (List.append_assoc key w r).symm⟩

theorem IsLead.spaces_append (hw : Spaces w) (h : IsLead k lead) : IsLead k (w ++ lead) := by
  cases h with
  | array hw' => exact IsLead.array (List.forall_mem_append.mpr ⟨hw, hw'⟩)
  | object h hw' =>
    obtain ⟨hfront, hcontent, hback⟩ := h
    rw [← List.append_assoc, ← List.append_assoc]
    exact IsLead.object (IsKey.mk (List.forall_mem_append.mpr ⟨hw, hfront⟩) hcontent hback) hw'

/-- The text in front of what is left closes the open brackets, the innermost one first. -/
inductive Closes : List Bracket → Bytes → Bytes → Prop
  | nil {r : Bytes} : Closes [] r r
  | cons {k : Bracket} {stack : List Bracket} {bs s r : Bytes} (h : IsJson (.rest k) bs) (hs : Closes stack s r) :
    Closes (k :: stack) (bs ++ s) r

/-- What the text in front of what is left must be for the skipping to get there. -/
def Precedes : Want → List Bracket → Bytes → Bytes → Prop
  | .value, stack, s, r => ∃ w v s', Spaces w ∧ IsJson .value v ∧ s = w ++ (v ++ s') ∧ Closes stack s' r
  | .first, [], s, r => s = r
  | .first, k :: stack, s, r => ∃ bs s', IsJson .value (k.opening :: bs) ∧ s = bs ++ s' ∧ Closes stack s' r
  | .next, stack, s, r => Closes stack s r

/-- What follows an item after its comma is white space or a name, a value, and what follows that. -/
theorem exists_item (h : skipItemKey k s = .ok rest) (hrest : Precedes .value (k :: stack) rest r) :
    ∃ lead v bs s', IsLead k lead ∧ IsJson .value v ∧ IsJson (.rest k) bs ∧ s = lead ++ (v ++ (bs ++ s')) ∧
      Closes stack s' r := by
  obtain ⟨w, v, t, hw, hv, rfl, hcloses⟩ := hrest
  obtain ⟨lead, hlead, rfl⟩ := exists_lead h hw
  -- the bracket that is still open gives what follows the item
  cases hcloses with
  | @cons _ _ bs s' _ hbs hcloses => exact ⟨lead, v, bs, s', hlead, hv, hbs, rfl, hcloses⟩

theorem precedes_open (hs : skipSpace s = k.opening :: bs) (h : Precedes .first (k :: stack) bs r) :
    Precedes .value stack s r := by
  obtain ⟨w, hw, rfl⟩ := exists_skipSpace hs
  obtain ⟨bs', s', hv, rfl, hcloses⟩ := h
  exact ⟨w, k.opening :: bs', s', hw, hv, rfl, hcloses⟩

theorem precedes_scalar (hs : skipSpace s = bs) (hr : skipScalar bs = .ok rest) (h : Precedes .next stack rest r) :
    Precedes .value stack s r := by
  obtain ⟨w, hw, rfl⟩ := exists_skipSpace hs
  obtain ⟨v, hv, rfl⟩ := exists_of_skipScalar hr
  exact ⟨w, v, rest, hw, IsJson.scalar hv, rfl, h⟩

theorem precedes_empty (hs : skipSpace s = k.closing :: bs) (h : Precedes .next stack bs r) :
    Precedes .first (k :: stack) s r := by
  obtain ⟨w, hw, rfl⟩ := exists_skipSpace hs
  refine ⟨w ++ [k.closing], bs, IsJson.empty hw, ?_, h⟩
  rw [List.append_assoc]
  rfl

theorem precedes_first (hs : skipSpace s = bs) (hr : skipItemKey k bs = .ok rest)
    (h : Precedes .value (k :: stack) rest r) : Precedes .first (k :: stack) s r := by
  obtain ⟨w, hw, rfl⟩ := exists_skipSpace hs
  obtain ⟨lead, v, bs, s', hlead, hv, hbs, rfl, hcloses⟩ := exists_item hr h
  -- the white space that was skipped to see that the bracket does not end belongs to what leads to the value
  refine ⟨w ++ lead ++ (v ++ bs), s', IsJson.items (hlead.spaces_append hw) hv hbs, ?_, hcloses⟩
  simp only [List.append_assoc]

theorem precedes_close (hs : skipSpace s = k.closing :: bs) (h : Precedes .next stack bs r) :
    Precedes .next (k :: stack) s r := by
  obtain ⟨w, hw, rfl⟩ := exists_skipSpace hs
  rw [List.append_cons]
  exact Closes.cons (IsJson.close hw) h

theorem precedes_item (hs : skipSpace s = comma :: bs) (hr : skipItemKey k bs = .ok rest)
    (h : Precedes .value (k :: stack) rest r) : Precedes .next (k :: stack) s r := by
  obtain ⟨w, hw, rfl⟩ := exists_skipSpace hs
  obtain ⟨lead, v, bs, s', hlead, hv, hbs, rfl, hcloses⟩ := exists_item hr h
  have hsplit : w ++ comma :: (lead ++ (v ++ (bs ++ s'))) = w ++ comma :: (lead ++ (v ++ bs)) ++ s' := by
    simp only [List.append_assoc, List.cons_append]
  rw [hsplit]
  exact Closes.cons (IsJson.item hw hlead hv hbs) hcloses

/-- A text that is skipped has the form that the state of the skipping asks for. The cases are its steps, of which the
others are flaws. -/
theorem precedes_of_skipFrom {want : Want} (h : skipFrom want stack s = .ok r) : Precedes want stack s r := by
  fun_induction skipFrom want stack s with
  | case2 stack s bs hs ih => exact precedes_open (k := .array) hs (ih h)
  | case3 stack s bs hs _ ih => exact precedes_open (k := .object) hs (ih h)
  | case5 stack s b bs hs _ _ rest hr ih => exact precedes_scalar hs hr (ih h)
  | case6 => exact Except.ok.inj h
  | case8 k stack s bs hs ih => exact precedes_empty hs (ih h)
  | case10 k stack s b bs hs _ rest hr ih => exact precedes_first hs hr (ih h)
  | case11 =>
    cases h
    exact Closes.nil
  | case14 k stack s bs rest hr hs ih => exact precedes_item hs hr (ih h)
  | case15 k stack s bs hs _ ih => exact precedes_close hs (ih h)
  | _ => cases h

/-- A value is skipped exactly up to its end, with the white space in front of it. -/
theorem IsJson.skipValue_append (hv : IsJson .value v) (hw : Spaces w) (hr : EndsNumber r) :
    skipValue (w ++ (v ++ r)) = .ok r := by
  rw [skipValue, hv.isSkipped [] w r hw hr, skipFrom]

theorem exists_of_skipValue (h : skipValue s = .ok r) : ∃ w v, Spaces w ∧ IsJson .value v ∧ s = w ++ (v ++ r) := by
  obtain ⟨w, v, s', hw, hv, rfl, hcloses⟩ := precedes_of_skipFrom h
  cases hcloses with
  | nil => exact ⟨w, v, hw, hv, rfl⟩

end Agenda.Json
