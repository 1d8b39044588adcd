import Agenda.Task.Decode
import Agenda.Proofs.Json.Items
/-!
Objects that are tasks. The members of an object are read one after the other, and what was read so far tells with the
members still to come what each field holds. So an object is read as a task when each field holds one text or nothing,
and refused when a field holds two things or one that is no text, however the object is written.
-/
namespace Agenda

open Text Json

theorem Field.ofKey?_eq_some_iff {name : String} {f : Field} : ofKey? name = some f ↔ f.key = name := by
  constructor
  · intro h
    have hkey := List.find?_some h
    exact beq_iff_eq.mp hkey
  · rintro rfl
    cases f <;> rfl

theorem Field.key_injective {f g : Field} (h : f.key = g.key) : f = g := by
  have hf := ofKey?_eq_some_iff.mpr h
  have hg := ofKey?_eq_some_iff.mpr (rfl : g.key = g.key)
  exact Option.some.inj (hf.symm.trans hg)

namespace Task

/-- What a member of an object holds, as far as a task is concerned. -/
inductive Held
  | text (t : String)
  /-- A value that is no text, or any value under a name that is not that of a field. -/
  | other
  deriving DecidableEq

/-- What a value holds under a name. -/
inductive Holds (name : String) : Bytes → Held → Prop
  | text {v : Bytes} {t : String} (h : IsString v t) : Holds name v (.text t)
  | other {v : Bytes} (hv : IsJson .value v) (h : Field.ofKey? name = none ∨ ∀ t, ¬ IsString v t) : Holds name v .other

/-- A member of an object, with its name and what it holds. -/
inductive IsMember : Bytes → String × Held → Prop
  | mk {key w w' v : Bytes} {name : String} {held : Held} (hname : IsString key name) (hw : Spaces w) (hw' : Spaces w')
    (h : Holds name v held) : IsMember (key ++ (w ++ colon :: (w' ++ v))) (name, held)

/-- What the members with the name of a field hold. -/
def heldBy (f : Field) (ms : List (String × Held)) : List Held :=
  (ms.filter (·.1 == f.key)).map (·.2)

/-- The task that members tell: each field holds one text, or nothing and is empty. -/
def Tells (ms : List (String × Held)) (t : Task) : Prop :=
  ∀ f, heldBy f ms = [] ∧ t.get f = "" ∨ heldBy f ms = [.text (t.get f)]

/-- What a field holds of the members that were read. -/
def seen (f : Field) (fields : Fields) : List Held :=
  ((fields.lookup f).map Held.text).toList

/-- The fields after some members hold what they held before, and what the members hold. -/
def Keeps (fields : Fields) (ms : List (String × Held)) (fields' : Fields) : Prop :=
  ∀ f, seen f fields' = seen f fields ++ heldBy f ms

/-- Some field holds two things, or one that is no text. -/
def Spoils (fields : Fields) (ms : List (String × Held)) : Prop :=
  ∃ f, 2 ≤ (seen f fields ++ heldBy f ms).length ∨ Held.other ∈ seen f fields ++ heldBy f ms

/-- What comes of members that are read in front of what is left: their fields are kept, or one is spoiled and nothing
is read. -/
inductive Reads (fields : Fields) (ms : List (String × Held)) (r : Bytes) : Except Flaw (Fields × Bytes) → Prop
  | kept {fields' : Fields} (h : Keeps fields ms fields') : Reads fields ms r (.ok (fields', r))
  | spoiled {e : Flaw} (h : Spoils fields ms) : Reads fields ms r (.error e)

variable {f g : Field} {fields fields' fields'' : Fields} {ms : List (String × Held)} {m : String × Held}
  {held : Held} {name text : String} {bs s r rest v w : Bytes} {t t' : Task}

/-! ### What members hold -/

theorem heldBy_cons (f : Field) (m : String × Held) (ms : List (String × Held)) :
    heldBy f (m :: ms) = heldBy f [m] ++ heldBy f ms := by
  rw [heldBy, List.filter_cons, heldBy, List.filter_cons]
  split <;> rfl

theorem heldBy_self (f : Field) (held : Held) : heldBy f [(f.key, held)] = [held] := by
  simp [heldBy]

theorem heldBy_of_ne (h : name ≠ f.key) (held : Held) : heldBy f [(name, held)] = [] := by
  rw [heldBy, List.filter_cons_of_neg]
  · rfl
  · rw [beq_false_of_ne h]
    exact Bool.false_ne_true

theorem heldBy_unknown (h : Field.ofKey? name = none) (f : Field) (held : Held) : heldBy f [(name, held)] = [] := by
  apply heldBy_of_ne
  rintro rfl
  rw [Field.ofKey?_eq_some_iff.mpr rfl] at h
  cases h

theorem seen_cons_self (f : Field) (text : String) (fields : Fields) : seen f ((f, text) :: fields) = [.text text] := by
  rw [seen, List.lookup_cons_self]
  rfl

theorem seen_cons_of_ne (h : g ≠ f) (text : String) (fields : Fields) :
    seen g ((f, text) :: fields) = seen g fields := by
  rw [seen, List.lookup_cons, beq_false_of_ne h]
  rfl

theorem seen_of_lookup (h : fields.lookup f = none) : seen f fields = [] := by
  rw [seen, h]
  rfl

theorem keeps_unknown (h : Field.ofKey? name = none) (held : Held) (fields : Fields) :
    Keeps fields [(name, held)] fields := by
  intro f
  rw [heldBy_unknown h, List.append_nil]

theorem keeps_text (h : fields.lookup f = none) (text : String) :
    Keeps fields [(f.key, .text text)] ((f, text) :: fields) := by
  intro g
  by_cases hg : g = f
  · subst hg
    rw [seen_cons_self, seen_of_lookup h, heldBy_self]
    rfl
  · have hkey : f.key ≠ g.key := fun he => hg (Field.key_injective he.symm)
    rw [seen_cons_of_ne hg, heldBy_of_ne hkey, List.append_nil]

theorem Keeps.cons (h : Keeps fields [m] fields') (h' : Keeps fields' ms fields'') :
    Keeps fields (m :: ms) fields'' := by
  intro f
  calc seen f fields'' = seen f fields' ++ heldBy f ms := h' f
    _ = seen f fields ++ heldBy f [m] ++ heldBy f ms := by rw [h f]
    _ = seen f fields ++ heldBy f (m :: ms) := by rw [List.append_assoc, ← heldBy_cons]

theorem spoils_twice (h : fields.lookup f ≠ none) (held : Held) : Spoils fields [(f.key, held)] := by
  obtain ⟨text, htext⟩ := Option.ne_none_iff_exists'.mp h
  refine ⟨f, Or.inl ?_⟩
  rw [heldBy_self, seen, htext]
  exact le_refl 2

theorem spoils_other (fields : Fields) (f : Field) : Spoils fields [(f.key, .other)] := by
  refine ⟨f, Or.inr ?_⟩
  rw [heldBy_self]
  exact List.mem_append_right _ List.mem_cons_self

theorem Spoils.first (h : Spoils fields [m]) (ms : List (String × Held)) : Spoils fields (m :: ms) := by
  obtain ⟨f, h⟩ := h
  refine ⟨f, ?_⟩
  rw [heldBy_cons, ← List.append_assoc, List.length_append]
  exact h.imp (fun h => le_trans h (Nat.le_add_right _ _)) (List.mem_append_left _)

theorem Spoils.cons (h : Keeps fields [m] fields') (h' : Spoils fields' ms) : Spoils fields (m :: ms) := by
  obtain ⟨f, h'⟩ := h'
  refine ⟨f, ?_⟩
  rw [heldBy_cons, ← List.append_assoc, ← h f]
  exact h'

/-- What was read tells a task. -/
theorem Keeps.tells (h : Keeps [] ms fields) : Tells ms (ofRead fields) := by
  intro f
  have hheld : heldBy f ms = seen f fields := (h f).symm
  rw [hheld, seen, ofRead, get_ofFields]
  cases fields.lookup f with
  | none => exact Or.inl ⟨rfl, rfl⟩
  | some text => exact Or.inr rfl

theorem ext_get (h : ∀ f, t.get f = t'.get f) : t = t' := by
  have hid := h .id
  have hdate := h .date
  have htitle := h .title
  have hcomment := h .comment
  have hrecurrence := h .recurrence
  cases t
  cases t'
  cases hid
  cases hdate
  cases htitle
  cases hcomment
  cases hrecurrence
  rfl

/-- Members tell one task at most. -/
theorem Tells.unique (h : Tells ms t) (h' : Tells ms t') : t = t' := by
  apply ext_get
  intro f
  rcases h f with ⟨hnone, hempty⟩ | hheld
  · rcases h' f with ⟨-, hempty'⟩ | hheld'
    · rw [hempty, hempty']
    · cases hnone.symm.trans hheld'
  · rcases h' f with ⟨hnone', -⟩ | hheld'
    · cases hnone'.symm.trans hheld
    · have htext := List.head_eq_of_cons_eq (hheld.symm.trans hheld')
      exact Held.text.inj htext

/-- Members that tell a task spoil no field. -/
theorem Tells.not_spoils (h : Tells ms t) : ¬ Spoils [] ms := by
  rintro ⟨f, hspoils⟩
  change 2 ≤ (heldBy f ms).length ∨ Held.other ∈ heldBy f ms at hspoils
  rcases h f with ⟨hheld, -⟩ | hheld
  · rw [hheld] at hspoils
    rcases hspoils with hlen | hmem
    · exact absurd hlen (by decide)
    · exact List.not_mem_nil hmem
  · rw [hheld] at hspoils
    rcases hspoils with hlen | hmem
    · exact absurd hlen (by simp)
    · cases List.mem_singleton.mp hmem

/-! ### Members are read -/

theorem Holds.isJson (h : Holds name v held) : IsJson .value v := by
  cases h with
  | text h => exact h.isJson
  | other hv _ => exact hv

theorem scanText_append (hw : Spaces w) (h : IsString v text) (r : Bytes) :
    scanText (w ++ (v ++ r)) = .ok (text, r) := by
  obtain ⟨h⟩ := h
  rw [List.cons_append, List.append_assoc, scanText, skipSpace_append_cons hw rfl]
  dsimp only
  rw [if_pos rfl, List.singleton_append, h.scanString_eq]
  simp only [Except.map, String.ofList_toList]

theorem exists_of_scanText (h : scanText s = .ok (text, r)) :
    ∃ w v, Spaces w ∧ IsString v text ∧ s = w ++ (v ++ r) := by
  unfold scanText at h
  split at h
  · cases h
  · next b bs hs =>
    split_ifs at h with hquote
    obtain ⟨w, hw, rfl⟩ := exists_skipSpace hs
    obtain ⟨⟨chars, rest⟩, hscan, htext⟩ := map_eq_ok_iff.mp h
    cases htext
    obtain ⟨content, rfl, hspells⟩ := scanString_eq_ok_iff.mp hscan
    rw [← String.toList_ofList (l := chars)] at hspells
    refine ⟨w, _, hw, IsString.mk hspells, ?_⟩
    rw [hquote, List.cons_append, List.append_assoc]
    rfl

/-- A value that spells no text is not read as one. -/
theorem scanText_error (hw : Spaces w) (h : IsJson .value v) (hv : ∀ t, ¬ IsString v t) (hr : EndsNumber r) :
    ∃ e, scanText (w ++ (v ++ r)) = .error e := by
  apply exists_error_iff.mpr
  rintro ⟨⟨text, rest⟩, hread⟩
  obtain ⟨w', v', hw', hv', hs⟩ := exists_of_scanText hread
  -- both the value and the string that was read stand up to where a value is skipped to
  have hskip := h.skipValue_append spaces_nil hr
  have hskip' := hv'.skipValue_append rest
  have hsame : v ++ r = v' ++ rest := by
    obtain ⟨b, bs, hb, hspace, -⟩ := h.exists_cons
    obtain ⟨b', bs', hb', hspace', -⟩ := hv'.isJson.exists_cons
    have hspaces := congrArg skipSpace hs
    rw [hb, hb', List.cons_append, List.cons_append, skipSpace_append_cons hw hspace,
      skipSpace_append_cons hw' hspace'] at hspaces
    rw [hb, hb', List.cons_append, List.cons_append, hspaces]
  rw [List.nil_append, hsame, hskip'] at hskip
  obtain rfl := Except.ok.inj hskip
  rw [List.append_cancel_right hsame] at hv
  exact hv text hv'

theorem scanMember_unknown (hname : SpellsText bs name.toList) (hkey : Field.ofKey? name = none)
    (hcolon : skipColon rest = .ok s) (hvalue : skipValue s = .ok r) :
    scanMember fields (bs ++ quote :: rest) = .ok (fields, r) := by
  rw [scanMember, hname.scanString_eq]
  dsimp only [bind, Except.bind]
  rw [String.ofList_toList, hkey]
  dsimp only
  rw [hcolon]
  dsimp only
  rw [hvalue]

theorem scanMember_twice (hname : SpellsText bs name.toList) (hkey : Field.ofKey? name = some f)
    (hlookup : fields.lookup f ≠ none) (rest : Bytes) :
    ∃ e, scanMember fields (bs ++ quote :: rest) = .error e := by
  refine ⟨.before (.duplicateField f.key) (afterObject rest), ?_⟩
  rw [scanMember, hname.scanString_eq]
  dsimp only [bind, Except.bind]
  rw [String.ofList_toList, hkey]
  dsimp only
  rw [if_pos (Option.isSome_iff_ne_none.mpr hlookup)]

theorem scanMember_field (hname : SpellsText bs name.toList) (hkey : Field.ofKey? name = some f)
    (hlookup : fields.lookup f = none) (hcolon : skipColon rest = .ok s) :
    scanMember fields (bs ++ quote :: rest) = (scanText s).map fun (text, r) => ((f, text) :: fields, r) := by
  rw [scanMember, hname.scanString_eq]
  dsimp only [bind, Except.bind]
  rw [String.ofList_toList, hkey]
  dsimp only
  rw [hlookup, if_neg (show ¬ (none : Option String).isSome = true by decide), hcolon]
  dsimp only
  cases scanText s <;> rfl

/-- A member is read: it adds what its field holds, or it spoils the field. -/
theorem IsMember.scanMember_append (h : IsMember bs m) (hr : EndsNumber r) (fields : Fields) :
    ∃ s, bs ++ r = quote :: s ∧ Reads fields [m] r (scanMember fields s) := by
  obtain @⟨_, w, w', v, name, held, hname, hw, hw', h⟩ := h
  obtain @⟨content, name, hname⟩ := hname
  have hcolon := skipColon_append hw (w' ++ (v ++ r))
  refine ⟨content ++ quote :: (w ++ colon :: (w' ++ (v ++ r))), ?_, ?_⟩
  · simp only [List.append_assoc, List.cons_append, List.nil_append]
  cases hkey : Field.ofKey? name with
  | none =>
    have hskip := h.isJson.skipValue_append hw' hr
    rw [scanMember_unknown hname hkey hcolon hskip]
    exact Reads.kept (keeps_unknown hkey held fields)
  | some f =>
    obtain rfl := Field.ofKey?_eq_some_iff.mp hkey
    by_cases hlookup : fields.lookup f = none
    · -- only for a field that is new does it matter what the value is
      rw [scanMember_field hname hkey hlookup hcolon]
      cases h with
      | text h =>
        rw [scanText_append hw' h]
        exact Reads.kept (keeps_text hlookup _)
      | other hv hother =>
        have hnone : ∀ t, ¬ IsString v t := hother.resolve_left fun hunknown => by cases hkey.symm.trans hunknown
        obtain ⟨e, herror⟩ := scanText_error hw' hv hnone hr
        rw [herror]
        exact Reads.spoiled (spoils_other fields f)
    · obtain ⟨e, herror⟩ := scanMember_twice hname hkey hlookup (w ++ colon :: (w' ++ (v ++ r)))
      rw [herror]
      exact Reads.spoiled (spoils_twice hlookup held)

theorem exists_of_scanMember (hread : scanMember fields s = .ok (fields', r)) :
    ∃ bs m, quote :: s = bs ++ r ∧ IsMember bs m ∧ Keeps fields [m] fields' := by
  unfold scanMember at hread
  obtain ⟨⟨key, rest⟩, hkey, h⟩ := bind_eq_ok_iff.mp hread
  obtain ⟨content, rfl, hname⟩ := scanString_eq_ok_iff.mp hkey
  rw [← String.toList_ofList (l := key)] at hname
  dsimp only at h
  split at h
  · next f hf =>
    split_ifs at h with hseen
    obtain ⟨rest, hcolon, h⟩ := bind_eq_ok_iff.mp h
    obtain ⟨⟨text, rest⟩, htext, h⟩ := bind_eq_ok_iff.mp h
    cases h
    obtain ⟨w, hw, rfl⟩ := skipColon_eq_ok_iff.mp hcolon
    obtain ⟨w', v, hw', hv, rfl⟩ := exists_of_scanText htext
    have hlookup : fields.lookup f = none := Option.not_isSome_iff_eq_none.mp hseen
    refine ⟨_, _, ?_, IsMember.mk (IsString.mk hname) hw hw' (Holds.text hv), ?_⟩
    · simp only [List.append_assoc, List.cons_append, List.nil_append]
    · rw [← Field.ofKey?_eq_some_iff.mp hf]
      exact keeps_text hlookup text
  · next hunknown =>
    obtain ⟨rest, hcolon, h⟩ := bind_eq_ok_iff.mp h
    obtain ⟨rest, hvalue, h⟩ := bind_eq_ok_iff.mp h
    cases h
    obtain ⟨w, hw, rfl⟩ := skipColon_eq_ok_iff.mp hcolon
    obtain ⟨w', v, hw', hv, rfl⟩ := exists_of_skipValue hvalue
    have hholds := Holds.other hv (Or.inl hunknown)
    refine ⟨_, _, ?_, IsMember.mk (IsString.mk hname) hw hw' hholds, keeps_unknown hunknown _ _⟩
    simp only [List.append_assoc, List.cons_append, List.nil_append]

/-! ### Objects are read -/

theorem scanFollow_done (hw : Spaces w) (r : Bytes) :
    scanFollow (w ++ Bracket.object.closing :: r) = .ok (.done r) := by
  rw [scanFollow, skipSpace_append_cons hw rfl]
  exact if_pos rfl

theorem scanFollow_member (hw : Spaces w) (h : skipSpace s = quote :: r) :
    scanFollow (w ++ comma :: s) = .ok (.member r) := by
  rw [scanFollow, skipSpace_append_cons hw rfl]
  dsimp only
  rw [if_neg (by decide), if_pos (show comma = 0x2C from rfl), h]
  rfl

theorem exists_of_scanFollow_done (h : scanFollow s = .ok (.done r)) :
    ∃ w, Spaces w ∧ s = w ++ Bracket.object.closing :: r := by
  unfold scanFollow at h
  split at h
  · cases h
  · next hs =>
    split_ifs at h with hclosing
    · cases h
      rw [hclosing] at hs
      exact exists_skipSpace hs
    · split at h
      · cases h
      · split_ifs at h
        cases h

theorem exists_of_scanFollow_member (h : scanFollow s = .ok (.member r)) :
    ∃ w w', Spaces w ∧ Spaces w' ∧ s = w ++ comma :: (w' ++ quote :: r) := by
  unfold scanFollow at h
  split at h
  · cases h
  · next hs =>
    split_ifs at h with hclosing hcomma
    · cases h
    · split at h
      · cases h
      · next hbs =>
        split_ifs at h with hquote
        cases h
        rw [hquote] at hbs
        rw [hcomma] at hs
        obtain ⟨w, hw, rfl⟩ := exists_skipSpace hs
        obtain ⟨w', hw', rfl⟩ := exists_skipSpace hbs
        exact ⟨w, w', hw, hw', rfl⟩

theorem scanMembers_error {e : Flaw} (hm : scanMember fields s = .error e) : scanMembers fields s = .error e := by
  rw [scanMembers]
  split
  case h_1 he => exact congrArg _ (Except.error.inj (he.symm.trans hm))
  case h_2 he => cases he.symm.trans hm

theorem scanMembers_done (hm : scanMember fields s = .ok (fields', rest)) (hf : scanFollow rest = .ok (.done r)) :
    scanMembers fields s = .ok (fields', r) := by
  rw [scanMembers]
  split
  case h_1 he => cases he.symm.trans hm
  case h_2 he =>
    cases he.symm.trans hm
    split
    case h_1 he => cases he.symm.trans hf
    case h_2 he =>
      cases he.symm.trans hf
      rfl
    case h_3 he => cases he.symm.trans hf

theorem scanMembers_member (hm : scanMember fields s = .ok (fields', rest)) (hf : scanFollow rest = .ok (.member r)) :
    scanMembers fields s = scanMembers fields' r := by
  conv_lhs => rw [scanMembers]
  split
  case h_1 he => cases he.symm.trans hm
  case h_2 he =>
    cases he.symm.trans hm
    split
    case h_1 he => cases he.symm.trans hf
    case h_2 he => cases he.symm.trans hf
    case h_3 he =>
      cases he.symm.trans hf
      rfl

theorem skipSpace_member (hw : Spaces w) (h : bs ++ r = quote :: s) : skipSpace (w ++ (bs ++ r)) = quote :: s := by
  rw [h]
  exact skipSpace_append_cons hw rfl s

/-- Members are read up to the end of their object, or some field is spoiled. -/
theorem scanMembers_append (h : Items IsMember .object bs ms) (fields : Fields) (r : Bytes) :
    ∃ s, skipSpace (bs ++ r) = quote :: s ∧ Reads fields ms r (scanMembers fields s) := by
  induction h generalizing fields with
  | @last w m w' a hw h hw' =>
    obtain ⟨s, hs, hread⟩ := h.scanMember_append (endsNumber_closing hw' .object r) fields
    have hsplit : w ++ (m ++ (w' ++ [Bracket.object.closing])) ++ r =
        w ++ (m ++ (w' ++ Bracket.object.closing :: r)) := by
      simp only [List.append_assoc, List.cons_append, List.nil_append]
    refine ⟨s, ?_, ?_⟩
    · rw [hsplit]
      exact skipSpace_member hw hs
    generalize hresult : scanMember fields s = result at hread
    cases hread with
    | kept hkeeps =>
      rw [scanMembers_done hresult (scanFollow_done hw' r)]
      exact Reads.kept hkeeps
    | spoiled hspoils =>
      rw [scanMembers_error hresult]
      exact Reads.spoiled hspoils
  | @more w m w' bs a as hw h hw' hs ih =>
    obtain ⟨s, hs, hread⟩ := h.scanMember_append (endsNumber_comma hw' (bs ++ r)) fields
    have hsplit : w ++ (m ++ (w' ++ comma :: bs)) ++ r = w ++ (m ++ (w' ++ comma :: (bs ++ r))) := by
      simp only [List.append_assoc, List.cons_append]
    refine ⟨s, ?_, ?_⟩
    · rw [hsplit]
      exact skipSpace_member hw hs
    generalize hresult : scanMember fields s = result at hread
    cases hread with
    | @kept fields' hkeeps =>
      -- the members after this one are read with its field added
      obtain ⟨s', hs', hrest⟩ := ih fields'
      rw [scanMembers_member hresult (scanFollow_member hw' hs')]
      generalize scanMembers fields' s' = result at hrest
      cases hrest with
      | kept hkeeps' => exact Reads.kept (hkeeps.cons hkeeps')
      | spoiled hspoils => exact Reads.spoiled (hspoils.cons hkeeps)
    | spoiled hspoils =>
      rw [scanMembers_error hresult]
      exact Reads.spoiled (hspoils.first as)

/-- What is read as members are members, with the fields that they hold. The cases are the steps of the reader. -/
theorem exists_of_scanMembers (h : scanMembers fields s = .ok (fields', r)) :
    ∃ bs ms, quote :: s = bs ++ r ∧ Items IsMember .object bs ms ∧ Keeps fields ms fields' := by
  fun_induction scanMembers fields s with
  | case3 fields s fields₁ rest hm r₁ hf =>
    cases h
    obtain ⟨bs, m, hs, hmember, hkeeps⟩ := exists_of_scanMember hm
    obtain ⟨w, hw, rfl⟩ := exists_of_scanFollow_done hf
    refine ⟨_, [m], ?_, Items.last spaces_nil hmember hw, hkeeps⟩
    rw [hs]
    simp only [List.append_assoc, List.cons_append, List.nil_append]
  | case4 fields s fields₁ rest hm r₁ hf ih =>
    obtain ⟨bs, m, hs, hmember, hkeeps⟩ := exists_of_scanMember hm
    obtain ⟨w, w', hw, hw', rfl⟩ := exists_of_scanFollow_member hf
    obtain ⟨bs', ms, hs', hmembers, hkeeps'⟩ := ih h
    -- the white space after a comma belongs to the members after it
    have hspaced := hmembers.spaces_append hw'
    refine ⟨_, m :: ms, ?_, Items.more spaces_nil hmember hw hspaced, hkeeps.cons hkeeps'⟩
    rw [hs, hs']
    simp only [List.append_assoc, List.cons_append, List.nil_append]
  | _ => cases h

theorem scanObject_empty (hw : Spaces w) (r : Bytes) :
    scanObject (w ++ Bracket.object.closing :: r) = .ok ([], r) := by
  rw [scanObject, skipSpace_append_cons hw rfl]
  exact if_pos rfl

theorem scanObject_members (h : skipSpace s = quote :: r) : scanObject s = scanMembers [] r := by
  rw [scanObject, h]
  rfl

theorem exists_of_scanObject (h : scanObject s = .ok (fields, r)) :
    (∃ w, Spaces w ∧ s = w ++ Bracket.object.closing :: r ∧ fields = []) ∨
      ∃ bs ms, s = bs ++ r ∧ Items IsMember .object bs ms ∧ Keeps [] ms fields := by
  unfold scanObject at h
  split at h
  · cases h
  · next hs =>
    obtain ⟨w, hw, rfl⟩ := exists_skipSpace hs
    split_ifs at h with hclosing hquote
    · cases h
      rw [hclosing]
      exact Or.inl ⟨w, hw, rfl, rfl⟩
    · obtain ⟨bs, ms, hbs, hmembers, hkeeps⟩ := exists_of_scanMembers h
      refine Or.inr ⟨w ++ bs, ms, ?_, hmembers.spaces_append hw, hkeeps⟩
      rw [hquote, hbs, List.append_assoc]

/-! ### A text is read as a task -/

theorem skipSpace_eq_nil_iff : skipSpace s = [] ↔ Spaces s :=
  List.dropWhile_eq_nil_iff

theorem scan_eq_ok_iff : scan s = .ok t ↔ ∃ fields r, scanTask s = .ok (fields, r) ∧ Spaces r ∧ t = ofRead fields := by
  rw [scan, bind_eq_ok_iff]
  constructor
  · rintro ⟨⟨fields, r⟩, hread, h⟩
    dsimp only at h
    split at h
    · next hr => exact ⟨fields, r, hread, skipSpace_eq_nil_iff.mp hr, (Except.ok.inj h).symm⟩
    · cases h
  · rintro ⟨fields, r, hread, hr, rfl⟩
    refine ⟨(fields, r), hread, ?_⟩
    dsimp only
    rw [skipSpace_eq_nil_iff.mpr hr]

theorem scan_error {e : Flaw} (h : scanTask s = .error e) : scan s = .error e := by
  rw [scan, h]
  rfl

theorem scanTask_object (hw : Spaces w) (s : Bytes) :
    scanTask (w ++ Bracket.object.opening :: s) = scanObject s := by
  rw [scanTask, skipSpace_append_cons hw rfl]
  rfl

/-- An object is read with the fields that its members hold, or some field is spoiled. -/
theorem scan_object (h : Encloses IsMember .object s ms) :
    (∃ fields, scan s = .ok (ofRead fields) ∧ Keeps [] ms fields) ∨ ((∃ e, scan s = .error e) ∧ Spoils [] ms) := by
  cases h with
  | @empty w w' w'' hw hw' hw'' =>
    have hread := (scanTask_object hw _).trans (scanObject_empty hw' w'')
    exact Or.inl ⟨[], scan_eq_ok_iff.mpr ⟨[], w'', hread, hw'', rfl⟩, fun f => rfl⟩
  | @items w bs w' _ hw hmembers hw' =>
    obtain ⟨s', hs, hread⟩ := scanMembers_append hmembers [] w'
    have hobject := (scanTask_object hw (bs ++ w')).trans (scanObject_members hs)
    generalize scanMembers [] s' = result at hread hobject
    cases hread with
    | @kept fields hkeeps =>
      exact Or.inl ⟨fields, scan_eq_ok_iff.mpr ⟨fields, w', hobject, hw', rfl⟩, hkeeps⟩
    | spoiled hspoils => exact Or.inr ⟨⟨_, scan_error hobject⟩, hspoils⟩

/-- An object is read as the task that its members tell. -/
theorem scan_of_tells (h : Encloses IsMember .object s ms) (ht : Tells ms t) : scan s = .ok t := by
  rcases scan_object h with ⟨fields, hread, hkeeps⟩ | ⟨-, hspoils⟩
  · rw [hread, hkeeps.tells.unique ht]
  · exact absurd hspoils ht.not_spoils

/-- An object is refused when it spoils a field. -/
theorem scan_of_spoils (h : Encloses IsMember .object s ms) (hspoils : Spoils [] ms) : ∃ e, scan s = .error e := by
  rcases scan_object h with ⟨fields, -, hkeeps⟩ | ⟨hread, -⟩
  · exact absurd hspoils hkeeps.tells.not_spoils
  · exact hread

theorem exists_of_object (hw : Spaces w) (h : scanObject s = .ok (fields, r)) (hr : Spaces r) :
    ∃ ms, Encloses IsMember .object (w ++ Bracket.object.opening :: s) ms ∧ Tells ms (ofRead fields) := by
  rcases exists_of_scanObject h with ⟨w', hw', rfl, rfl⟩ | ⟨bs, ms, rfl, hmembers, hkeeps⟩
  · have hkeeps : Keeps [] [] [] := fun f => rfl
    exact ⟨[], Encloses.empty hw hw' hr, hkeeps.tells⟩
  · exact ⟨ms, Encloses.items hw hmembers hr, hkeeps.tells⟩

end Task

end Agenda
