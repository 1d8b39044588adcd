import Agenda.Task.Schedule
import Agenda.Proofs.Task.Object
/-!
The texts that are read as a task: objects whose members tell it, and arrays with the texts of its fields in their
order. Both directions are proved, so that these are all, and an object is read in the same way however it is written.
-/
namespace Agenda.Task

open Text Json

variable {f : Field} {fs : List Field} {fields fields' : Fields} {first : Bool} {text : String} {ts : List String}
  {ms : List (String × Held)} {bs s r lead v w : Bytes} {t : Task}

/-! ### Arrays are read -/

/-- What stands in front of an item of an array: nothing before the first one, a comma before another. -/
inductive Separates : Bool → Bytes → Prop
  | first : Separates true []
  | next {w : Bytes} (hw : Spaces w) : Separates false (w ++ [comma])

theorem scanItems_closed (hw : Spaces w) (fields : Fields) (first : Bool) (fs : List Field) (r : Bytes) :
    scanItems fields first fs (w ++ Bracket.array.closing :: r) = .ok (fields, r) := by
  have hspace := skipSpace_append_cons hw (isSpace_closing .array) r
  cases fs with
  | nil =>
    rw [scanItems, scanArrayEnd, hspace]
    rfl
  | cons f fs =>
    rw [scanItems, hspace]
    exact if_pos rfl

theorem scanItems_item (hlead : Separates first lead) (hw : Spaces w) (h : IsString v text) (fields : Fields)
    (f : Field) (fs : List Field) (r : Bytes) :
    scanItems fields first (f :: fs) (lead ++ (w ++ (v ++ r))) = scanItems ((f, text) :: fields) false fs r := by
  have htext := scanText_append spaces_nil h r
  obtain ⟨h⟩ := h
  rw [List.nil_append, List.cons_append] at htext
  cases hlead with
  | first =>
    rw [List.nil_append, scanItems, List.cons_append, skipSpace_append_cons hw rfl]
    dsimp only
    rw [if_neg (by decide), if_pos rfl, htext]
    rfl
  | next hw' =>
    rw [List.append_assoc, List.singleton_append, scanItems, skipSpace_append_cons hw' rfl]
    dsimp only
    rw [if_neg (by decide), if_neg Bool.false_ne_true, if_pos (show comma = 0x2C from rfl), List.cons_append,
      skipSpace_append_cons hw rfl]
    dsimp only
    rw [if_neg (by decide), htext]
    rfl

/-- Strings are read as the fields in their order, if there are enough fields. -/
theorem scanItems_append (h : Items IsString .array bs ts) (hlen : ts.length ≤ fs.length)
    (hlead : Separates first lead) (fields : Fields) (r : Bytes) :
    scanItems fields first fs (lead ++ (bs ++ r)) = .ok ((fs.zip ts).reverse ++ fields, r) := by
  induction h generalizing first lead fs fields with
  | @last w v w' text hw h hw' =>
    cases fs with
    | nil => exact absurd hlen (by simp)
    | cons f fs =>
      have hsplit : w ++ (v ++ (w' ++ [Bracket.array.closing])) ++ r =
          w ++ (v ++ (w' ++ Bracket.array.closing :: r)) := by
        simp only [List.append_assoc, List.cons_append, List.nil_append]
      rw [hsplit, scanItems_item hlead hw h, scanItems_closed hw', List.zip_cons_cons, List.zip_nil_right]
      rfl
  | @more w v w' bs text ts hw h hw' hs ih =>
    cases fs with
    | nil => exact absurd hlen (by simp)
    | cons f fs =>
      have hsplit : w ++ (v ++ (w' ++ comma :: bs)) ++ r = w ++ (v ++ (w' ++ [comma] ++ (bs ++ r))) := by
        simp only [List.append_assoc, List.cons_append, List.nil_append]
      have hrest := ih (Nat.le_of_succ_le_succ hlen) (Separates.next hw') ((f, text) :: fields)
      rw [hsplit, scanItems_item hlead hw h, hrest, List.zip_cons_cons, List.reverse_cons, List.append_assoc]
      rfl

theorem exists_of_scanArrayEnd (h : scanArrayEnd s = .ok r) :
    ∃ w, Spaces w ∧ s = w ++ Bracket.array.closing :: r := by
  unfold scanArrayEnd at h
  split at h
  · cases h
  · next hs =>
    split_ifs at h with hclosing
    · cases h
      rw [hclosing] at hs
      exact exists_skipSpace hs
    · split at h
      · cases h
      · cases h

theorem exists_of_item {b : UInt8} (h : ((scanText (b :: bs)) >>= fun (text, rest) =>
      scanItems ((f, text) :: fields) false fs rest) = .ok (fields', r)) :
    ∃ w v text rest, Spaces w ∧ IsString v text ∧ b :: bs = w ++ (v ++ rest) ∧
      scanItems ((f, text) :: fields) false fs rest = .ok (fields', r) := by
  obtain ⟨⟨text, rest⟩, htext, hrest⟩ := bind_eq_ok_iff.mp h
  obtain ⟨w, v, hw, hv, hs⟩ := exists_of_scanText htext
  exact ⟨w, v, text, rest, hw, hv, hs, hrest⟩

/-- The first step of the reader of items: the array ends, or it has an item that is a string. -/
theorem exists_of_scanItems_cons (h : scanItems fields first (f :: fs) s = .ok (fields', r)) :
    (∃ w, Spaces w ∧ s = w ++ Bracket.array.closing :: r ∧ fields' = fields) ∨
      ∃ lead w v text rest, Separates first lead ∧ Spaces w ∧ IsString v text ∧ s = lead ++ (w ++ (v ++ rest)) ∧
        scanItems ((f, text) :: fields) false fs rest = .ok (fields', r) := by
  rw [scanItems] at h
  split at h
  · cases h
  · next b bs hs =>
    obtain ⟨w, hw, rfl⟩ := exists_skipSpace hs
    split_ifs at h with hclosing hfirst hcomma
    · cases h
      rw [hclosing]
      exact Or.inl ⟨w, hw, rfl, rfl⟩
    · obtain ⟨w', v, text, rest, hw', hv, hbs, hrest⟩ := exists_of_item h
      subst hfirst
      rw [hbs]
      have hspaces : Spaces (w ++ w') := List.forall_mem_append.mpr ⟨hw, hw'⟩
      refine Or.inr ⟨[], w ++ w', v, text, rest, Separates.first, hspaces, hv, ?_, hrest⟩
      rw [List.nil_append, List.append_assoc]
    · split at h
      · cases h
      · next c cs hcs =>
        split_ifs at h
        obtain ⟨w', hw', rfl⟩ := exists_skipSpace hcs
        obtain ⟨w'', v, text, rest, hw'', hv, hbs, hrest⟩ := exists_of_item h
        obtain rfl := Bool.eq_false_of_not_eq_true hfirst
        rw [hbs, hcomma]
        have hspaces : Spaces (w' ++ w'') := List.forall_mem_append.mpr ⟨hw', hw''⟩
        refine Or.inr ⟨w ++ [comma], w' ++ w'', v, text, rest, Separates.next hw, hspaces, hv, ?_, hrest⟩
        simp only [List.append_assoc, List.cons_append, List.nil_append]
        rfl

/-- What is read as items is the end of the array, or strings for some of the fields and that end. -/
theorem exists_of_scanItems (h : scanItems fields first fs s = .ok (fields', r)) :
    (∃ w, Spaces w ∧ s = w ++ Bracket.array.closing :: r ∧ fields' = fields) ∨
      ∃ lead bs ts, Separates first lead ∧ Items IsString .array bs ts ∧ s = lead ++ (bs ++ r) ∧
        ts.length ≤ fs.length ∧ fields' = (fs.zip ts).reverse ++ fields := by
  induction fs generalizing fields first s with
  | nil =>
    rw [scanItems] at h
    obtain ⟨rest, hend, h⟩ := bind_eq_ok_iff.mp h
    cases h
    obtain ⟨w, hw, rfl⟩ := exists_of_scanArrayEnd hend
    exact Or.inl ⟨w, hw, rfl, rfl⟩
  | cons f fs ih =>
    rcases exists_of_scanItems_cons h with hend | ⟨lead, w, v, text, rest, hlead, hw, hv, rfl, hrest⟩
    · exact Or.inl hend
    refine Or.inr ?_
    rcases ih hrest with ⟨w', hw', rfl, rfl⟩ | ⟨lead', bs, ts, hlead', hitems, rfl, hlen, rfl⟩
    · refine ⟨lead, _, [text], hlead, Items.last hw hv hw', ?_, by simp, ?_⟩
      · simp only [List.append_assoc, List.cons_append, List.nil_append]
      · rw [List.zip_cons_cons, List.zip_nil_right]
        rfl
    · -- what stands between two items is a comma, since the first of them was read
      obtain ⟨w', hw', rfl⟩ : ∃ w', Spaces w' ∧ lead' = w' ++ [comma] := by
        cases hlead' with
        | next hw' => exact ⟨_, hw', rfl⟩
      refine ⟨lead, _, text :: ts, hlead, Items.more hw hv hw' hitems, ?_, Nat.succ_le_succ hlen, ?_⟩
      · simp only [List.append_assoc, List.cons_append, List.nil_append]
      · rw [List.zip_cons_cons, List.reverse_cons, List.append_assoc]
        rfl

/-- The task whose fields are texts in their order, and empty past the last text. -/
def Lists (ts : List String) (t : Task) : Prop :=
  ∃ n, Field.all.map t.get = ts ++ List.replicate n ""

theorem lists_ofRead (h : ts.length ≤ Field.all.length) : Lists ts (ofRead (Field.all.zip ts).reverse) := by
  match ts, h with
  | [], _ => exact ⟨5, rfl⟩
  | [_], _ => exact ⟨4, rfl⟩
  | [_, _], _ => exact ⟨3, rfl⟩
  | [_, _, _], _ => exact ⟨2, rfl⟩
  | [_, _, _, _], _ => exact ⟨1, rfl⟩
  | [_, _, _, _, _], _ => exact ⟨0, rfl⟩
  | _ :: _ :: _ :: _ :: _ :: _ :: ts, h => exact absurd h (by simp [Field.all])

theorem Lists.length_le (h : Lists ts t) : ts.length ≤ Field.all.length := by
  obtain ⟨n, h⟩ := h
  have hlen := congrArg List.length h
  rw [List.length_map, List.length_append] at hlen
  omega

/-- Texts in their order give one task. -/
theorem Lists.unique {t' : Task} (h : Lists ts t) (h' : Lists ts t') : t = t' := by
  obtain ⟨n, h⟩ := h
  obtain ⟨n', h'⟩ := h'
  have hn : n = n' := by
    have hlen := congrArg List.length h
    have hlen' := congrArg List.length h'
    simp only [List.length_map, List.length_append, List.length_replicate] at hlen hlen'
    omega
  rw [← hn, ← h] at h'
  apply ext_get
  intro f
  have hmem : f ∈ Field.all := by cases f <;> decide
  exact (List.map_inj_left.mp h' f hmem).symm

theorem scanTask_array (hw : Spaces w) (s : Bytes) :
    scanTask (w ++ Bracket.array.opening :: s) = scanItems [] true Field.all s := by
  rw [scanTask, skipSpace_append_cons hw rfl]
  exact if_pos rfl

/-- An array of strings is read as the task that lists them. -/
theorem scan_of_lists (h : Encloses IsString .array s ts) (ht : Lists ts t) : scan s = .ok t := by
  have hlen := ht.length_le
  rw [ht.unique (lists_ofRead hlen)]
  apply scan_eq_ok_iff.mpr
  cases h with
  | @empty w w' w'' hw hw' hw'' =>
    have hread := (scanTask_array hw _).trans (scanItems_closed hw' [] true Field.all w'')
    exact ⟨_, w'', hread, hw'', rfl⟩
  | @items w bs w' _ hw hitems hw' =>
    have hread := (scanTask_array hw _).trans (scanItems_append hitems hlen Separates.first [] w')
    rw [List.append_nil] at hread
    exact ⟨_, w', hread, hw', rfl⟩

theorem exists_of_array (hw : Spaces w) (h : scanItems [] true Field.all s = .ok (fields, r)) (hr : Spaces r) :
    ∃ ts, Encloses IsString .array (w ++ Bracket.array.opening :: s) ts ∧ Lists ts (ofRead fields) := by
  rcases exists_of_scanItems h with ⟨w', hw', rfl, rfl⟩ | ⟨lead, bs, ts, hlead, hitems, rfl, hlen, rfl⟩
  · exact ⟨[], Encloses.empty hw hw' hr, 5, rfl⟩
  · cases hlead with
    | first =>
      rw [List.nil_append, List.append_nil]
      refine ⟨ts, Encloses.items hw hitems hr, ?_⟩
      exact lists_ofRead hlen

/-! ### The texts of a task -/

theorem exists_of_scan (h : scan s = .ok t) : (∃ ms, Encloses IsMember .object s ms ∧ Tells ms t) ∨
    ∃ ts, Encloses IsString .array s ts ∧ Lists ts t := by
  obtain ⟨fields, r, hread, hr, rfl⟩ := scan_eq_ok_iff.mp h
  unfold scanTask at hread
  split at hread
  · cases hread
  · next hs =>
    obtain ⟨w, hw, rfl⟩ := exists_skipSpace hs
    split_ifs at hread with harray hobject
    · rw [harray]
      exact Or.inr (exists_of_array hw hread hr)
    · rw [hobject]
      exact Or.inl (exists_of_object hw hread hr)

theorem read_eq_ok_iff_scan : read s = .ok t ↔ scan s = .ok t := by
  rw [read, decode, mapError_eq_ok_iff, mapError_eq_ok_iff]

/-- A text is read as a task exactly when it is an object whose members tell the task, or an array with the texts of
its fields. -/
theorem read_iff_object_or_array : read s = .ok t ↔ (∃ ms, Encloses IsMember .object s ms ∧ Tells ms t) ∨
    ∃ ts, Encloses IsString .array s ts ∧ Lists ts t := by
  rw [read_eq_ok_iff_scan]
  constructor
  · exact exists_of_scan
  · rintro (⟨ms, hobject, htells⟩ | ⟨ts, harray, hlists⟩)
    · exact scan_of_tells hobject htells
    · exact scan_of_lists harray hlists

/-- The array without items is read as the task without texts, and it is no object. Nor is every object that is read a
text: the strings that are skipped may hold any bytes from the space on. -/
theorem empty_array_is_read :
    let text : Bytes := Utf8.encode "[]".toList
    let broken : Bytes := Utf8.encode "\x7b\"x\":\"".toList ++ 0xFF :: Utf8.encode "\"\x7d".toList
    let t : Task := ⟨"", "", "", "", ""⟩
    (read text = .ok t ∧ ¬ ∃ ms, Encloses IsMember .object text ms) ∧
      read broken = .ok t ∧ Utf8.decode? broken = none := by
  intro text broken t
  have hread : read text = .ok t := by decide +kernel
  have hnone : ¬ ∃ ms, Encloses IsMember .object text ms := by
    rintro ⟨ms, h⟩
    obtain ⟨r, hr⟩ := h.exists_opening
    have hspace : skipSpace text = Utf8.encode "[]".toList := rfl
    exact absurd (List.head_eq_of_cons_eq (hspace.symm.trans hr)) (by decide)
  have hbroken : read broken = .ok t := by
    have hvalue : IsJson .value [0x22, 0xFF, 0x22] :=
      IsJson.scalar (@IsScalar.string [0xFF] (IsContent.byte (by decide) (by decide) (by decide) IsContent.nil))
    have hholds := @Holds.other "x" _ hvalue (Or.inl rfl)
    have hmember := @IsMember.mk _ [] [] _ _ _ (isString_quoted "x") spaces_nil spaces_nil hholds
    have hmembers := @Items.last _ _ .object [] _ [] _ spaces_nil hmember spaces_nil
    have hobject := Encloses.items spaces_nil hmembers spaces_nil
    have htells : Tells [("x", .other)] t := by
      intro f
      cases f
      all_goals exact Or.inl ⟨rfl, rfl⟩
    exact read_eq_ok_iff_scan.mpr (scan_of_tells hobject htells)
  have hdecode : Utf8.decode? broken = none := by decide +kernel
  exact ⟨⟨hread, hnone⟩, hbroken, hdecode⟩

/-- An object is read by what its members hold, however it is written: as the task that they tell, and not at all when
a field holds two things or one that is no text. -/
theorem object_read_as_told (h : Encloses IsMember .object s ms) : (∀ t, Tells ms t → read s = .ok t) ∧
    ((∃ f, 2 ≤ (heldBy f ms).length ∨ Held.other ∈ heldBy f ms) → ∃ e, read s = .error e) := by
  constructor
  · intro t ht
    exact read_eq_ok_iff_scan.mpr (scan_of_tells h ht)
  · intro hspoils
    -- with no member read before, this is what it means to spoil a field
    obtain ⟨e, herror⟩ := scan_of_spoils h hspoils
    apply exists_error_iff.mpr
    rintro ⟨t, hread⟩
    cases herror.symm.trans (read_eq_ok_iff_scan.mp hread)

/-- A name that is escaped, a surrogate pair, white space and a member that is skipped; and a name that stands twice. -/
theorem object_read_as_told_escapes :
    let told : Bytes := Utf8.encode "\x7b\"x\":[\x7b\x7d], \"\\u0069d\" :\"\\ud83d\\uDE00\"\x7d".toList
    let twice : Bytes := Utf8.encode "\x7b\"id\":\"\",\"id\":0\x7d".toList
    let t : Task := ⟨"😀", "", "", "", ""⟩
    (Encloses IsMember .object told [("x", .other), ("id", .text "😀")] ∧
      Tells [("x", .other), ("id", .text "😀")] t ∧ read told = .ok t) ∧
      Encloses IsMember .object twice [("id", .text ""), ("id", .other)] ∧ ∃ e, read twice = .error e := by
  intro told twice t
  have hname : IsString [0x22, 0x69, 0x64, 0x22] "id" := isString_quoted "id"
  have htold : Encloses IsMember .object told [("x", .other), ("id", .text "😀")] := by
    have hx : IsString [0x22, 0x78, 0x22] "x" := isString_quoted "x"
    have hid : IsString [0x22, 0x5C, 0x75, 0x30, 0x30, 0x36, 0x39, 0x64, 0x22] "id" :=
      @IsString.mk _ "id"
        (SpellsText.cons (@Spells.number [0x30, 0x30, 0x36, 0x39] 105 rfl rfl rfl rfl) (spellsText_escape ['d']))
    have hpair : IsString [0x22, 0x5C, 0x75, 0x64, 0x38, 0x33, 0x64, 0x5C, 0x75, 0x44, 0x45, 0x30, 0x30, 0x22] "😀" :=
      @IsString.mk _ "😀" (SpellsText.cons
        (@Spells.pair [0x64, 0x38, 0x33, 0x64] [0x44, 0x45, 0x30, 0x30] 0xD83D 0xDE00 rfl rfl rfl rfl rfl rfl)
        SpellsText.nil)
    have hvalue : IsJson .value [0x5B, 0x7B, 0x7D, 0x5D] :=
      @IsJson.items .array [] [0x7B, 0x7D] [0x5D] (IsLead.array spaces_nil) (@IsJson.empty .object [] spaces_nil)
        (@IsJson.close .array [] spaces_nil)
    have hspace : Spaces [0x20] := List.forall_mem_singleton.mpr rfl
    have hfirst := @IsMember.mk _ [] [] _ _ _ hx spaces_nil spaces_nil (Holds.other hvalue (Or.inl rfl))
    have hsecond := @IsMember.mk _ [0x20] [] _ _ _ hid hspace spaces_nil (Holds.text hpair)
    have hlast := @Items.last _ _ .object _ _ [] _ hspace hsecond spaces_nil
    have hmembers := Items.more spaces_nil hfirst spaces_nil hlast
    have hobject := Encloses.items spaces_nil hmembers spaces_nil
    exact hobject
  have htwice : Encloses IsMember .object twice [("id", .text ""), ("id", .other)] := by
    have hzero : IsJson .value [0x30] :=
      IsJson.scalar (IsScalar.positive (IsMagnitude.mk IsWhole.zero IsFraction.none IsExponent.none))
    have hfirst := @IsMember.mk _ [] [] _ _ _ hname spaces_nil spaces_nil (Holds.text (isString_quoted ""))
    have hsecond := @IsMember.mk _ [] [] _ _ _ hname spaces_nil spaces_nil
      (Holds.other hzero (Or.inr fun t h => absurd h.head? (by decide)))
    have hmembers := Items.more spaces_nil hfirst spaces_nil
      (@Items.last _ _ .object [] _ [] _ spaces_nil hsecond spaces_nil)
    have hobject := Encloses.items spaces_nil hmembers spaces_nil
    exact hobject
  have htells : Tells [("x", .other), ("id", .text "😀")] t := by
    intro f
    cases f
    case id => exact Or.inr rfl
    all_goals exact Or.inl ⟨rfl, rfl⟩
  have hspoils : 2 ≤ (heldBy .id [("id", .text ""), ("id", .other)]).length := by decide
  have hread := (object_read_as_told htold).1 t htells
  have herror := (object_read_as_told htwice).2 ⟨.id, Or.inl hspoils⟩
  exact ⟨⟨htold, htells, hread⟩, htwice, herror⟩
end Agenda.Task
