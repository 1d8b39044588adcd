import Agenda.Json.Numbers
import Agenda.Json.Skip
import Agenda.Task.Basic
/-!
Reading tasks. A task is a JSON object whose members are its fields, each at most once and each a string; a missing
field is empty, and members of other names are skipped. A JSON array of at most five strings is a task too, its
fields in their order.
-/
namespace Agenda

open Text Json

namespace Task

/-- The fields that were read, the latest first. -/
abbrev Fields := List (Field × String)

/-- The task whose missing fields are empty. -/
def ofRead (fields : Fields) : Task :=
  ofFields fun f => (fields.lookup f).getD ""

/-- The flaw of a value that is of the wrong type. Its place is after the value, except that arrays and objects are
not read. -/
def wrongType (expected : Expected) : Bytes → Flaw
  | [] => .within .valueExpected []
  | b :: bs =>
    let found (f : Found) (rest : Bytes) : Flaw := .before (.wrongType f expected) rest
    let word (letters : Bytes) (f : Found) : Flaw :=
      match skipIdent letters bs with
      | .error flaw => flaw
      | .ok rest => found f rest
    let number (negative : Bool) (s : Bytes) : Flaw :=
      match scanNumber negative s with
      | .error flaw => flaw
      | .ok (n, rest) => found (.number n) rest
    if b = 0x6E then word ull .null
    else if b = 0x74 then word rue (.boolean true)
    else if b = 0x66 then word alse (.boolean false)
    else if b = 0x2D then number true bs
    else if isDigitByte b then number false (b :: bs)
    else if b = quote then
      match scanString bs with
      | .error flaw => flaw
      | .ok (s, rest) => found (.string s) rest
    else if b = Bracket.array.opening then found .array (b :: bs)
    else if b = Bracket.object.opening then found .object (b :: bs)
    else .within .valueExpected (b :: bs)

def scanText : Scanner String := fun s =>
  match skipSpace s with
  | [] => .error (.within .endInValue [])
  | b :: bs =>
    if b = quote then (scanString bs).map fun (text, rest) => (String.ofList text, rest)
    else .error (wrongType .string (b :: bs))

/-- The bytes after an object that is left in the middle of a member. -/
def afterObject (s : Bytes) : Bytes :=
  match skipSpace s with
  | b :: bs => if b = Bracket.object.closing then bs else b :: bs
  | [] => []

/-- Reads a member whose opening quote was read. -/
def scanMember (fields : Fields) : Scanner Fields := fun s => do
  let (key, rest) ← scanString s
  match Field.ofKey? (String.ofList key) with
  | some f =>
    -- the flaw of a second member is told after what may end the object
    if (fields.lookup f).isSome then .error (.before (.duplicateField f.key) (afterObject rest))
    else do
      let rest ← skipColon rest
      let (text, rest) ← scanText rest
      .ok ((f, text) :: fields, rest)
  | none => do
    let rest ← skipColon rest
    let rest ← skipValue rest
    .ok (fields, rest)

/-- What follows a member: the end of the object, or the opening quote of another member. -/
inductive Follow
  | done (rest : Bytes)
  | member (rest : Bytes)

def scanFollow (s : Bytes) : Except Flaw Follow :=
  match skipSpace s with
  | [] => .error (.within .endInObject [])
  | b :: bs =>
    if b = Bracket.object.closing then .ok (.done bs)
    else if b = 0x2C then
      match skipSpace bs with
      | [] => .error (.within .endInValue [])
      | c :: cs =>
        if c = quote then .ok (.member cs)
        else if c = Bracket.object.closing then .error (.within .trailingComma (c :: cs))
        else .error (.within .keyNotString (c :: cs))
    else .error (.within .commaOrBraceExpected (b :: bs))

theorem scanText_length {s : Bytes} {t : String} {r : Bytes} (h : scanText s = .ok (t, r)) :
    r.length < s.length := by
  unfold scanText at h
  have hs := skipSpace_length s
  split at h
  · simp at h
  · next b bs hb =>
    rw [hb] at hs
    split at h
    · cases hk : scanString bs with
      | error e => simp [hk, Except.map] at h
      | ok p =>
        obtain ⟨u, rest⟩ := p
        have hr := scanString_length hk
        simp only [hk, Except.map, Except.ok.injEq, Prod.mk.injEq] at h
        obtain ⟨-, rfl⟩ := h
        simp only [List.length_cons] at hs
        omega
    · simp at h

theorem scanMember_length {fields fields' : Fields} {s r : Bytes} (h : scanMember fields s = .ok (fields', r)) :
    r.length < s.length := by
  unfold scanMember at h
  cases hk : scanString s with
  | error e => simp [hk, bind, Except.bind] at h
  | ok p =>
    obtain ⟨key, rest⟩ := p
    have hlen := scanString_length hk
    simp only [hk, bind, Except.bind] at h
    split at h
    · split at h
      · simp at h
      · cases hc : skipColon rest with
        | error e => simp [hc] at h
        | ok rest =>
          have hlen' := skipColon_length hc
          cases ht : scanText rest with
          | error e => simp [hc, ht] at h
          | ok p =>
            obtain ⟨text, rest⟩ := p
            have hlen'' := scanText_length ht
            simp only [hc, ht, Except.ok.injEq, Prod.mk.injEq] at h
            obtain ⟨-, rfl⟩ := h
            omega
    · cases hc : skipColon rest with
      | error e => simp [hc] at h
      | ok rest =>
        have hlen' := skipColon_length hc
        cases hv : skipValue rest with
        | error e => simp [hc, hv] at h
        | ok rest =>
          have hlen'' := skipValue_length hv
          simp only [hc, hv, Except.ok.injEq, Prod.mk.injEq] at h
          obtain ⟨-, rfl⟩ := h
          omega

theorem scanFollow_length {s r : Bytes} (h : scanFollow s = .ok (.member r)) : r.length < s.length := by
  unfold scanFollow at h
  grind [skipSpace_length]

set_option linter.unusedVariables false in
/-- Reads the members of an object from the one whose opening quote was read, and the end of the object. -/
def scanMembers (fields : Fields) (s : Bytes) : Except Flaw (Fields × Bytes) :=
  match hm : scanMember fields s with
  | .error f => .error f
  | .ok (fields', rest) =>
    match hf : scanFollow rest with
    | .error f => .error f
    | .ok (.done rest') => .ok (fields', rest')
    | .ok (.member rest') => scanMembers fields' rest'
termination_by s.length
decreasing_by
  have h1 := scanMember_length hm
  have h2 := scanFollow_length hf
  omega

/-- Reads an object whose opening brace was read. -/
def scanObject : Scanner Fields := fun s =>
  match skipSpace s with
  | [] => .error (.within .endInObject [])
  | b :: bs =>
    if b = Bracket.object.closing then .ok ([], bs)
    else if b = quote then scanMembers [] bs
    else .error (.within .keyNotString (b :: bs))

/-- Reads the end of an array that has no place for more items. -/
def scanArrayEnd (s : Bytes) : Except Flaw Bytes :=
  match skipSpace s with
  | [] => .error (.within .endInArray [])
  | b :: bs =>
    if b = Bracket.array.closing then .ok bs
    else if b = 0x2C then
      match skipSpace bs with
      | c :: cs =>
        .error (.within (if c = Bracket.array.closing then .trailingComma else .trailingCharacters) (c :: cs))
      | [] => .error (.within .trailingCharacters [])
    else .error (.within .trailingCharacters (b :: bs))

/-- Reads the items of an array as the given fields, and the end of the array. A comma stands before each item but the
first. -/
def scanItems (fields : Fields) (first : Bool) : List Field → Scanner Fields
  | [], s => do
    let rest ← scanArrayEnd s
    .ok (fields, rest)
  | f :: fs, s =>
    let item (s : Bytes) : Except Flaw (Fields × Bytes) := do
      let (text, rest) ← scanText s
      scanItems ((f, text) :: fields) false fs rest
    match skipSpace s with
    | [] => .error (.within .endInArray [])
    | b :: bs =>
      if b = Bracket.array.closing then .ok (fields, bs)
      else if first then item (b :: bs)
      else if b = 0x2C then
        match skipSpace bs with
        | [] => .error (.within .endInValue [])
        | c :: cs =>
          if c = Bracket.array.closing then .error (.within .trailingComma (c :: cs)) else item (c :: cs)
      else .error (.within .commaOrBracketExpected (b :: bs))

/-- Reads the object or the array of a task. -/
def scanTask : Scanner Fields := fun s =>
  match skipSpace s with
  | [] => .error (.within .endInValue [])
  | b :: bs =>
    if b = Bracket.array.opening then scanItems [] true Field.all bs
    else if b = Bracket.object.opening then scanObject bs
    else .error (wrongType .task (b :: bs))

/-- Reads a task and nothing but white space after it. -/
def scan (s : Bytes) : Except Flaw Task := do
  let (fields, rest) ← scanTask s
  match skipSpace rest with
  | [] => .ok (ofRead fields)
  | b :: bs => .error (.within .trailingCharacters (b :: bs))

def decode (text : Bytes) : Except Json.Error Task :=
  (scan text).mapError (·.locate text)

end Task

end Agenda
