import Agenda.Text.Blank
import Agenda.Text.Utf8
/-!
Reading lines. A reader hands out bytes in chunks, cut anywhere, and a line ends at each line feed. `visitLines` visits
one line after the other until a visit stops or fails. The complete lines of a chunk are visited where they stand; what
a chunk has of its last line is kept, and the line is read to its end from the chunks that follow. What was not visited
is left unread. A reader may also fail after its last chunk: then the lines that were complete have been visited, and
`visitFrom` ends with its failure.
-/
namespace Agenda

open Text

/-- The bytes that a reader still has to hand out, chunk by chunk. A chunk that is used up is empty. -/
abbrev Reader := List Bytes

/-- A line of the input. -/
structure Line where
  /-- Its place among the lines, from 1. -/
  number : Nat
  /-- Its bytes, with the line feed that ends it, if there is one. -/
  full : Bytes
  deriving DecidableEq

namespace Line

/-- The byte that ends a line. -/
def feed : UInt8 := 0x0A

/-- The byte that belongs to the end of a line when it stands before the line feed. -/
def carriage : UInt8 := 0x0D

/-- The line without the line feed that ends it, and without a carriage return before that. -/
def content (l : Line) : Bytes :=
  match l.full.reverse with
  | a :: b :: rest => if a = feed then (if b = carriage then rest.reverse else (b :: rest).reverse) else l.full
  | [a] => if a = feed then [] else l.full
  | [] => []

def isBlank (l : Line) : Bool :=
  l.content.all isBlankByte

end Line

/-- What a visit to a line says. -/
inductive Verdict (ε : Type)
  | next
  | stop
  | fail (error : ε)

def Verdict.error? {ε : Type} : Verdict ε → Option ε
  | fail e => some e
  | _ => none

/-- What visiting lines comes to: the last state, the failure if a visit failed, and what is left to read. -/
structure Visited (σ ε : Type) where
  state : σ
  error : Option ε
  unread : Reader

/-- Takes the first complete line off some bytes: its bytes, with the line feed, and those that follow. -/
def firstLine? (bs : Bytes) : Option (Bytes × Bytes) :=
  match bs.dropWhile (· != Line.feed) with
  | [] => none
  | b :: rest => some (bs.takeWhile (· != Line.feed) ++ [b], rest)

theorem length_of_firstLine? {bs line rest : Bytes} (h : firstLine? bs = some (line, rest)) :
    rest.length < bs.length := by
  unfold firstLine? at h
  split at h
  · cases h
  · rename_i b rest' hd
    cases h
    have hle := (List.dropWhile_sublist (· != Line.feed) (l := bs)).length_le
    rw [hd, List.length_cons] at hle
    omega

/-- Where visiting stands after a chunk. -/
inductive Progress (σ ε : Type)
  /-- In the line `number`, of which `begun` was read; nothing of the chunk is left. -/
  | reading (state : σ) (number : Nat) (begun : Bytes)
  /-- At the end, after so many bytes of the chunk. -/
  | done (state : σ) (error : Option ε) (used : Nat)

/-- Visits the complete lines of a chunk, of which `used` bytes have been used and `bs` are left. -/
def visitChunk {σ ε : Type} (visit : σ → Line → σ × Verdict ε) (s : σ) (n used : Nat) (bs : Bytes) : Progress σ ε :=
  match _h : firstLine? bs with
  | none => .reading s n bs
  | some (line, rest) =>
    match visit s ⟨n, line⟩ with
    | (s', .next) => visitChunk visit s' (n + 1) (used + line.length) rest
    | (s', v) => .done s' v.error? (used + line.length)
termination_by bs.length
decreasing_by exact length_of_firstLine? _h

/-- Reads a line to its end, of which `begun` was read: the line, and what is left. The line ends with the input when
no line feed comes any more. -/
def readLine (begun : Bytes) : Reader → Bytes × Reader
  | [] => (begun, [])
  | chunk :: chunks =>
    match firstLine? chunk with
    | some (line, rest) => (begun ++ line, rest :: chunks)
    | none => readLine (begun ++ chunk) chunks

theorem length_readLine (begun : Bytes) (r : Reader) : (readLine begun r).2.length ≤ r.length := by
  induction r generalizing begun with
  | nil => exact Nat.le_refl 0
  | cons chunk chunks ih =>
    unfold readLine
    split
    · exact Nat.le_refl _
    · exact Nat.le_succ_of_le (ih _)

/-- Visits the lines of a reader that stands at the start of line `n`, and that fails after its last chunk if there is a
`flaw`. -/
def visitFrom {σ ε : Type} (visit : σ → Line → σ × Verdict ε) (flaw : Option ε) (s : σ) (n : Nat) (r : Reader) :
    Visited σ ε :=
  match _h : r.dropWhile List.isEmpty with
  | [] => ⟨s, flaw, []⟩
  | chunk :: chunks =>
    match visitChunk visit s n 0 chunk with
    | .done s' e used => ⟨s', e, chunk.drop used :: chunks⟩
    | .reading s' n' begun =>
      match _hr : readLine begun chunks with
      | (line, rest) =>
        -- no chunk is left when the line was read on to the end, and a flaw is met there
        if rest.isEmpty ∧ flaw.isSome then ⟨s', flaw, rest⟩
        else if line.isEmpty then ⟨s', none, rest⟩
        else
          match visit s' ⟨n', line⟩ with
          | (s'', .next) => visitFrom visit flaw s'' (n' + 1) rest
          | (s'', v) => ⟨s'', v.error?, rest⟩
termination_by r.length
decreasing_by
  have hread : (readLine begun chunks).2.length ≤ chunks.length := length_readLine begun chunks
  have hfill := (List.dropWhile_sublist List.isEmpty (l := r)).length_le
  simp only [_hr] at hread
  rw [_h, List.length_cons] at hfill
  omega

/-- Visits the lines of a reader in order, up to the first visit that stops or fails. -/
def visitLines {σ ε : Type} (visit : σ → Line → σ × Verdict ε) (s : σ) (r : Reader) : Visited σ ε :=
  visitFrom visit none s 1 r

end Agenda
