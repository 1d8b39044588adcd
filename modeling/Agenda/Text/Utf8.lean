/-!
Bytes as text. Reading takes bytes apart into pieces: characters, and runs of bytes that are no part of any
character where they stand. Such a run is as long as it can be while some text could still begin with it, so a
reader that puts one replacement character in its place agrees with every other reader that follows the standard.
-/
namespace Agenda.Text

abbrev Bytes := List UInt8

namespace Utf8

/-- A run of bytes: one character, or bytes that stand for none. -/
inductive Piece
  | char (c : Char)
  | broken (bytes : Bytes)
  deriving DecidableEq

namespace Piece

def char? : Piece → Option Char
  | char c => some c
  | broken _ => none

def shown : Piece → Char
  | char c => c
  | broken _ => '\uFFFD'

end Piece

/-- A character that has begun: the bits and the bytes read so far, how many bytes are missing, and the range that
the next one must lie in. -/
structure Begun where
  code : Nat
  taken : Bytes
  missing : Nat
  low : UInt8
  high : UInt8

namespace Begun

def admits (g : Begun) (b : UInt8) : Bool :=
  g.low ≤ b && b ≤ g.high

/-- The bits with those of one more byte. -/
def codeWith (g : Begun) (b : UInt8) : Nat :=
  g.code * 64 + b.toNat % 64

/-- The character after one more byte. -/
def push (g : Begun) (b : UInt8) : Begun :=
  ⟨g.codeWith b, g.taken ++ [b], g.missing - 1, 0x80, 0xBF⟩

end Begun

/-- The character that a byte begins, when more bytes belong to it. The ranges leave out the long forms of short
characters, the surrogates, and everything past the last character. -/
def begun? (b : UInt8) : Option Begun :=
  if b < 0xC2 then none
  else if b < 0xE0 then some ⟨b.toNat % 32, [b], 1, 0x80, 0xBF⟩
  else if b = 0xE0 then some ⟨0, [b], 2, 0xA0, 0xBF⟩
  else if b = 0xED then some ⟨13, [b], 2, 0x80, 0x9F⟩
  else if b < 0xF0 then some ⟨b.toNat % 16, [b], 2, 0x80, 0xBF⟩
  else if b = 0xF0 then some ⟨0, [b], 3, 0x90, 0xBF⟩
  else if b < 0xF4 then some ⟨b.toNat % 8, [b], 3, 0x80, 0xBF⟩
  else if b = 0xF4 then some ⟨4, [b], 3, 0x80, 0x8F⟩
  else none

/-- What a byte does between two characters: it ends a piece, or it begins a character. -/
def enter (b : UInt8) : List Piece × Option Begun :=
  if b < 0x80 then ([.char (Char.ofNat b.toNat)], none)
  else
    match begun? b with
    | none => ([.broken [b]], none)
    | some g => ([], some g)

/-- What a byte does in the middle of a character: it belongs to the character, or it breaks it off. -/
def resume (g : Begun) (b : UInt8) : List Piece × Option Begun :=
  if g.admits b then
    if g.missing = 1 then ([.char (Char.ofNat (g.codeWith b))], none) else ([], some (g.push b))
  else
    let (ps, next) := enter b
    (.broken g.taken :: ps, next)

/-- The pieces of the bytes that follow, with a character begun or not. -/
def scan : Option Begun → Bytes → List Piece
  | none, [] => []
  | some g, [] => [.broken g.taken]
  | none, b :: bs =>
    let (ps, next) := enter b
    ps ++ scan next bs
  | some g, b :: bs =>
    let (ps, next) := resume g b
    ps ++ scan next bs

def pieces (bs : Bytes) : List Piece :=
  scan none bs

def encode (s : List Char) : Bytes :=
  s.flatMap String.utf8EncodeChar

/-- The text that bytes stand for, if they stand for one. -/
def decode? (bs : Bytes) : Option (List Char) :=
  (pieces bs).mapM Piece.char?

/-- The text with each broken piece replaced by one U+FFFD. -/
def lossy (bs : Bytes) : List Char :=
  (pieces bs).map Piece.shown

/-- The characters before the first broken piece. -/
def intact (bs : Bytes) : List Char :=
  ((pieces bs).takeWhile (·.char?.isSome)).filterMap Piece.char?

/-- The number of bytes before the first broken piece. -/
def intactLength (bs : Bytes) : Nat :=
  (encode (intact bs)).length

end Utf8

end Agenda.Text
