import Agenda.Text.Alphanumeric
import Agenda.Text.Runs
/-!
Wrapping text to a width. A line is cut into words after its spaces, words are cut after the hyphens that join two
letters or digits, and words that are still too wide are cut where they reach the width. Then each line takes as many
words as fit; the spaces at the end of a line are dropped, all else is kept.

The width of a character is one column below U+1100 and two from there on. The control sequences of a terminal take
no columns.
-/
namespace Agenda.Text.Wrap

/-- Where a character stands: in the text or in a control sequence. -/
inductive Mode
  | text
  /-- After an escape character. -/
  | escape
  /-- In a sequence that ends with a character from `@` to `~`. -/
  | control
  /-- In a sequence that ends with a bell, or with a backslash after an escape character. -/
  | command (afterEscape : Bool)
  deriving DecidableEq

def columns (c : Char) : Nat :=
  if c.toNat < 0x1100 then 1 else 2

def Mode.step : Mode → Char → Mode × Nat
  | text, c => if c = '\x1b' then (escape, 0) else (text, columns c)
  | escape, c => (if c = '[' then control else if c = ']' then command false else text, 0)
  | control, c => (if '@' ≤ c ∧ c ≤ '~' then text else control, 0)
  | command afterEscape, c =>
    (if c = '\x07' ∨ (afterEscape = true ∧ c = '\\') then text else command (c == '\x1b'), 0)

/-- The columns of a row of characters that begins in a given mode. -/
def widthFrom : Mode → List Char → Nat
  | _, [] => 0
  | m, c :: cs => (m.step c).2 + widthFrom (m.step c).1 cs

def width (s : List Char) : Nat :=
  widthFrom .text s

/-- A word and the number of spaces after it. -/
structure Word where
  chars : List Char
  spaces : Nat
  deriving DecidableEq

def Word.empty : Word :=
  ⟨[], 0⟩

/-- A word begins where the spaces after another one end. -/
def wordStep (afterSpace : Bool) (c : Char) : Bool × Bool :=
  (afterSpace && c != ' ', c == ' ')

def Word.ofRun (s : List Char) : Word :=
  ⟨(s.reverse.dropWhile (· == ' ')).reverse, (s.reverse.takeWhile (· == ' ')).length⟩

def words (line : List Char) : List Word :=
  (runs wordStep false line).map Word.ofRun

/-- What stands before a character that a hyphen may have joined to a word. -/
inductive Joint
  | none
  /-- A letter or digit. -/
  | alphanumeric
  /-- A hyphen after a letter or digit. -/
  | hyphen
  deriving DecidableEq

/-- A part begins with the letter or digit after a hyphen that joins. -/
def partStep (joint : Joint) (c : Char) : Bool × Joint :=
  if isAlphanumeric c then (joint == .hyphen, .alphanumeric)
  else (false, if joint = .alphanumeric ∧ c = '-' then .hyphen else .none)

/-- Pieces of a word as words, with its spaces after the last of them. -/
def Word.ofPieces (spaces : Nat) : List (List Char) → List Word
  | [] => []
  | [s] => [⟨s, spaces⟩]
  | s :: ss => ⟨s, 0⟩ :: Word.ofPieces spaces ss

/-- The parts of a word that hyphens join. -/
def Word.parts (w : Word) : List Word :=
  Word.ofPieces w.spaces (runs partStep .none w.chars)

/-- A piece begins where the columns so far leave no room. -/
def pieceStep (limit : Nat) (s : Mode × Nat) (c : Char) : Bool × (Mode × Nat) :=
  let (mode, w) := s.1.step c
  -- a piece takes at least one character, however wide
  if 0 < s.2 ∧ limit < s.2 + w then (true, mode, w) else (false, mode, s.2 + w)

def Word.pieces (limit : Nat) (w : Word) : List Word :=
  if limit < width w.chars then Word.ofPieces w.spaces (runs (pieceStep limit) (.text, 0) w.chars) else [w]

/-- A line begins with a word that has no room on the one before it. The columns taken are `none` until a word is
there. -/
def lineStep (limit : Nat) (taken : Option Nat) (w : Word) : Bool × Option Nat :=
  let columns := width w.chars
  -- the spaces after the word may hang over the edge
  if taken.any (limit < · + columns) then (true, some (columns + w.spaces))
  else (false, some (taken.getD 0 + columns + w.spaces))

def lineChars : List Word → List Char
  | [] => []
  | [w] => w.chars
  | w :: ws => w.chars ++ List.replicate w.spaces ' ' ++ lineChars ws

/-- The words of a text, none of them wider than a line. -/
def fitting (limit : Nat) (s : List Char) : List Word :=
  ((words s).flatMap Word.parts).flatMap (Word.pieces limit)

/-- The lines of a text, each at most `limit` columns wide. The first line begins with an empty word, which lets a
word go on to the next line even when the line holds nothing else. -/
def lines (limit : Nat) (s : List Char) : List (List Char) :=
  (runs (lineStep limit) none (Word.empty :: fitting limit s)).map lineChars

end Agenda.Text.Wrap
