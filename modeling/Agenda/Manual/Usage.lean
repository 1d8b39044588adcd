import Agenda.Text.Blank
import Agenda.Text.Wrap
/-!
The documentation of options and arguments. A `Usage` says how one is written and what it does, in a line and at
length. `Usage.table` lists usages in two columns, `Usage.sections` puts the long description of each one under it,
wrapped and indented.
-/
namespace Agenda

open Text

/-- The documentation of an option or of an argument. -/
structure Usage where
  /-- How it is written. -/
  format : String
  /-- What it does, in one line. -/
  short : String
  /-- What it does, in paragraphs. -/
  long : String

namespace Usage

def pageWidth : Nat := 79

/-- The columns in front of a description. -/
def indent : Nat := 8

/-- The fewest spaces between the two columns of a table. -/
def gap : Nat := 2

def spaces (n : Nat) : List Char :=
  List.replicate n ' '

/-- The bytes of the longest format. -/
def longestFormat (usages : List Usage) : Nat :=
  (usages.map (·.format.utf8ByteSize)).foldr max 0

def row (size : Nat) (u : Usage) : List Char :=
  spaces 4 ++ u.format.toList ++ spaces (gap + (size - u.format.utf8ByteSize)) ++ u.short.toList ++ ['\n']

/-- Formats and short descriptions in two columns. -/
def table (usages : List Usage) : String :=
  String.ofList (usages.flatMap (row (longestFormat usages)))

/-- The paragraphs of a text, which empty lines separate. -/
def paragraphs : List Char → List (List Char)
  | [] => [[]]
  | '\n' :: '\n' :: cs => [] :: paragraphs cs
  | c :: cs => consFirst c (paragraphs cs)

def paragraph (s : List Char) : List Char :=
  let flat := s.map fun c => if c = '\n' then ' ' else c
  (Wrap.lines (pageWidth - indent) flat).flatMap fun line => spaces indent ++ line ++ ['\n']

/-- Texts with an empty line between them. -/
def separated (texts : List (List Char)) : List Char :=
  (texts.intersperse ['\n']).flatten

/-- The format of a usage, and its long description below. -/
def block (u : Usage) : List Char :=
  spaces 4 ++ u.format.toList ++ ['\n'] ++ separated ((paragraphs (trim u.long.toList)).map paragraph)

/-- Each format with its long description below. -/
def sections (usages : List Usage) : String :=
  String.ofList (separated (usages.map block))

end Usage

end Agenda
