import Agenda.Text.Hexadecimal
/-!
Writing strings of JSON. The quote, the backslash and the control characters are escaped, five of the latter by a
letter; every other character stands for itself.
-/
namespace Agenda.Json

open Text

def escape (c : Char) : List Char :=
  if c = '"' then ['\\', '"']
  else if c = '\\' then ['\\', '\\']
  else if c = '\x08' then ['\\', 'b']
  else if c = '\x0c' then ['\\', 'f']
  else if c = '\n' then ['\\', 'n']
  else if c = '\r' then ['\\', 'r']
  else if c = '\t' then ['\\', 't']
  else if c.toNat < 0x20 then '\\' :: 'u' :: '0' :: '0' :: Hexadecimal.pair c.toNat
  else [c]

def quoted (s : List Char) : List Char :=
  '"' :: s.flatMap escape ++ ['"']

end Agenda.Json
