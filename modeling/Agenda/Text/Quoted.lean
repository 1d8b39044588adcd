import Agenda.Text.Hexadecimal
import Agenda.Text.Utf8
import Agenda.Text.Visible
/-!
Quoted text for messages. Between double quotes every visible character stands for itself, except the backslash and
the quote; the commonest others have a letter of their own after a backslash, the rest are written by number. Bytes
that may be no text are quoted as well: what is no character is written byte by byte.
-/
namespace Agenda.Text.Quoted

def byNumber (c : Char) : List Char :=
  '\\' :: 'u' :: '\x7b' :: Hexadecimal.digits c.toNat ++ ['\x7d']

def escape (c : Char) : List Char :=
  match c with
  | '\x00' => ['\\', '0']
  | '\t' => ['\\', 't']
  | '\r' => ['\\', 'r']
  | '\n' => ['\\', 'n']
  | '\\' => ['\\', '\\']
  | '"' => ['\\', '"']
  | _ => if isVisible c then [c] else byNumber c

def escapePiece : Utf8.Piece → List Char
  | .char c => escape c
  | .broken bs => bs.flatMap fun b => '\\' :: 'x' :: Hexadecimal.upperPair b.toNat

def text (s : List Char) : String :=
  String.ofList ('"' :: s.flatMap escape ++ ['"'])

def bytes (bs : Bytes) : String :=
  String.ofList ('"' :: (Utf8.pieces bs).flatMap escapePiece ++ ['"'])

end Agenda.Text.Quoted
