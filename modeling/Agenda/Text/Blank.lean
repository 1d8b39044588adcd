/-!
Blank space. A character is blank when it has the Unicode property White_Space; trimming drops blanks at
both ends and keeps those inside. Bytes have a class of their own, the five ASCII blanks.
-/
namespace Agenda.Text

/-- Every character with the property White_Space. -/
def isBlank (c : Char) : Bool :=
  let n := c.toNat
  (0x09 ≤ n && n ≤ 0x0D) || n == 0x20 || n == 0x85 || n == 0xA0 || n == 0x1680 ||
    (0x2000 ≤ n && n ≤ 0x200A) || n == 0x2028 || n == 0x2029 || n == 0x202F || n == 0x205F || n == 0x3000

def trimEnd (s : List Char) : List Char :=
  (s.reverse.dropWhile isBlank).reverse

def trim (s : List Char) : List Char :=
  trimEnd (s.dropWhile isBlank)

def allBlank (s : String) : Bool :=
  s.toList.all isBlank

/-- Space, tab, line feed, form feed and carriage return; the vertical tab is not one of them. -/
def isBlankByte (b : UInt8) : Bool :=
  b == 0x20 || b == 0x09 || b == 0x0A || b == 0x0C || b == 0x0D

end Agenda.Text
