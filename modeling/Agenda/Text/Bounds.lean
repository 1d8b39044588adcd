/-!
Sets of characters given by their bounds. A list of ascending numbers `b₀, b₁, b₂, …` stands for the code points
from `b₀` to before `b₁`, from `b₂` to before `b₃` and so on, so a code point belongs to the set when an odd number
of bounds does not exceed it.
-/
namespace Agenda.Text

/-- Whether a code point lies in the set with the given ascending bounds. -/
def withinBounds : (bounds : List Nat) → (n : Nat) → Bool
  | [], _ => false
  | b :: bs, n => if n < b then false else !withinBounds bs n

end Agenda.Text
