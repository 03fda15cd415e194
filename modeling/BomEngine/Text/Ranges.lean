/-!
# Ranges of code points

A property of letters is a list of closed ranges of code points.
-/

set_option autoImplicit false

namespace BomEngine.Text

def within (ranges : List (Nat × Nat)) (n : Nat) : Bool :=
  ranges.any fun r => r.1 ≤ n && n ≤ r.2

end BomEngine.Text
