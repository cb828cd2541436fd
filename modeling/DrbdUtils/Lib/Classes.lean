import Mathlib.Data.Finset.Insert
import Mathlib.Data.Finset.Lattice.Basic
import Mathlib.Logic.Relation

/-!
# Classes that are merged pair by pair

A partition as the function from an element to its class, and the classes that come from joining the
ends of a list of pairs.

* `Classes.mergeAll` — merging keeps classes classes.
* `mem_mergeAll_iff` — the classes are the chains of pairs.
-/

set_option autoImplicit false

namespace Classes

variable {α : Type} [DecidableEq α]

/-- The classes of two elements become one. -/
def merge (same : α → Finset α) (x y : α) : α → Finset α :=
  fun n => if n ∈ same x ∪ same y then same x ∪ same y else same n

/-- Merge the classes of every pair, beginning with single elements. -/
def mergeAll (pairs : List (α × α)) : α → Finset α :=
  pairs.foldl (fun same p => merge same p.1 p.2) fun n => {n}

/-- Every element is in its class, which is the class of all its elements. -/
structure Are (same : α → Finset α) : Prop where
  self : ∀ a, a ∈ same a
  eq : ∀ a b, b ∈ same a → same b = same a

section Merge

variable {same : α → Finset α} {a b x y : α} {pairs : List (α × α)}

omit [DecidableEq α] in
theorem are_singletons : Are fun n : α => {n} where
  self := Finset.mem_singleton_self
  eq a b hb := by rw [Finset.mem_singleton.1 hb]

/-- What is merged is closed. -/
theorem Are.mem_union (h : Are same) (hb : b ∈ same a) :
    b ∈ same x ∪ same y ↔ a ∈ same x ∪ same y := by
  have hback : a ∈ same b := h.eq a b hb ▸ h.self a
  have hiff : ∀ z, b ∈ same z ↔ a ∈ same z := fun z =>
    ⟨fun hz => h.eq z b hz ▸ hback, fun hz => h.eq z a hz ▸ hb⟩
  rw [Finset.mem_union, Finset.mem_union, hiff, hiff]

theorem Are.merge (h : Are same) (x y : α) : Are (merge same x y) where
  self a := by
    unfold Classes.merge
    split
    · assumption
    · exact h.self a
  eq a b hb := by
    unfold Classes.merge at hb ⊢
    split at hb
    · next ha => rw [if_pos hb, if_pos ha]
    · next ha =>
      rw [if_neg ha, if_neg (mt (h.mem_union hb).1 ha)]
      exact h.eq a b hb

/-- Classes only grow. -/
theorem subset_merge (h : Are same) (x y a : α) : same a ⊆ merge same x y a := by
  intro b hb
  unfold merge
  split
  · next ha => exact (h.mem_union hb).2 ha
  · exact hb

theorem mem_merge (h : Are same) (x y : α) : y ∈ merge same x y x := by
  unfold merge
  rw [if_pos (Finset.mem_union_left _ (h.self x))]
  exact Finset.mem_union_right _ (h.self y)

/-- A merge stays within an equivalence that has the pair. -/
theorem merge_within {r : α → α → Prop} (hr : Equivalence r) (hsame : ∀ a, ∀ b ∈ same a, r a b)
    (hxy : r x y) : ∀ a, ∀ b ∈ merge same x y a, r a b := by
  have hto : ∀ n ∈ same x ∪ same y, r x n := by
    intro n hn
    rcases Finset.mem_union.1 hn with hn | hn
    · exact hsame x n hn
    · exact hr.trans hxy (hsame y n hn)
  intro a b hb
  unfold merge at hb
  split at hb
  · next ha => exact hr.trans (hr.symm (hto a ha)) (hto b hb)
  · exact hsame a b hb

theorem are_foldl (h : Are same) : Are (pairs.foldl (fun same p => merge same p.1 p.2) same) := by
  induction pairs generalizing same with
  | nil => exact h
  | cons p pairs ih => exact ih (h.merge p.1 p.2)

theorem subset_foldl (h : Are same) (a : α) :
    same a ⊆ pairs.foldl (fun same p => merge same p.1 p.2) same a := by
  induction pairs generalizing same with
  | nil => exact Finset.Subset.refl _
  | cons p pairs ih => exact (subset_merge h p.1 p.2 a).trans (ih (h.merge p.1 p.2))

theorem mem_foldl (h : Are same) (hp : (x, y) ∈ pairs) :
    y ∈ pairs.foldl (fun same p => merge same p.1 p.2) same x := by
  induction pairs generalizing same with
  | nil => cases hp
  | cons p pairs ih =>
    rcases List.mem_cons.1 hp with rfl | hp
    · exact subset_foldl (h.merge x y) x (mem_merge h x y)
    · exact ih (h.merge p.1 p.2) hp

theorem foldl_within {r : α → α → Prop} (hr : Equivalence r) (hsame : ∀ a, ∀ b ∈ same a, r a b)
    (hpairs : ∀ p ∈ pairs, r p.1 p.2) :
    ∀ a, ∀ b ∈ pairs.foldl (fun same p => merge same p.1 p.2) same a, r a b := by
  induction pairs generalizing same with
  | nil => exact hsame
  | cons p pairs ih =>
    rw [List.forall_mem_cons] at hpairs
    exact ih (merge_within hr hsame hpairs.1) hpairs.2

end Merge

section MergeAll

variable {a b : α} {pairs : List (α × α)}

theorem are_mergeAll (pairs : List (α × α)) : Are (mergeAll pairs) := are_foldl are_singletons

/-- The classes stay within every equivalence that has the pairs. -/
theorem mergeAll_within {r : α → α → Prop} (hr : Equivalence r) (hpairs : ∀ p ∈ pairs, r p.1 p.2)
    (h : b ∈ mergeAll pairs a) : r a b := by
  refine foldl_within hr (fun a b hb => ?_) hpairs a b h
  rw [Finset.mem_singleton.1 hb]
  exact hr.refl a

/-- **A class is what chains of pairs join.** -/
theorem mem_mergeAll_iff : b ∈ mergeAll pairs a ↔ Relation.EqvGen (fun x y => (x, y) ∈ pairs) a b := by
  refine ⟨mergeAll_within (Relation.EqvGen.is_equivalence _) fun p hp => .rel _ _ hp, fun h => ?_⟩
  have hare := are_mergeAll pairs
  suffices mergeAll pairs b = mergeAll pairs a from this ▸ hare.self b
  induction h with
  | rel x y hxy => exact hare.eq x y (mem_foldl are_singletons hxy)
  | refl x => rfl
  | symm x y _ ih => exact ih.symm
  | trans x y z _ _ ih ih' => exact ih'.trans ih

end MergeAll

end Classes
