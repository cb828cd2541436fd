import Mathlib.Data.List.Basic

/-!
# Doubly linked lists over link functions

A doubly linked list is given by two link functions `next` and `prev` on the nodes and the two
end pointers `head` and `tail`; `Linked` says that they spell one list of nodes, in both
directions.  The two operations an intrusive queue has, appending a node at the tail and
unlinking a node, are described by what they do to the links of the nodes of the list; how the
links are stored is left to the user of this file.

* `Linked.congr` — a change of links outside of the list keeps it (the frame rule).
* `Linked.append` — linking a new node behind the tail gives `l ++ [p]`.
* `Linked.unlink` — unlinking a node gives `l.erase p`.
-/

set_option autoImplicit false

namespace DrbdUtils.Lib

variable {P : Type} {next prev next' prev' : P → Option P} {head tail : Option P} {l : List P}

/-- **A well formed doubly linked list.**  The links of each node are the last node before it and
the first node behind it. -/
structure Linked (next prev : P → Option P) (head tail : Option P) (l : List P) : Prop where
  nodup : l.Nodup
  head_eq : head = l.head?
  tail_eq : tail = l.getLast?
  next_eq : ∀ l₁ p l₂, l = l₁ ++ p :: l₂ → next p = l₂.head?
  prev_eq : ∀ l₁ p l₂, l = l₁ ++ p :: l₂ → prev p = l₁.getLast?

theorem Linked.nil (next prev : P → Option P) : Linked next prev none none [] where
  nodup := List.nodup_nil
  head_eq := rfl
  tail_eq := rfl
  next_eq l₁ p l₂ h := by simp at h
  prev_eq l₁ p l₂ h := by simp at h

/-- **Frame rule.**  Only the links of the nodes of the list matter. -/
theorem Linked.congr (h : Linked next prev head tail l) (hn : ∀ x ∈ l, next' x = next x)
    (hp : ∀ x ∈ l, prev' x = prev x) : Linked next' prev' head tail l where
  nodup := h.nodup
  head_eq := h.head_eq
  tail_eq := h.tail_eq
  next_eq l₁ p l₂ hl := by
    rw [hn p (by simp [hl])]
    exact h.next_eq l₁ p l₂ hl
  prev_eq l₁ p l₂ hl := by
    rw [hp p (by simp [hl])]
    exact h.prev_eq l₁ p l₂ hl

/-- The previous node is another node of the list; only the head has none. -/
theorem Linked.prev_cases (h : Linked next prev head tail l) {p : P} (hp : p ∈ l) :
    (head = some p ∧ prev p = none) ∨
      (head ≠ some p ∧ ∃ x, prev p = some x ∧ x ∈ l ∧ x ≠ p) := by
  obtain ⟨l₁, l₂, hl⟩ := List.append_of_mem hp
  have hnd := h.nodup
  rw [hl] at hnd
  have hne : ∀ x ∈ l₁, x ≠ p := fun x hx => (List.nodup_append.1 hnd).2.2 x hx p (by simp)
  rw [h.prev_eq l₁ p l₂ hl, h.head_eq, hl]
  cases l₁ with
  | nil => exact .inl ⟨rfl, rfl⟩
  | cons y l₁ =>
    refine .inr ⟨?_, (y :: l₁).getLast (by simp), List.getLast?_eq_getLast_of_ne_nil _, ?_, ?_⟩
    · have := hne y (by simp)
      simpa using this
    · exact List.mem_append_left _ (List.getLast_mem _)
    · exact hne _ (List.getLast_mem _)

/-- The next node is another node of the list; only the tail has none. -/
theorem Linked.next_cases (h : Linked next prev head tail l) {p : P} (hp : p ∈ l) :
    (tail = some p ∧ next p = none) ∨
      (tail ≠ some p ∧ ∃ x, next p = some x ∧ x ∈ l ∧ x ≠ p) := by
  obtain ⟨l₁, l₂, hl⟩ := List.append_of_mem hp
  have hnd := h.nodup
  rw [hl] at hnd
  have hp₂ : p ∉ l₂ := (List.nodup_cons.1 (List.nodup_append.1 hnd).2.1).1
  rw [h.next_eq l₁ p l₂ hl, h.tail_eq, hl, List.getLast?_append_cons]
  cases l₂ with
  | nil => exact .inl ⟨rfl, rfl⟩
  | cons y l₂ =>
    refine .inr ⟨?_, y, rfl, by simp, ?_⟩
    · rw [List.getLast?_cons_cons]
      exact fun hx => hp₂ (List.mem_of_getLast? hx)
    · exact fun hx => hp₂ (by simp [hx])

/-- A place in `l₁ ++ l₂` is a place in `l₁` or one in `l₂`. -/
theorem append_eq_append_cons {l₁ l₂ m₁ m₂ : List P} {x : P} (h : l₁ ++ l₂ = m₁ ++ x :: m₂) :
    (∃ c, l₁ = m₁ ++ x :: c ∧ m₂ = c ++ l₂) ∨ (∃ a, l₂ = a ++ x :: m₂ ∧ m₁ = l₁ ++ a) := by
  rcases List.append_eq_append_iff.1 h with ⟨a, hm, hl⟩ | ⟨c, hl, hm⟩
  · exact .inr ⟨a, hl, hm⟩
  · cases c with
    | nil =>
      refine .inr ⟨[], ?_, ?_⟩
      · simpa using hm.symm
      · simpa using hl.symm
    | cons y c =>
      simp only [List.cons_append, List.cons.injEq] at hm
      obtain ⟨rfl, hm⟩ := hm
      exact .inl ⟨c, hl, hm⟩

/-- **Appending a node.**  The old tail, if there is one, gets the new node as its next node, and
the new node the old tail as its previous one. -/
theorem Linked.append [DecidableEq P] (h : Linked next prev head tail l) {p : P} (hp : p ∉ l)
    (hnp : next' p = none) (hpp : prev' p = tail)
    (hn : ∀ x ∈ l, next' x = if tail = some x then some p else next x)
    (hv : ∀ x ∈ l, prev' x = prev x) :
    Linked next' prev' (if head = none then some p else head) (some p) (l ++ [p]) where
  nodup := by
    rw [List.nodup_append]
    refine ⟨h.nodup, by simp, ?_⟩
    intro a ha b hb hab
    rw [List.mem_singleton] at hb
    exact hp (hb ▸ hab ▸ ha)
  head_eq := by
    rw [h.head_eq]
    cases l <;> simp
  tail_eq := by simp
  next_eq m₁ x m₂ hm := by
    rcases append_eq_append_cons hm with ⟨c, hl, rfl⟩ | ⟨a, hl, rfl⟩
    · rw [hn x (by simp [hl]), h.next_eq m₁ x c hl, h.tail_eq, hl]
      cases c with
      | nil => simp
      | cons y c =>
        have hne : ((m₁ ++ x :: y :: c).getLast? = some x) = False := by
          simp only [eq_iff_iff, iff_false]
          intro hx
          have hmem : x ∈ y :: c := by
            rw [List.getLast?_append_cons, List.getLast?_cons_cons] at hx
            exact List.mem_of_getLast? hx
          have := h.nodup
          rw [hl] at this
          exact (List.nodup_cons.1 (List.nodup_append.1 this).2.1).1 hmem
        rw [if_neg (by rw [hne]; exact not_false)]
        rfl
    · obtain rfl : a = [] := by
        cases a with
        | nil => rfl
        | cons y a => simp at hl
      simp only [List.nil_append, List.cons.injEq] at hl
      rw [← hl.1, ← hl.2, hnp]
      rfl
  prev_eq m₁ x m₂ hm := by
    rcases append_eq_append_cons hm with ⟨c, hl, rfl⟩ | ⟨a, hl, rfl⟩
    · rw [hv x (by simp [hl])]
      exact h.prev_eq m₁ x c hl
    · obtain rfl : a = [] := by
        cases a with
        | nil => rfl
        | cons y a => simp at hl
      simp only [List.nil_append, List.cons.injEq] at hl
      rw [← hl.1, hpp, h.tail_eq, List.append_nil]

/-- **Unlinking a node.**  The nodes beside it are linked to each other; at an end, the end pointer
moves on. -/
theorem Linked.unlink [DecidableEq P] (h : Linked next prev head tail l) {p : P} (hp : p ∈ l)
    (hn : ∀ x ∈ l, x ≠ p → next' x = if prev p = some x then next p else next x)
    (hv : ∀ x ∈ l, x ≠ p → prev' x = if next p = some x then prev p else prev x) :
    Linked next' prev' (if head = some p then next p else head)
      (if tail = some p then prev p else tail) (l.erase p) := by
  obtain ⟨l₁, l₂, hl⟩ := List.append_of_mem hp
  have hnp := h.next_eq l₁ p l₂ hl
  have hpp := h.prev_eq l₁ p l₂ hl
  have hnd := h.nodup
  rw [hl] at hnd
  obtain ⟨hnd₁, hnd₂, hdisj⟩ := List.nodup_append.1 hnd
  obtain ⟨hp₂, hnd₂⟩ := List.nodup_cons.1 hnd₂
  have hp₁ : p ∉ l₁ := fun hx => hdisj p hx p (by simp) rfl
  have herase : l.erase p = l₁ ++ l₂ := by
    rw [hl, List.erase_append_right _ hp₁, List.erase_cons_head]
  have hne₁ : ∀ x ∈ l₁, x ≠ p := fun x hx hxp => hp₁ (hxp ▸ hx)
  have hne₂ : ∀ x ∈ l₂, x ≠ p := fun x hx hxp => hp₂ (hxp ▸ hx)
  rw [herase]
  refine ⟨?_, ?_, ?_, ?_, ?_⟩
  · exact List.nodup_append.2 ⟨hnd₁, hnd₂, fun a ha b hb => hdisj a ha b (by simp [hb])⟩
  · rw [h.head_eq, hnp, hl]
    cases l₁ with
    | nil => simp
    | cons y l₁ => simp [hne₁ y (by simp)]
  · rw [h.tail_eq, hpp, hl]
    cases l₂ with
    | nil => simp
    | cons y l₂ =>
      have hne : ¬(y :: l₂).getLast? = some p := fun hx => hp₂ (List.mem_of_getLast? hx)
      rw [List.getLast?_append_cons, List.getLast?_cons_cons, if_neg hne, List.getLast?_append_cons]
  · intro m₁ x m₂ hm
    rcases append_eq_append_cons hm with ⟨c, hc, rfl⟩ | ⟨a, ha, rfl⟩
    · -- a node before the unlinked one: only the last of them changes
      have hx₁ : x ∈ l₁ := by simp [hc]
      rw [hn x (by simp [hl, hx₁]) (hne₁ x hx₁), hpp, hnp,
        h.next_eq m₁ x (c ++ p :: l₂) (by simp [hl, hc])]
      cases c with
      | nil => simp [hc]
      | cons y c =>
        have hlast : l₁.getLast? = (y :: c).getLast? := by
          rw [hc, List.getLast?_append_cons, List.getLast?_cons_cons]
        have hne : ¬l₁.getLast? = some x := by
          intro hx
          rw [hlast] at hx
          rw [hc] at hnd₁
          exact (List.nodup_cons.1 (List.nodup_append.1 hnd₁).2.1).1 (List.mem_of_getLast? hx)
        rw [if_neg hne]
        rfl
    · have hx₂ : x ∈ l₂ := by simp [ha]
      have hne : ¬l₁.getLast? = some x := fun hx =>
        hdisj x (List.mem_of_getLast? hx) x (by simp [hx₂]) rfl
      rw [hn x (by simp [hl, hx₂]) (hne₂ x hx₂), hpp, if_neg hne]
      exact h.next_eq (l₁ ++ p :: a) x m₂ (by simp [hl, ha])
  · intro m₁ x m₂ hm
    rcases append_eq_append_cons hm with ⟨c, hc, rfl⟩ | ⟨a, ha, rfl⟩
    · have hx₁ : x ∈ l₁ := by simp [hc]
      have hne : ¬l₂.head? = some x := fun hx =>
        hdisj x hx₁ x (by simp [List.mem_of_head? hx]) rfl
      rw [hv x (by simp [hl, hx₁]) (hne₁ x hx₁), hnp, if_neg hne]
      exact h.prev_eq m₁ x (c ++ p :: l₂) (by simp [hl, hc])
    · -- a node behind the unlinked one: only the first of them changes
      have hx₂ : x ∈ l₂ := by simp [ha]
      rw [hv x (by simp [hl, hx₂]) (hne₂ x hx₂), hnp, hpp,
        h.prev_eq (l₁ ++ p :: a) x m₂ (by simp [hl, ha])]
      cases a with
      | nil => simp [ha]
      | cons y a =>
        have hne : ¬l₂.head? = some x := by
          intro hx
          simp only [ha, List.cons_append, List.head?_cons, Option.some.injEq] at hx
          rw [ha] at hnd₂
          exact (List.nodup_cons.1 hnd₂).1 (by simp [hx])
        rw [if_neg hne, List.getLast?_append_cons, List.getLast?_cons_cons,
          List.getLast?_append_cons]

end DrbdUtils.Lib
