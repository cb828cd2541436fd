import Mathlib.Data.List.Infix

/-!
# Patterns with wildcards

Texts over any alphabet, in which one symbol stands for any text.

* `find`, `rfind` — the first occurrence from an offset on, and the last one.
* `Instance` — a wildcard is replaced by a text, each one by its own.
* `instance_iff_pieces` — the fragments between the wildcards, in order, with gaps between them.
* `follows_find` — taking the first occurrence of a fragment leaves the most room for the others.
-/

set_option autoImplicit false

namespace Wildcard

variable {α : Type}

/-! ## Occurrences -/

section Occurrences

variable [DecidableEq α]

/-- The first occurrence of the item at the offset or behind it. -/
def find (text item : List α) (offset : Nat) : Option Nat :=
  (List.range (text.length + 1)).find? fun i => decide (offset ≤ i) && decide (item <+: text.drop i)

/-- The last occurrence of the item. -/
def rfind (text item : List α) : Option Nat :=
  (List.range (text.length + 1)).reverse.find? fun i => decide (item <+: text.drop i)

theorem find_eq_some {text item : List α} {offset i : Nat} (h : find text item offset = some i) :
    offset ≤ i ∧ i ≤ text.length ∧ item <+: text.drop i ∧
      ∀ j, offset ≤ j → j < i → ¬item <+: text.drop j := by
  obtain ⟨hi, hmem, hfirst⟩ := List.find?_range_eq_some.1 h
  simp only [Bool.and_eq_true, decide_eq_true_eq] at hi
  refine ⟨hi.1, Nat.le_of_lt_succ (List.mem_range.1 hmem), hi.2, ?_⟩
  intro j hj hlt hpre
  have := hfirst j hlt
  simp [hj, hpre] at this

theorem find_eq_none {text item : List α} {offset : Nat} (h : find text item offset = none) {i : Nat}
    (hoffset : offset ≤ i) (hi : i ≤ text.length) : ¬item <+: text.drop i := by
  intro hpre
  have := List.find?_range_eq_none.1 h i (Nat.lt_succ_of_le hi)
  simp [hoffset, hpre] at this

theorem find?_reverse_range {p : Nat → Bool} {i n : Nat} (hi : i < n) (hp : p i = true)
    (hlast : ∀ j, i < j → j < n → p j = false) : (List.range n).reverse.find? p = some i := by
  induction n with
  | zero => exact absurd hi (Nat.not_lt_zero i)
  | succ n ih =>
    rw [List.range_succ, List.reverse_append, List.reverse_singleton, List.singleton_append,
      List.find?_cons]
    by_cases hin : i = n
    · subst hin
      rw [hp]
    · rw [hlast n (by omega) (Nat.lt_succ_self n)]
      exact ih (by omega) fun j hij hj => hlast j hij (Nat.lt_succ_of_lt hj)

/-- The last occurrence ends where the text does exactly when the text ends with the item. -/
theorem rfind_end {text item : List α} :
    (∃ i, rfind text item = some i ∧ i = text.length - item.length) ↔ item <:+ text := by
  constructor
  · rintro ⟨i, hi, rfl⟩
    have hpre : item <+: text.drop (text.length - item.length) :=
      of_decide_eq_true (List.find?_some (p := fun i => decide (item <+: text.drop i)) hi)
    have hdrop : item = text.drop (text.length - item.length) := by
      apply List.IsPrefix.eq_of_length hpre
      have hle := hpre.length_le
      rw [List.length_drop] at hle ⊢
      omega
    rw [hdrop]
    exact List.drop_suffix _ _
  · rintro ⟨front, rfl⟩
    refine ⟨front.length, find?_reverse_range ?_ ?_ ?_, ?_⟩
    · rw [List.length_append]
      omega
    · rw [List.drop_left]
      exact decide_eq_true (List.prefix_refl item)
    · intro j hlt hj
      refine decide_eq_false fun hpre => ?_
      have hle := hpre.length_le
      rw [List.length_drop, List.length_append] at hle
      rw [List.length_append] at hj
      omega
    · rw [List.length_append]
      omega

end Occurrences

/-! ## Fragments -/

/-- The fragments one behind the other, with a gap in front of each, and nothing behind the last. -/
def Follows : List (List α) → List α → Prop
  | [], text => text = []
  | item :: items, text => ∃ gap rest, text = gap ++ (item ++ rest) ∧ Follows items rest

/-- The same without a gap in front of the first. -/
def Pieces : List (List α) → List α → Prop
  | [], text => text = []
  | item :: items, text => ∃ rest, text = item ++ rest ∧ Follows items rest

theorem follows_iff_pieces {items : List (List α)} (h : items ≠ []) {text : List α} :
    Follows items text ↔ ∃ gap rest, text = gap ++ rest ∧ Pieces items rest := by
  obtain ⟨item, items, rfl⟩ := List.exists_cons_of_ne_nil h
  constructor
  · rintro ⟨gap, rest, rfl, hrest⟩
    exact ⟨gap, item ++ rest, rfl, rest, rfl, hrest⟩
  · rintro ⟨gap, _, rfl, rest, rfl, hrest⟩
    exact ⟨gap, rest, rfl, hrest⟩

/-- What fits behind the end of a text fits behind the text. -/
theorem Follows.of_suffix {items : List (List α)} (h : items ≠ []) {text text' : List α}
    (hsuffix : text <:+ text') (hfollows : Follows items text) : Follows items text' := by
  obtain ⟨item, items, rfl⟩ := List.exists_cons_of_ne_nil h
  obtain ⟨front, rfl⟩ := hsuffix
  obtain ⟨gap, rest, rfl, hrest⟩ := hfollows
  exact ⟨front ++ gap, rest, (List.append_assoc _ _ _).symm, hrest⟩

/-- An empty fragment between two gaps does not matter. -/
theorem follows_cons_nil {items : List (List α)} (h : items ≠ []) {text : List α} :
    Follows ([] :: items) text ↔ Follows items text := by
  constructor
  · rintro ⟨gap, rest, rfl, hrest⟩
    exact hrest.of_suffix h (List.suffix_append gap rest)
  · intro hfollows
    exact ⟨[], text, rfl, hfollows⟩

theorem follows_filter [DecidableEq α] (items : List (List α)) (last text : List α) :
    Follows (items.filter (· ≠ []) ++ [last]) text ↔ Follows (items ++ [last]) text := by
  induction items generalizing text with
  | nil => exact Iff.rfl
  | cons item items ih =>
    by_cases hitem : item = []
    · subst hitem
      rw [List.filter_cons_of_neg (by simp), ih]
      exact (follows_cons_nil (by simp)).symm
    · rw [List.filter_cons_of_pos (by simpa using hitem), List.cons_append, List.cons_append, Follows,
        Follows]
      simp only [ih]

/-- The last fragment is at the end, and the others are in front of it. -/
theorem follows_concat (items : List (List α)) (last text : List α) :
    Follows (items ++ [last]) text ↔ ∃ front, text = front ++ last ∧ Follows (items ++ [[]]) front := by
  induction items generalizing text with
  | nil =>
    constructor
    · rintro ⟨gap, rest, rfl, rfl⟩
      exact ⟨gap, by rw [List.append_nil], gap, [], by simp, rfl⟩
    · rintro ⟨front, rfl, -⟩
      exact ⟨front, [], by rw [List.append_nil], rfl⟩
  | cons item items ih =>
    rw [List.cons_append, List.cons_append, Follows]
    constructor
    · rintro ⟨gap, rest, rfl, hrest⟩
      obtain ⟨front, rfl, hfront⟩ := (ih rest).1 hrest
      exact ⟨gap ++ (item ++ front), by simp, gap, front, rfl, hfront⟩
    · rintro ⟨_, rfl, gap, front, rfl, hfront⟩
      exact ⟨gap, front ++ last, by simp, (ih _).2 ⟨front, rfl, hfront⟩⟩

/-- A text can go on behind a last gap. -/
theorem Follows.append {items : List (List α)} {text : List α} (h : Follows (items ++ [[]]) text)
    (rest : List α) : Follows (items ++ [[]]) (text ++ rest) := by
  obtain ⟨front, rfl, hfront⟩ := (follows_concat items [] text).1 h
  clear h
  induction items generalizing front with
  | nil => exact ⟨front ++ [] ++ rest, [], by simp, rfl⟩
  | cons item items ih =>
    obtain ⟨gap, tail, rfl, htail⟩ := hfront
    exact ⟨gap, tail ++ [] ++ rest, by simp, ih tail htail⟩

section Instances

variable [DecidableEq α]

/-- The first occurrence of a fragment leaves the most room for the others. -/
theorem follows_find {text item : List α} {items : List (List α)} (h : items ≠ []) {offset i : Nat}
    (hi : find text item offset = some i) :
    Follows (item :: items) (text.drop offset) ↔ Follows items (text.drop (i + item.length)) := by
  obtain ⟨hle, hlen, hpre, hfirst⟩ := find_eq_some hi
  constructor
  · rintro ⟨gap, rest, hgap, hrest⟩
    apply hrest.of_suffix h
    -- the occurrence behind the gap is not in front of the first one
    have hj : text.drop (offset + gap.length) = item ++ rest := by
      rw [← List.drop_drop, hgap, List.drop_left]
    have hnot : i ≤ offset + gap.length := by
      by_contra hlt
      exact hfirst _ (Nat.le_add_right _ _) (Nat.not_le.1 hlt) (hj ▸ List.prefix_append item rest)
    have hdrop : rest = text.drop (offset + gap.length + item.length) := by
      rw [← List.drop_drop, hj, List.drop_left]
    rw [hdrop]
    exact List.drop_suffix_drop_left _ (by omega)
  · intro hrest
    refine ⟨(text.drop offset).take (i - offset), text.drop (i + item.length), ?_, hrest⟩
    obtain ⟨tail, htail⟩ := hpre
    have htail' : text.drop (i + item.length) = tail := by
      rw [← List.drop_drop, ← htail, List.drop_left]
    rw [htail', htail]
    have hsplit : text.drop i = (text.drop offset).drop (i - offset) := by
      rw [List.drop_drop, Nat.add_sub_cancel' hle]
    rw [hsplit, List.take_append_drop]

theorem not_follows_of_find {text item : List α} {items : List (List α)} {offset : Nat}
    (hoffset : offset ≤ text.length) (hnone : find text item offset = none) :
    ¬Follows (item :: items) (text.drop offset) := by
  rintro ⟨gap, rest, hgap, -⟩
  have hj : text.drop (offset + gap.length) = item ++ rest := by
    rw [← List.drop_drop, hgap, List.drop_left]
  have hlen := congrArg List.length hgap
  rw [List.length_drop, List.length_append] at hlen
  exact find_eq_none hnone (Nat.le_add_right _ _) (by omega) (hj ▸ List.prefix_append item rest)

/-! ## Instances -/

/-- The text is the pattern with each wildcard replaced by some text. -/
def Instance (star : α) : List α → List α → Prop
  | [], text => text = []
  | c :: pattern, text =>
    if c = star then ∃ gap rest, text = gap ++ rest ∧ Instance star pattern rest
    else ∃ rest, text = c :: rest ∧ Instance star pattern rest

/-- The fragments of a pattern. -/
def pieces (star : α) (pattern : List α) : List (List α) := pattern.splitOn star

theorem pieces_ne_nil (star : α) (pattern : List α) : pieces star pattern ≠ [] :=
  List.splitOn_ne_nil star pattern

theorem pieces_cons_star (star : α) (pattern : List α) :
    pieces star (star :: pattern) = [] :: pieces star pattern := by
  simp [pieces, List.splitOn_eq_splitOnP, List.splitOnP_cons_eq_if_modifyHead]

theorem pieces_cons {star c : α} (h : c ≠ star) (pattern : List α) :
    pieces star (c :: pattern) = (pieces star pattern).modifyHead (c :: ·) := by
  simp [pieces, List.splitOn_eq_splitOnP, List.splitOnP_cons_eq_if_modifyHead, h]

theorem pieces_append (star : α) (front last : List α) :
    pieces star (front ++ star :: last) = pieces star front ++ pieces star last :=
  List.splitOn_append_cons_self front last

theorem pieces_plain {star : α} {pattern : List α} (h : star ∉ pattern) : pieces star pattern = [pattern] :=
  List.splitOn_eq_singleton h

theorem instance_iff_pieces (star : α) (pattern text : List α) :
    Instance star pattern text ↔ Pieces (pieces star pattern) text := by
  induction pattern generalizing text with
  | nil =>
    rw [pieces_plain List.not_mem_nil]
    constructor
    · rintro rfl
      exact ⟨[], rfl, rfl⟩
    · rintro ⟨rest, rfl, rfl⟩
      rfl
  | cons c pattern ih =>
    by_cases hc : c = star
    · subst hc
      rw [pieces_cons_star, Instance, if_pos rfl, Pieces]
      have hfollows := @follows_iff_pieces _ _ (pieces_ne_nil c pattern) text
      simp only [ih, List.nil_append, exists_eq_left']
      exact hfollows.symm
    · rw [pieces_cons hc, Instance, if_neg hc]
      obtain ⟨item, items, hitems⟩ := List.exists_cons_of_ne_nil (pieces_ne_nil star pattern)
      simp only [ih, hitems, List.modifyHead_cons, Pieces]
      constructor
      · rintro ⟨_, rfl, rest, rfl, hrest⟩
        exact ⟨rest, rfl, hrest⟩
      · rintro ⟨rest, rfl, hrest⟩
        exact ⟨item ++ rest, rfl, rest, rfl, hrest⟩

end Instances

end Wildcard
