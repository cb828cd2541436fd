import Mathlib.Data.List.Infix

/-!
# Lines of a stream

A stream of elements as terminated lines and a last one that is not terminated yet.

* `splitOn_joined` — the lines of a stream that begins with some lines.
* `linesOf_append`, `linesOf_plain` — the terminated ones.
* `lines_append` — the lines of a whole text, behind a terminated front.
-/

set_option autoImplicit false

namespace Lines

variable {α β : Type}

/-- Lines, each with the terminator behind it. -/
def joined (sep : α) (lines : List (List α)) : List α := lines.flatMap (· ++ [sep])

@[simp] theorem joined_nil (sep : α) : joined sep [] = [] := rfl

theorem joined_concat (sep : α) (lines : List (List α)) (line : List α) :
    joined sep (lines ++ [line]) = joined sep lines ++ (line ++ [sep]) := by
  rw [joined, joined, List.flatMap_append, List.flatMap_singleton]

variable [DecidableEq α] [DecidableEq β]

/-- The terminated lines of a stream. -/
def linesOf (sep : α) (stream : List α) : List (List α) := (stream.splitOn sep).dropLast

theorem splitOn_joined {sep : α} {lines : List (List α)} (h : ∀ line ∈ lines, sep ∉ line)
    (rest : List α) : (joined sep lines ++ rest).splitOn sep = lines ++ rest.splitOn sep := by
  induction lines with
  | nil => rfl
  | cons line lines ih =>
    have hjoined : joined sep (line :: lines) ++ rest = line ++ sep :: (joined sep lines ++ rest) := by
      simp [joined]
    have hrest := ih fun line hline => h line (List.mem_cons_of_mem _ hline)
    rw [hjoined, List.splitOn_append_cons_self_of_not_mem (h line List.mem_cons_self), hrest]
    rfl

theorem linesOf_append {sep : α} {lines : List (List α)} (h : ∀ line ∈ lines, sep ∉ line)
    (rest : List α) : linesOf sep (joined sep lines ++ rest) = lines ++ linesOf sep rest := by
  rw [linesOf, splitOn_joined h, List.dropLast_append_of_ne_nil (List.splitOn_ne_nil sep rest), linesOf]

theorem linesOf_plain {sep : α} {rest : List α} (h : sep ∉ rest) : linesOf sep rest = [] := by
  rw [linesOf, List.splitOn_eq_singleton h, List.dropLast_singleton]

/-- A stream is one line, or a line with the terminator in front of a stream. -/
theorem splitOn_induction (sep : α) {motive : List α → Prop}
    (last : ∀ line, sep ∉ line → motive line)
    (more : ∀ line rest, sep ∉ line → motive rest → motive (line ++ sep :: rest)) (stream : List α) :
    motive stream := by
  by_cases hsep : sep ∈ stream
  · obtain ⟨line, rest, hstream, hline⟩ := List.eq_append_cons_of_mem hsep
    have hlen : rest.length < stream.length := by
      rw [hstream, List.length_append, List.length_cons]
      omega
    rw [hstream]
    exact more line rest hline (splitOn_induction sep last more rest)
  · exact last stream hsep
  termination_by stream.length

/-- What has no terminator is within the first line. -/
theorem splitOn_length {sep : α} {front : List α} (h : sep ∉ front) (rest : List α) :
    ∃ line ∈ (front ++ rest).splitOn sep, front.length ≤ line.length := by
  by_cases hrest : sep ∈ rest
  · obtain ⟨middle, last, rfl, hmiddle⟩ := List.eq_append_cons_of_mem hrest
    have hfront : sep ∉ front ++ middle := by simp [h, hmiddle]
    refine ⟨front ++ middle, ?_, ?_⟩
    · rw [← List.append_assoc, List.splitOn_append_cons_self_of_not_mem hfront]
      exact List.mem_cons_self
    · rw [List.length_append]
      exact Nat.le_add_right _ _
  · refine ⟨front ++ rest, ?_, ?_⟩
    · rw [List.splitOn_eq_singleton (by simp [h, hrest])]
      exact List.mem_singleton_self _
    · rw [List.length_append]
      exact Nat.le_add_right _ _

/-- What is in a line is in the stream. -/
theorem mem_of_mem_splitOn {sep c : α} {stream line : List α} (h : line ∈ stream.splitOn sep)
    (hc : c ∈ line) : c ∈ stream := by
  induction stream using splitOn_induction sep with
  | last stream hsep =>
    rw [List.splitOn_eq_singleton hsep, List.mem_singleton] at h
    exact h ▸ hc
  | more first rest hfirst ih =>
    rw [List.splitOn_append_cons_self_of_not_mem hfirst, List.mem_cons] at h
    rcases h with rfl | h
    · exact List.mem_append_left _ hc
    · exact List.mem_append_right _ (List.mem_cons_of_mem _ (ih h))

/-- The lines of a whole text; the last one need not be terminated. -/
def lines (sep : α) (text : List α) : List (List α) :=
  if (text.splitOn sep).getLast? = some [] then (text.splitOn sep).dropLast else text.splitOn sep

@[simp] theorem lines_nil (sep : α) : lines sep [] = [] := by
  simp [lines]

theorem lines_append (sep : α) (front rest : List α) :
    lines sep (front ++ sep :: rest) = front.splitOn sep ++ lines sep rest := by
  have hne := List.splitOn_ne_nil sep rest
  rw [lines, lines, List.splitOn_append_cons_self, List.getLast?_append_of_ne_nil _ hne,
    List.dropLast_append_of_ne_nil hne]
  split <;> rfl

theorem lines_cons {sep : α} {line : List α} (h : sep ∉ line) (rest : List α) :
    lines sep (line ++ sep :: rest) = line :: lines sep rest := by
  rw [lines_append, List.splitOn_eq_singleton h]
  rfl

/-- Terminators in front of the lines instead of behind them. -/
theorem flatMap_cons_sep {γ : Type} (sep : α) (f : γ → List α) (l : List γ) (rest : List α) :
    l.flatMap (fun x => sep :: f x) ++ sep :: rest = sep :: (l.flatMap (fun x => f x ++ [sep]) ++ rest) := by
  induction l with
  | nil => rfl
  | cons x l ih =>
    rw [List.flatMap_cons, List.append_assoc, ih, List.flatMap_cons]
    simp

/-- A change of the elements that keeps the terminator. -/
theorem splitOn_map {sep : α} {sep' : β} {f : α → β} (hf : ∀ x, f x = sep' ↔ x = sep) (stream : List α) :
    (stream.map f).splitOn sep' = (stream.splitOn sep).map (List.map f) := by
  induction stream with
  | nil => rfl
  | cons x stream ih =>
    obtain ⟨line, lines, hlines⟩ := List.exists_cons_of_ne_nil (List.splitOn_ne_nil sep stream)
    rw [List.map_cons, List.splitOn_cons_eq_if_modifyHead, List.splitOn_cons_eq_if_modifyHead, ih, hlines]
    by_cases hx : x = sep
    · simp [hx, (hf sep).2 rfl]
    · simp [hx, mt (hf x).1 hx]

end Lines
