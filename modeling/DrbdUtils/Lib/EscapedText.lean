/-!
# Text with escape marks

In a text with marks, the character `esc` and the one after it say how to show what follows and take
no room themselves.  A position is between two marks or characters if no mark is `pending` there.

* `visible_append`, `pending_append` — both follow the text piece by piece.
-/

set_option autoImplicit false

namespace DrbdUtils.Lib.EscapedText

variable {α : Type} [DecidableEq α] (esc : α)

/-- Whether a mark is left open by `l`, when one is open at the start. -/
def pending : Bool → List α → Bool
  | b, [] => b
  | true, _ :: l => pending false l
  | false, c :: l => pending (c = esc) l

/-- The characters of `l` that belong to no mark, when one is open at the start. -/
def visible : Bool → List α → List α
  | _, [] => []
  | true, _ :: l => visible false l
  | false, c :: l => if c = esc then visible true l else c :: visible false l

variable {esc}

@[simp]
theorem pending_nil (b : Bool) : pending esc b [] = b := by
  cases b <;> rfl

@[simp]
theorem visible_nil (b : Bool) : visible esc b [] = [] := by
  cases b <;> rfl

@[simp]
theorem pending_true_cons (c : α) (l : List α) : pending esc true (c :: l) = pending esc false l := rfl

@[simp]
theorem visible_true_cons (c : α) (l : List α) : visible esc true (c :: l) = visible esc false l := rfl

@[simp]
theorem pending_esc_cons (l : List α) : pending esc false (esc :: l) = pending esc true l := by
  simp [pending]

@[simp]
theorem visible_esc_cons (l : List α) : visible esc false (esc :: l) = visible esc true l := by
  simp [visible]

theorem pending_cons {c : α} (h : c ≠ esc) (l : List α) :
    pending esc false (c :: l) = pending esc false l := by
  simp [pending, h]

theorem visible_cons {c : α} (h : c ≠ esc) (l : List α) :
    visible esc false (c :: l) = c :: visible esc false l := by
  simp [visible, h]

theorem pending_append (b : Bool) (l m : List α) :
    pending esc b (l ++ m) = pending esc (pending esc b l) m := by
  induction l generalizing b with
  | nil => simp
  | cons c l ih =>
    cases b with
    | true => exact ih false
    | false => exact ih (c = esc)

theorem visible_append (b : Bool) (l m : List α) :
    visible esc b (l ++ m) = visible esc b l ++ visible esc (pending esc b l) m := by
  induction l generalizing b with
  | nil => simp
  | cons c l ih =>
    cases b with
    | true => exact ih false
    | false =>
      by_cases h : c = esc
      · subst h
        rw [List.cons_append, visible_esc_cons, visible_esc_cons, pending_esc_cons, ih]
      · rw [List.cons_append, visible_cons h, visible_cons h, pending_cons h, ih]
        rfl

/-- A text without the character that opens marks is visible as it is. -/
theorem visible_of_not_mem {l : List α} (h : esc ∉ l) : visible esc false l = l := by
  induction l with
  | nil => simp
  | cons c l ih =>
    rw [List.mem_cons, not_or] at h
    rw [visible_cons (Ne.symm h.1), ih h.2]

theorem pending_of_not_mem {l : List α} (h : esc ∉ l) : pending esc false l = false := by
  induction l with
  | nil => rfl
  | cons c l ih =>
    rw [List.mem_cons, not_or] at h
    rw [pending_cons (Ne.symm h.1), ih h.2]

end DrbdUtils.Lib.EscapedText
