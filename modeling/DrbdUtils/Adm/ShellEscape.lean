import DrbdUtils.Lib.ShellWords

/-!
# `shell_escape()` and the shell

`shell_escape()` of `shared_tool.c` puts a backslash in front of every byte that is not clean, into a
buffer of 1024 bytes.  A letter is a byte.

* `escapeLoop_cases` — the loop escapes all of a text, or a part of it.
* `shellEscape_iff` — which texts a shell reads back.
-/

set_option autoImplicit false

namespace DrbdUtils.Adm

open ShellWords

/-! ## The program -/

/-- The set of 'clean' characters. -/
def isClean (c : Char) : Bool :=
  c ∈ ['%', '+', '-', '.', '/', ':', '=', '@', '_'] || ('0' ≤ c && c ≤ '9') ||
    ('A' ≤ c && c ≤ 'Z') || ('a' ≤ c && c ≤ 'z')

/-- `max_c - buffer`. -/
def maxC : Nat := 1024 - 2

/-- The loop of `shell_escape`, with `n` bytes in the buffer. -/
def escapeLoop (n : Nat) : List Char → List Char
  | [] => []
  | c :: s =>
    if maxC ≤ n then []
    else if isClean c then c :: escapeLoop (n + 1) s
    else '\\' :: c :: escapeLoop (n + 2) s

/-- `shell_escape`. -/
def shellEscape : Option (List Char) → List Char
  | none => []
  | some s => escapeLoop 0 s

/-! ## What is in the buffer -/

/-- A text with all its escape characters. -/
def escaped (s : List Char) : List Char := s.flatMap fun c => if isClean c then [c] else ['\\', c]

/-- The last character of a text still has room behind the others. -/
def HasRoom (n : Nat) (s : List Char) : Prop := s = [] ∨ n + (escaped s.dropLast).length < maxC

section Buffer

variable {n : Nat} {c : Char} {s p w : List Char} {l : Line}

theorem escaped_cons (c : Char) (s : List Char) :
    escaped (c :: s) = (if isClean c then [c] else ['\\', c]) ++ escaped s := List.flatMap_cons

/-- **What the loop escapes**: all of the text if there is room, and else less of it. -/
theorem escapeLoop_cases (n : Nat) (s : List Char) :
    ∃ p, p <+: s ∧ escapeLoop n s = escaped p ∧ (p = s ↔ HasRoom n s) := by
  induction s generalizing n with
  | nil => exact ⟨[], List.prefix_refl _, rfl, iff_of_true rfl (Or.inl rfl)⟩
  | cons c s ih =>
    unfold escapeLoop
    by_cases hfull : maxC ≤ n
    · refine ⟨[], List.nil_prefix, by rw [if_pos hfull]; rfl, iff_of_false (by simp) ?_⟩
      rintro (h | h)
      · cases h
      · omega
    · rw [if_neg hfull]
      obtain ⟨p, hp, hloop, hroom⟩ := ih (n + (escaped [c]).length)
      refine ⟨c :: p, List.cons_prefix_cons.2 ⟨rfl, hp⟩, ?_, ?_⟩
      · rw [escaped_cons, ← hloop]
        unfold escaped
        split <;> simp [*]
      · rw [List.cons.injEq, eq_self_iff_true, true_and, hroom]
        unfold HasRoom
        cases s with
        | nil =>
          refine iff_of_true (Or.inl rfl) (Or.inr ?_)
          simpa [escaped] using hfull
        | cons d s =>
          rw [List.dropLast_cons_cons, escaped_cons c, List.length_append]
          simp [escaped, Nat.add_assoc]

end Buffer

/-! ## What the shell reads -/

/-- The shell reads the texts as it was printed: as one word, and no other. -/
def ReadBack (s : List Char) : Prop := OneWord (shellEscape (some s)) s

/-- What is left of a text behind backslashes. -/
def withoutNewlines (s : List Char) : List Char := s.filter (· ≠ '\n')

section Shell

variable {c : Char} {s p w : List Char} {l : Line}

theorem not_clean : ∀ c ∈ '\\' :: '\'' :: '"' :: ' ' :: '\t' :: '#' :: special, isClean c = false := by
  intro c hc
  simpa using List.all_eq_true.1 (by decide : (('\\' :: '\'' :: '"' :: ' ' :: '\t' :: '#' :: special).all
    fun c => !isClean c) = true) c hc

/-- A clean character stands for itself. -/
theorem step_clean (hl : l.quoting = .plain) (hc : isClean c = true) : step l c = some (l.add [c]) := by
  have hne : ∀ d ∈ '\\' :: '\'' :: '"' :: ' ' :: '\t' :: '#' :: special, c ≠ d := by
    rintro d hd rfl
    rw [not_clean c hd] at hc
    cases hc
  have hspecial : c ∉ special := fun h => hne c (by simp [h]) rfl
  unfold step
  rw [hl]
  simp [hne, hspecial]

/-- Behind a backslash, every character but a newline does. -/
theorem run_backslash (hl : l.quoting = .plain) :
    run l ['\\', c] = some (if c = '\n' then l else l.add [c]) := by
  obtain ⟨words, word, quoting⟩ := l
  cases hl
  have hescape : step ⟨words, word, .plain⟩ '\\' = some ⟨words, word, .escaped⟩ := rfl
  rw [run_cons, hescape, Option.bind_some, run_cons]
  unfold step
  dsimp only
  split <;> rfl

theorem run_escaped_singleton (hl : l.quoting = .plain) :
    run l (escaped [c]) = some (if c = '\n' then l else l.add [c]) := by
  unfold escaped
  rw [List.flatMap_singleton]
  split
  · next hclean =>
    have hne : c ≠ '\n' := by
      rintro rfl
      cases hclean
    rw [run_cons, step_clean hl hclean, if_neg hne]
    rfl
  · exact run_backslash hl

/-- An escaped text goes on with a word, or begins one, but for its newlines. -/
theorem run_escaped (hl : l.quoting = .plain) :
    run l (escaped s) =
      some (if withoutNewlines s = [] then l else l.add (withoutNewlines s)) := by
  induction s generalizing l with
  | nil => rfl
  | cons c s ih =>
    have hsplit : escaped (c :: s) = escaped [c] ++ escaped s := by simp [escaped]
    rw [hsplit, run_append, run_escaped_singleton hl, Option.bind_some]
    by_cases hc : c = '\n'
    · have hskip : withoutNewlines (c :: s) = withoutNewlines s := by simp [withoutNewlines, hc]
      rw [if_pos hc, ih hl, hskip]
    · have hkeep : withoutNewlines (c :: s) = c :: withoutNewlines s := by simp [withoutNewlines, hc]
      rw [if_neg hc, ih rfl, hkeep, if_neg (List.cons_ne_nil _ _)]
      split
      · next hnil => rw [hnil]
      · simp [Line.add, Line.text]

/-- **The words of an escaped text.** -/
theorem words_escaped (s : List Char) :
    words (escaped s) = some (if withoutNewlines s = [] then [] else [withoutNewlines s]) := by
  rw [words, run_escaped rfl, Option.bind_some]
  split
  · rfl
  · simp [Line.add, Line.text]

/-- An escaped text is one word if it has something besides newlines. -/
theorem oneWord_escaped_iff :
    OneWord (escaped p) w ↔ w = withoutNewlines p ∧ w ≠ [] := by
  constructor
  · intro h
    have hempty : words [] = some [] := rfl
    have hread := h [] [] [] [] hempty hempty
    have hline := words_blank hempty (words_blank (words_escaped p) hempty)
    rw [hread, Option.some.injEq] at hline
    split at hline
    · cases hline
    · next hne =>
      obtain rfl : w = withoutNewlines p := by simpa using hline
      exact ⟨rfl, hne⟩
  · rintro ⟨rfl, hne⟩
    refine oneWord_of_words ?_
    rw [words_escaped, if_neg hne]

/-- **A text is read back** exactly if it is not empty, has no newline, and what is in front of its
    last character takes less than 1022 bytes with its escape characters. -/
theorem shellEscape_iff (s : List Char) :
    ReadBack s ↔ s ≠ [] ∧ '\n' ∉ s ∧ (escaped s.dropLast).length < 1022 := by
  obtain ⟨p, hp, hloop, hroom⟩ := escapeLoop_cases 0 s
  have hbuffer : HasRoom 0 s ↔ s = [] ∨ (escaped s.dropLast).length < 1022 := by
    rw [HasRoom, Nat.zero_add, maxC]
  unfold ReadBack shellEscape
  dsimp only
  rw [hloop, oneWord_escaped_iff]
  constructor
  · rintro ⟨hs, hne⟩
    -- the newlines are missing, and what had no room
    have hle : s.length ≤ p.length := by
      rw [hs]
      exact List.length_filter_le _ _
    obtain rfl : p = s := hp.eq_of_length_le hle
    refine ⟨hne, fun hmem => ?_, (hbuffer.1 (hroom.1 rfl)).resolve_left hne⟩
    have hkept := hs ▸ hmem
    simp [withoutNewlines] at hkept
  · rintro ⟨hne, hnl, hlen⟩
    obtain rfl : p = s := hroom.2 (hbuffer.2 (Or.inr hlen))
    refine ⟨(List.filter_eq_self.2 fun c hc => ?_).symm, hne⟩
    have hc' : c ≠ '\n' := by
      rintro rfl
      exact hnl hc
    simpa using hc'

/-- The empty text is no word, a newline is lost, and so is what does not fit. -/
theorem shellEscape_misread :
    ¬ReadBack [] ∧ ¬ReadBack ['a', '\n', 'b'] ∧ ¬ReadBack (List.replicate 1023 'a') := by
  have hempty : words [] = some [] := rfl
  refine ⟨fun h => ?_, fun h => ?_, fun h => ?_⟩
  · exact absurd (h [] [] [] [] hempty hempty) (by decide)
  · exact absurd (h [] [] [] [] hempty hempty) (by decide)
  · have hbuffer : shellEscape (some (List.replicate 1023 'a')) = escaped (List.replicate 1022 'a') := by
      decide +kernel
    unfold ReadBack at h
    rw [hbuffer, oneWord_escaped_iff] at h
    have hle := List.length_filter_le (· ≠ '\n') (List.replicate 1022 'a')
    rw [List.length_replicate] at hle
    have hlen := congrArg List.length h.1
    rw [List.length_replicate, withoutNewlines] at hlen
    omega

end Shell

end DrbdUtils.Adm
