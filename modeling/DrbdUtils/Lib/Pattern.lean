import DrbdUtils.Lib.Lines
import Mathlib.Data.List.TakeWhile

/-!
# Patterns in lines of text

The regular expressions of line readers: fixed texts, and repetitions of the characters of a class.
A repetition takes all it can and gives nothing back, which finds the same matches as long as no
repetition is followed by a character of its own class.

* `search_append`, `findIter_append` — what cannot begin a match is skipped.
* `search_eq_none`, `findIter_eq_nil` — a line without a character of the pattern has no match.
* `Unmatched.append`, `findLine_unmatched` — texts without a matching line, and the reader that looks
  for one.
-/

set_option autoImplicit false

namespace Pattern

/-- A part of a pattern: a text, `c?`, `p+` or `p*`. -/
inductive Piece where
  | text (s : List Char)
  | opt (c : Char)
  | some (p : Char → Bool)
  | many (p : Char → Bool)

/-- What a part matches at the front, and the text behind it. -/
def Piece.match : Piece → List Char → Option (List Char × List Char)
  | .text lit, s => if lit.isPrefixOf s then .some (lit, s.drop lit.length) else none
  | .opt c, s => if s.head? = Option.some c then .some ([c], s.drop 1) else .some ([], s)
  | .some p, s => if s.takeWhile p = [] then none else .some (s.takeWhile p, s.dropWhile p)
  | .many p, s => .some (s.takeWhile p, s.dropWhile p)

/-- What the parts match at the front, one after the other. -/
def matchAt : List Piece → List Char → Option (List (List Char) × List Char)
  | [], s => .some ([], s)
  | q :: pat, s =>
    match q.match s with
    | none => none
    | .some (group, rest) => (matchAt pat rest).map fun m => (group :: m.1, m.2)

/-- `re.search`: the leftmost match. -/
def search (pat : List Piece) : List Char → Option (List (List Char))
  | [] => (matchAt pat []).map Prod.fst
  | c :: s =>
    match matchAt pat (c :: s) with
    | .some (groups, _) => .some groups
    | none => search pat s

/-- `re.finditer`, in a text of at most this length: all matches, each behind the one before. -/
def findIter (pat : List Piece) : Nat → List Char → List (List (List Char))
  | 0, _ => []
  | _ + 1, [] => []
  | n + 1, c :: s =>
    match matchAt pat (c :: s) with
    | .some (groups, rest) => groups :: findIter pat n rest
    | none => findIter pat n s

/-- The characters of the texts of a pattern. -/
def chars (pat : List Piece) : List Char :=
  pat.flatMap fun
    | .text lit => lit
    | _ => []

variable {pat : List Piece} {q : Piece} {s front rest lit group : List Char} {n : Nat} {c : Char}
  {p : Char → Bool}

/-! ## Single parts -/

@[simp] theorem matchAt_nil (s : List Char) : matchAt [] s = .some ([], s) := rfl

theorem matchAt_cons (h : q.match s = .some (group, rest)) :
    matchAt (q :: pat) s = (matchAt pat rest).map fun m => (group :: m.1, m.2) := by
  rw [matchAt, h]

theorem matchAt_cons_none (h : q.match s = none) : matchAt (q :: pat) s = none := by
  rw [matchAt, h]

theorem match_text (lit s : List Char) : (Piece.text lit).match (lit ++ s) = .some (lit, s) := by
  simp [Piece.match]

theorem match_text_iff : (Piece.text lit).match s = .some (group, rest) ↔
    group = lit ∧ s = lit ++ rest := by
  rw [Piece.match]
  constructor
  · intro h
    split at h
    · next hprefix =>
      obtain ⟨t, rfl⟩ := List.isPrefixOf_iff_prefix.1 hprefix
      rw [List.drop_left, Option.some.injEq, Prod.mk.injEq] at h
      exact ⟨h.1.symm, by rw [h.2]⟩
    · cases h
  · rintro ⟨rfl, rfl⟩
    simp

theorem match_some (hgroup : group ≠ []) (hall : ∀ c ∈ group, p c = true)
    (hrest : ∀ c ∈ rest.head?, p c = false) :
    (Piece.some p).match (group ++ rest) = .some (group, rest) := by
  have htake : (group ++ rest).takeWhile p = group := by
    rw [List.takeWhile_append_of_pos hall]
    cases rest with
    | nil => rw [List.takeWhile_nil, List.append_nil]
    | cons c rest => rw [List.takeWhile_cons_of_neg (by simp [hrest c rfl]), List.append_nil]
  have hdrop : (group ++ rest).dropWhile p = rest := by
    rw [List.dropWhile_append_of_pos hall]
    cases rest with
    | nil => rfl
    | cons c rest => exact List.dropWhile_cons_of_neg (by simp [hrest c rfl])
  rw [Piece.match, htake, hdrop, if_neg hgroup]

theorem match_many_nil (hrest : ∀ c ∈ rest.head?, p c = false) :
    (Piece.many p).match rest = .some ([], rest) := by
  cases rest with
  | nil => rfl
  | cons c rest =>
    have hc : ¬p c = true := by simp [hrest c rfl]
    rw [Piece.match, List.takeWhile_cons_of_neg hc, List.dropWhile_cons_of_neg hc]

theorem match_many (hgroup : group ≠ []) (hall : ∀ c ∈ group, p c = true)
    (hrest : ∀ c ∈ rest.head?, p c = false) :
    (Piece.many p).match (group ++ rest) = .some (group, rest) := by
  have h := match_some hgroup hall hrest
  simp only [Piece.match] at h ⊢
  split at h
  · cases h
  · exact h

theorem match_opt_of_ne (h : s.head? ≠ .some c) : (Piece.opt c).match s = .some ([], s) := by
  rw [Piece.match, if_neg h]

theorem match_opt_self (s : List Char) : (Piece.opt c).match (c :: s) = .some ([c], s) := by
  simp [Piece.match]

/-- A text in front that does not fit. -/
theorem matchAt_text_eq_none (h : ¬lit <+: s) : matchAt (.text lit :: pat) s = none :=
  matchAt_cons_none (if_neg fun hp => h (List.isPrefixOf_iff_prefix.1 hp))

theorem matchAt_text_cons_ne {d : Char} (h : d ≠ c) :
    matchAt (.text (c :: lit) :: pat) (d :: s) = none :=
  matchAt_text_eq_none fun hp => h ((List.cons_prefix_cons.1 hp).1.symm)

theorem matchAt_some_cons_neg {d : Char} (h : p d = false) :
    matchAt (.some p :: pat) (d :: s) = none := by
  refine matchAt_cons_none ?_
  rw [Piece.match, List.takeWhile_cons_of_neg (by simp [h]), if_pos rfl]

/-! ## Characters of a match -/

theorem mem_of_match (h : q.match s = .some (group, rest)) : ∀ c ∈ rest, c ∈ s := by
  intro c hc
  cases q with
  | text lit =>
    rw [(match_text_iff.1 h).2]
    exact List.mem_append_right _ hc
  | opt d =>
    rw [Piece.match] at h
    split at h
    · obtain ⟨-, rfl⟩ := Prod.ext_iff.1 (Option.some.inj h)
      exact List.mem_of_mem_drop hc
    · obtain ⟨-, rfl⟩ := Prod.ext_iff.1 (Option.some.inj h)
      exact hc
  | some p =>
    rw [Piece.match] at h
    split at h
    · cases h
    · obtain ⟨-, rfl⟩ := Prod.ext_iff.1 (Option.some.inj h)
      exact (List.dropWhile_suffix p).subset hc
  | many p =>
    obtain ⟨-, rfl⟩ := Prod.ext_iff.1 (Option.some.inj h)
    exact (List.dropWhile_suffix p).subset hc

/-- The texts of a pattern are in what it matches. -/
theorem mem_of_matchAt {m : List (List Char) × List Char} (h : matchAt pat s = .some m)
    (hc : c ∈ chars pat) : c ∈ s := by
  induction pat generalizing s m with
  | nil => cases hc
  | cons q pat ih =>
    rw [matchAt] at h
    split at h
    · cases h
    · next group rest hmatch =>
      obtain ⟨m', hm', -⟩ := Option.map_eq_some_iff.1 h
      rw [chars, List.flatMap_cons, List.mem_append] at hc
      rcases hc with hc | hc
      · cases q with
        | text lit =>
          rw [(match_text_iff.1 hmatch).2]
          exact List.mem_append_left _ hc
        | opt d => cases hc
        | some p => cases hc
        | many p => cases hc
      · exact mem_of_match hmatch c (ih hm' hc)

theorem matchAt_eq_none (hc : c ∈ chars pat) (hs : c ∉ s) : matchAt pat s = none := by
  cases h : matchAt pat s with
  | none => rfl
  | some m => exact absurd (mem_of_matchAt h hc) hs

/-! ## Searching -/

/-- **A line without a character of the pattern** has no match. -/
theorem search_eq_none (hc : c ∈ chars pat) (hs : c ∉ s) : search pat s = none := by
  induction s with
  | nil => rw [search, matchAt_eq_none hc hs, Option.map_none]
  | cons d s ih =>
    rw [search, matchAt_eq_none hc hs]
    exact ih fun hmem => hs (List.mem_cons_of_mem d hmem)

theorem findIter_eq_nil (hc : c ∈ chars pat) (hs : c ∉ s) : findIter pat n s = [] := by
  induction n generalizing s with
  | zero => rfl
  | succ n ih =>
    cases s with
    | nil => rfl
    | cons d s =>
      rw [findIter, matchAt_eq_none hc hs]
      exact ih fun hmem => hs (List.mem_cons_of_mem d hmem)

/-- **What cannot begin a match** is skipped. -/
theorem search_append (h : ∀ d ∈ front, ∀ s, matchAt pat (d :: s) = none) :
    search pat (front ++ s) = search pat s := by
  induction front with
  | nil => rfl
  | cons d front ih =>
    rw [List.forall_mem_cons] at h
    rw [List.cons_append, search, h.1]
    exact ih h.2

theorem findIter_append (h : ∀ d ∈ front, ∀ s, matchAt pat (d :: s) = none) :
    findIter pat (front.length + n) (front ++ s) = findIter pat n s := by
  induction front with
  | nil => rw [List.length_nil, Nat.zero_add, List.nil_append]
  | cons d front ih =>
    rw [List.forall_mem_cons] at h
    rw [List.length_cons, Nat.add_right_comm, List.cons_append, findIter, h.1]
    exact ih h.2

theorem search_of_matchAt {m : List (List Char) × List Char} (h : matchAt pat s = .some m) :
    search pat s = .some m.1 := by
  cases s with
  | nil => rw [search, h, Option.map_some]
  | cons d s => rw [search, h]

theorem findIter_of_matchAt {groups : List (List Char)} (hs : s ≠ [])
    (h : matchAt pat s = .some (groups, rest)) :
    findIter pat (n + 1) s = groups :: findIter pat n rest := by
  cases s with
  | nil => exact absurd rfl hs
  | cons d s => rw [findIter, h]

@[simp] theorem findIter_nil (pat : List Piece) (n : Nat) : findIter pat n [] = [] := by
  cases n <;> rfl

/-! ## Lines -/

/-- Read up to the first line with a match. -/
def findLine (pat : List Piece) : List (List Char) → Option (List (List Char) × List (List Char))
  | [] => none
  | line :: stream =>
    match search pat line with
    | .some groups => .some (groups, stream)
    | none => findLine pat stream

/-- Some whole lines, none with a match. -/
def Unmatched (pat : List Piece) (text : List Char) : Prop :=
  ∃ ls, (∀ rest, Lines.lines '\n' (text ++ rest) = ls ++ Lines.lines '\n' rest) ∧
    ∀ line ∈ ls, search pat line = none

theorem Unmatched.nil : Unmatched pat [] := ⟨[], fun _ => rfl, nofun⟩

theorem Unmatched.append {text text' : List Char} (h : Unmatched pat text) (h' : Unmatched pat text') :
    Unmatched pat (text ++ text') := by
  obtain ⟨ls, hlines, hnone⟩ := h
  obtain ⟨ls', hlines', hnone'⟩ := h'
  refine ⟨ls ++ ls', fun rest => ?_, List.forall_mem_append.2 ⟨hnone, hnone'⟩⟩
  rw [List.append_assoc, hlines, hlines', List.append_assoc]

theorem Unmatched.flatMap {α : Type} {f : α → List Char} {l : List α}
    (h : ∀ x ∈ l, Unmatched pat (f x)) : Unmatched pat (l.flatMap f) := by
  induction l with
  | nil => exact .nil
  | cons x l ih =>
    rw [List.forall_mem_cons] at h
    exact h.1.append (ih h.2)

/-- **Lines without a character of the pattern.** -/
theorem Unmatched.of_not_mem (hc : c ∈ chars pat) {text : List Char} (h : c ∉ text)
    (hend : text.getLast? = .some '\n') : Unmatched pat text := by
  obtain ⟨front, rfl⟩ := List.getLast?_eq_some_iff.1 hend
  refine ⟨front.splitOn '\n', fun rest => ?_, fun line hline => ?_⟩
  · rw [List.append_assoc]
    exact Lines.lines_append '\n' front rest
  · exact search_eq_none hc fun hmem =>
      h (List.mem_append_left _ (Lines.mem_of_mem_splitOn hline hmem))

/-- A line in front. -/
theorem Unmatched.cons {line text : List Char} (hnewline : '\n' ∉ line) (hline : search pat line = none)
    (h : Unmatched pat text) : Unmatched pat (line ++ '\n' :: text) := by
  obtain ⟨ls, hlines, hnone⟩ := h
  refine ⟨line :: ls, fun rest => ?_, List.forall_mem_cons.2 ⟨hline, hnone⟩⟩
  rw [List.append_assoc, List.cons_append, Lines.lines_cons hnewline, hlines]
  rfl

/-- **They are skipped.** -/
theorem findLine_unmatched {text : List Char} (h : Unmatched pat text) (rest : List Char) :
    findLine pat (Lines.lines '\n' (text ++ rest)) = findLine pat (Lines.lines '\n' rest) := by
  obtain ⟨ls, hlines, hnone⟩ := h
  rw [hlines]
  clear hlines
  induction ls with
  | nil => rfl
  | cons line ls ih =>
    rw [List.forall_mem_cons] at hnone
    rw [List.cons_append, findLine, hnone.1]
    exact ih hnone.2

end Pattern
