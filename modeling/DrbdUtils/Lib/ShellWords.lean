import Mathlib.Data.List.Basic

/-!
# Words of a shell command

How a POSIX shell finds the words of a simple command: blanks separate them, and a backslash, single
quotes and double quotes take the meaning from what they quote.  A backslash with a newline behind it
is taken out.  A text with anything that is not quoted and is more than a word (an operator, the end of
the command, an expansion, a pattern, a comment) is not read here.

* `words_blank` — a command is read piece by piece, where blanks are between the pieces.
* `oneWord_of_words` — a text that is one word stays one in every command.
-/

set_option autoImplicit false

namespace ShellWords

/-! ## Reading -/

/-- How the next character is quoted. -/
inductive Quoting where
  | plain
  | escaped
  | single
  | double
  | doubleEscaped
  deriving DecidableEq, Repr

/-- A command that is being read: the words that are complete, and the word at hand. -/
structure Line where
  words : List (List Char) := []
  word : Option (List Char) := none
  quoting : Quoting := .plain
  deriving DecidableEq, Repr

/-- The word at hand, which begins here if there is none. -/
def Line.text (l : Line) : List Char := l.word.getD []

def Line.add (l : Line) (s : List Char) : Line :=
  { l with word := some (l.text ++ s), quoting := .plain }

/-- The characters that are more than a word when they are not quoted. -/
def special : List Char :=
  ['\n', '|', '&', ';', '<', '>', '(', ')', '$', '\x60', '*', '?', '[', '~']

/-- One character. -/
def step (l : Line) (c : Char) : Option Line :=
  match l.quoting with
  | .plain =>
    if c = '\\' then some { l with quoting := .escaped }
    else if c = '\'' then some { l.add [] with quoting := .single }
    else if c = '"' then some { l.add [] with quoting := .double }
    else if c = ' ' ∨ c = '\t' then some { words := l.words ++ l.word.toList }
    else if c ∈ special ∨ c = '#' ∧ l.word = none then none
    else some (l.add [c])
  -- a line continuation begins no word
  | .escaped => if c = '\n' then some { l with quoting := .plain } else some (l.add [c])
  | .single => if c = '\'' then some (l.add []) else some { l.add [c] with quoting := .single }
  | .double =>
    if c = '"' then some (l.add [])
    else if c = '\\' then some { l with quoting := .doubleEscaped }
    else if c = '$' ∨ c = '\x60' then none
    else some { l.add [c] with quoting := .double }
  | .doubleEscaped =>
    if c = '\n' then some { l with quoting := .double }
    else if c ∈ ['$', '\x60', '"', '\\'] then some { l.add [c] with quoting := .double }
    else some { l.add ['\\', c] with quoting := .double }

def run (l : Line) (s : List Char) : Option Line := s.foldlM step l

/-- **The words of a command**; `none` when a quotation is open at its end, or it is more than words. -/
def words (s : List Char) : Option (List (List Char)) :=
  (run {} s).bind fun l => if l.quoting = .plain then some (l.words ++ l.word.toList) else none

/-- **A text is one word** of every command it is in, with blanks around it. -/
def OneWord (s w : List Char) : Prop :=
  ∀ front back ws ws', words front = some ws → words back = some ws' →
    words (front ++ ' ' :: (s ++ ' ' :: back)) = some (ws ++ w :: ws')

/-! ## Pieces -/

section Pieces

variable {l l' : Line} {s t front back : List Char} {ws ws' : List (List Char)} {c : Char}

@[simp]
theorem run_nil (l : Line) : run l [] = some l := rfl

theorem run_cons (l : Line) (c : Char) (s : List Char) : run l (c :: s) = (step l c).bind (run · s) :=
  List.foldlM_cons

theorem run_append (l : Line) (s t : List Char) : run l (s ++ t) = (run l s).bind (run · t) :=
  List.foldlM_append

/-- The line with complete words in front. -/
def Line.after (ws : List (List Char)) (l : Line) : Line := { l with words := ws ++ l.words }

/-- Complete words do not matter. -/
theorem step_after (ws : List (List Char)) (l : Line) (c : Char) :
    step (l.after ws) c = (step l c).map (Line.after ws) := by
  obtain ⟨words, word, quoting⟩ := l
  cases quoting
  all_goals
    simp only [step, Line.after, Line.add, Line.text]
    split_ifs <;> simp [Line.after, *]

theorem run_after (ws : List (List Char)) (l : Line) (s : List Char) :
    run (l.after ws) s = (run l s).map (Line.after ws) := by
  induction s generalizing l with
  | nil => rfl
  | cons c s ih =>
    rw [run_cons, run_cons, step_after, Option.bind_map, Option.map_bind]
    exact congrArg _ (funext ih)

theorem words_eq_some (h : words s = some ws) :
    ∃ l, run {} s = some l ∧ l.quoting = .plain ∧ ws = l.words ++ l.word.toList := by
  obtain ⟨l, hrun, hl⟩ := Option.bind_eq_some_iff.1 h
  split at hl
  · next hplain => exact ⟨l, hrun, hplain, (Option.some.inj hl).symm⟩
  · cases hl

/-- Behind a blank, a command begins again. -/
theorem run_blank (h : words front = some ws) (s : List Char) :
    run {} (front ++ ' ' :: s) = (run {} s).map (Line.after ws) := by
  obtain ⟨⟨words, word, quoting⟩, hrun, rfl, rfl⟩ := words_eq_some h
  have hempty : ({ words := words ++ word.toList } : Line) = Line.after (words ++ word.toList) {} := by
    simp [Line.after]
  rw [run_append, hrun, Option.bind_some, run_cons, ← run_after, ← hempty]
  rfl

/-- **A command is read piece by piece.** -/
theorem words_blank (h : words front = some ws) (h' : words back = some ws') :
    words (front ++ ' ' :: back) = some (ws ++ ws') := by
  obtain ⟨l, hrun, hplain, rfl⟩ := words_eq_some h'
  have hafter : (l.after ws).quoting = .plain := hplain
  rw [words, run_blank h, hrun, Option.map_some, Option.bind_some, if_pos hafter, Line.after,
    List.append_assoc]

/-- A text that is one word alone is one word of every command. -/
theorem oneWord_of_words {w : List Char} (h : words s = some [w]) : OneWord s w :=
  fun _ _ _ _ hfront hback => words_blank hfront (words_blank h hback)

end Pieces

end ShellWords
