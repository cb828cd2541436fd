import Mathlib.Data.List.TakeWhile
import Mathlib.Tactic.Ring

/-!
# Numbers as texts

`strtoul()` of the C library for a 64-bit `unsigned long`, the conversion `%llu` of `sscanf()`, and
the texts that `printf()` writes for numbers.

* `strtoul_decText`, `strtoul_neg_decText`, `strtoul_hexText` — what is read back from a text that
  was written.
* `sscanfLlu_eq` — `%llu` stores the integer at the front of a text, saturated and wrapped.
* `numeral_intText` — the integer at the front of a text that was written.
-/

set_option autoImplicit false

namespace Numerals

def ULONG_MAX : Nat := 2 ^ 64 - 1

/-! ## Reading -/

/-- `isspace`. -/
def isSpace (c : Char) : Bool :=
  c ∈ [' ', '\t', '\n', '\x0b', '\x0c', '\r']

/-- The value of a digit in any base; 36 when it is none. -/
def digitVal (c : Char) : Nat :=
  if '0' ≤ c ∧ c ≤ '9' then c.toNat - 48
  else if 'a' ≤ c ∧ c ≤ 'z' then c.toNat - 87
  else if 'A' ≤ c ∧ c ≤ 'Z' then c.toNat - 55
  else 36

def ofDigits (base : Nat) (l : List Char) : Nat :=
  l.foldl (fun n c => n * base + digitVal c) 0

def sign : List Char → Bool × List Char
  | '-' :: s => (true, s)
  | '+' :: s => (false, s)
  | s => (false, s)

/-- The base, and the text behind the prefix "0x". -/
def radix (base : Nat) (s : List Char) : Nat × List Char :=
  if s.head? = some '0' then
    if (base = 0 ∨ base = 16) ∧ (s[1]? = some 'x' ∨ s[1]? = some 'X') then (16, s.drop 2)
    else if base = 0 then (8, s)
    else (base, s)
  else if base = 0 then (10, s)
  else (base, s)

/-- The result, the text at `endptr`, and whether `errno` is set. -/
def strtoul (base : Nat) (nptr : List Char) : Nat × List Char × Bool :=
  let (neg, s) := sign (nptr.dropWhile isSpace)
  let (base, digits) := radix base s
  let num := digits.takeWhile (digitVal · < base)
  let rest := digits.dropWhile (digitVal · < base)
  if num = [] then (0, if digits.length = s.length then nptr else s.drop 1, false)
  else if ULONG_MAX < ofDigits base num then (ULONG_MAX, rest, true)
  else (if neg then (2 ^ 64 - ofDigits base num) % 2 ^ 64 else ofDigits base num, rest, false)

/-- The conversion `%llu` of `sscanf()`, with the text behind it. -/
def sscanfLlu (s : List Char) : Option (Nat × List Char) :=
  let (value, rest, _) := strtoul 10 s
  if rest.length = s.length then none else some (value, rest)

theorem strtoul_le (base : Nat) (nptr : List Char) : (strtoul base nptr).1 ≤ ULONG_MAX := by
  unfold strtoul
  dsimp only
  split
  · exact Nat.zero_le _
  · split
    · exact Nat.le_refl _
    · unfold ULONG_MAX at *
      dsimp only
      split <;> omega

/-! ## Writing -/

/-- `%u`. -/
def decText (n : Nat) : List Char := Nat.toDigits 10 n

/-- `%d`. -/
def intText (z : Int) : List Char := if z < 0 then '-' :: decText z.natAbs else decText z.natAbs

/-- The last digits, with the letters in upper case; `%016lX` for a width of 16 and 64 bits. -/
def hexText : Nat → Nat → List Char
  | 0, _ => []
  | width + 1, n => hexText width (n / 16) ++ [(Nat.digitChar (n % 16)).toUpper]

/-! ## Digits -/

theorem digitVal_digitChar : ∀ d < 10, digitVal (Nat.digitChar d) = d := by decide

theorem digitVal_upper : ∀ d < 16, digitVal (Nat.digitChar d).toUpper = d := by decide

theorem digitVal_lt_of_mem_decText {n : Nat} {c : Char} (h : c ∈ decText n) :
    digitVal c < 10 := by
  induction n using Nat.strong_induction_on with
  | _ n ih =>
    unfold decText at h ih
    rcases Nat.lt_or_ge n 10 with hn | hn
    · rw [Nat.toDigits_of_lt_base hn, List.mem_singleton] at h
      rw [h, digitVal_digitChar n hn]
      exact hn
    · rw [Nat.toDigits_of_base_le (by decide) hn, List.mem_append, List.mem_singleton] at h
      rcases h with h | h
      · exact ih (n / 10) (by omega) h
      · rw [h, digitVal_digitChar _ (by omega)]
        omega

theorem ofDigits_append_singleton (base : Nat) (l : List Char) (c : Char) :
    ofDigits base (l ++ [c]) = ofDigits base l * base + digitVal c := by
  simp [ofDigits]

theorem ofDigits_decText (n : Nat) : ofDigits 10 (decText n) = n := by
  induction n using Nat.strong_induction_on with
  | _ n ih =>
    unfold decText at ih ⊢
    rcases Nat.lt_or_ge n 10 with hn | hn
    · rw [Nat.toDigits_of_lt_base hn]
      simp [ofDigits, digitVal_digitChar n hn]
    · rw [Nat.toDigits_of_base_le (by decide) hn, ofDigits_append_singleton, ih (n / 10) (by omega),
        digitVal_digitChar _ (by omega)]
      omega

theorem decText_ne_nil (n : Nat) : decText n ≠ [] := Nat.toDigits_ne_nil

/-- A number does not begin with a zero. -/
theorem decText_head {n : Nat} (hn : n ≠ 0) : (decText n).head? ≠ some '0' := by
  induction n using Nat.strong_induction_on with
  | _ n ih =>
    unfold decText at ih ⊢
    rcases Nat.lt_or_ge n 10 with hlt | hge
    · rw [Nat.toDigits_of_lt_base hlt]
      simpa using hn
    · have hhead := ih (n / 10) (by omega) (by omega)
      rw [Nat.toDigits_of_base_le (by decide) hge]
      cases htext : Nat.toDigits 10 (n / 10) with
      | nil => exact absurd htext (decText_ne_nil _)
      | cons c s => simpa [htext] using hhead

theorem digitVal_lt_of_mem_hexText {width n : Nat} {c : Char} (h : c ∈ hexText width n) :
    digitVal c < 16 := by
  induction width generalizing n with
  | zero => cases h
  | succ width ih =>
    rw [hexText, List.mem_append, List.mem_singleton] at h
    rcases h with h | h
    · exact ih h
    · rw [h, digitVal_upper _ (Nat.mod_lt _ (by decide))]
      exact Nat.mod_lt _ (by decide)

theorem ofDigits_hexText (width n : Nat) : ofDigits 16 (hexText width n) = n % 16 ^ width := by
  induction width generalizing n with
  | zero => simp [hexText, ofDigits, Nat.mod_one]
  | succ width ih =>
    rw [hexText, ofDigits_append_singleton, ih, digitVal_upper _ (Nat.mod_lt _ (by decide)),
      Nat.pow_succ', Nat.mod_mul]
    ring

theorem hexText_ne_nil {width : Nat} (h : width ≠ 0) (n : Nat) : hexText width n ≠ [] := by
  cases width with
  | zero => exact absurd rfl h
  | succ width => simp [hexText]

theorem not_mem_decText {c : Char} (h : ¬digitVal c < 10) (n : Nat) : c ∉ decText n :=
  fun hmem => h (digitVal_lt_of_mem_decText hmem)

theorem not_mem_intText {c : Char} (h : ¬digitVal c < 10) (hne : c ≠ '-') (z : Int) : c ∉ intText z := by
  rw [intText]
  split
  · exact fun hmem => (List.mem_cons.1 hmem).elim hne (not_mem_decText h _)
  · exact not_mem_decText h _

theorem not_mem_hexText {c : Char} (h : ¬digitVal c < 16) (width n : Nat) : c ∉ hexText width n :=
  fun hmem => h (digitVal_lt_of_mem_hexText hmem)

theorem toUpper_digitChar : ∀ d < 16, (Nat.digitChar d).toUpper.toUpper = (Nat.digitChar d).toUpper := by
  decide

/-- Small letters are not written. -/
theorem not_mem_hexText_of_toUpper {c : Char} (h : c.toUpper ≠ c) (width n : Nat) :
    c ∉ hexText width n := by
  induction width generalizing n with
  | zero => exact List.not_mem_nil
  | succ width ih =>
    rw [hexText, List.mem_append, List.mem_singleton]
    rintro (hmem | rfl)
    · exact ih _ hmem
    · exact h (toUpper_digitChar _ (Nat.mod_lt _ (by decide)))

/-! ## Reading what was written -/

/-- A text of digits of one base. -/
structure Plain (base : Nat) (s : List Char) : Prop where
  ne_nil : s ≠ []
  digits : ∀ c ∈ s, digitVal c < base
  base_le : base ≤ 16

theorem plain_decText (n : Nat) : Plain 10 (decText n) :=
  ⟨decText_ne_nil n, fun _ hc => digitVal_lt_of_mem_decText hc, by decide⟩

theorem plain_hexText {width : Nat} (h : width ≠ 0) (n : Nat) : Plain 16 (hexText width n) :=
  ⟨hexText_ne_nil h n, fun _ hc => digitVal_lt_of_mem_hexText hc, by decide⟩

section Plain

variable {base : Nat} {s : List Char}

theorem Plain.lt_sixteen (h : Plain base s) {c : Char} (hc : c ∈ s) : digitVal c < 16 :=
  Nat.lt_of_lt_of_le (h.digits c hc) h.base_le

theorem Plain.not_mem (h : Plain base s) {c : Char} (hc : ¬digitVal c < 16) : c ∉ s :=
  fun hmem => hc (h.lt_sixteen hmem)

theorem Plain.dropWhile_isSpace (h : Plain base s) : s.dropWhile isSpace = s := by
  cases s with
  | nil => rfl
  | cons c s =>
    refine List.dropWhile_cons_of_neg fun hspace => ?_
    have hlt := h.lt_sixteen (List.mem_cons_self ..)
    simp only [isSpace, List.mem_cons, List.not_mem_nil, or_false, decide_eq_true_eq] at hspace
    rcases hspace with rfl | rfl | rfl | rfl | rfl | rfl <;> exact absurd hlt (by decide)

theorem Plain.sign (h : Plain base s) : sign s = (false, s) := by
  unfold Numerals.sign
  split
  · exact absurd (List.mem_cons_self ..) (h.not_mem (c := '-') (by decide))
  · exact absurd (List.mem_cons_self ..) (h.not_mem (c := '+') (by decide))
  · rfl

theorem Plain.takeWhile (h : Plain base s) : s.takeWhile (digitVal · < base) = s :=
  List.takeWhile_eq_self_iff.2 fun c hc => by simpa using h.digits c hc

theorem Plain.dropWhile (h : Plain base s) : s.dropWhile (digitVal · < base) = [] :=
  List.dropWhile_eq_nil_iff.2 fun c hc => by simpa using h.digits c hc

/-- There is no prefix in a text of digits. -/
theorem Plain.radix (h : Plain base s) {b : Nat}
    (hb : b = base ∧ b ≠ 0 ∨ b = 0 ∧ base = 10 ∧ s.head? ≠ some '0') :
    radix b s = (base, s) := by
  have hx {c : Char} (hc : ¬digitVal c < 16) : s[1]? ≠ some c := fun hsome =>
    h.not_mem hc (List.mem_of_getElem? hsome)
  have hno : ¬(s[1]? = some 'x' ∨ s[1]? = some 'X') := by
    rintro (hsome | hsome)
    · exact hx (by decide) hsome
    · exact hx (by decide) hsome
  unfold Numerals.radix
  rcases hb with ⟨rfl, hne⟩ | ⟨rfl, rfl, hhead⟩
  · simp [hno, hne]
  · simp [hhead]

theorem strtoul_plain (h : Plain base s) {b : Nat} (hradix : radix b s = (base, s))
    (hlt : ofDigits base s < 2 ^ 64) : strtoul b s = (ofDigits base s, [], false) := by
  have hle : ¬ULONG_MAX < ofDigits base s := by unfold ULONG_MAX; omega
  unfold strtoul
  rw [h.dropWhile_isSpace, h.sign]
  simp only [hradix, h.takeWhile, h.dropWhile, if_neg h.ne_nil, if_neg hle]
  rfl

theorem strtoul_neg_plain (h : Plain base s) {b : Nat} (hradix : radix b s = (base, s))
    (hlt : ofDigits base s < 2 ^ 64) :
    strtoul b ('-' :: s) = ((2 ^ 64 - ofDigits base s) % 2 ^ 64, [], false) := by
  have hle : ¬ULONG_MAX < ofDigits base s := by unfold ULONG_MAX; omega
  have hdrop : ('-' :: s).dropWhile isSpace = '-' :: s :=
    List.dropWhile_cons_of_neg (by decide)
  unfold strtoul
  rw [hdrop]
  simp only [Numerals.sign, hradix, h.takeWhile, h.dropWhile, if_neg h.ne_nil, if_neg hle, if_true]

end Plain

/-- The base of a number is seen; a single zero is octal. -/
theorem radix_decText {n : Nat} (hn : n ≠ 0) : radix 0 (decText n) = (10, decText n) :=
  (plain_decText n).radix (Or.inr ⟨rfl, rfl, decText_head hn⟩)

theorem strtoul_decText {n : Nat} (h : n < 2 ^ 64) : strtoul 0 (decText n) = (n, [], false) := by
  rcases Nat.eq_zero_or_pos n with rfl | hn
  · decide
  · rw [strtoul_plain (plain_decText n) (radix_decText (by omega)) (by rwa [ofDigits_decText]),
      ofDigits_decText]

theorem strtoul_neg_decText {n : Nat} (hn : n ≠ 0) (h : n < 2 ^ 64) :
    strtoul 0 ('-' :: decText n) = (2 ^ 64 - n, [], false) := by
  rw [strtoul_neg_plain (plain_decText n) (radix_decText hn) (by rwa [ofDigits_decText]),
    ofDigits_decText, Nat.mod_eq_of_lt (by omega)]

theorem strtoul_hexText {n : Nat} (h : n < 2 ^ 64) :
    strtoul 16 (hexText 16 n) = (n, [], false) := by
  have hval : ofDigits 16 (hexText 16 n) = n := by
    rw [ofDigits_hexText]
    exact Nat.mod_eq_of_lt h
  have hplain := plain_hexText (by decide : (16 : Nat) ≠ 0) n
  rw [strtoul_plain hplain (hplain.radix (Or.inl ⟨rfl, by decide⟩)) (by rwa [hval]), hval]

/-! ## The integer at the front of a text -/

/-- A decimal integer behind white space, and the text behind it. -/
def numeral (s : List Char) : Option (Int × List Char) :=
  let (neg, digits) := sign (s.dropWhile isSpace)
  let num := digits.takeWhile (digitVal · < 10)
  if num = [] then none
  else some (if neg then -(ofDigits 10 num : Int) else ofDigits 10 num,
    digits.dropWhile (digitVal · < 10))

/-- An integer as an `unsigned long long` variable gets it. -/
def stored (z : Int) : Nat := if 2 ^ 64 ≤ z.natAbs then ULONG_MAX else (z % 2 ^ 64).toNat

theorem stored_lt (z : Int) : stored z < 2 ^ 64 := by
  unfold stored ULONG_MAX
  split <;> omega

theorem stored_of_lt {z : Int} (h : z.natAbs < 2 ^ 64) : (stored z : Int) = z % 2 ^ 64 := by
  unfold stored
  rw [if_neg (by omega)]
  omega

theorem sign_length_le (s : List Char) : (sign s).2.length ≤ s.length := by
  unfold sign
  split <;> simp

theorem radix_ten (s : List Char) : radix 10 s = (10, s) := by
  simp [radix]

theorem sscanfLlu_eq (s : List Char) :
    sscanfLlu s = (numeral s).map fun p => (stored p.1, p.2) := by
  have hspace := (List.dropWhile_suffix (l := s) isSpace).length_le
  have hsign := sign_length_le (s.dropWhile isSpace)
  unfold sscanfLlu numeral strtoul
  dsimp only
  rw [radix_ten]
  dsimp only
  generalize sign (s.dropWhile isSpace) = t at *
  by_cases hnum : t.2.takeWhile (digitVal · < 10) = []
  · simp [hnum]
  · have hlen := congrArg List.length
      (List.takeWhile_append_dropWhile (p := (digitVal · < 10)) (l := t.2))
    rw [List.length_append] at hlen
    have hpos := List.length_pos_iff.2 hnum
    have hrest : (t.2.dropWhile (digitVal · < 10)).length ≠ s.length := by omega
    generalize t.2.takeWhile (digitVal · < 10) = num at *
    rw [if_neg hnum, if_neg hnum]
    unfold stored
    by_cases hmax : ULONG_MAX < ofDigits 10 num
    · have habs : 2 ^ 64 ≤ ofDigits 10 num := by unfold ULONG_MAX at hmax; omega
      rw [if_pos hmax]
      dsimp only
      rw [if_neg hrest]
      cases t.1 with
      | false =>
        simp only [Bool.false_eq_true, if_false, Option.map_some, Int.natAbs_natCast, if_pos habs]
      | true => simp only [if_true, Option.map_some, Int.natAbs_neg, Int.natAbs_natCast, if_pos habs]
    · have habs : ofDigits 10 num < 2 ^ 64 := by unfold ULONG_MAX at hmax; omega
      rw [if_neg hmax]
      dsimp only
      rw [if_neg hrest]
      cases t.1 with
      | false =>
        simp only [Bool.false_eq_true, if_false, Option.map_some, Int.natAbs_natCast,
          if_neg (Nat.not_le.2 habs)]
        congr 2
        omega
      | true =>
        simp only [if_true, Option.map_some, Int.natAbs_neg, Int.natAbs_natCast,
          if_neg (Nat.not_le.2 habs)]
        congr 2
        omega

section Plain

variable {s rest : List Char}

theorem Plain.takeWhile_append (h : Plain 10 s) (hrest : ∀ c ∈ rest.head?, ¬digitVal c < 10) :
    (s ++ rest).takeWhile (digitVal · < 10) = s := by
  rw [List.takeWhile_append_of_pos fun c hc => by simpa using h.digits c hc]
  cases rest with
  | nil => simp
  | cons c rest => rw [List.takeWhile_cons_of_neg (by simpa using hrest c rfl), List.append_nil]

theorem Plain.dropWhile_append (h : Plain 10 s) (hrest : ∀ c ∈ rest.head?, ¬digitVal c < 10) :
    (s ++ rest).dropWhile (digitVal · < 10) = rest := by
  rw [List.dropWhile_append_of_pos fun c hc => by simpa using h.digits c hc]
  cases rest with
  | nil => rfl
  | cons c rest => exact List.dropWhile_cons_of_neg (by simpa using hrest c rfl)

theorem Plain.dropWhile_isSpace_append {base : Nat} (h : Plain base s) :
    (s ++ rest).dropWhile isSpace = s ++ rest := by
  cases s with
  | nil => exact absurd rfl h.ne_nil
  | cons c s =>
    have hself := h.dropWhile_isSpace
    rw [List.dropWhile_eq_self_iff] at hself
    exact List.dropWhile_cons_of_neg (hself (by simp))

/-- Digits begin with no white space and no sign, whatever is behind them. -/
theorem Plain.sign_append {base : Nat} (h : Plain base s) :
    Numerals.sign ((s ++ rest).dropWhile isSpace) = (false, s ++ rest) := by
  rw [h.dropWhile_isSpace_append]
  cases s with
  | nil => exact absurd rfl h.ne_nil
  | cons c s =>
    unfold Numerals.sign
    split
    · next hc =>
      cases hc
      exact absurd (List.mem_cons_self ..) (h.not_mem (c := '-') (by decide))
    · next hc =>
      cases hc
      exact absurd (List.mem_cons_self ..) (h.not_mem (c := '+') (by decide))
    · rfl

theorem numeral_plain (h : Plain 10 s) (hrest : ∀ c ∈ rest.head?, ¬digitVal c < 10) :
    numeral (s ++ rest) = some ((ofDigits 10 s : Int), rest) := by
  unfold numeral
  rw [h.sign_append]
  simp only [h.takeWhile_append hrest, h.dropWhile_append hrest, if_neg h.ne_nil,
    Bool.false_eq_true, if_false]

theorem numeral_neg_plain (h : Plain 10 s) (hrest : ∀ c ∈ rest.head?, ¬digitVal c < 10) :
    numeral ('-' :: (s ++ rest)) = some (-(ofDigits 10 s : Int), rest) := by
  unfold numeral
  rw [List.dropWhile_cons_of_neg (by decide)]
  simp only [Numerals.sign, h.takeWhile_append hrest, h.dropWhile_append hrest, if_neg h.ne_nil,
    if_true]

end Plain

/-- What was written is at the front again. -/
theorem numeral_intText (z : Int) {rest : List Char} (h : ∀ c ∈ rest.head?, ¬digitVal c < 10) :
    numeral (intText z ++ rest) = some (z, rest) := by
  have hplain := plain_decText z.natAbs
  unfold intText
  split
  · next hneg =>
    rw [List.cons_append, numeral_neg_plain hplain h, ofDigits_decText]
    congr 2
    omega
  · next hneg =>
    rw [numeral_plain hplain h, ofDigits_decText]
    congr 2
    omega

theorem numeral_intText_self (z : Int) : numeral (intText z) = some (z, []) := by
  have hz := @numeral_intText z [] (by simp)
  rwa [List.append_nil] at hz

theorem ne_nil_of_numeral {s : List Char} {p : Int × List Char} (h : numeral s = some p) : s ≠ [] := by
  rintro rfl
  cases h

/-! ## Signed numbers -/

def LLONG_MAX : Int := 2 ^ 63 - 1

def LLONG_MIN : Int := -2 ^ 63

/-- `strtoll`: the result, and the text at `endptr`. -/
def strtoll (base : Nat) (nptr : List Char) : Int × List Char :=
  let (neg, s) := sign (nptr.dropWhile isSpace)
  let (base, digits) := radix base s
  let num := digits.takeWhile (digitVal · < base)
  let rest := digits.dropWhile (digitVal · < base)
  if num = [] then (0, if digits.length = s.length then nptr else s.drop 1)
  else if neg then (max LLONG_MIN (-(ofDigits base num : Int)), rest)
  else (min LLONG_MAX (ofDigits base num), rest)

/-- An integer of a base behind white space, and the text behind it. -/
def integer (base : Nat) (s : List Char) : Option (Int × List Char) :=
  let (neg, s) := sign (s.dropWhile isSpace)
  let (base, digits) := radix base s
  let num := digits.takeWhile (digitVal · < base)
  if num = [] then none
  else some (if neg then -(ofDigits base num : Int) else ofDigits base num,
    digits.dropWhile (digitVal · < base))

section Signed

variable {base : Nat} {s rest item tail : List Char} {z : Int}

theorem strtoll_of_integer (h : integer base s = some (z, rest)) :
    strtoll base s = (max LLONG_MIN (min LLONG_MAX z), rest) := by
  unfold integer at h
  unfold strtoll
  dsimp only at h ⊢
  generalize sign (s.dropWhile isSpace) = t at *
  generalize radix base t.2 = b at *
  split at h
  · cases h
  · next hnum =>
    rw [if_neg hnum]
    cases h
    unfold LLONG_MAX LLONG_MIN
    cases t.1 with
    | false =>
      simp only [Bool.false_eq_true, if_false, Prod.mk.injEq, and_true]
      omega
    | true =>
      simp only [if_true, Prod.mk.injEq, and_true]
      omega

theorem sign_suffix (s : List Char) : (sign s).2 <:+ s := by
  unfold sign
  split
  · exact List.suffix_cons ..
  · exact List.suffix_cons ..
  · exact List.suffix_refl _

theorem radix_suffix (base : Nat) (s : List Char) : (radix base s).2 <:+ s := by
  unfold radix
  split
  · split
    · exact List.drop_suffix 2 s
    · split <;> exact List.suffix_refl _
  · split <;> exact List.suffix_refl _

/-- The text behind an integer is at the end of the text. -/
theorem integer_suffix (h : integer base s = some (z, rest)) : rest <:+ s := by
  unfold integer at h
  dsimp only at h
  split at h
  · cases h
  · cases h
    exact (List.dropWhile_suffix _).trans ((radix_suffix base _).trans
      ((sign_suffix _).trans (List.dropWhile_suffix _)))

theorem strtoll_length_le (base : Nat) (nptr : List Char) :
    (strtoll base nptr).2.length ≤ nptr.length := by
  cases h : integer base nptr with
  | some p =>
    rw [strtoll_of_integer h]
    exact (integer_suffix h).length_le
  | none =>
    have hsign := ((sign_suffix _).trans (List.dropWhile_suffix (l := nptr) isSpace)).length_le
    unfold integer at h
    unfold strtoll
    dsimp only at h ⊢
    split at h
    · next hnum =>
      rw [if_pos hnum]
      dsimp only
      split
      · exact Nat.le_refl _
      · rw [List.length_drop]
        omega
    · cases h

theorem strtoll_ten_none (h : integer 10 s = none) : strtoll 10 s = (0, s) := by
  unfold integer at h
  unfold strtoll
  dsimp only at h ⊢
  rw [radix_ten] at h ⊢
  split at h
  · next hnum => simp [hnum]
  · cases h

/-- The digit of a prefix without a number is not the end of a text. -/
theorem strtoll_none_rest (h : integer base s = none) (hrest : (strtoll base s).2 = []) : s = [] := by
  unfold integer at h
  unfold strtoll at hrest
  dsimp only at h hrest
  generalize sign (s.dropWhile isSpace) = t at *
  split at h
  · next hnum =>
    rw [if_pos hnum] at hrest
    dsimp only at hrest
    split at hrest
    · exact hrest
    · next hlen =>
      have hshort := congrArg List.length hrest
      rw [List.length_drop, List.length_nil] at hshort
      have hsecond : t.2[1]? = none := List.getElem?_eq_none (by omega)
      refine absurd ?_ hlen
      unfold radix
      rw [hsecond]
      simp only [reduceCtorEq, or_self, and_false, if_false]
      split <;> split <;> rfl
  · cases h

theorem integer_ten (s : List Char) : integer 10 s = numeral s := by
  unfold integer numeral
  dsimp only
  rw [radix_ten]

theorem integer_plain (h : Plain base s) (hbase : base ≠ 0) :
    integer base s = some ((ofDigits base s : Int), []) := by
  unfold integer
  rw [h.dropWhile_isSpace, h.sign]
  dsimp only
  rw [h.radix (Or.inl ⟨rfl, hbase⟩)]
  simp only [h.takeWhile, h.dropWhile, if_neg h.ne_nil, Bool.false_eq_true, if_false]

theorem dropWhile_append_of_head {p : Char → Bool} (h : ∀ c ∈ tail.head?, p c = false) :
    (item ++ tail).dropWhile p = item.dropWhile p ++ tail := by
  induction item with
  | nil =>
    cases tail with
    | nil => rfl
    | cons c tail => exact List.dropWhile_cons_of_neg (by simp [h c rfl])
  | cons c item ih =>
    rw [List.cons_append, List.dropWhile_cons, List.dropWhile_cons]
    split
    · exact ih
    · rfl

theorem takeWhile_append_of_head {p : Char → Bool} (h : ∀ c ∈ tail.head?, p c = false) :
    (item ++ tail).takeWhile p = item.takeWhile p := by
  induction item with
  | nil =>
    cases tail with
    | nil => rfl
    | cons c tail => exact List.takeWhile_cons_of_neg (by simp [h c rfl])
  | cons c item ih =>
    rw [List.cons_append, List.takeWhile_cons, List.takeWhile_cons, ih]

/-- A text that belongs to no decimal integer stays behind it. -/
theorem numeral_append (h : ∀ c ∈ tail.head?, isSpace c = false ∧ c ≠ '-' ∧ c ≠ '+' ∧ ¬digitVal c < 10) :
    numeral (item ++ tail) = (numeral item).map fun p => (p.1, p.2 ++ tail) := by
  have hsign : ∀ l : List Char, sign (l ++ tail) = ((sign l).1, (sign l).2 ++ tail) := by
    intro l
    cases l with
    | nil =>
      cases tail with
      | nil => rfl
      | cons c tail =>
        obtain ⟨-, hminus, hplus, -⟩ := h c rfl
        unfold sign
        split
        · next heq => exact absurd (List.cons.inj heq).1 hminus
        · next heq => exact absurd (List.cons.inj heq).1 hplus
        · rfl
    | cons c l =>
      unfold sign
      split
      · next heq => cases heq; rfl
      · next heq => cases heq; rfl
      · next hminus hplus =>
        split
        · next heq => cases heq; exact absurd rfl (hminus _)
        · next heq => cases heq; exact absurd rfl (hplus _)
        · rfl
  unfold numeral
  rw [dropWhile_append_of_head fun c hc => (h c hc).1, hsign]
  dsimp only
  rw [dropWhile_append_of_head fun c hc => by simpa using (h c hc).2.2.2,
    takeWhile_append_of_head fun c hc => by simpa using (h c hc).2.2.2]
  split <;> rfl

/-- White space ends a number of any base. -/
theorem strtoul_plain_append (h : Plain base s) (hbase : base ≠ 0)
    (htail : ∀ c ∈ tail.head?, isSpace c = true) (hlt : ofDigits base s < 2 ^ 64) :
    strtoul base (s ++ tail) = (ofDigits base s, tail, false) := by
  have hspace : ∀ c, isSpace c = true → ¬digitVal c < 16 ∧ c ≠ 'x' ∧ c ≠ 'X' := by
    intro c hc
    simp only [isSpace, List.mem_cons, List.not_mem_nil, or_false, decide_eq_true_eq] at hc
    rcases hc with rfl | rfl | rfl | rfl | rfl | rfl <;> decide
  have hend : ∀ c ∈ tail.head?, decide (digitVal c < base) = false := by
    intro c hc
    have hbase_le := h.base_le
    have hdigit := (hspace c (htail c hc)).1
    rw [decide_eq_false_iff_not]
    omega
  have hradix : radix base (s ++ tail) = (base, s ++ tail) := by
    have hx : ∀ x, ¬digitVal x < 16 → x ∉ tail.head? → (s ++ tail)[1]? ≠ some x := by
      intro x hdigit hhead hsome
      obtain ⟨c, s', rfl⟩ := List.exists_cons_of_ne_nil h.ne_nil
      cases s' with
      | nil =>
        rw [List.head?_eq_getElem?] at hhead
        exact hhead (by simpa using hsome)
      | cons d s' => exact h.not_mem hdigit (by simp_all)
    have hno : ¬((s ++ tail)[1]? = some 'x' ∨ (s ++ tail)[1]? = some 'X') := by
      rintro (hsome | hsome)
      · exact hx 'x' (by decide) (fun hmem => (hspace _ (htail _ hmem)).2.1 rfl) hsome
      · exact hx 'X' (by decide) (fun hmem => (hspace _ (htail _ hmem)).2.2 rfl) hsome
    simp [radix, hno, hbase]
  unfold strtoul
  rw [h.sign_append]
  dsimp only
  rw [hradix]
  dsimp only
  rw [takeWhile_append_of_head hend, dropWhile_append_of_head hend, h.takeWhile, h.dropWhile,
    if_neg h.ne_nil, if_neg (by unfold ULONG_MAX; omega)]
  rfl

end Signed

end Numerals
