import Mathlib.Algebra.Order.Ring.Int
import DrbdUtils.Setup.OptionCodec

/-!
# When a number with a unit is converted exactly

`new_strtoll()` of `shared_tool.c` leaves the number to `sscanf()`, which takes white space and a sign
in front of it, stores a negative number modulo `2 ^ 64` and a number that does not fit as
`2 ^ 64 - 1`.  The rounding of sectors to kilobytes adds before it shifts.

* `newStrtoll_ok_iff` — which texts are accepted.
* `newStrtoll_exact_iff` — which texts are converted exactly, or refused.
-/

set_option autoImplicit false

namespace DrbdUtils.Setup.ConfigFlags

open Numerals

/-! ## Exact conversions -/

/-- **A text denotes `n` default units**: it is a decimal number below `2 ^ 64`, alone, or with a unit
    behind it that makes it `n` default units, rounded up. -/
def ConvertsTo (s : List Char) (defUnit : Char) (n : Nat) : Prop :=
  ∃ digits suffix, s = digits ++ suffix ∧ Plain 10 digits ∧ ofDigits 10 digits < 2 ^ 64 ∧
    (suffix = [] ∧ n = ofDigits 10 digits ∨
      ∃ u b, suffix = [u] ∧ bytes u = some b ∧
        IsLeast {d : Int | ofDigits 10 digits * b ≤ d * scaleBytes defUnit} n)

/-- `new_strtoll()` converts a text exactly, or fails. -/
def ConvertsExactly (s : List Char) (defUnit : Char) : Prop :=
  ∀ n, newStrtoll s defUnit = .ok n → ConvertsTo s defUnit n

/-! ## Accepted texts -/

/-- The unit is larger than the default unit, and the number, modulo `2 ^ 64`, too large for it. -/
def OutOfRange (unit z b : Int) : Prop :=
  unit < b ∧ (2 ^ 64 ≤ z.natAbs ∨ 2 ^ 64 * unit ≤ z % 2 ^ 64 * b)

/-- What is behind a number lets it be accepted. -/
def AcceptedSuffix (unit z : Int) (rest : List Char) : Prop :=
  rest = [] ∨ ∃ u b, rest = [u] ∧ bytes u = some b ∧ ¬OutOfRange unit z b

section Accepted

variable {s rest : List Char} {scale : Char} {z : Int} {shift : Int} {rv : Nat}

theorem unitShift_isSome {u : Char} {b : Int} (h : bytes u = some b) :
    ∃ k : Nat, unitShift u = some (k : Int) ∧ b = 2 ^ k ∧ 9 ≤ k := by
  unfold bytes at h
  split at h
  · exact ⟨9, rfl, by cases h; rfl, by decide⟩
  · exact ⟨10, rfl, by cases h; rfl, by decide⟩
  · exact ⟨10, rfl, by cases h; rfl, by decide⟩
  · exact ⟨20, rfl, by cases h; rfl, by decide⟩
  · exact ⟨20, rfl, by cases h; rfl, by decide⟩
  · exact ⟨30, rfl, by cases h; rfl, by decide⟩
  · exact ⟨30, rfl, by cases h; rfl, by decide⟩
  · cases h

theorem convert_ok_iff :
    (∃ n, convert shift rv = .ok n) ↔ shift < 0 ∨ rv * 2 ^ shift.toNat < 2 ^ 64 := by
  have hpos := Nat.two_pow_pos shift.toNat
  unfold convert
  split
  · next hneg => exact iff_of_true ⟨_, rfl⟩ (Or.inl hneg)
  · next hneg =>
    have hmax : (2 ^ 64 - 1) / 2 ^ shift.toNat < rv ↔ ¬rv * 2 ^ shift.toNat < 2 ^ 64 := by
      rw [Nat.div_lt_iff_lt_mul hpos]
      omega
    split
    · next hlt =>
      refine iff_of_false (by simp) ?_
      rintro (h | h)
      · exact hneg h
      · exact hmax.1 hlt h
    · next hlt => exact iff_of_true ⟨_, rfl⟩ (Or.inr (not_not.1 (mt hmax.2 hlt)))

/-- A larger unit is out of range by what the variable holds. -/
theorem outOfRange_iff {e m : Nat} (hm : m ≠ 0) :
    OutOfRange (2 ^ e) z (2 ^ (e + m)) ↔ ¬stored z * 2 ^ m < 2 ^ 64 := by
  have hpow : (2 : Int) ^ (e + m) = 2 ^ e * 2 ^ m := pow_add 2 e m
  have he : (0 : Int) < 2 ^ e := Int.pow_pos (by decide)
  have htwo : 2 ≤ 2 ^ m := Nat.le_self_pow hm 2
  have hcast : ((2 ^ m : Nat) : Int) = 2 ^ m := by rw [Nat.cast_pow, Nat.cast_ofNat]
  have hlt : (2 : Int) ^ e < 2 ^ (e + m) := by
    have hmul := Int.mul_lt_mul_of_pos_left (show (1 : Int) < 2 ^ m by omega) he
    rwa [Int.mul_one, ← hpow] at hmul
  have hscale : 2 ^ 64 * (2 : Int) ^ e ≤ z % 2 ^ 64 * 2 ^ (e + m) ↔ 2 ^ 64 ≤ z % 2 ^ 64 * 2 ^ m := by
    rw [hpow, Int.mul_comm (2 ^ e) (2 ^ m), ← Int.mul_assoc]
    exact Int.mul_le_mul_right he
  unfold OutOfRange
  rw [hscale]
  by_cases habs : 2 ^ 64 ≤ z.natAbs
  · refine iff_of_true ⟨hlt, Or.inl habs⟩ ?_
    have hmax : stored z = 2 ^ 64 - 1 := if_pos habs
    rw [hmax]
    omega
  · have hstored := stored_of_lt (not_le.1 habs)
    rw [← hstored, ← hcast, ← Nat.cast_mul]
    refine ⟨fun h => ?_, fun h => ⟨hlt, Or.inr ?_⟩⟩
    · have hle := h.2.resolve_left habs
      omega
    · omega

/-- The accepted units. -/
theorem newStrtoll_unit_iff {e : Nat} {u : Char} :
    (∃ t, unitShift u = some t ∧ ∃ n, convert (-(e : Int) + t) (stored z) = .ok n) ↔
      ∃ b, bytes u = some b ∧ ¬OutOfRange (2 ^ e) z b := by
  constructor
  · rintro ⟨t, ht, hok⟩
    obtain ⟨k, rfl, hb, -⟩ := unitShift_bytes ht
    refine ⟨2 ^ k, hb, fun hout => ?_⟩
    have hlt : e < k := by
      by_contra hle
      exact absurd (pow_le_pow_right₀ (by decide) (not_lt.1 hle)) (not_le.2 hout.1)
    obtain ⟨m, rfl⟩ := Nat.exists_eq_add_of_le hlt.le
    rcases convert_ok_iff.1 hok with hneg | hfits
    · omega
    · rw [show (-(e : Int) + ((e + m : Nat) : Int)).toNat = m by omega] at hfits
      exact (outOfRange_iff (by omega)).1 hout hfits
  · rintro ⟨b, hb, hin⟩
    obtain ⟨k, ht, rfl, -⟩ := unitShift_isSome hb
    refine ⟨k, ht, convert_ok_iff.2 ?_⟩
    rcases Nat.lt_or_ge k e with hlt | hle
    · exact Or.inl (by omega)
    · obtain ⟨m, rfl⟩ := Nat.exists_eq_add_of_le hle
      right
      rw [show (-(e : Int) + ((e + m : Nat) : Int)).toNat = m by omega]
      rcases Nat.eq_zero_or_pos m with rfl | hm
      · rw [Nat.pow_zero, Nat.mul_one]
        exact stored_lt z
      · exact not_not.1 (mt (outOfRange_iff (by omega)).2 hin)

/-- **The accepted texts**: a number, alone or with a unit it is not too large for. -/
theorem newStrtoll_ok_iff (hs : scale ∈ ['\x01', '1', 'k', 'K', 's']) :
    (∃ n, newStrtoll s scale = .ok n) ↔
      ∃ z rest, numeral s = some (z, rest) ∧ AcceptedSuffix (scaleBytes scale) z rest := by
  obtain ⟨e, he, hscale, -⟩ := defUnitShift_scale hs
  unfold newStrtoll
  rw [he, sscanfLlu_eq, hscale]
  dsimp only
  cases hz : numeral s with
  | none =>
    refine iff_of_false ?_ (by simp)
    rw [Option.map_none]
    split <;> simp
  | some p =>
    obtain ⟨z, rest⟩ := p
    have hself : (∃ z' rest', some (z, rest) = some (z', rest') ∧
        AcceptedSuffix (2 ^ e) z' rest') ↔ AcceptedSuffix (2 ^ e) z rest := by simp
    rw [if_neg (ne_nil_of_numeral hz), hself, Option.map_some]
    match rest with
    | [] => exact iff_of_true ⟨_, rfl⟩ (Or.inl rfl)
    | [u] =>
      have hsuffix : AcceptedSuffix (2 ^ e) z [u] ↔ ∃ b, bytes u = some b ∧ ¬OutOfRange (2 ^ e) z b := by
        simp [AcceptedSuffix]
      rw [hsuffix, ← newStrtoll_unit_iff]
      cases hu : unitShift u with
      | none => simp [hu]
      | some t => simp [hu]
    | _ :: _ :: _ => exact iff_of_false (by simp) (by simp [AcceptedSuffix])

end Accepted

/-! ## The condition -/

section Exact

variable {s : List Char} {scale : Char} {z d : Int} {rest : List Char}

/-- A number that begins with a digit has neither white space nor a sign in front of it. -/
theorem numeral_of_digit (h : numeral s = some (z, rest)) (hd : ∀ c ∈ s.head?, digitVal c < 10) :
    ∃ digits, Plain 10 digits ∧ s = digits ++ rest ∧ z = ofDigits 10 digits := by
  obtain ⟨c, t, rfl⟩ := List.exists_cons_of_ne_nil (ne_nil_of_numeral h)
  have hc : digitVal c < 10 := hd c rfl
  have hone : Plain 10 [c] := ⟨by simp, by simpa using hc, by decide⟩
  have hsign : sign ((c :: t).dropWhile isSpace) = (false, c :: t) := hone.sign_append
  unfold numeral at h
  rw [hsign] at h
  dsimp only at h
  split at h
  · cases h
  · next hne =>
    cases h
    exact ⟨_, ⟨hne, fun x hx => by simpa using List.mem_takeWhile_imp hx, by decide⟩,
      (List.takeWhile_append_dropWhile ..).symm, rfl⟩

theorem isLeast_mul {k z unit : Int} (h : 0 < unit) :
    IsLeast {d : Int | z * (k * unit) ≤ d * unit} (z * k) := by
  refine ⟨le_of_eq (Int.mul_assoc ..).symm, fun d hd => ?_⟩
  have hle : z * (k * unit) ≤ d * unit := hd
  rw [← Int.mul_assoc] at hle
  exact Int.le_of_mul_le_mul_right hle h

/-- Sectors, rounded up to kilobytes. -/
theorem isLeast_sectors : IsLeast {d : Int | z * 512 ≤ d * 1024} ((z + 1) / 2) := by
  refine ⟨?_, fun d hd => ?_⟩
  · show z * 512 ≤ (z + 1) / 2 * 1024
    omega
  · have hle : z * 512 ≤ d * 1024 := hd
    omega

/-- A text that is accepted, and begins with a digit, converts to what it denotes. -/
theorem convertsTo_of_digit (hs : scale ∈ ['\x01', '1', 'k', 'K', 's']) {n : Nat}
    (h : newStrtoll s scale = .ok n) (hz : numeral s = some (z, rest))
    (hd : ∀ c ∈ s.head?, digitVal c < 10) (hlt : z < 2 ^ 64)
    (hround : scaleBytes scale = 1024 → rest = ['s'] → z ≠ 2 ^ 64 - 1) : ConvertsTo s scale n := by
  obtain ⟨digits, hplain, hsplit, rfl⟩ := numeral_of_digit hz hd
  have hstored : stored (ofDigits 10 digits) = ofDigits 10 digits := by
    have hmod := stored_of_lt (z := ofDigits 10 digits) (by omega)
    omega
  refine ⟨digits, rest, hsplit, hplain, by omega, ?_⟩
  obtain ⟨z', rest', hz', hread⟩ := newStrtoll_cases hs h
  rw [hz] at hz'
  cases hz'
  rw [hstored] at hread
  refine hread.imp id ?_
  rintro ⟨u, b, rfl, hb, ⟨k, rfl, rfl, -⟩ | ⟨rfl, hunit, rfl⟩⟩
  · obtain ⟨e, -, he, -⟩ := defUnitShift_scale hs
    refine ⟨u, _, rfl, hb, ?_⟩
    rw [Nat.cast_mul]
    exact isLeast_mul (by rw [he]; exact Int.pow_pos (by decide))
  · have hne := hround hunit rfl
    refine ⟨'s', 512, rfl, rfl, ?_⟩
    rw [hunit, show (((ofDigits 10 digits + 1) % 2 ^ 64 / 2 : Nat) : Int) =
      ((ofDigits 10 digits : Int) + 1) / 2 by omega]
    exact isLeast_sectors

theorem not_digit_of_bytes {u : Char} {b : Int} (h : bytes u = some b) : ¬digitVal u < 10 := by
  unfold bytes at h
  split at h
  all_goals first | decide | cases h

/-- The rounding wraps around. -/
theorem newStrtoll_wrapped (hs : scale ∈ ['\x01', '1', 'k', 'K', 's']) {n : Nat}
    (h : newStrtoll s scale = .ok n) (hz : numeral s = some (z, ['s']))
    (hunit : scaleBytes scale = 1024) (hmax : z = 2 ^ 64 - 1) : n = 0 := by
  obtain ⟨z', rest', hz', hread⟩ := newStrtoll_cases hs h
  rw [hz] at hz'
  cases hz'
  obtain ⟨u, b, hu, hb, hread⟩ := hread.resolve_left (by simp)
  cases hu
  cases hb
  rcases hread with ⟨k, hk, -⟩ | ⟨-, -, rfl⟩
  · rw [hunit] at hk
    omega
  · rw [hmax]
    decide

/-- What a text that denotes units is read as. -/
theorem ConvertsTo.numeral {n : Nat} (h : ConvertsTo s scale n) :
    ∃ (m : Nat) (rest : List Char), numeral s = some ((m : Int), rest) ∧
      (∀ c ∈ s.head?, digitVal c < 10) ∧ m < 2 ^ 64 ∧
      (rest = [] ∧ n = m ∨ ∃ u b, rest = [u] ∧ bytes u = some b ∧
        IsLeast {d : Int | m * b ≤ d * scaleBytes scale} n) := by
  obtain ⟨digits, suffix, rfl, hplain, hlt, hdenotes⟩ := h
  have hhead : ∀ c ∈ suffix.head?, ¬digitVal c < 10 := by
    rcases hdenotes with ⟨rfl, -⟩ | ⟨u, b, rfl, hb, -⟩
    · simp
    · simpa using not_digit_of_bytes hb
  refine ⟨_, suffix, numeral_plain hplain hhead, fun c hc => ?_, hlt, hdenotes⟩
  obtain ⟨x, l, rfl⟩ := List.exists_cons_of_ne_nil hplain.ne_nil
  cases hc
  exact hplain.digits c List.mem_cons_self

/-- **A text is converted exactly or refused** unless it is accepted and begins with white space or
    a sign, has a number that does not fit, or is `2 ^ 64 - 1` sectors in kilobytes. -/
theorem newStrtoll_exact_iff (hs : scale ∈ ['\x01', '1', 'k', 'K', 's']) :
    ConvertsExactly s scale ↔
      ∀ z rest, numeral s = some (z, rest) → AcceptedSuffix (scaleBytes scale) z rest →
        (∀ c ∈ s.head?, digitVal c < 10) ∧ z < 2 ^ 64 ∧
          (scaleBytes scale = 1024 → rest = ['s'] → z ≠ 2 ^ 64 - 1) := by
  constructor
  · intro hexact z rest hz haccept
    obtain ⟨n, hn⟩ := (newStrtoll_ok_iff hs).2 ⟨z, rest, hz, haccept⟩
    obtain ⟨m, rest', hm, hhead, hlt, hdenotes⟩ := (hexact n hn).numeral
    rw [hz] at hm
    cases hm
    refine ⟨hhead, by omega, ?_⟩
    rintro hunit rfl hmax
    obtain ⟨u, b, hu, hb, hleast⟩ := hdenotes.resolve_left (by simp)
    cases hu
    cases hb
    rw [hunit, newStrtoll_wrapped hs hn hz hunit hmax] at hleast
    have hle : (m : Int) * 512 ≤ 0 * 1024 := hleast.1
    omega
  · intro hcond n hn
    obtain ⟨z, rest, hz, haccept⟩ := (newStrtoll_ok_iff hs).1 ⟨n, hn⟩
    obtain ⟨hd, hlt, hround⟩ := hcond z rest hz haccept
    exact convertsTo_of_digit hs hn hz hd hlt hround

/-- Three sectors are two kilobytes. -/
theorem newStrtoll_exact_sectors : ConvertsExactly ['3', 's'] 'k' := by
  refine (newStrtoll_exact_iff (by decide)).2 fun z rest hz _ => ?_
  have hthree : Numerals.numeral ['3', 's'] = some (3, ['s']) := by decide
  rw [hthree] at hz
  cases hz
  exact ⟨by rintro _ ⟨⟩; decide, by decide, by decide⟩

/-- The largest number of sectors is read as no kilobytes, and a negative number as a large one. -/
theorem newStrtoll_wraps :
    (newStrtoll ['-', '1'] '1' = .ok (2 ^ 64 - 1) ∧ ¬ConvertsExactly ['-', '1'] '1') ∧
      newStrtoll "18446744073709551615s".toList 'k' = .ok 0 ∧
      ¬ConvertsExactly "18446744073709551615s".toList 'k' := by
  have hneg : newStrtoll ['-', '1'] '1' = .ok (2 ^ 64 - 1) := by decide
  have hmax : newStrtoll "18446744073709551615s".toList 'k' = .ok 0 := by decide +kernel
  refine ⟨⟨hneg, fun h => ?_⟩, hmax, fun h => ?_⟩
  · obtain ⟨m, rest, -, hhead, -⟩ := (h _ hneg).numeral
    exact absurd (hhead '-' rfl) (by decide)
  · obtain ⟨m, rest, hm, -, -, hdenotes⟩ := (h _ hmax).numeral
    have hz : Numerals.numeral "18446744073709551615s".toList = some (2 ^ 64 - 1, ['s']) := by
      decide +kernel
    rw [hz] at hm
    cases hm
    obtain ⟨u, b, hu, hb, hleast⟩ := hdenotes.resolve_left (by simp)
    cases hu
    cases hb
    exact absurd hleast.1 (by decide)

end Exact

end DrbdUtils.Setup.ConfigFlags
