import Mathlib.Data.Nat.Bitwise
import Mathlib.Data.List.GetD

/-!
# Little endian numbers and bit strings

A number as a list of bytes, the least significant one first, and the bits of such a list.

* `testBit_ofBytes` — a number has the bits of its bytes.
* `bit_append`, `bit_toBytes` — the bits of what is put together.
-/

set_option autoImplicit false

namespace LittleEndian

variable {bytes tail : List (BitVec 8)} {k : Nat}

/-- The number with these bytes. -/
def ofBytes : List (BitVec 8) → Nat
  | [] => 0
  | byte :: bytes => byte.toNat + 256 * ofBytes bytes

/-- The lowest `n` bytes of a number. -/
def toBytes : Nat → Nat → List (BitVec 8)
  | 0, _ => []
  | n + 1, number => BitVec.ofNat 8 number :: toBytes n (number / 256)

/-- A bit of a list of bytes; there are none behind its end. -/
def bit (bytes : List (BitVec 8)) (k : Nat) : Bool := (bytes.getD (k / 8) 0).getLsbD (k % 8)

@[simp] theorem length_toBytes (n number : Nat) : (toBytes n number).length = n := by
  induction n generalizing number with
  | zero => rfl
  | succ n ih => rw [toBytes, List.length_cons, ih]

/-- The number of the lowest bytes. -/
theorem ofBytes_toBytes (n number : Nat) : ofBytes (toBytes n number) = number % 256 ^ n := by
  induction n generalizing number with
  | zero => simp [toBytes, ofBytes, Nat.mod_one]
  | succ n ih =>
    rw [toBytes, ofBytes, ih, BitVec.toNat_ofNat, show 2 ^ 8 = 256 from rfl, Nat.pow_succ',
      Nat.mod_mul]

theorem ofBytes_lt (bytes : List (BitVec 8)) : ofBytes bytes < 256 ^ bytes.length := by
  induction bytes with
  | nil => simp [ofBytes]
  | cons byte bytes ih =>
    have hbyte := byte.isLt
    rw [ofBytes, List.length_cons, Nat.pow_succ]
    omega

@[simp] theorem bit_nil (k : Nat) : bit [] k = false := by
  simp [bit]

theorem bit_cons_lt (byte : BitVec 8) (h : k < 8) : bit (byte :: bytes) k = byte.getLsbD k := by
  simp [bit, Nat.div_eq_of_lt h, Nat.mod_eq_of_lt h]

theorem bit_cons_ge (byte : BitVec 8) (h : 8 ≤ k) : bit (byte :: bytes) k = bit bytes (k - 8) := by
  have hdiv : k / 8 = (k - 8) / 8 + 1 := by omega
  have hmod : k % 8 = (k - 8) % 8 := by omega
  rw [bit, hdiv, hmod, List.getD_cons_succ, bit]

/-- **A number has the bits of its bytes.** -/
theorem testBit_ofBytes (bytes : List (BitVec 8)) (k : Nat) :
    (ofBytes bytes).testBit k = bit bytes k := by
  induction bytes generalizing k with
  | nil => simp [ofBytes]
  | cons byte bytes ih =>
    rw [ofBytes, Nat.add_comm, show 256 = 2 ^ 8 from rfl,
      Nat.testBit_two_pow_mul_add _ byte.isLt]
    split
    · next h => rw [bit_cons_lt byte h, BitVec.testBit_toNat]
    · next h => rw [ih, bit_cons_ge byte (Nat.le_of_not_lt h)]

theorem bit_append_of_lt (h : k < 8 * bytes.length) : bit (bytes ++ tail) k = bit bytes k := by
  rw [bit, List.getD_append _ _ _ _ (by omega), bit]

theorem bit_append_of_ge (h : 8 * bytes.length ≤ k) :
    bit (bytes ++ tail) k = bit tail (k - 8 * bytes.length) := by
  have hdiv : k / 8 - bytes.length = (k - 8 * bytes.length) / 8 := by omega
  have hmod : k % 8 = (k - 8 * bytes.length) % 8 := by omega
  rw [bit, List.getD_append_right _ _ _ _ (by omega), hdiv, hmod, bit]

theorem bit_of_ge (h : 8 * bytes.length ≤ k) : bit bytes k = false := by
  have happend : bit (bytes ++ []) k = _ := bit_append_of_ge h
  rwa [List.append_nil, bit_nil] at happend

theorem bit_drop (n : Nat) (bytes : List (BitVec 8)) (k : Nat) :
    bit (bytes.drop n) k = bit bytes (8 * n + k) := by
  have hdiv : (8 * n + k) / 8 = n + k / 8 := by omega
  have hmod : (8 * n + k) % 8 = k % 8 := by omega
  rw [bit, bit, hdiv, hmod, List.getD_eq_getElem?_getD, List.getElem?_drop,
    List.getD_eq_getElem?_getD]

theorem bit_take {n : Nat} (h : k < 8 * n) (bytes : List (BitVec 8)) :
    bit (bytes.take n) k = bit bytes k := by
  rw [bit, bit, List.getD_eq_getElem?_getD, List.getElem?_take_of_lt (by omega),
    List.getD_eq_getElem?_getD]

/-- The bytes of a number have its bits. -/
theorem bit_toBytes {n : Nat} (number : Nat) (h : k < 8 * n) :
    bit (toBytes n number) k = number.testBit k := by
  induction n generalizing number k with
  | zero => omega
  | succ n ih =>
    rw [toBytes]
    by_cases hlow : k < 8
    · rw [bit_cons_lt _ hlow, BitVec.getLsbD_ofNat, decide_eq_true hlow, Bool.true_and]
    · rw [bit_cons_ge _ (Nat.le_of_not_lt hlow), ih _ (by omega), show 256 = 2 ^ 8 from rfl,
        Nat.testBit_div_two_pow, Nat.sub_add_cancel (Nat.le_of_not_lt hlow)]

end LittleEndian
