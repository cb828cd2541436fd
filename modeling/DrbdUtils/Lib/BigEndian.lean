import Mathlib.Data.Nat.Bitwise
import Mathlib.Data.List.Range

/-!
# Big endian numbers

A number as a list of bytes, the most significant one first.

* `ofBytes_toBytes` — the bytes of a number give it back.
* `toBytes_ofBytes` — a number made of some bytes has these bytes.
-/

set_option autoImplicit false

namespace BigEndian

variable {w : Nat}

/-- The lowest `k` bytes of a number. -/
def toBytes : Nat → BitVec w → List (BitVec 8)
  | 0, _ => []
  | k + 1, number => (number >>> (8 * k)).setWidth 8 :: toBytes k number

/-- Bytes shifted into a number. -/
def ofBytes (number : BitVec w) (bytes : List (BitVec 8)) : BitVec w :=
  bytes.foldl (fun number byte => number <<< 8 ||| byte.setWidth w) number

@[simp] theorem ofBytes_nil (number : BitVec w) : ofBytes number [] = number := rfl

theorem ofBytes_cons (number : BitVec w) (byte : BitVec 8) (bytes : List (BitVec 8)) :
    ofBytes number (byte :: bytes) = ofBytes (number <<< 8 ||| byte.setWidth w) bytes := rfl

@[simp] theorem toBytes_length (k : Nat) (number : BitVec w) : (toBytes k number).length = k := by
  induction k with
  | zero => rfl
  | succ k ih => rw [toBytes, List.length_cons, ih]

theorem toBytes_eq_map (k : Nat) (number : BitVec w) :
    toBytes k number = (List.range k).map fun idx => (number >>> (8 * (k - idx - 1))).setWidth 8 := by
  induction k with
  | zero => rfl
  | succ k ih =>
    rw [toBytes, ih, List.range_succ_eq_map, List.map_cons, List.map_map]
    congr 1
    apply List.map_congr_left
    intro idx _
    have hidx : k + 1 - (idx + 1) - 1 = k - idx - 1 := by omega
    rw [Function.comp_apply, hidx]

/-- A number without its lowest byte, and the byte put back. -/
theorem shift_byte (number : BitVec w) (k : Nat) :
    (number >>> (8 * (k + 1))) <<< 8 ||| ((number >>> (8 * k)).setWidth 8).setWidth w =
      number >>> (8 * k) := by
  apply BitVec.eq_of_getLsbD_eq
  intro i hi
  simp only [BitVec.getLsbD_or, BitVec.getLsbD_shiftLeft, BitVec.getLsbD_ushiftRight,
    BitVec.getLsbD_setWidth, hi, decide_true, Bool.true_and]
  by_cases hlow : i < 8
  · simp [hlow]
  · have hidx : 8 * (k + 1) + (i - 8) = 8 * k + i := by omega
    simp [hlow, hidx]

theorem ofBytes_toBytes_shift (k : Nat) (number : BitVec w) :
    ofBytes (number >>> (8 * k)) (toBytes k number) = number := by
  induction k with
  | zero => simp [toBytes]
  | succ k ih =>
    rw [toBytes, ofBytes_cons, shift_byte, ih]

theorem ofBytes_toBytes {k : Nat} (hw : w ≤ 8 * k) (number : BitVec w) :
    ofBytes 0 (toBytes k number) = number := by
  have hzero : number >>> (8 * k) = 0 := by
    apply BitVec.eq_of_getLsbD_eq
    intro i hi
    rw [BitVec.getLsbD_ushiftRight, BitVec.getLsbD_of_ge _ _ (by omega)]
    simp
  rw [← hzero, ofBytes_toBytes_shift]

/-- The bytes move what is there to the left. -/
theorem getLsbD_ofBytes (number : BitVec w) (bytes : List (BitVec 8)) {i : Nat}
    (hi : i + 8 * bytes.length < w) :
    (ofBytes number bytes).getLsbD (i + 8 * bytes.length) = number.getLsbD i := by
  induction bytes generalizing number i with
  | nil => rfl
  | cons byte bytes ih =>
    rw [List.length_cons] at hi ⊢
    have hidx : i + 8 * (bytes.length + 1) = i + 8 + 8 * bytes.length := by omega
    rw [ofBytes_cons, hidx, ih _ (by omega)]
    have hbyte : byte.getLsbD (i + 8) = false := BitVec.getLsbD_of_ge _ _ (by omega)
    have hlow : ¬i + 8 < 8 := by omega
    have hlt : i + 8 < w := by omega
    rw [BitVec.getLsbD_or, BitVec.getLsbD_shiftLeft, BitVec.getLsbD_setWidth, hbyte]
    simp [hlow, hlt]

theorem toBytes_ofBytes (number : BitVec w) {bytes : List (BitVec 8)} (hw : 8 * bytes.length ≤ w) :
    toBytes bytes.length (ofBytes number bytes) = bytes := by
  induction bytes generalizing number with
  | nil => rfl
  | cons byte bytes ih =>
    rw [List.length_cons] at hw ⊢
    rw [ofBytes_cons, toBytes, ih _ (by omega)]
    congr 1
    apply BitVec.eq_of_getLsbD_eq
    intro i hi
    have hlt : i < w := by omega
    rw [BitVec.getLsbD_setWidth, BitVec.getLsbD_ushiftRight, Nat.add_comm,
      getLsbD_ofBytes _ _ (by omega)]
    simp [hi, hlt]

end BigEndian
