import DrbdUtils.Lib.LittleEndian
import Mathlib.Data.List.Range

/-!
# The bits of an out-of-sync bitmap

`iterate_oos_offsets()` of `drbd-verify.py`, which reads the bitmap in words of eight bytes.

* `mem_iterateOosOffsets` — it yields exactly the bits that are set.
* `iterateOosOffsets_sorted` — in increasing order.
-/

set_option autoImplicit false

namespace DrbdUtils.Verify

open LittleEndian

/-- The bits of the word at an offset. -/
def wordOffsets (bitmapData : List (BitVec 8)) (byteOffset : Nat) : List Nat :=
  let value := ofBytes ((bitmapData.drop byteOffset).take 8)
  if value = 0 then []
  else ((List.range 64).filter fun bitPos => value.testBit bitPos).map fun bitPos =>
    byteOffset / 8 * 64 + bitPos

/-- `iterate_oos_offsets`, with `range(0, len(bitmap_data), 8)`. -/
def iterateOosOffsets (bitmapData : List (BitVec 8)) : List Nat :=
  ((List.range ((bitmapData.length + 7) / 8)).map (8 * ·)).flatMap (wordOffsets bitmapData)

variable {bitmapData : List (BitVec 8)} {bitNumber i : Nat}

theorem mem_wordOffsets : bitNumber ∈ wordOffsets bitmapData (8 * i) ↔
    bitNumber / 64 = i ∧ bit bitmapData bitNumber = true := by
  have hword : ∀ bitPos < 64, (ofBytes ((bitmapData.drop (8 * i)).take 8)).testBit bitPos =
      bit bitmapData (64 * i + bitPos) := by
    intro bitPos hpos
    rw [testBit_ofBytes, bit_take (by omega), bit_drop]
    congr 1
    omega
  have hmem : bitNumber ∈ wordOffsets bitmapData (8 * i) ↔ ∃ bitPos < 64,
      (ofBytes ((bitmapData.drop (8 * i)).take 8)).testBit bitPos = true ∧
        64 * i + bitPos = bitNumber := by
    unfold wordOffsets
    simp only
    split
    · next hzero => simp [hzero]
    · simp only [List.mem_map, List.mem_filter, List.mem_range, and_assoc]
      rw [Nat.mul_div_cancel_left i (by decide : 0 < 8), Nat.mul_comm i 64]
  rw [hmem]
  constructor
  · rintro ⟨bitPos, hpos, hbit, rfl⟩
    rw [hword bitPos hpos] at hbit
    exact ⟨by omega, hbit⟩
  · rintro ⟨rfl, hbit⟩
    have hsplit : 64 * (bitNumber / 64) + bitNumber % 64 = bitNumber := Nat.div_add_mod bitNumber 64
    refine ⟨bitNumber % 64, Nat.mod_lt _ (by decide), ?_, hsplit⟩
    rw [hword _ (Nat.mod_lt _ (by decide)), hsplit]
    exact hbit

/-- **What is yielded are the bits that are set.** -/
theorem mem_iterateOosOffsets :
    bitNumber ∈ iterateOosOffsets bitmapData ↔ bit bitmapData bitNumber = true := by
  rw [iterateOosOffsets, List.mem_flatMap]
  simp only [List.mem_map, List.mem_range]
  constructor
  · rintro ⟨-, ⟨i, -, rfl⟩, hmem⟩
    exact (mem_wordOffsets.1 hmem).2
  · intro hbit
    have hlt : bitNumber < 8 * bitmapData.length := by
      by_contra hge
      rw [bit_of_ge (Nat.le_of_not_lt hge)] at hbit
      cases hbit
    exact ⟨_, ⟨bitNumber / 64, by omega, rfl⟩, mem_wordOffsets.2 ⟨rfl, hbit⟩⟩

theorem wordOffsets_sorted (bitmapData : List (BitVec 8)) (byteOffset : Nat) :
    (wordOffsets bitmapData byteOffset).Pairwise (· < ·) := by
  unfold wordOffsets
  simp only
  split
  · exact List.Pairwise.nil
  · refine List.Pairwise.map _ (fun _ _ h => Nat.add_lt_add_left h _) ?_
    exact List.pairwise_lt_range.filter _

/-- **They are yielded in increasing order.** -/
theorem iterateOosOffsets_sorted (bitmapData : List (BitVec 8)) :
    (iterateOosOffsets bitmapData).Pairwise (· < ·) := by
  rw [iterateOosOffsets, List.pairwise_flatMap]
  refine ⟨fun byteOffset _ => wordOffsets_sorted bitmapData byteOffset, ?_⟩
  rw [List.pairwise_map]
  refine List.pairwise_lt_range.imp fun {i j} hij x hx y hy => ?_
  have hx := (mem_wordOffsets.1 hx).1
  have hy := (mem_wordOffsets.1 hy).1
  omega

end DrbdUtils.Verify
