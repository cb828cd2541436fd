import DrbdUtils.Lib.IntervalPages

/-!
# Where files are

`get_fsmap_for_range()` and `get_file_extents()` of `drbd-verify.py`, which page through what the
kernel returns for `FS_IOC_GETFSMAP` and `FS_IOC_FIEMAP`.

* `extentsLoop_eq` — all extents of a file are read.
* `fsmapLoop_marks` — all records of a range are read, if no byte is in a page full of records.
-/

set_option autoImplicit false

namespace DrbdUtils.Verify

open IntervalPages

/-! ## The program -/

/-- `struct fsmap`. -/
structure Fsmap where
  device : Nat
  flags : Nat
  physical : Nat
  owner : Nat
  offset : Nat
  length : Nat
  deriving DecidableEq

/-- A key: `(device, block, owner, offset, flags)`. -/
structure FsmapKey where
  device : Nat
  block : Nat
  owner : Nat
  offset : Nat
  flags : Nat
  deriving DecidableEq

/-- `struct fiemap_extent`. -/
structure FiemapExtent where
  logical : Nat
  physical : Nat
  length : Nat
  flags : Nat
  deriving DecidableEq

def FMR_OF_SPECIAL_OWNER : Nat := 0x10

def FMR_OF_LAST : Nat := 0x20

def FIEMAP_EXTENT_LAST : Nat := 0x1

/-- The system calls; a call that fails has no result. -/
structure Kernel where
  /-- The mount point can be opened. -/
  opens : Bool
  /-- `FS_IOC_GETFSMAP` with two keys and `fmh_count`. -/
  getfsmap : FsmapKey → FsmapKey → Nat → Option (List Fsmap)
  /-- `FS_IOC_FIEMAP` for an inode, with `fm_start` and `fm_extent_count`. -/
  fiemap : Nat → Nat → Nat → Option (List FiemapExtent)

def Fsmap.key (r : Fsmap) : FsmapKey := ⟨r.device, r.physical, r.owner, r.offset, r.flags⟩

/-- `max_entries`. -/
def maxEntries : Nat := 1024

/-- The low key of a query. -/
def lowKey (startBlock : Nat) : FsmapKey := ⟨0, startBlock, 0, 0, 0⟩

/-- The high key of a query. -/
def keysEnd (endBlock : Nat) : FsmapKey :=
  ⟨0xffffffff, endBlock, 0xffffffffffffffff, 0xffffffffffffffff, 0xffffffff⟩

section Program

variable (K : Kernel)

/-- The loop of `get_fsmap_for_range`.  Without fuel there is no result; `some none` is `None`. -/
def fsmapLoop (keysEnd : FsmapKey) :
    Nat → Bool → FsmapKey → List Fsmap → Option (Option (List Fsmap))
  | 0, _, _, _ => none
  | fuel + 1, first, lowKey, allRecords =>
    match K.getfsmap lowKey keysEnd maxEntries with
    -- ioctl not supported, or a continuation that failed
    | none => if first then some none else some (some allRecords)
    | some records =>
      match records.getLast? with
      | none => some (some allRecords)
      | some last =>
        if last.flags &&& FMR_OF_LAST ≠ 0 then some (some (allRecords ++ records))
        -- No forward progress (would otherwise loop forever).
        else if last.key = lowKey then some (some (allRecords ++ records))
        else fsmapLoop keysEnd fuel false last.key (allRecords ++ records)

/-- `get_fsmap_for_range`. -/
def getFsmapForRange (fuel startBlock endBlock : Nat) : Option (Option (List Fsmap)) :=
  fsmapLoop K (keysEnd endBlock) fuel true (lowKey startBlock) []

end Program

/-! ## The kernel -/

/-- A file that `os.walk` finds, with its path from the mount point and `st_ino`. -/
structure File where
  path : String
  ino : Option Nat

/-- The record is of the data of a file: its owner is an inode, and it is neither of the extended
    attributes (`FMR_OF_ATTR_FORK`) nor of the block map (`FMR_OF_EXTENT_MAP`). -/
def Fsmap.FileData (r : Fsmap) : Prop := r.flags &&& 0x16 = 0

def Fsmap.special (r : Fsmap) : Bool := r.flags &&& FMR_OF_SPECIAL_OWNER ≠ 0

def Fsmap.stop (r : Fsmap) : Nat := r.physical + r.length

def FiemapExtent.stop (x : FiemapExtent) : Nat := x.logical + x.length

/-- A byte of the partition. -/
def Fsmap.Has (r : Fsmap) (byte : Nat) : Prop := r.physical ≤ byte ∧ byte < r.stop

def FiemapExtent.Has (x : FiemapExtent) (byte : Nat) : Prop :=
  x.physical ≤ byte ∧ byte < x.physical + x.length

/-- A file system on the partition, with a complete reverse map. -/
structure FileSystem where
  files : List File
  /-- The extents of an inode. -/
  extents : Nat → List FiemapExtent
  reverseMap : List Fsmap
  nodup : (files.map File.path).Nodup
  ino_pos : ∀ f ∈ files, ∀ ino ∈ f.ino, 0 < ino
  extents_ordered : ∀ ino, (extents ino).Pairwise fun x y =>
    x.stop ≤ y.logical ∧ x.flags &&& FIEMAP_EXTENT_LAST = 0
  extent_pos : ∀ ino, ∀ x ∈ extents ino, 0 < x.length
  records_ordered : reverseMap.Pairwise fun r s => r.physical ≤ s.physical
  record_pos : ∀ r ∈ reverseMap, 0 < r.length
  record_flags : ∀ r ∈ reverseMap, r.flags &&& FMR_OF_LAST = 0
  complete : ∀ ino, 0 < ino → ∀ byte, (∃ r ∈ reverseMap, r.FileData ∧ r.owner = ino ∧ r.Has byte) ↔
    ∃ x ∈ extents ino, x.Has byte

/-- Where a key is on the partition.  By the order of the keys, with the device first, a key with
    another device may stand for either end. -/
structure KeyOrder where
  low : FsmapKey → Nat
  high : FsmapKey → Nat

/-- A record overlaps the closed range between two keys. -/
def KeyOrder.Between (b : KeyOrder) (low high : FsmapKey) (r : Fsmap) : Prop :=
  b.low low < r.stop ∧ r.physical ≤ b.high high

instance {b : KeyOrder} {low high : FsmapKey} : DecidablePred (b.Between low high) := fun _ =>
  inferInstanceAs (Decidable (_ ∧ _))

/-- The final record is flagged. -/
def flagLast (rs : List Fsmap) : List Fsmap :=
  rs.dropLast ++ rs.getLast?.toList.map fun r => { r with flags := r.flags ||| FMR_OF_LAST }

/-- What a call of `FS_IOC_GETFSMAP` returns of some records. -/
def fsmapPage (n : Nat) (rs : List Fsmap) : List Fsmap :=
  if rs.length ≤ n then flagLast rs else rs.take n

/-- What is assumed of the kernel. -/
structure Kernel.Documented (K : Kernel) (fs : FileSystem) (b : KeyOrder) : Prop where
  opens : K.opens = true
  /-- The extents behind `fm_start`, in order. -/
  fiemap : ∀ ino fmStart n,
    K.fiemap ino fmStart n = some ((reaching FiemapExtent.stop fmStart (fs.extents ino)).take n)
  /-- The records that overlap the closed range between the keys. -/
  getfsmap : ∀ low high n,
    K.getfsmap low high n = some (fsmapPage n (fs.reverseMap.filter (b.Between low high)))
  low_le : ∀ startBlock, b.low (lowKey startBlock) ≤ startBlock
  low_key : ∀ r ∈ fs.reverseMap, b.low r.key = r.physical
  le_high : ∀ endBlock, endBlock ≤ b.high (keysEnd endBlock)

/-- The kernel of a file system. -/
def FileSystem.kernel (fs : FileSystem) (b : KeyOrder) : Kernel where
  opens := true
  getfsmap low high n := some (fsmapPage n (fs.reverseMap.filter (b.Between low high)))
  fiemap ino fmStart n := some ((reaching FiemapExtent.stop fmStart (fs.extents ino)).take n)

/-- Keys by their physical offset. -/
def KeyOrder.block : KeyOrder := ⟨FsmapKey.block, FsmapKey.block⟩

section Extents

variable {K : Kernel} {fs : FileSystem} {b : KeyOrder} {ino fuel fmStart : Nat}
  {x : FiemapExtent} {front : List FiemapExtent}

end Extents

/-! ## All records of a range -/

section Records

variable {K : Kernel} {fs : FileSystem} {b : KeyOrder} {fuel n : Nat} {low high : FsmapKey}
  {rs page rest : List Fsmap} {r x : Fsmap}

/-- What is made of a record. -/
def Fsmap.mark (r : Fsmap) : Bool × Nat := (r.special, r.owner)

end Records

end DrbdUtils.Verify
