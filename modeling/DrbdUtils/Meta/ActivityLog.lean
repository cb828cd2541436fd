import DrbdUtils.Meta.ApplyAl
import DrbdUtils.Meta.Superblock

/-!
# The activity log: formats, initialisation and replay

`v07_al_disk_to_cpu()`, `v84_al_disk_to_cpu()`, `initialize_al()`, `replay_al_07()`,
`replay_al_84()` and `replay_al_pmem()` of `drbdmeta.c`, and `crc32c()` of `drbdtool_common.c`.
Replay turns the log in the I/O buffer into the `hot_extent` array.

`struct al_transaction_on_disk` and `struct al_on_pmem` are declared in the kernel headers:
`AlLayout` leaves open where their fields are and how many updates a transaction has.

Replay zeroes the checksum field of the slots it looks at.  Nobody looks at them again: every
slot is visited once, and the next use of the buffer overwrites it.

* `alSlots_le_buffer` — a log whose slots are all inside the buffer fits into it.
* `v84_initialBlock` — an initialised slot is valid, and no update.
* `replayAl84_noUpdate` — replay of slots without a valid update changes no extent.
-/

set_option autoImplicit false

namespace DrbdUtils.Meta

open BlockDevice

/-! ## Checksums -/

/-- One bit of the reflected Castagnoli division. -/
def crc32cBit (c : BitVec 32) : BitVec 32 :=
  if c.getLsbD 0 then (c >>> 1) ^^^ 0x82F63B78 else c >>> 1

/-- `crc32c_table`. -/
def crc32cTable (i : BitVec 32) : BitVec 32 := crc32cBit^[8] i

example : crc32cTable 1 = 0xF26B8303 ∧ crc32cTable 0x2F = 0x7EAEB2FA := by decide

/-- `crc32c`. -/
def crc32c (crc : BitVec 32) (data : List Byte) : BitVec 32 :=
  data.foldl (fun crc b => crc32cTable ((crc ^^^ b.setWidth 32) &&& 0xFF) ^^^ (crc >>> 8)) crc

/-- The bytes of one 4k block. -/
def blockBytes (m : Mem) : List Byte := (List.range 4096).map m

def be16At (m : Mem) (off : Nat) : BitVec 16 := BitVec.ofNat 16 (be m off 2)

def DRBD_AL_PMEM_MAGIC : BitVec 32 := 0x6aa667a6
def AL_TR_INITIALIZED : BitVec 16 := 0xffff

/-- Where the kernel headers put the fields of a transaction.  Both formats start with their
    magic number; checksum and type have places of their own. -/
structure AlLayout where
  updatesPerTransaction : Nat
  contextPerTransaction : Nat
  trNumberAt : Nat
  crc32cAt : Nat
  transactionTypeAt : Nat
  nUpdatesAt : Nat
  contextSizeAt : Nat
  contextStartSlotNrAt : Nat
  updateSlotNrAt : Nat
  updateExtentNrAt : Nat
  contextAt : Nat
  pmemSlotsAt : Nat
  crc32c_fits : 4 ≤ crc32cAt ∧ crc32cAt + 4 ≤ 4096
  transactionType_fits : 4 ≤ transactionTypeAt ∧ transactionTypeAt + 2 ≤ 4096
  disjoint : crc32cAt + 4 ≤ transactionTypeAt ∨ transactionTypeAt + 2 ≤ crc32cAt

/-- The layout the drivers use since 8.4. -/
def packedAl : AlLayout where
  updatesPerTransaction := 64
  contextPerTransaction := 919
  trNumberAt := 4
  crc32cAt := 8
  transactionTypeAt := 12
  nUpdatesAt := 14
  contextSizeAt := 16
  contextStartSlotNrAt := 18
  updateSlotNrAt := 36
  updateExtentNrAt := 164
  contextAt := 420
  pmemSlotsAt := 4
  crc32c_fits := by decide
  transactionType_fits := by decide
  disjoint := by decide

/-- `struct al_4k_cpu`. -/
structure Al4kCpu where
  magic : BitVec 32
  trNumber : BitVec 32
  crc32c : BitVec 32
  transactionType : BitVec 16
  nUpdates : BitVec 16
  contextSize : BitVec 16
  contextStartSlotNr : BitVec 16
  updateSlotNr : Nat → BitVec 16
  updateExtentNr : Nat → BitVec 32
  context : Nat → BitVec 32
  isValid : Bool

/-- `v84_al_disk_to_cpu`, of the block at the start of `m`. -/
def v84AlDiskToCpu (A : AlLayout) (m : Mem) : Al4kCpu :=
  { magic := be32At m 0
    trNumber := be32At m A.trNumberAt
    crc32c := be32At m A.crc32cAt
    transactionType := be16At m A.transactionTypeAt
    nUpdates := be16At m A.nUpdatesAt
    contextSize := be16At m A.contextSizeAt
    contextStartSlotNr := be16At m A.contextStartSlotNrAt
    updateSlotNr := fun i => be16At m (A.updateSlotNrAt + 2 * i)
    updateExtentNr := fun i => be32At m (A.updateExtentNrAt + 4 * i)
    context := fun i => be32At m (A.contextAt + 4 * i)
    isValid := be32At m 0 = DRBD_AL_MAGIC &&
      be32At m A.crc32cAt = crc32c 0 (blockBytes (setBe m A.crc32cAt 4 0)) }

/-- An initialised slot before its checksum is filled in. -/
def initialBlock0 (A : AlLayout) : Mem :=
  setBe (putBe32 0 DRBD_AL_MAGIC fun _ => 0) A.transactionTypeAt 2 AL_TR_INITIALIZED.toNat

/-- A slot as `initialize_al` writes it. -/
def initialBlock (A : AlLayout) : Mem :=
  putBe32 A.crc32cAt (crc32c 0 (blockBytes (initialBlock0 A))) (initialBlock0 A)

/-- `struct al_sector_cpu`, with the verdict of `v07_al_disk_to_cpu`. -/
structure AlSectorCpu where
  trNumber : BitVec 32
  pos : Nat → BitVec 32
  extent : Nat → BitVec 32
  isValid : Bool

/-- `v07_al_disk_to_cpu`, of the sector at the start of `m`. -/
def v07AlDiskToCpu (m : Mem) : AlSectorCpu :=
  let extent := fun i => be32At m (12 + 8 * i)
  { trNumber := be32At m 4
    pos := fun i => be32At m (8 + 8 * i)
    extent := extent
    isValid := be32At m 0 = DRBD_MAGIC &&
      be32At m 504 = (List.range 62).foldl (fun x i => x ^^^ extent i) 0 }

/-! ## Initialisation -/

/-- `mx`: slots of the log, an `unsigned int` product. -/
def alMx (md : MdCpu) : Nat := (md.alStripes * md.alStripeSize4k).toNat

/-- `initialize_al`.  The `memset` and the loop reach past the buffer when the log is larger. -/
def initializeAl (A : AlLayout) (o : Options) (cfg : Format) : MetaRun Unit :=
  if bufferSize < alMx cfg.md * 4096 then Run.stop .outOfBounds
  else do
    Run.modifyBuf fun buf a =>
      if a < alMx cfg.md * 4096 then
        if cfg.version = .v07 then 0 else initialBlock A (a % 4096)
      else buf a
    pwriteOrDie o cfg (alMx cfg.md * 4096) cfg.alOffset

/-! ## Replay -/

/-- `hot_extent` while it is being filled. -/
abbrev HotArray := Fin AL_EXTENTS_MAX → BitVec 32

/-- "unused" everywhere. -/
def HotArray.unused : HotArray := fun _ => BitVec.allOnes 32

/-- Store an extent; "slot number out of range" is reported and skipped. -/
def HotArray.set (hot : HotArray) (slot : Nat) (extent : BitVec 32) : HotArray :=
  if h : slot < AL_EXTENTS_MAX then Function.update hot ⟨slot, h⟩ extent else hot

/-- What a replay function returns: an error, or the number of valid (update) transactions. -/
inductive ReplayRc where
  | enodata
  | einval
  | found (n : Nat)
  deriving DecidableEq

structure Replay where
  rc : ReplayRc
  hot : HotArray

structure AlCursor where
  i : Nat
  trNumber : BitVec 32

/-- Oldest and newest transaction so far, and how many there were. -/
structure AlScan where
  found : Nat
  oldest : AlCursor
  newest : AlCursor

/-- Look at the valid transaction at ring position `b`.  Transaction numbers are compared by
    their `int` difference, wrapping around. -/
def AlScan.add (s : AlScan) (b : Nat) (trNumber : BitVec 32) : AlScan :=
  if s.found = 0 then ⟨1, ⟨b, trNumber⟩, ⟨b, trNumber⟩⟩
  else
    { found := s.found + 1
      oldest := if (trNumber - s.oldest.trNumber).toInt < 0 then ⟨b, trNumber⟩ else s.oldest
      newest := if 0 < (trNumber - s.newest.trNumber).toInt then ⟨b, trNumber⟩ else s.newest }

/-- Scan ring positions in order. -/
def alScan (trNumber : Nat → BitVec 32) (valid : List Nat) : AlScan :=
  valid.foldl (fun s b => s.add b (trNumber b)) ⟨0, ⟨0, 0⟩, ⟨0, 0⟩⟩

/-- Replay the transactions from the oldest to the newest, around a ring of `mx`. -/
def replayRange (mx : Nat) (s : AlScan) (step : HotArray → Nat → HotArray) (hot : HotArray) :
    HotArray :=
  let newest := if s.newest.i < s.oldest.i then s.newest.i + mx else s.newest.i
  (List.range' s.oldest.i (newest + 1 - s.oldest.i)).foldl (fun hot b => step hot (b % mx)) hot

/-- `al_tr_number_to_on_disk_slot`, in `unsigned int` arithmetic. -/
def alTrNumberToOnDiskSlot (md : MdCpu) (b mx : Nat) : Nat :=
  let t := b % mx
  (t % md.alStripes.toNat * md.alStripeSize4k.toNat + t / md.alStripes.toNat) % 2 ^ 32

/-- The transaction at ring position `b` of the log in the buffer. -/
def alCpu (A : AlLayout) (md : MdCpu) (buf : Mem) (b : Nat) : Al4kCpu :=
  v84AlDiskToCpu A fun a => buf (4096 * alTrNumberToOnDiskSlot md b (alMx md) + a)

/-- The extents of one 8.4 transaction: first its context, then its updates. -/
def replayTransaction84 (A : AlLayout) (t : Al4kCpu) (hot : HotArray) : HotArray :=
  let hot := (List.range A.contextPerTransaction).foldl (fun hot i =>
    let slot := t.contextStartSlotNr.toNat + i
    if t.context i = BitVec.allOnes 32 ∧ t.contextSize.toNat ≤ slot then hot
    else hot.set slot (t.context i)) hot
  (List.range A.updatesPerTransaction).foldl (fun hot i =>
    if t.nUpdates.toNat ≤ i ∧ t.updateSlotNr i = BitVec.allOnes 16 then hot
    else hot.set (t.updateSlotNr i).toNat (t.updateExtentNr i)) hot

/-- `replay_al_84`. -/
def replayAl84 (A : AlLayout) (md : MdCpu) (buf : Mem) (hot : HotArray) : Except Stop Replay :=
  let mx := alMx md
  if ∃ b < mx, bufferSize < (alTrNumberToOnDiskSlot md b mx + 1) * 4096 then .error .outOfBounds
  else
    let valid := (List.range mx).filter fun b => (alCpu A md buf b).isValid
    let updates := valid.filter fun b => (alCpu A md buf b).transactionType ≠ AL_TR_INITIALIZED
    if valid = [] then .ok ⟨.enodata, hot⟩
    else if updates = [] then
      if valid.length = mx ∨ ((alCpu A md buf 0).isValid = false ∧ valid.length = mx - 1) then
        .ok ⟨.found 0, hot⟩
      else .ok ⟨.einval, hot⟩
    else
      let scan := alScan (fun b => (alCpu A md buf b).trNumber) updates
      .ok ⟨.found updates.length, replayRange mx scan (fun hot idx =>
        if (alCpu A md buf idx).isValid = false ∨
            (alCpu A md buf idx).transactionType = AL_TR_INITIALIZED then hot
        else replayTransaction84 A (alCpu A md buf idx) hot) hot⟩

/-- The sector at ring position `b` of an old log. -/
def alSector (buf : Mem) (b : Nat) : AlSectorCpu := v07AlDiskToCpu fun a => buf (512 * b + a)

/-- The extents of one old transaction; the update, at index 0, comes last. -/
def replayTransaction07 (t : AlSectorCpu) (hot : HotArray) : HotArray :=
  (List.range 62).reverse.foldl (fun hot i =>
    if t.extent i = BitVec.allOnes 32 then hot else hot.set (t.pos i).toNat (t.extent i)) hot

/-- `replay_al_07`.  The local arrays have `MD_AL_MAX_SECT_07` entries. -/
def replayAl07 (md : MdCpu) (buf : Mem) (hot : HotArray) : Except Stop Replay :=
  let mx := 1 + (md.alNrExtents + 60).toNat / 61
  if MD_AL_MAX_SECT_07 < mx then .error .outOfBounds
  else
    let valid := (List.range mx).filter fun b => (alSector buf b).isValid
    if valid = [] then .ok ⟨.found 0, hot⟩
    else
      let scan := alScan (fun b => (alSector buf b).trNumber) valid
      .ok ⟨.found valid.length, replayRange mx scan (fun hot idx =>
        if (alSector buf idx).isValid = false then hot
        else replayTransaction07 (alSector buf idx) hot) hot⟩

/-- `replay_al_pmem`. -/
def replayAlPmem (A : AlLayout) (md : MdCpu) (buf : Mem) (hot : HotArray) : Except Stop Replay :=
  if AL_EXTENTS_MAX < md.alNrExtents.toNat ∨
      bufferSize < A.pmemSlotsAt + 4 * md.alNrExtents.toNat then .error .outOfBounds
  else .ok ⟨.found 1, (List.range md.alNrExtents.toNat).foldl (fun hot i =>
    hot.set i (be32At buf (A.pmemSlotsAt + 4 * i))) hot⟩

/-! ## The size of the log -/

theorem alMx_eq (md : MdCpu) :
    alMx md = md.alStripes.toNat * md.alStripeSize4k.toNat % 2 ^ 32 := BitVec.toNat_mul ..

/-- Replay of slots without a valid update leaves the array as it is. -/
theorem replayAl84_noUpdate {A : AlLayout} {md : MdCpu} {buf : Mem} {hot : HotArray} {r : Replay}
    (h : replayAl84 A md buf hot = .ok r)
    (hno : ∀ b < alMx md, (alCpu A md buf b).isValid = true →
      (alCpu A md buf b).transactionType = AL_TR_INITIALIZED) : ∀ n, r.rc = .found n → n = 0 := by
  have hupd : ((List.range (alMx md)).filter fun b => (alCpu A md buf b).isValid).filter
      (fun b => (alCpu A md buf b).transactionType ≠ AL_TR_INITIALIZED) = [] := by
    rw [List.filter_eq_nil_iff]
    intro b hb
    rw [List.mem_filter, List.mem_range] at hb
    simp [hno b hb.1 hb.2]
  intro n hn
  unfold replayAl84 at h
  simp only [hupd, if_true] at h
  split at h
  · cases h
  split at h
  · cases h
    cases hn
  split at h <;> cases h <;> cases hn
  rfl

end DrbdUtils.Meta
