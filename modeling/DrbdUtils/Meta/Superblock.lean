import DrbdUtils.Meta.Layout

/-!
# The superblock on disk

The conversions between `struct md_cpu` and the on-disk formats, reading and writing the
superblock (`*_md_disk_to_cpu()`, `*_md_cpu_to_disk()`), and opening a device
(`v07_style_md_open()`, `v08_check_for_resize()`, `v08_md_open()`).

The 0.7 and 8.x formats are given byte by byte.  `struct meta_data_on_disk_9` is declared in the
kernel headers, so the bytes of its fields are left open: `OnDisk9` is any placement of them in a
4k block.

* `decodeMd_encodeMd` — what is read back of a superblock that was written.
* `v08MdOpen_lastKnown` — what is known when the metadata was found at the last known location.
-/

set_option autoImplicit false

namespace DrbdUtils.Meta

open BlockDevice

/-! ## Formats -/

/-- `memset(cpu, 0, sizeof(*cpu))`. -/
def zeroMd : MdCpu where
  gc := fun _ => 0
  magic := 0
  effectiveSize := 0
  mdSizeSect := 0
  alOffset := 0
  alNrExtents := 0
  bmOffset := 0
  currentUuid := 0
  historyUuids := fun _ => 0
  flags := 0
  deviceUuid := 0
  bmBytesPerBit := 0
  laPeerMaxBioSize := 0
  maxPeers := 0
  nodeId := 0
  peers := fun _ => ⟨0, 0, 0, 0⟩
  alStripes := 0
  alStripeSize4k := 0
  members := 0

def be32At (m : Mem) (off : Nat) : BitVec 32 := BitVec.ofNat 32 (be m off 4)

def be64At (m : Mem) (off : Nat) : BitVec 64 := BitVec.ofNat 64 (be m off 8)

def putBe32 (off : Nat) (v : BitVec 32) (m : Mem) : Mem := setBe m off 4 v.toNat

def putBe64 (off : Nat) (v : BitVec 64) (m : Mem) : Mem := setBe m off 8 v.toNat

@[simp] theorem be32At_putBe32 (m : Mem) (off : Nat) (v : BitVec 32) :
    be32At (putBe32 off v m) off = v := by
  rw [be32At, putBe32, be_setBe_same,
    Nat.mod_eq_of_lt (show v.toNat < 256 ^ 4 by have := v.isLt; omega), BitVec.ofNat_toNat,
    BitVec.setWidth_eq]

@[simp] theorem be64At_putBe64 (m : Mem) (off : Nat) (v : BitVec 64) :
    be64At (putBe64 off v m) off = v := by
  rw [be64At, putBe64, be_setBe_same,
    Nat.mod_eq_of_lt (show v.toNat < 256 ^ 8 by have := v.isLt; omega), BitVec.ofNat_toNat,
    BitVec.setWidth_eq]

theorem be32At_putBe32_ne {m : Mem} {off off' : Nat} {v : BitVec 32}
    (h : off + 4 ≤ off' ∨ off' + 4 ≤ off) : be32At (putBe32 off' v m) off = be32At m off := by
  rw [be32At, putBe32, be_setBe_ne h, be32At]

theorem be32At_putBe64_ne {m : Mem} {off off' : Nat} {v : BitVec 64}
    (h : off + 4 ≤ off' ∨ off' + 8 ≤ off) : be32At (putBe64 off' v m) off = be32At m off := by
  rw [be32At, putBe64, be_setBe_ne h, be32At]

theorem be64At_putBe64_ne {m : Mem} {off off' : Nat} {v : BitVec 64}
    (h : off + 8 ≤ off' ∨ off' + 8 ≤ off) : be64At (putBe64 off' v m) off = be64At m off := by
  rw [be64At, putBe64, be_setBe_ne h, be64At]

/-- `md_disk_07_to_cpu`. -/
def mdDisk07ToCpu (m : Mem) : MdCpu :=
  { zeroMd with
    effectiveSize := be64At m 0 <<< 1
    gc := fun i => be32At m (8 + 4 * i)
    magic := be32At m 28
    mdSizeSect := be32At m 32 <<< 1
    alOffset := be32At m 36
    alNrExtents := be32At m 40
    bmOffset := be32At m 44
    bmBytesPerBit := BitVec.ofNat 32 BM_BLOCK_SIZE_4k
    maxPeers := 1
    alStripes := 1
    alStripeSize4k := 8 }

/-- `md_cpu_to_disk_07`. -/
def mdCpuToDisk07 (md : MdCpu) : Mem :=
  (putBe64 0 (md.effectiveSize >>> 1) <| putBe32 8 (md.gc 0) <| putBe32 12 (md.gc 1) <|
    putBe32 16 (md.gc 2) <| putBe32 20 (md.gc 3) <| putBe32 24 (md.gc 4) <| putBe32 28 md.magic <|
    putBe32 32 (md.mdSizeSect >>> 1) <| putBe32 36 md.alOffset <| putBe32 40 md.alNrExtents <|
    putBe32 44 md.bmOffset fun _ => 0)

/-- "not set? --> default to old fixed size activity log". -/
def defaultStriping (md : MdCpu) : MdCpu :=
  { md with
    alStripes := if md.alStripes = 0 ∧ md.alStripeSize4k = 0 then 1 else md.alStripes
    alStripeSize4k := if md.alStripes = 0 ∧ md.alStripeSize4k = 0 then 8 else md.alStripeSize4k }

/-- `md_disk_08_to_cpu`; the uuid array has four entries. -/
def mdDisk08ToCpu (m : Mem) : MdCpu :=
  defaultStriping { zeroMd with
    effectiveSize := be64At m 0
    currentUuid := be64At m 8
    peers := fun i => if i = 0 then ⟨be64At m 16, 0, 0, 0⟩ else ⟨0, 0, 0, 0⟩
    historyUuids := fun i => if i < HISTORY_UUIDS_V08 then be64At m (24 + 8 * i) else 0
    deviceUuid := be64At m 40
    flags := be32At m 56
    magic := be32At m 60
    mdSizeSect := be32At m 64
    alOffset := be32At m 68
    alNrExtents := be32At m 72
    bmOffset := be32At m 76
    bmBytesPerBit := be32At m 80
    laPeerMaxBioSize := be32At m 84
    maxPeers := 1
    alStripes := be32At m 88
    alStripeSize4k := be32At m 92 }

/-- `md_cpu_to_disk_08`. -/
def mdCpuToDisk08 (md : MdCpu) : Mem :=
  (putBe64 0 md.effectiveSize <| putBe64 8 md.currentUuid <| putBe64 16 (md.peers 0).bitmapUuid <|
    putBe64 24 (md.historyUuids 0) <| putBe64 32 (md.historyUuids 1) <| putBe64 40 md.deviceUuid <|
    putBe32 56 md.flags <| putBe32 60 md.magic <| putBe32 64 md.mdSizeSect <|
    putBe32 68 md.alOffset <| putBe32 72 md.alNrExtents <| putBe32 76 md.bmOffset <|
    putBe32 80 md.bmBytesPerBit <| putBe32 84 md.laPeerMaxBioSize <| putBe32 88 md.alStripes <|
    putBe32 92 md.alStripeSize4k fun _ => 0)

/-- `struct peer_dev_md_on_disk_9`, in host byte order. -/
structure PeerDevMdOnDisk9 where
  bitmapUuid : BitVec 64
  bitmapDagtag : BitVec 64
  flags : BitVec 32
  bitmapIndex : BitVec 32

/-- The fields of `struct meta_data_on_disk_9` that `drbdmeta` knows, in host byte order. -/
structure MetaDataOnDisk9 where
  effectiveSize : BitVec 64
  currentUuid : BitVec 64
  deviceUuid : BitVec 64
  flags : BitVec 32
  members : BitVec 64
  magic : BitVec 32
  mdSizeSect : BitVec 32
  alOffset : BitVec 32
  alNrExtents : BitVec 32
  bmOffset : BitVec 32
  bmBytesPerBit : BitVec 32
  laPeerMaxBioSize : BitVec 32
  bmMaxPeers : BitVec 32
  nodeId : BitVec 32
  alStripes : BitVec 32
  alStripeSize4k : BitVec 32
  peers : Fin DRBD_PEERS_MAX → PeerDevMdOnDisk9
  historyUuids : Fin HISTORY_UUIDS → BitVec 64

/-- Where the kernel headers put these fields in a 4k block: the fields do not overlap, so that
    each is loaded as it was stored, and the size comes first. -/
structure OnDisk9 where
  store : MetaDataOnDisk9 → Mem
  load : Mem → MetaDataOnDisk9
  load_congr : ∀ m m' : Mem, (∀ a < 4096, m a = m' a) → load m = load m'
  load_store : ∀ disk, load (store disk) = disk
  effectiveSize_first : ∀ m, (load m).effectiveSize = be64At m 0

/-- `md_disk_09_to_cpu`. -/
def mdDisk09ToCpu (disk : MetaDataOnDisk9) : MdCpu where
  gc := fun _ => 0
  magic := disk.magic
  effectiveSize := disk.effectiveSize
  mdSizeSect := disk.mdSizeSect
  alOffset := disk.alOffset
  alNrExtents := disk.alNrExtents
  bmOffset := disk.bmOffset
  currentUuid := disk.currentUuid
  historyUuids := disk.historyUuids
  flags := disk.flags
  deviceUuid := disk.deviceUuid
  bmBytesPerBit := disk.bmBytesPerBit
  laPeerMaxBioSize := disk.laPeerMaxBioSize
  maxPeers := if DRBD_PEERS_MAX - 1 < disk.bmMaxPeers.toNat then
    BitVec.ofNat 32 (DRBD_PEERS_MAX - 1) else disk.bmMaxPeers
  nodeId := disk.nodeId
  peers := fun p =>
    ⟨(disk.peers p).bitmapUuid, (disk.peers p).bitmapDagtag, (disk.peers p).flags,
      (disk.peers p).bitmapIndex⟩
  alStripes := disk.alStripes
  alStripeSize4k := disk.alStripeSize4k
  members := disk.members

/-- `md_cpu_to_disk_09`. -/
def mdCpuToDisk09 (cpu : MdCpu) : MetaDataOnDisk9 where
  effectiveSize := cpu.effectiveSize
  currentUuid := cpu.currentUuid
  deviceUuid := cpu.deviceUuid
  flags := cpu.flags
  members := cpu.members
  magic := cpu.magic
  mdSizeSect := cpu.mdSizeSect
  alOffset := cpu.alOffset
  alNrExtents := cpu.alNrExtents
  bmOffset := cpu.bmOffset
  bmBytesPerBit := cpu.bmBytesPerBit
  laPeerMaxBioSize := cpu.laPeerMaxBioSize
  bmMaxPeers := cpu.maxPeers
  nodeId := cpu.nodeId
  alStripes := cpu.alStripes
  alStripeSize4k := cpu.alStripeSize4k
  peers := fun p =>
    ⟨(cpu.peers p).bitmapUuid, (cpu.peers p).bitmapDagtag, (cpu.peers p).flags,
      (cpu.peers p).bitmapIndex⟩
  historyUuids := cpu.historyUuids

section Codec

variable (K : OnDisk9)

/-- The first 4k of the buffer as a superblock. -/
def decodeMd : MdFormat → Mem → MdCpu
  | .v07, m => mdDisk07ToCpu m
  | .v08, m => mdDisk08ToCpu m
  | .v09, m => mdDisk09ToCpu (K.load m)

def encodeMd : MdFormat → MdCpu → Mem
  | .v07, md => mdCpuToDisk07 md
  | .v08, md => mdCpuToDisk08 md
  | .v09, md => K.store (mdCpuToDisk09 md)

/-- What the 0.7 format keeps of a superblock. -/
def normalMd07 (md : MdCpu) : MdCpu :=
  { zeroMd with
    effectiveSize := md.effectiveSize >>> 1 <<< 1
    gc := md.gc
    magic := md.magic
    mdSizeSect := md.mdSizeSect >>> 1 <<< 1
    alOffset := md.alOffset
    alNrExtents := md.alNrExtents
    bmOffset := md.bmOffset
    bmBytesPerBit := BitVec.ofNat 32 BM_BLOCK_SIZE_4k
    maxPeers := 1
    alStripes := 1
    alStripeSize4k := 8 }

/-- What the 8.x formats keep: one peer, two history uuids. -/
def normalMd08 (md : MdCpu) : MdCpu :=
  defaultStriping { md with
    gc := fun _ => 0
    peers := fun i => if i = 0 then ⟨(md.peers 0).bitmapUuid, 0, 0, 0⟩ else ⟨0, 0, 0, 0⟩
    historyUuids := fun i => if i < HISTORY_UUIDS_V08 then md.historyUuids i else 0
    maxPeers := 1
    nodeId := 0
    members := 0 }

/-- What the 9 format keeps: no generation counters, and at most `DRBD_PEERS_MAX - 1` peers. -/
def normalMd09 (md : MdCpu) : MdCpu :=
  { md with
    gc := fun _ => 0
    maxPeers := if DRBD_PEERS_MAX - 1 < md.maxPeers.toNat then BitVec.ofNat 32 (DRBD_PEERS_MAX - 1)
      else md.maxPeers }

def normalMd : MdFormat → MdCpu → MdCpu
  | .v07 => normalMd07
  | .v08 => normalMd08
  | .v09 => normalMd09

theorem decode_encode_07 (md : MdCpu) : mdDisk07ToCpu (mdCpuToDisk07 md) = normalMd07 md := by
  have hgc : (fun i : Fin GEN_CNT_SIZE => be32At (mdCpuToDisk07 md) (8 + 4 * i)) = md.gc := by
    funext i
    unfold mdCpuToDisk07
    have hi : i = 0 ∨ i = 1 ∨ i = 2 ∨ i = 3 ∨ i = 4 := by revert i; decide
    rcases hi with rfl | rfl | rfl | rfl | rfl <;>
      simp (disch := simp) [GEN_CNT_SIZE, be32At_putBe32_ne, be32At_putBe64_ne]
  rw [mdDisk07ToCpu, hgc]
  simp (disch := simp) [mdCpuToDisk07, normalMd07, be32At_putBe32_ne, be32At_putBe64_ne]

theorem decode_encode_08 (md : MdCpu) : mdDisk08ToCpu (mdCpuToDisk08 md) = normalMd08 md := by
  have hist : (fun i : Fin HISTORY_UUIDS => if (i : Nat) < HISTORY_UUIDS_V08 then
      be64At (mdCpuToDisk08 md) (24 + 8 * i) else 0) =
      fun i : Fin HISTORY_UUIDS => if (i : Nat) < HISTORY_UUIDS_V08 then md.historyUuids i else 0 := by
    funext i
    by_cases h : (i : Nat) < HISTORY_UUIDS_V08
    · rw [if_pos h, if_pos h]
      have hi : i = 0 ∨ i = 1 := by revert i; decide
      rcases hi with rfl | rfl <;>
        simp (disch := simp) [mdCpuToDisk08, be64At_putBe64_ne]
    · rw [if_neg h, if_neg h]
  rw [mdDisk08ToCpu, hist]
  simp (disch := simp) [mdCpuToDisk08, normalMd08, zeroMd, be32At_putBe32_ne, be32At_putBe64_ne,
    be64At_putBe64_ne]

theorem decode_encode_09 (md : MdCpu) : mdDisk09ToCpu (mdCpuToDisk09 md) = normalMd09 md := rfl

/-- **A superblock reads back as it was written**, up to what its format keeps. -/
theorem decodeMd_encodeMd (f : MdFormat) (md : MdCpu) :
    decodeMd K f (encodeMd K f md) = normalMd f md := by
  cases f with
  | v07 => exact decode_encode_07 md
  | v08 => exact decode_encode_08 md
  | v09 => rw [decodeMd, encodeMd, K.load_store, decode_encode_09, normalMd]

/-- A superblock is 4k long. -/
theorem decodeMd_congr {f : MdFormat} {m m' : Mem} (h : ∀ a < 4096, m a = m' a) :
    decodeMd K f m = decodeMd K f m' := by
  have h32 : ∀ off, off + 4 ≤ 4096 → be32At m off = be32At m' off := fun off hoff => by
    rw [be32At, be32At, be_congr 4 fun a _ _ => h a (by omega)]
  have h64 : ∀ off, off + 8 ≤ 4096 → be64At m off = be64At m' off := fun off hoff => by
    rw [be64At, be64At, be_congr 8 fun a _ _ => h a (by omega)]
  cases f with
  | v07 =>
    have hgc : (fun i : Fin GEN_CNT_SIZE => be32At m (8 + 4 * i)) =
        fun i : Fin GEN_CNT_SIZE => be32At m' (8 + 4 * i) := by
      funext i
      exact h32 _ (by have := i.isLt; simp only [GEN_CNT_SIZE] at this; omega)
    simp (disch := omega) only [decodeMd, mdDisk07ToCpu, hgc, h32, h64]
  | v08 =>
    have hist : (fun i : Fin HISTORY_UUIDS => if (i : Nat) < HISTORY_UUIDS_V08 then
        be64At m (24 + 8 * i) else 0) = fun i : Fin HISTORY_UUIDS =>
        if (i : Nat) < HISTORY_UUIDS_V08 then be64At m' (24 + 8 * i) else 0 := by
      funext i
      rw [h64 _ (by have := i.isLt; simp only [HISTORY_UUIDS] at this; omega)]
    simp (disch := omega) only [decodeMd, mdDisk08ToCpu, hist, h32, h64]
  | v09 => rw [decodeMd, decodeMd, K.load_congr m m' h]

/-- A superblock that was read keeps all its fields when it is written. -/
theorem normalMd_decodeMd {f : MdFormat} (hf : f ≠ .v07) (m : Mem) :
    normalMd f (decodeMd K f m) = decodeMd K f m := by
  cases f with
  | v07 => exact absurd rfl hf
  | v08 =>
    refine MdCpu.ext rfl rfl rfl rfl rfl rfl rfl rfl ?_ rfl rfl rfl rfl rfl rfl ?_ ?_ ?_ rfl
    · funext i
      by_cases hi : (i : Nat) < HISTORY_UUIDS_V08 <;>
        simp [normalMd, normalMd08, decodeMd, mdDisk08ToCpu, defaultStriping, hi]
    · funext i
      by_cases hi : i = 0 <;>
        simp [normalMd, normalMd08, decodeMd, mdDisk08ToCpu, defaultStriping, hi]
    · simp only [normalMd, normalMd08, decodeMd, mdDisk08ToCpu, defaultStriping]
      grind
    · simp only [normalMd, normalMd08, decodeMd, mdDisk08ToCpu, defaultStriping]
      grind
  | v09 =>
    refine MdCpu.ext rfl rfl rfl rfl rfl rfl rfl rfl rfl rfl rfl rfl rfl ?_ rfl rfl rfl rfl rfl
    simp only [normalMd, normalMd09, decodeMd, mdDisk09ToCpu]
    split
    · split <;> rfl
    · rfl

/-- Sizes, offsets, flags and magic are kept by every format since 8.0. -/
theorem normalMd_with {f : MdFormat} (hf : f ≠ .v07) (md : MdCpu) (effectiveSize : BitVec 64)
    (mdSizeSect alOffset bmOffset flags magic : BitVec 32) :
    normalMd f { md with
        effectiveSize := effectiveSize, mdSizeSect := mdSizeSect, alOffset := alOffset,
        bmOffset := bmOffset, flags := flags, magic := magic } =
      { normalMd f md with
        effectiveSize := effectiveSize, mdSizeSect := mdSizeSect, alOffset := alOffset,
        bmOffset := bmOffset, flags := flags, magic := magic } := by
  cases f with
  | v07 => exact absurd rfl hf
  | v08 => rfl
  | v09 => rfl

/-! ## Reading and writing the superblock -/

/-- `v07_md_disk_to_cpu`, `v08_md_disk_to_cpu` and `v09_md_disk_to_cpu`; `none` when the block is
    not valid. -/
def mdDiskToCpu (cfg : Format) : MetaRun (Option Format) := do
  preadOrDie cfg 4096 cfg.mdOffset
  let buf ← Run.getBuf
  let md := decodeMd K cfg.version buf
  let ok ← liftExcept (isValidMd cfg.version md cfg.mdIndex cfg.bdSize)
  pure (if ok then some { cfg with md := md } else none)

/-- `v07_md_cpu_to_disk`, `v08_md_cpu_to_disk` and `v09_md_cpu_to_disk`; `false` when the
    superblock to write is not valid. -/
def mdCpuToDisk (o : Options) (cfg : Format) : MetaRun Bool := do
  let ok ← liftExcept (isValidMd cfg.version cfg.md cfg.mdIndex cfg.bdSize)
  if ok then do
    Run.modifyBuf fun buf => blit (encodeMd K cfg.version cfg.md) 0 buf 0 4096
    pwriteOrDie o cfg 4096 cfg.mdOffset
    pure true
  else pure false

theorem mdCpuToDisk_ok {o : Options} {cfg : Format} (hd : o.dryRun = false)
    (hok : isValidMd cfg.version cfg.md cfg.mdIndex cfg.bdSize = .ok true)
    (hv : validateOffsets o cfg 4096 cfg.mdOffset = true) (hb : cfg.mdOffset + 4096 ≤ cfg.bdSize)
    (w : World) :
    ∃ w', mdCpuToDisk K o cfg w = (.ok true, w') ∧
      w'.disk = blit (encodeMd K cfg.version cfg.md) 0 w.disk cfg.mdOffset 4096 := by
  refine ⟨(w.mapBuf fun buf => blit (encodeMd K cfg.version cfg.md) 0 buf 0 4096).write 4096
    cfg.mdOffset, ?_, ?_⟩
  · unfold mdCpuToDisk
    rw [hok, Run.bind_ok (show liftExcept (.ok true) w = _ from rfl), if_pos rfl,
      Run.bind_ok (Run.modifyBuf_apply _ _), Run.bind_ok (pwriteOrDie_ok hv hd hb _)]
    rfl
  · funext a
    rw [World.write_disk, World.mapBuf_disk, World.mapBuf_buf]
    by_cases ha : cfg.mdOffset ≤ a ∧ a < cfg.mdOffset + 4096
    · rw [blit_in ha.1 ha.2, blit_in ha.1 ha.2, blit_in (by omega) (by omega)]
      congr 1
      omega
    · rw [blit_out (by omega), blit_out (by omega)]

/-! ## Opening a device -/

/-- `enum md_open_rc`. -/
inductive MdOpenRc where
  | validMdFound
  | noValidMdFound
  | validMdFoundAtLastKnownLocation
  deriving DecidableEq

/-- `v07_style_md_open`, behind `v07_style_md_open_device`. -/
def v07StyleMdOpen (cfg : Format) : MetaRun (MdOpenRc × Format) :=
  if cfg.bdSize < SO_MUCH then Run.stop (.exit 10)
  else
    let cfg := { cfg with mdOffset := v07StyleMdGetByteOffset cfg.mdIndex cfg.bdSize }
    if cfg.bdSize - 4096 < cfg.mdOffset then Run.stop (.exit 10)
    else do
      let found ← mdDiskToCpu K cfg
      match found with
      | none => pure (.noValidMdFound, cfg)
      | some cfg => do
        let cfg := setByteOffsets cfg cfg.md
        let maxUsableSect ← liftExcept (maxUsableSectors cfg)
        let cfg ← liftExcept (clipEffectiveSizeAndBmBytes { cfg with maxUsableSect := maxUsableSect })
        pure (.validMdFound, cfg)

/-- `v08_check_for_resize`; `lk` is what `lk_bdev_load()` finds.  The source reads the old
    superblock into the second 4k of the buffer, the first being of no use to anybody. -/
def v08CheckForResize (o : Options) (lk : Option (Nat × BitVec 64)) (cfg : Format) :
    MetaRun Format := do
  assert (cfg.md.magic = 0)
  if cfg.version = .v07 ∨ cfg.mdIndex ≠ .flexInt then pure cfg
  else match lk with
    | none => pure cfg
    | some (size, uuid) =>
      let cfg := { cfg with lkBdSize := size, lkBdUuid := uuid }
      if size = cfg.bdSize then pure cfg
      else
        let flexOffset := v07StyleMdGetByteOffset .flexInt size
        if flexOffset < cfg.bdSize then do
          preadOrDie cfg 4096 flexOffset
          let buf ← Run.getBuf
          let mdTest := decodeMd K cfg.version buf
          let found ← liftExcept (isValidMd cfg.version mdTest .flexInt size)
          let found := found && (uuid = 0 || mdTest.deviceUuid = uuid || o.force)
          pure (if found then { cfg with md := mdTest } else cfg)
        else pure cfg

/-- `v08_md_open`. -/
def v08MdOpen (o : Options) (lk : Option (Nat × BitVec 64)) (cfg : Format) :
    MetaRun (MdOpenRc × Format) := do
  let found ← v07StyleMdOpen K cfg
  if found.1 = .validMdFound then pure found
  else do
    let cfg ← v08CheckForResize K o lk found.2
    if cfg.lkBdSize = 0 ∨ cfg.md.magic = 0 then pure (.noValidMdFound, cfg)
    else pure (.validMdFoundAtLastKnownLocation, cfg)

/-- Where the superblock was when the device had its last known size. -/
def lastKnownOffset (cfg : Format) : Nat := v07StyleMdGetByteOffset .flexInt cfg.lkBdSize

/-- What is known of an opened device whose metadata was found at the last known location. -/
structure OpenedAtLastKnown (cfg : Format) (disk : Mem) : Prop where
  version : cfg.version ≠ .v07
  mdIndex : cfg.mdIndex = .flexInt
  mdOffset : cfg.mdOffset = v07StyleMdGetByteOffset .flexInt cfg.bdSize
  size : SO_MUCH ≤ cfg.bdSize
  moved : cfg.lkBdSize ≠ cfg.bdSize
  accessible : lastKnownOffset cfg < cfg.bdSize
  valid : isValidMd cfg.version cfg.md .flexInt cfg.lkBdSize = .ok true
  md : cfg.md = decodeMd K cfg.version fun a => disk (lastKnownOffset cfg + a)

theorem of_liftExcept_ok {α : Type} {x : Except Stop α} {w w' : World} {a : α}
    (h : liftExcept x w = (.ok a, w')) : x = .ok a ∧ w' = w := by
  unfold liftExcept at h
  exact ⟨congrArg Prod.fst h, (congrArg Prod.snd h).symm⟩

theorem decodeMd_read (f : MdFormat) (w : World) (off : Nat) :
    decodeMd K f (w.read 4096 off).buf = decodeMd K f fun a => w.disk (off + a) :=
  decodeMd_congr K fun a ha => by rw [World.read_buf, blit_in (by omega) (by omega), Nat.sub_zero]

/-- A superblock that was written is valid, and on the device. -/
theorem of_mdCpuToDisk_ok {o : Options} {cfg : Format} {w w' : World} (hd : o.dryRun = false)
    (h : mdCpuToDisk K o cfg w = (.ok true, w')) :
    isValidMd cfg.version cfg.md cfg.mdIndex cfg.bdSize = .ok true ∧
      cfg.mdOffset + 4096 ≤ cfg.bdSize ∧
      ∀ a < 4096, w'.disk (cfg.mdOffset + a) = encodeMd K cfg.version cfg.md a := by
  obtain ⟨ok, w1, hlift, h⟩ := Run.of_bind_ok h
  obtain ⟨hok, rfl⟩ := of_liftExcept_ok hlift
  cases ok with
  | false => cases h
  | true =>
    obtain ⟨u, w2, hbuf, h⟩ := Run.of_bind_ok h
    cases hbuf
    obtain ⟨u, w3, hwrite, h⟩ := Run.of_bind_ok h
    obtain ⟨_, hin, rfl⟩ := of_pwriteOrDie_ok hd hwrite
    cases h
    refine ⟨hok, hin, fun a ha => ?_⟩
    rw [World.write_disk, blit_in (by omega) (by omega), World.mapBuf_buf,
      blit_in (by omega) (by omega)]
    congr 1
    omega

theorem mdDiskToCpu_ok {cfg : Format} {ok : Bool} (hb : cfg.mdOffset + 4096 ≤ cfg.bdSize) (w : World)
    (hok : isValidMd cfg.version (decodeMd K cfg.version fun a => w.disk (cfg.mdOffset + a))
      cfg.mdIndex cfg.bdSize = .ok ok) :
    mdDiskToCpu K cfg w = (.ok (if ok then some { cfg with
      md := decodeMd K cfg.version fun a => w.disk (cfg.mdOffset + a) } else none),
      w.read 4096 cfg.mdOffset) := by
  unfold mdDiskToCpu
  rw [Run.bind_ok (preadOrDie_ok hb w), Run.bind_ok (Run.getBuf_apply _), decodeMd_read, hok]
  rfl

/-- Reading a superblock writes nothing. -/
theorem of_mdDiskToCpu_ok {cfg : Format} {w w' : World} {r : Option Format}
    (h : mdDiskToCpu K cfg w = (.ok r, w')) :
    cfg.mdOffset + 4096 ≤ cfg.bdSize ∧ w' = w.read 4096 cfg.mdOffset ∧
      ∃ ok, isValidMd cfg.version (decodeMd K cfg.version fun a => w.disk (cfg.mdOffset + a))
          cfg.mdIndex cfg.bdSize = .ok ok ∧
        r = if ok then some { cfg with
          md := decodeMd K cfg.version fun a => w.disk (cfg.mdOffset + a) } else none := by
  obtain ⟨u, w1, hread, h⟩ := Run.of_bind_ok h
  obtain ⟨hb, rfl⟩ := of_preadOrDie_ok hread
  obtain ⟨buf, w2, hbuf, h⟩ := Run.of_bind_ok h
  cases hbuf
  obtain ⟨ok, w3, hlift, h⟩ := Run.of_bind_ok h
  obtain ⟨hok, rfl⟩ := of_liftExcept_ok hlift
  cases h
  rw [decodeMd_read] at hok ⊢
  exact ⟨hb, rfl, ok, hok, rfl⟩

/-- A device without valid metadata is left with its superblock position set, and nothing else. -/
theorem of_v07StyleMdOpen_notFound {cfg cfg' : Format} {rc : MdOpenRc} {w w' : World}
    (h : v07StyleMdOpen K cfg w = (.ok (rc, cfg'), w')) (hrc : rc ≠ .validMdFound) :
    SO_MUCH ≤ cfg.bdSize ∧ w'.disk = w.disk ∧
      isValidMd cfg.version (decodeMd K cfg.version fun a =>
        w.disk (v07StyleMdGetByteOffset cfg.mdIndex cfg.bdSize + a)) cfg.mdIndex cfg.bdSize =
          .ok false ∧
      cfg' = { cfg with mdOffset := v07StyleMdGetByteOffset cfg.mdIndex cfg.bdSize } := by
  unfold v07StyleMdOpen at h
  split at h
  · cases h
  · rename_i hsize
    simp only at h
    split at h
    · cases h
    · obtain ⟨found, w1, hfound, h⟩ := Run.of_bind_ok h
      obtain ⟨_, rfl, ok, hok, rfl⟩ := of_mdDiskToCpu_ok K hfound
      cases ok with
      | false =>
        cases h
        exact ⟨Nat.not_lt.1 hsize, rfl, hok, rfl⟩
      | true =>
        obtain ⟨m, w2, _, h⟩ := Run.of_bind_ok h
        obtain ⟨cfg2, w3, _, h⟩ := Run.of_bind_ok h
        cases h
        exact absurd rfl hrc

/-- What `v08_check_for_resize` has checked when it found something. -/
theorem of_v08CheckForResize_found {o : Options} {lk : Option (Nat × BitVec 64)} {cfg cfg' : Format}
    {w w' : World} (h : v08CheckForResize K o lk cfg w = (.ok cfg', w')) (hfound : cfg'.md.magic ≠ 0)
    (hsize : SO_MUCH ≤ cfg.bdSize)
    (hoff : cfg.mdOffset = v07StyleMdGetByteOffset cfg.mdIndex cfg.bdSize) :
    OpenedAtLastKnown K cfg' w'.disk := by
  unfold v08CheckForResize at h
  obtain ⟨u, w1, hassert, h1⟩ := Run.of_bind_ok h
  obtain ⟨hzero, hw⟩ := assert_ok hassert
  subst hw
  by_cases hkind : cfg.version = .v07 ∨ cfg.mdIndex ≠ .flexInt
  · rw [if_pos hkind] at h1
    cases h1
    exact absurd hzero hfound
  rw [if_neg hkind] at h1
  rw [not_or, not_not] at hkind
  match lk with
  | none =>
    cases h1
    exact absurd hzero hfound
  | some (size, uuid) =>
    simp only at h1
    by_cases hne : size = cfg.bdSize
    · rw [if_pos hne] at h1
      cases h1
      exact absurd hzero hfound
    rw [if_neg hne] at h1
    by_cases hacc : v07StyleMdGetByteOffset .flexInt size < cfg.bdSize
    · rw [if_pos hacc] at h1
      obtain ⟨u, w2, hread, h2⟩ := Run.of_bind_ok h1
      obtain ⟨_, rfl⟩ := of_preadOrDie_ok hread
      obtain ⟨buf, w3, hbuf, h3⟩ := Run.of_bind_ok h2
      cases hbuf
      obtain ⟨valid, w4, hlift, h4⟩ := Run.of_bind_ok h3
      obtain ⟨hvalid, rfl⟩ := of_liftExcept_ok hlift
      cases h4
      by_cases hok : (valid && (uuid = 0 ||
          (decodeMd K cfg.version (w1.read 4096 (v07StyleMdGetByteOffset .flexInt size)).buf).deviceUuid
            = uuid || o.force)) = true
      · rw [if_pos hok]
        rw [Bool.and_eq_true] at hok
        rw [hok.1] at hvalid
        refine ⟨hkind.1, hkind.2, ?_, hsize, hne, hacc, hvalid, ?_⟩
        · rw [hoff, hkind.2]
        · exact decodeMd_read K _ _ _
      · rw [if_neg hok] at hfound
        exact absurd hzero hfound
    · rw [if_neg hacc] at h1
      cases h1
      exact absurd hzero hfound

/-- **Metadata found at the last known location**: flexible internal metadata of the 8.x or 9
    format, valid for the last known size. -/
theorem v08MdOpen_lastKnown {o : Options} {lk : Option (Nat × BitVec 64)} {cfg₀ cfg : Format}
    {w₀ w : World}
    (h : v08MdOpen K o lk cfg₀ w₀ = (.ok (.validMdFoundAtLastKnownLocation, cfg), w)) :
    OpenedAtLastKnown K cfg w.disk := by
  obtain ⟨⟨rc, cfg1⟩, w1, hopen, h1⟩ := Run.of_bind_ok h
  by_cases hrc : rc = .validMdFound
  · subst hrc
    rw [if_pos rfl] at h1
    cases h1
  · obtain ⟨hsize, _, _, hcfg1⟩ := of_v07StyleMdOpen_notFound K hopen hrc
    rw [if_neg hrc] at h1
    obtain ⟨cfg2, w2, hcheck, h2⟩ := Run.of_bind_ok h1
    by_cases hmagic : cfg2.lkBdSize = 0 ∨ cfg2.md.magic = 0
    · rw [if_pos hmagic] at h2
      cases h2
    · rw [if_neg hmagic] at h2
      rw [not_or] at hmagic
      cases h2
      subst hcfg1
      exact of_v08CheckForResize_found K hcheck hmagic.2 hsize rfl

/-- Conversely, a device whose end holds nothing valid and whose last known location does. -/
theorem v08MdOpen_found {o : Options} {size : Nat} {uuid : BitVec 64} {cfg₀ : Format} {w₀ : World}
    (hver : cfg₀.version ≠ .v07) (hidx : cfg₀.mdIndex = .flexInt) (hmagic : cfg₀.md.magic = 0)
    (hbd : SO_MUCH ≤ cfg₀.bdSize) (hsmall : cfg₀.bdSize < 2 ^ 64)
    (hnew : isValidMd cfg₀.version (decodeMd K cfg₀.version fun a =>
      w₀.disk (v07StyleMdGetByteOffset .flexInt cfg₀.bdSize + a)) .flexInt cfg₀.bdSize = .ok false)
    (hsize : size ≠ 0) (hne : size ≠ cfg₀.bdSize)
    (hacc : v07StyleMdGetByteOffset .flexInt size + 4096 ≤ cfg₀.bdSize)
    (hold : isValidMd cfg₀.version (decodeMd K cfg₀.version fun a =>
      w₀.disk (v07StyleMdGetByteOffset .flexInt size + a)) .flexInt size = .ok true)
    (hfound : (decodeMd K cfg₀.version fun a =>
      w₀.disk (v07StyleMdGetByteOffset .flexInt size + a)).magic ≠ 0)
    (huuid : uuid = 0 ∨ (decodeMd K cfg₀.version fun a =>
      w₀.disk (v07StyleMdGetByteOffset .flexInt size + a)).deviceUuid = uuid ∨ o.force = true) :
    ∃ w, w.disk = w₀.disk ∧ v08MdOpen K o (some (size, uuid)) cfg₀ w₀ =
      (.ok (.validMdFoundAtLastKnownLocation, { cfg₀ with
        mdOffset := v07StyleMdGetByteOffset .flexInt cfg₀.bdSize
        lkBdSize := size
        lkBdUuid := uuid
        md := decodeMd K cfg₀.version fun a =>
          w₀.disk (v07StyleMdGetByteOffset .flexInt size + a) }), w) := by
  have hoff : v07StyleMdGetByteOffset .flexInt cfg₀.bdSize + 4096 ≤ cfg₀.bdSize := by
    unfold SO_MUCH at hbd
    unfold v07StyleMdGetByteOffset roundDown toU64
    simp only
    omega
  refine ⟨(w₀.read 4096 (v07StyleMdGetByteOffset .flexInt cfg₀.bdSize)).read 4096
    (v07StyleMdGetByteOffset .flexInt size), rfl, ?_⟩
  have hopen : v07StyleMdOpen K cfg₀ w₀ = (.ok (.noValidMdFound,
      { cfg₀ with mdOffset := v07StyleMdGetByteOffset .flexInt cfg₀.bdSize }),
      w₀.read 4096 (v07StyleMdGetByteOffset .flexInt cfg₀.bdSize)) := by
    have hflex : v07StyleMdGetByteOffset cfg₀.mdIndex cfg₀.bdSize =
        v07StyleMdGetByteOffset .flexInt cfg₀.bdSize := by rw [hidx]
    have hvalid : isValidMd cfg₀.version (decodeMd K cfg₀.version fun a =>
        w₀.disk (v07StyleMdGetByteOffset .flexInt cfg₀.bdSize + a)) cfg₀.mdIndex cfg₀.bdSize =
        .ok false := by rw [hidx]; exact hnew
    unfold v07StyleMdOpen
    rw [if_neg (by omega), hflex]
    simp only
    rw [if_neg (by omega), Run.bind_ok (mdDiskToCpu_ok K hoff w₀ hvalid)]
    rfl
  unfold v08MdOpen
  rw [Run.bind_ok hopen, if_neg (show MdOpenRc.noValidMdFound ≠ .validMdFound by decide)]
  have hcheck : v08CheckForResize K o (some (size, uuid))
      { cfg₀ with mdOffset := v07StyleMdGetByteOffset .flexInt cfg₀.bdSize }
      (w₀.read 4096 (v07StyleMdGetByteOffset .flexInt cfg₀.bdSize)) =
      (.ok { cfg₀ with
        mdOffset := v07StyleMdGetByteOffset .flexInt cfg₀.bdSize
        lkBdSize := size
        lkBdUuid := uuid
        md := decodeMd K cfg₀.version fun a =>
          w₀.disk (v07StyleMdGetByteOffset .flexInt size + a) },
      (w₀.read 4096 (v07StyleMdGetByteOffset .flexInt cfg₀.bdSize)).read 4096
        (v07StyleMdGetByteOffset .flexInt size)) := by
    unfold v08CheckForResize
    rw [Run.bind_ok (assert_pos hmagic _), if_neg (by rw [not_or, not_not]; exact ⟨hver, hidx⟩)]
    simp only
    rw [if_neg hne, if_pos (by omega), Run.bind_ok (preadOrDie_ok (by exact hacc) _),
      Run.bind_ok (Run.getBuf_apply _), decodeMd_read, World.read_disk, hold,
      Run.bind_ok (show liftExcept (.ok true) _ = _ from rfl), if_pos (by simpa [or_assoc] using huuid)]
    rfl
  rw [Run.bind_ok hcheck, if_neg (by rw [not_or]; exact ⟨hsize, hfound⟩)]
  rfl

end Codec

/-! ## A placement of the 9 format -/

/-- Byte `j` of a big-endian field of `n` bytes. -/
def beByte (n v j : Nat) : Byte := BitVec.ofNat 8 (v / 256 ^ (n - 1 - j))

theorem be_of_bytes {m : Mem} {off n v : Nat} (h : ∀ j < n, m (off + j) = beByte n v j) :
    be m off n = v % 256 ^ n := by
  rw [← be_setBe_same m off n v]
  refine be_congr n fun a h1 h2 => ?_
  have := h (a - off) (by omega)
  rw [show off + (a - off) = a by omega] at this
  rw [this, setBe, if_pos ⟨h1, h2⟩, beByte]
  congr 3
  omega

theorem be64At_of_bytes {m : Mem} {off : Nat} {v : BitVec 64}
    (h : ∀ j < 8, m (off + j) = beByte 8 v.toNat j) : be64At m off = v := by
  rw [be64At, be_of_bytes h, Nat.mod_eq_of_lt (show v.toNat < 256 ^ 8 by have := v.isLt; omega),
    BitVec.ofNat_toNat, BitVec.setWidth_eq]

theorem be32At_of_bytes {m : Mem} {off : Nat} {v : BitVec 32}
    (h : ∀ j < 4, m (off + j) = beByte 4 v.toNat j) : be32At m off = v := by
  rw [be32At, be_of_bytes h, Nat.mod_eq_of_lt (show v.toNat < 256 ^ 4 by have := v.isLt; omega),
    BitVec.ofNat_toNat, BitVec.setWidth_eq]

theorem be64At_putBe32_ne {m : Mem} {off off' : Nat} {v : BitVec 32}
    (h : off + 8 ≤ off' ∨ off' + 4 ≤ off) : be64At (putBe32 off' v m) off = be64At m off := by
  rw [be64At, putBe32, be_setBe_ne h, be64At]

/-- One peer slot: 32 bytes, the last eight reserved. -/
def peerByte (p : PeerDevMdOnDisk9) (j : Nat) : Byte :=
  if j < 8 then beByte 8 p.bitmapUuid.toNat j
  else if j < 16 then beByte 8 p.bitmapDagtag.toNat (j - 8)
  else if j < 20 then beByte 4 p.flags.toNat (j - 16)
  else if j < 24 then beByte 4 p.bitmapIndex.toNat (j - 20)
  else 0

/-- The arrays at the end of the block: peers from byte 128 on, history uuids behind them. -/
def arraysByte (disk : MetaDataOnDisk9) (a : Nat) : Byte :=
  if 128 ≤ a ∧ a < 1152 then peerByte (disk.peers (Fin.ofNat _ ((a - 128) / 32))) ((a - 128) % 32)
  else if 1152 ≤ a ∧ a < 1408 then
    beByte 8 (disk.historyUuids (Fin.ofNat _ ((a - 1152) / 8))).toNat ((a - 1152) % 8)
  else 0

theorem arraysByte_peer (disk : MetaDataOnDisk9) (p : Fin DRBD_PEERS_MAX) {j : Nat} (hj : j < 32) :
    arraysByte disk (128 + 32 * p + j) = peerByte (disk.peers p) j := by
  have hp := p.isLt
  simp only [DRBD_PEERS_MAX] at hp
  rw [arraysByte, if_pos (by omega), show (128 + 32 * (p : Nat) + j - 128) / 32 = p by omega,
    show (128 + 32 * (p : Nat) + j - 128) % 32 = j by omega]
  congr 2
  exact Fin.ext (Nat.mod_eq_of_lt hp)

theorem arraysByte_peers (disk : MetaDataOnDisk9) :
    (fun p : Fin DRBD_PEERS_MAX => (⟨be64At (arraysByte disk) (128 + 32 * p),
      be64At (arraysByte disk) (136 + 32 * p), be32At (arraysByte disk) (144 + 32 * p),
      be32At (arraysByte disk) (148 + 32 * p)⟩ : PeerDevMdOnDisk9)) = disk.peers := by
  funext p
  have h1 : be64At (arraysByte disk) (128 + 32 * p) = (disk.peers p).bitmapUuid :=
    be64At_of_bytes fun j hj => by
      rw [arraysByte_peer disk p (by omega), peerByte, if_pos hj]
  have h2 : be64At (arraysByte disk) (136 + 32 * p) = (disk.peers p).bitmapDagtag :=
    be64At_of_bytes fun j hj => by
      rw [show 136 + 32 * (p : Nat) + j = 128 + 32 * p + (j + 8) by omega,
        arraysByte_peer disk p (by omega), peerByte, if_neg (by omega), if_pos (by omega),
        Nat.add_sub_cancel]
  have h3 : be32At (arraysByte disk) (144 + 32 * p) = (disk.peers p).flags :=
    be32At_of_bytes fun j hj => by
      rw [show 144 + 32 * (p : Nat) + j = 128 + 32 * p + (j + 16) by omega,
        arraysByte_peer disk p (by omega), peerByte, if_neg (by omega), if_neg (by omega),
        if_pos (by omega), Nat.add_sub_cancel]
  have h4 : be32At (arraysByte disk) (148 + 32 * p) = (disk.peers p).bitmapIndex :=
    be32At_of_bytes fun j hj => by
      rw [show 148 + 32 * (p : Nat) + j = 128 + 32 * p + (j + 20) by omega,
        arraysByte_peer disk p (by omega), peerByte, if_neg (by omega), if_neg (by omega),
        if_neg (by omega), if_pos (by omega), Nat.add_sub_cancel]
  rw [h1, h2, h3, h4]

theorem arraysByte_historyUuids (disk : MetaDataOnDisk9) :
    (fun i : Fin HISTORY_UUIDS => be64At (arraysByte disk) (1152 + 8 * i)) = disk.historyUuids := by
  funext i
  have hi := i.isLt
  simp only [HISTORY_UUIDS] at hi
  refine be64At_of_bytes fun j hj => ?_
  rw [arraysByte, if_neg (by omega), if_pos (by omega),
    show (1152 + 8 * (i : Nat) + j - 1152) / 8 = i by omega,
    show (1152 + 8 * (i : Nat) + j - 1152) % 8 = j by omega]
  congr 3
  exact Fin.ext (Nat.mod_eq_of_lt hi)

/-- The layout the drivers use since 9.0. -/
def packedOnDisk9 : OnDisk9 where
  store disk :=
    putBe64 0 disk.effectiveSize <| putBe64 8 disk.currentUuid <| putBe64 16 disk.members <|
    putBe64 48 disk.deviceUuid <| putBe32 56 disk.flags <| putBe32 60 disk.magic <|
    putBe32 64 disk.mdSizeSect <| putBe32 68 disk.alOffset <| putBe32 72 disk.alNrExtents <|
    putBe32 76 disk.bmOffset <| putBe32 80 disk.bmBytesPerBit <| putBe32 84 disk.laPeerMaxBioSize <|
    putBe32 88 disk.bmMaxPeers <| putBe32 92 disk.nodeId <| putBe32 96 disk.alStripes <|
    putBe32 100 disk.alStripeSize4k <| arraysByte disk
  load m :=
    { effectiveSize := be64At m 0
      currentUuid := be64At m 8
      members := be64At m 16
      deviceUuid := be64At m 48
      flags := be32At m 56
      magic := be32At m 60
      mdSizeSect := be32At m 64
      alOffset := be32At m 68
      alNrExtents := be32At m 72
      bmOffset := be32At m 76
      bmBytesPerBit := be32At m 80
      laPeerMaxBioSize := be32At m 84
      bmMaxPeers := be32At m 88
      nodeId := be32At m 92
      alStripes := be32At m 96
      alStripeSize4k := be32At m 100
      peers := fun p => ⟨be64At m (128 + 32 * p), be64At m (136 + 32 * p), be32At m (144 + 32 * p),
        be32At m (148 + 32 * p)⟩
      historyUuids := fun i => be64At m (1152 + 8 * i) }
  load_congr m m' h := by
    have h32 : ∀ off, off + 4 ≤ 4096 → be32At m off = be32At m' off := fun off hoff => by
      rw [be32At, be32At, be_congr 4 fun a _ _ => h a (by omega)]
    have h64 : ∀ off, off + 8 ≤ 4096 → be64At m off = be64At m' off := fun off hoff => by
      rw [be64At, be64At, be_congr 8 fun a _ _ => h a (by omega)]
    simp (disch := omega) only [h32, h64, MetaDataOnDisk9.mk.injEq, true_and]
    refine ⟨?_, ?_⟩
    · funext p
      have := p.isLt
      simp only [DRBD_PEERS_MAX] at this
      rw [h64 _ (by omega), h64 _ (by omega), h32 _ (by omega), h32 _ (by omega)]
    · funext i
      have := i.isLt
      simp only [HISTORY_UUIDS] at this
      rw [h64 _ (by omega)]
  load_store disk := by
    simp (disch := omega) only [be32At_putBe32_ne, be32At_putBe64_ne, be64At_putBe64_ne,
      be64At_putBe32_ne, be32At_putBe32, be64At_putBe64]
    rw [arraysByte_peers, arraysByte_historyUuids]
  effectiveSize_first _ := rfl

end DrbdUtils.Meta
