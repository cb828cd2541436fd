import DrbdUtils.Lib.PeelMove
import DrbdUtils.Meta.Superblock

/-!
# Moving internal metadata after the backing device was resized

`v08_move_internal_md_after_resize()` of `drbdmeta.c`: the metadata was found at the position that
belongs to the last known size of the device, and is moved to its proper place at the end.  The
activity log goes first, then the bitmap in chunks peeled off from its end, the part of the new
bitmap that covers added space is initialised, the superblock is written, and what is left of the
old area is wiped.

* `flexInt_moves` — the bitmap moves up, stays, or moves down by exactly 4k.
* `moveBitmap_ok` — the chunk loop is a `peelMove`.
* `wipeOld_ok_iff` — the wipe stays below the new area.
* `move_preserves_iff` — when the move preserves the metadata.
-/

set_option autoImplicit false

namespace DrbdUtils.Meta

open BlockDevice

/-! ## Model -/

/-- The loop that moves the bitmap: full buffers while `cur` lies above the start of the old
    bitmap.  Returns the final `cur_offset`. -/
def moveBitmapChunks (o : Options) (cfg : Format) (oldBmOffset : Int) (cur : Int) : MetaRun Int :=
  if oldBmOffset < cur then do
    preadOrDie cfg bufferSize (toU64 cur)
    pwriteOrDie o cfg bufferSize (toU64 (cfg.bmOffset + (cur - oldBmOffset)))
    moveBitmapChunks o cfg oldBmOffset (cur - bufferSize)
  else pure cur
termination_by (cur - oldBmOffset).toNat
decreasing_by
  unfold bufferSize
  omega

/-- Write the (constant) buffer over `[off, stop)`, in chunks; `wipe` makes `off` the block that
    `validate_offsets_or_die()` lets pass. -/
def fillRange (o : Options) (cfg : Format) (wipe : Bool) (stop off : Int) : MetaRun Unit :=
  if off < stop then do
    let chunk := min (stop - off) bufferSize
    let cfg' := if wipe then { cfg with wipeResize := toU64 off } else cfg
    pwriteOrDie o cfg' chunk.toNat (toU64 off)
    fillRange o cfg wipe stop (off + chunk)
  else pure ()
termination_by (stop - off).toNat
decreasing_by
  unfold bufferSize
  omega

/-- The trailing part of the new bitmap, which covers added space. -/
def initTrail (o : Options) (cfg : Format) (mdOld : MdCpu) : MetaRun Unit :=
  if o.initializeBitmapMode ≠ .skip then do
    let oldBmBytes : Int := (mdOld.alOffset - mdOld.bmOffset).toInt * 512
    let fillByte : Byte := if o.initializeBitmapMode = .setAll then BitVec.allOnes 8 else 0
    Run.modifyBuf fun buf => fill buf 0 bufferSize fillByte
    fillRange o cfg false (cfg.bmOffset + cfg.bmBytes) (cfg.bmOffset + oldBmBytes)
  else pure ()

/-- The wipe of the old metadata region, capped at the new bitmap. -/
def wipeOld (o : Options) (cfg : Format) (mdOld : MdCpu) (oldOffset : Nat) : MetaRun Unit :=
  if oldOffset < cfg.bmOffset then do
    Run.modifyBuf fun buf => fill buf 0 bufferSize 0
    fillRange o cfg true (min (oldOffset + 4096) cfg.bmOffset)
      (oldOffset + mdOld.bmOffset.toInt * 512)
  else pure ()

/-- Read `count` bytes into the buffer and write them elsewhere, with the count a `size_t` that
    may be larger than the buffer. -/
def moveBlock (o : Options) (cfg : Format) (count src dst : Int) : MetaRun Unit :=
  if count < 0 ∨ bufferSize < count then Run.stop .outOfBounds
  else do
    preadOrDie cfg count.toNat (toU64 src)
    pwriteOrDie o cfg count.toNat (toU64 dst)

/-- The bitmap: full chunks from the end, then the last, possibly partial one. -/
def moveBitmap (o : Options) (cfg : Format) (mdOld : MdCpu) (oldOffset : Nat) : MetaRun Unit := do
  let oldBmOffset : Int := oldOffset + mdOld.bmOffset.toInt * 512
  let cur ← moveBitmapChunks o cfg oldBmOffset
    (oldOffset + mdOld.alOffset.toInt * 512 - bufferSize)
  let lastChunkSize := bufferSize - (oldBmOffset - cur)
  moveBlock o cfg lastChunkSize oldBmOffset cfg.bmOffset

/-- Everything before the wipe: whether the superblock was written, and the new layout. -/
def moveToNewLocation (K : OnDisk9) (o : Options) (cfg : Format) : MetaRun (Bool × Format) := do
  assert (cfg.version ≠ .v07)
  assert (cfg.mdIndex = .flexInt)
  assert (cfg.lkBdSize ≤ cfg.bdSize)
  let mdOld := cfg.md
  let valid ← liftExcept (isValidMd cfg.version mdOld .flexInt cfg.lkBdSize)
  assert (valid = true)
  let oldOffset := lastKnownOffset cfg
  let cfg ← liftExcept (reInitializeMdOffsets o cfg)
  let alStart : Int := oldOffset + mdOld.alOffset.toInt * 512
  moveBlock o cfg (oldOffset - alStart) alStart cfg.alOffset
  moveBitmap o cfg mdOld oldOffset
  initTrail o cfg mdOld
  let cfg ← liftExcept (reInitializeMdOffsets o cfg)
  let ok ← mdCpuToDisk K o cfg
  pure (ok, cfg)

/-- `v08_move_internal_md_after_resize`; `true` when it succeeded. -/
def v08MoveInternalMdAfterResize (K : OnDisk9) (o : Options) (cfg : Format) : MetaRun Bool := do
  let moved ← moveToNewLocation K o cfg
  if moved.1 then do
    wipeOld o moved.2 cfg.md (lastKnownOffset cfg)
    pure true
  else pure false

/-! ## Sizes and positions -/

/-- One bit more per added 4k block, and one more for what rounding hides. -/
theorem deviceBits_growth {md : MdCpu} {k lk bd : Nat} (hk : k ≤ 8)
    (hgran : md.bmBytesPerBit.toNat = 2 ^ (12 + k)) (hle : lk ≤ bd) :
    deviceBits md (lk / 512) ≤ deviceBits md (bd / 512) ∧
      deviceBits md (bd / 512) ≤ deviceBits md (lk / 512) + (bd / 4096 - lk / 4096) + 1 := by
  have hspb : md.bmBytesPerBit.toNat >>> 9 = 2 ^ (3 + k) := by
    rw [hgran, Nat.shiftRight_eq_div_pow, show 12 + k = 9 + (3 + k) by omega, Nat.pow_add,
      Nat.mul_div_cancel_left _ (by decide)]
  unfold deviceBits
  rw [hspb]
  interval_cases k <;> simp only [Nat.reduceAdd, Nat.reducePow] <;> omega

/-- The on-disk bitmap never shrinks, and grows by at most one 4k block more than the superblock
    moves. -/
theorem bmBytes_growth {md : MdCpu} {lk bd b b' : Nat} (hle : lk ≤ bd)
    (hm : md.maxPeers.toNat ≤ 31) (hb : bmBytes md (lk / 512) = .ok b)
    (hb' : bmBytes md (bd / 512) = .ok b') :
    b ≤ b' ∧ b' ≤ b + 4096 * (bd / 4096 - lk / 4096) + 4096 := by
  obtain ⟨_, ⟨k, hk, hgran⟩, rfl⟩ := bmBytes_ok hb
  obtain ⟨_, _, rfl⟩ := bmBytes_ok hb'
  obtain ⟨h1, h2⟩ := deviceBits_growth hk hgran hle
  generalize deviceBits md (lk / 512) = x at *
  generalize deviceBits md (bd / 512) = y at *
  -- in units of 64 bits, and the words added per slot
  obtain ⟨d, hd⟩ : ∃ d, (y + 63) / 64 = (x + 63) / 64 + d := ⟨(y + 63) / 64 - (x + 63) / 64, by omega⟩
  have hax : align x 64 / 8 = 8 * ((x + 63) / 64) := by unfold align; omega
  have hay : align y 64 / 8 = 8 * ((x + 63) / 64 + d) := by unfold align; omega
  have hdm : d * md.maxPeers.toNat ≤ d * 31 := Nat.mul_le_mul_left d hm
  rw [hax, hay, show 8 * ((x + 63) / 64 + d) * md.maxPeers.toNat =
    8 * ((x + 63) / 64) * md.maxPeers.toNat + 8 * (d * md.maxPeers.toNat) by ring]
  generalize 8 * ((x + 63) / 64) * md.maxPeers.toNat = P
  generalize d * md.maxPeers.toNat = Q at *
  unfold align
  omega

/-- A device of at least one sector has a bitmap. -/
theorem bmBytes_pos {md : MdCpu} {sectors b : Nat} (hs : 0 < sectors)
    (hm : 1 ≤ md.maxPeers.toNat) (hb : bmBytes md sectors = .ok b) : 0 < b := by
  obtain ⟨_, ⟨k, hk, hgran⟩, rfl⟩ := bmBytes_ok hb
  have hspb : 0 < md.bmBytesPerBit.toNat >>> 9 := by
    rw [hgran, Nat.shiftRight_eq_div_pow, show 12 + k = 9 + (3 + k) by omega, Nat.pow_add,
      Nat.mul_div_cancel_left _ (by decide)]
    exact Nat.two_pow_pos _
  have hbits : 0 < deviceBits md sectors := Nat.div_pos (by omega) hspb
  have h64 := align_ge (deviceBits md sectors) (show 0 < 64 by omega)
  obtain ⟨c, hc⟩ := dvd_align (deviceBits md sectors) 64
  have hpos : 0 < align (deviceBits md sectors) 64 / 8 * md.maxPeers.toNat :=
    Nat.mul_pos (by omega) hm
  have := align_ge (align (deviceBits md sectors) 64 / 8 * md.maxPeers.toNat) (show 0 < 4096 by omega)
  omega

/-- How old and new area lie, in bytes: an old bitmap of `bm` bytes at `oldBm`, an activity log of
    `al` bytes behind it. -/
structure Moves (cfg cfg' : Format) (oldBm bm al : Nat) : Prop where
  oldBm_eq : (lastKnownOffset cfg : Int) + cfg.md.bmOffset.toInt * 512 = oldBm
  oldAl_eq : (lastKnownOffset cfg : Int) + cfg.md.alOffset.toInt * 512 = oldBm + bm
  oldMd_eq : oldBm + bm + al = lastKnownOffset cfg
  bm_eq : (cfg.md.alOffset - cfg.md.bmOffset).toInt * 512 = bm
  newAl_eq : cfg'.bmOffset + cfg'.bmBytes = cfg'.alOffset
  newMd_eq : cfg'.alOffset + al = cfg'.mdOffset
  newEnd : cfg'.mdOffset + 4096 ≤ cfg'.bdSize
  small : cfg'.bdSize < 2 ^ 63
  up : lastKnownOffset cfg ≤ cfg'.mdOffset
  al_le : al ≤ bufferSize
  bm_pos : 0 < bm
  bm_dvd : 4096 ∣ bm
  bm_le : bm ≤ cfg'.bmBytes
  shift : oldBm ≤ cfg'.bmOffset ∨ cfg'.bmOffset + 4096 = oldBm
  areaStart : mdAreaStart cfg' = cfg'.bmOffset
  areaLen : mdAreaLen cfg' = cfg'.bmBytes + al + 4096

/-- The first byte of the bitmap at the end of the device, given its size. -/
def newBmStart (cfg : Format) (bm' : Nat) : Int :=
  v07StyleMdGetByteOffset .flexInt cfg.bdSize + cfg.md.alOffset.toInt * 512 - bm'

/-- The first byte of the bitmap at the last known location. -/
def oldBmStart (cfg : Format) : Int := lastKnownOffset cfg + cfg.md.bmOffset.toInt * 512

/-- Both layouts lie on the device, and the activity log fits into the buffer. -/
structure LayoutsFit (cfg : Format) (bm' : Nat) : Prop where
  bm_ok : bmBytes cfg.md (cfg.bdSize / 512) = .ok bm'
  al_nonneg : cfg.md.alOffset.toInt ≤ 0
  al_le : -cfg.md.alOffset.toInt * 512 ≤ bufferSize
  oldBm_nonneg : 0 ≤ oldBmStart cfg
  newBm_nonneg : 0 ≤ newBmStart cfg bm'

theorem alSizeSect_of_alOffset {md : MdCpu} (h : md.alOffset = BitVec.ofInt 32 (-alSizeSect md))
    (h0 : md.alOffset.toInt ≤ 0) (hle : -md.alOffset.toInt * 512 ≤ bufferSize) :
    alSizeSect md = -md.alOffset.toInt := by
  have hlo := BitVec.le_toInt (md.alStripes * md.alStripeSize4k * 8)
  have hhi := BitVec.toInt_lt (x := md.alStripes * md.alStripeSize4k * 8)
  have ht := congrArg BitVec.toInt h
  rw [BitVec.toInt_ofInt] at ht
  unfold bufferSize at hle
  unfold alSizeSect at *
  generalize (md.alStripes * md.alStripeSize4k * 8).toInt = A at *
  generalize md.alOffset.toInt = a at *
  rw [Int.bmod_def] at ht
  simp only [Nat.reducePow, Nat.reduceSub] at *
  omega

theorem lastKnownOffset_eq {cfg : Format} (h1 : lastKnownOffset cfg < cfg.bdSize)
    (h2 : cfg.bdSize < 2 ^ 63) (h3 : cfg.lkBdSize ≤ cfg.bdSize) :
    4096 ≤ cfg.lkBdSize ∧ lastKnownOffset cfg = (cfg.lkBdSize - 4096) / 4096 * 4096 := by
  unfold lastKnownOffset v07StyleMdGetByteOffset roundDown toU64 at *
  simp only at *
  omega

/-- Sector offsets of the new layout, none of which wraps. -/
theorem flexIntFormat_sect {cfg : Format} {bm' : Nat} (hm : cfg.md.maxPeers.toNat ≤ 31)
    (hbm : bmBytes cfg.md (cfg.bdSize / 512) = .ok bm')
    (hal : alSizeSect cfg.md = -cfg.md.alOffset.toInt)
    (h0 : cfg.md.alOffset.toInt ≤ 0) (hle : -cfg.md.alOffset.toInt * 512 ≤ bufferSize) :
    (flexIntFormat cfg bm').md.alOffset.toInt = cfg.md.alOffset.toInt ∧
    (flexIntFormat cfg bm').md.bmOffset.toInt = -(bm' / 512 : Nat) + cfg.md.alOffset.toInt ∧
    ((flexIntFormat cfg bm').md.mdSizeSect.toNat : Int) =
      (bm' / 512 : Nat) + (8 - cfg.md.alOffset.toInt) := by
  have hflex := Nat.le_trans (bmBytes_le_flex hbm) (Nat.mul_le_mul_left _ hm)
  simp only [MD_BM_MAX_BYTE_FLEX, Nat.reducePow, Nat.reduceDiv, Nat.reduceMul, Nat.reduceSub] at hflex
  unfold bufferSize at hle
  simp only [flexIntFormat, setByteOffsets, hal, BitVec.toInt_ofInt, BitVec.toNat_ofInt]
  generalize cfg.md.alOffset.toInt = a at *
  generalize bm' / 512 = n at *
  simp only [Int.bmod_def, Nat.reducePow]
  omega

/-- **The new area against the old one**: the superblock does not move down; the bitmap moves up,
    stays, or moves down by exactly 4k. -/
theorem flexInt_moves {K : OnDisk9} {cfg : Format} {disk : Mem} {bm' : Nat}
    (h : OpenedAtLastKnown K cfg disk) (hle : cfg.lkBdSize ≤ cfg.bdSize) (hfit : LayoutsFit cfg bm') :
    ∃ bm, FlexIntValid cfg.version cfg.md cfg.lkBdSize bm ∧
      Moves cfg (flexIntFormat cfg bm') (oldBmStart cfg).toNat bm
        (-cfg.md.alOffset.toInt * 512).toNat := by
  obtain ⟨bm, hv⟩ := (isValidMd_flexInt_iff h.version).1 h.valid
  refine ⟨bm, hv, ?_⟩
  obtain ⟨hm1, hm31⟩ := mdIdsOk_peers hv.ids
  obtain ⟨hsect, _, _⟩ := bmBytes_ok hfit.bm_ok
  have hsmall : cfg.bdSize < 2 ^ 51 := by omega
  have hsize := h.size
  have hmd := h.mdOffset
  unfold SO_MUCH at hsize
  obtain ⟨hlk, hlast⟩ := lastKnownOffset_eq h.accessible (by omega) hle
  have hnew : cfg.mdOffset = (cfg.bdSize - 4096) / 4096 * 4096 := by
    rw [hmd]
    unfold v07StyleMdGetByteOffset roundDown toU64
    simp only
    omega
  have hal := alSizeSect_of_alOffset hv.alOffset hfit.al_nonneg hfit.al_le
  obtain ⟨hsa, hsb, hsz⟩ := flexIntFormat_sect hm31 hfit.bm_ok hal hfit.al_nonneg hfit.al_le
  obtain ⟨hgrow, hgrow'⟩ := bmBytes_growth hle hm31 hv.bm_ok hfit.bm_ok
  have hpos := bmBytes_pos (by omega) hm1 hv.bm_ok
  have hd := bmBytes_dvd hv.bm_ok
  have hd' := bmBytes_dvd hfit.bm_ok
  have hbo := hv.bmOffset
  have h0 := hfit.al_nonneg
  have hbuf := hfit.al_le
  have hob := hfit.oldBm_nonneg
  have hnb := hfit.newBm_nonneg
  have hnb' : ((flexIntFormat cfg bm').bmOffset : Int) =
      cfg.mdOffset + cfg.md.alOffset.toInt * 512 - bm' := by
    show ((toU64 (cfg.mdOffset + (flexIntFormat cfg bm').md.bmOffset.toInt * 512) : Nat) : Int) = _
    rw [hsb]
    unfold newBmStart at hnb
    rw [← hmd] at hnb
    unfold toU64
    omega
  have hna' : ((flexIntFormat cfg bm').alOffset : Int) =
      cfg.mdOffset + cfg.md.alOffset.toInt * 512 := by
    show ((toU64 (cfg.mdOffset + (flexIntFormat cfg bm').md.alOffset.toInt * 512) : Nat) : Int) = _
    rw [hsa]
    unfold toU64
    omega
  have hold : oldBmStart cfg = lastKnownOffset cfg + cfg.md.alOffset.toInt * 512 - bm := by
    unfold oldBmStart
    omega
  have hdiff : (cfg.md.alOffset - cfg.md.bmOffset).toInt * 512 = bm := by
    rw [BitVec.toInt_sub, hbo, hal, Int.bmod_def]
    have hflex := Nat.le_trans (bmBytes_le_flex hv.bm_ok) (Nat.mul_le_mul_left _ hm31)
    simp only [MD_BM_MAX_BYTE_FLEX, Nat.reducePow, Nat.reduceDiv, Nat.reduceMul,
      Nat.reduceSub] at hflex ⊢
    omega
  have hup : lastKnownOffset cfg ≤ cfg.mdOffset := by omega
  have hshift : oldBmStart cfg ≤ (flexIntFormat cfg bm').bmOffset ∨
      ((flexIntFormat cfg bm').bmOffset : Int) + 4096 = oldBmStart cfg := by
    obtain ⟨c, rfl⟩ := hd
    obtain ⟨c', rfl⟩ := hd'
    omega
  exact {
    oldBm_eq := by unfold oldBmStart at hob ⊢; omega
    oldAl_eq := by omega
    oldMd_eq := by omega
    bm_eq := hdiff
    newAl_eq := by show _ + bm' = _; omega
    newMd_eq := by show _ = cfg.mdOffset; omega
    newEnd := by show cfg.mdOffset + 4096 ≤ cfg.bdSize; omega
    small := by show cfg.bdSize < _; omega
    up := hup
    al_le := by omega
    bm_pos := hpos
    bm_dvd := hd
    bm_le := hgrow
    shift := by omega
    areaStart := by
      show min (min cfg.mdOffset (flexIntFormat cfg bm').alOffset) (flexIntFormat cfg bm').bmOffset = _
      omega
    areaLen := by
      show (flexIntFormat cfg bm').md.mdSizeSect.toNat * 512 = bm' + _ + 4096
      obtain ⟨c', rfl⟩ := hd'
      omega }

/-! ## The stages of the move -/

/-- Writes into the new area are let through. -/
theorem Moves.validate {cfg cfg' : Format} {oldBm bm al count offset : Nat}
    (h : Moves cfg cfg' oldBm bm al) (o : Options) (h1 : cfg'.bmOffset ≤ offset)
    (h2 : offset + count ≤ cfg'.mdOffset + 4096) : validateOffsets o cfg' count offset = true := by
  have hs := h.areaStart
  have hl := h.areaLen
  have e1 := h.newAl_eq
  have e2 := h.newMd_eq
  have e3 := h.newEnd
  have e4 := h.small
  have : toS64 (mdAreaStart cfg') ≤ offset ∧
      (offset + count : Int) ≤ toS64 (mdAreaStart cfg') + mdAreaLen cfg' := by
    rw [hs, hl, toS64_of_lt (by omega)]
    omega
  simp [validateOffsets, this]

theorem moveBlock_ok {o : Options} {cfg : Format} {count src dst : Nat} (hd : o.dryRun = false)
    (hc : count ≤ bufferSize) (hs : src + count ≤ cfg.bdSize) (hb : dst + count ≤ cfg.bdSize)
    (hv : validateOffsets o cfg count dst = true) (hsmall : cfg.bdSize < 2 ^ 63) (w : World) :
    ∃ w', moveBlock o cfg count src dst w = (.ok (), w') ∧
      w'.disk = copyWithin w.disk src dst count := by
  refine ⟨(w.read count src).write count dst, ?_, ?_⟩
  · unfold moveBlock
    rw [if_neg (by omega), Int.toNat_natCast, toU64_natCast (by omega), toU64_natCast (by omega),
      Run.bind_ok (preadOrDie_ok hs w), pwriteOrDie_ok hv hd hb]
  · exact World.read_write_disk w count src dst

/-- The chunk loop, and the last chunk after it, are a `peelMove`. -/
theorem moveBitmapChunks_ok {o : Options} {cfg : Format} {src rest : Nat} (hd : o.dryRun = false)
    (hrest : rest ≤ bufferSize) (hpos : 0 < rest) (hsmall : cfg.bdSize < 2 ^ 63) :
    ∀ (n : Nat), src + (rest + n * bufferSize) ≤ cfg.bdSize →
      cfg.bmOffset + (rest + n * bufferSize) ≤ cfg.bdSize →
      (∀ off count, cfg.bmOffset ≤ off → off + count ≤ cfg.bmOffset + (rest + n * bufferSize) →
        validateOffsets o cfg count off = true) → ∀ w : World,
      ∃ w', moveBitmapChunks o cfg src (src + (rest + n * bufferSize : Nat) - bufferSize) w =
          (.ok (src + rest - bufferSize), w') ∧
        copyWithin w'.disk src cfg.bmOffset rest =
          peelMove bufferSize src cfg.bmOffset rest n w.disk := by
  intro n
  induction n with
  | zero =>
    intro _ _ _ w
    refine ⟨w, ?_, rfl⟩
    unfold moveBitmapChunks
    rw [if_neg (by omega), Nat.zero_mul, Nat.add_zero]
    rfl
  | succ n ih =>
    intro hs hb hv w
    rw [Nat.add_mul, Nat.one_mul] at hs hb hv ⊢
    have hcur : (src : Int) + (rest + (n * bufferSize + bufferSize) : Nat) - bufferSize =
        (src + (rest + n * bufferSize) : Nat) := by omega
    have hdst : (cfg.bmOffset : Int) + ((src + (rest + n * bufferSize) : Nat) - (src : Int)) =
        (cfg.bmOffset + (rest + n * bufferSize) : Nat) := by omega
    have hnext : ((src + (rest + n * bufferSize) : Nat) : Int) - bufferSize =
        src + (rest + n * bufferSize : Nat) - bufferSize := by omega
    obtain ⟨w', hrun, hdisk⟩ := ih (by omega) (by omega)
      (fun off count h1 h2 => hv off count h1 (by omega))
      ((w.read bufferSize (src + (rest + n * bufferSize))).write bufferSize
        (cfg.bmOffset + (rest + n * bufferSize)))
    refine ⟨w', ?_, ?_⟩
    · unfold moveBitmapChunks
      rw [hcur, if_pos (by omega), hdst, toU64_natCast (by omega), toU64_natCast (by omega),
        Run.bind_ok (preadOrDie_ok (by omega) w),
        Run.bind_ok (pwriteOrDie_ok (hv _ _ (by omega) (by omega)) hd (by omega) _), hnext]
      exact hrun
    · rw [hdisk, peelMove, World.read_write_disk]

/-- How a bitmap of `bm` bytes is peeled: `bitmapChunks` full chunks, and `bitmapRest` bytes. -/
def bitmapChunks (bm : Nat) : Nat := (bm - 1) / bufferSize

def bitmapRest (bm : Nat) : Nat := bm - bitmapChunks bm * bufferSize

theorem bufferSize_pos : 0 < bufferSize := by unfold bufferSize; omega

theorem bitmapRest_spec {bm : Nat} (h : 0 < bm) :
    0 < bitmapRest bm ∧ bitmapRest bm ≤ bufferSize ∧
      bitmapRest bm + bitmapChunks bm * bufferSize = bm := by
  have h1 := Nat.div_mul_le_self (bm - 1) bufferSize
  have h2 := Nat.lt_div_mul_add (a := bm - 1) bufferSize_pos
  unfold bitmapRest bitmapChunks
  omega

theorem moveBitmap_ok {cfg cfg' : Format} {oldBm bm al : Nat} (h : Moves cfg cfg' oldBm bm al)
    {o : Options} (hd : o.dryRun = false) (w : World) :
    ∃ w', moveBitmap o cfg' cfg.md (lastKnownOffset cfg) w = (.ok (), w') ∧
      w'.disk = peelMove bufferSize oldBm cfg'.bmOffset (bitmapRest bm) (bitmapChunks bm) w.disk := by
  obtain ⟨hr0, hrB, hsum⟩ := bitmapRest_spec h.bm_pos
  have e1 := h.oldMd_eq
  have e2 := h.newAl_eq
  have e3 := h.newMd_eq
  have e4 := h.newEnd
  have e5 := h.up
  have e6 := h.bm_le
  have hs := h.small
  obtain ⟨w1, hchunks, hpeel⟩ := @moveBitmapChunks_ok o _ oldBm _ hd hrB hr0 hs
    (bitmapChunks bm) (by omega) (by omega)
    (fun off count h1 h2 => h.validate o h1 (by omega)) w
  obtain ⟨w2, hlast, hdisk⟩ := @moveBlock_ok o _ _ oldBm _ hd hrB
    (by omega) (by omega) (h.validate o (Nat.le_refl _) (by omega)) hs w1
  refine ⟨w2, ?_, hdisk.trans hpeel⟩
  unfold moveBitmap
  rw [h.oldBm_eq, h.oldAl_eq, show (oldBm : Int) + bm - bufferSize =
    oldBm + (bitmapRest bm + bitmapChunks bm * bufferSize : Nat) - bufferSize by rw [hsum],
    Run.bind_ok hchunks, ← hlast]
  congr 1
  omega

/-- Filling a range changes nothing outside of it. -/
theorem fillRange_ok {o : Options} {cfg : Format} {wipe : Bool} {start stop : Nat}
    (hd : o.dryRun = false) (hb : stop ≤ cfg.bdSize) (hsmall : cfg.bdSize < 2 ^ 63)
    (hv : ∀ off count, start ≤ off → off + count ≤ stop →
      validateOffsets o (if wipe then { cfg with wipeResize := off } else cfg) count off = true) :
    ∀ (n off : Nat), stop - off ≤ n → start ≤ off → ∀ w : World,
      ∃ w', fillRange o cfg wipe stop off w = (.ok (), w') ∧
        ∀ a, a < off ∨ stop ≤ a → w'.disk a = w.disk a := by
  intro n
  induction n with
  | zero =>
    intro off hn hoff w
    refine ⟨w, ?_, fun _ _ => rfl⟩
    unfold fillRange
    rw [if_neg (by omega)]
    rfl
  | succ n ih =>
    intro off hn hoff w
    by_cases hlt : off < stop
    · have hB := bufferSize_pos
      have hchunk : min ((stop : Int) - off) bufferSize = (min (stop - off) bufferSize : Nat) := by
        omega
      have hb' : (if wipe then { cfg with wipeResize := off } else cfg).bdSize = cfg.bdSize := by
        cases wipe <;> rfl
      obtain ⟨w', hrun, hframe⟩ := ih (off + min (stop - off) bufferSize) (by omega) (by omega)
        (w.write (min (stop - off) bufferSize) off)
      refine ⟨w', ?_, fun a ha => ?_⟩
      · unfold fillRange
        rw [if_pos (by omega)]
        simp only [hchunk, Int.toNat_natCast, toU64_natCast (show off < 2 ^ 64 by omega)]
        rw [Run.bind_ok (pwriteOrDie_ok (hv off _ hoff (by omega)) hd (by rw [hb']; omega) w)]
        exact_mod_cast hrun
      · rw [hframe a (by omega), World.write_disk, blit_out (by omega)]
    · refine ⟨w, ?_, fun _ _ => rfl⟩
      unfold fillRange
      rw [if_neg (by omega)]
      rfl

theorem initTrail_ok {cfg cfg' : Format} {oldBm bm al : Nat} (h : Moves cfg cfg' oldBm bm al)
    {o : Options} (hd : o.dryRun = false) (w : World) :
    ∃ w', initTrail o cfg' cfg.md w = (.ok (), w') ∧
      ∀ a, a < cfg'.bmOffset + bm ∨ cfg'.alOffset ≤ a → w'.disk a = w.disk a := by
  by_cases hmode : o.initializeBitmapMode ≠ .skip
  · have e2 := h.newAl_eq
    have e3 := h.newMd_eq
    have e4 := h.newEnd
    obtain ⟨w', hrun, hframe⟩ := @fillRange_ok o cfg' false (cfg'.bmOffset + bm)
      (cfg'.bmOffset + cfg'.bmBytes) hd (by omega) h.small
      (fun off count h1 h2 => h.validate o (by omega) (by omega)) _ (cfg'.bmOffset + bm)
      (Nat.le_refl _) (Nat.le_refl _)
      (w.mapBuf fun buf => fill buf 0 bufferSize
        (if o.initializeBitmapMode = .setAll then BitVec.allOnes 8 else 0))
    refine ⟨w', ?_, fun a ha => hframe a (by omega)⟩
    unfold initTrail
    rw [if_pos hmode, h.bm_eq, Run.bind_ok (Run.modifyBuf_apply _ _)]
    exact_mod_cast hrun
  · refine ⟨w, ?_, fun _ _ => rfl⟩
    unfold initTrail
    rw [if_neg hmode]
    rfl

/-- The wipe stays below the new area, and goes through unless it would have to write at offset
    zero. -/
theorem wipeOld_ok_iff {cfg cfg' : Format} {oldBm bm al : Nat} (h : Moves cfg cfg' oldBm bm al)
    {o : Options} (hd : o.dryRun = false) (w : World) :
    (cfg'.bmOffset ≤ lastKnownOffset cfg ∨ 0 < oldBm ∨ o.ignoreSanityChecks = true →
      ∃ w', wipeOld o cfg' cfg.md (lastKnownOffset cfg) w = (.ok (), w') ∧
        ∀ a, cfg'.bmOffset ≤ a → w'.disk a = w.disk a) ∧
    ((wipeOld o cfg' cfg.md (lastKnownOffset cfg) w).1 = .ok () →
      cfg'.bmOffset ≤ lastKnownOffset cfg ∨ 0 < oldBm ∨ o.ignoreSanityChecks = true) := by
  have e1 := h.oldMd_eq
  have e2 := h.newAl_eq
  have e3 := h.newMd_eq
  have e4 := h.newEnd
  have hs := h.small
  have hpos := h.bm_pos
  by_cases hlt : lastKnownOffset cfg < cfg'.bmOffset
  · have hstop : min ((lastKnownOffset cfg : Int) + 4096) cfg'.bmOffset =
        (min (lastKnownOffset cfg + 4096) cfg'.bmOffset : Nat) := by omega
    refine ⟨fun hor => ?_, fun hok => ?_⟩
    · obtain ⟨w', hrun, hframe⟩ := @fillRange_ok o cfg' true oldBm
        (min (lastKnownOffset cfg + 4096) cfg'.bmOffset) hd (by omega) hs
        (fun off count h1 h2 => by
          rcases hor with hc | hc | hc
          · omega
          · simp [validateOffsets, show off ≠ 0 by omega]
          · simp [validateOffsets, hc])
        _ oldBm (Nat.le_refl _) (Nat.le_refl _) (w.mapBuf fun buf => fill buf 0 bufferSize 0)
      refine ⟨w', ?_, fun a ha => hframe a (by omega)⟩
      unfold wipeOld
      rw [if_pos hlt, h.oldBm_eq, hstop, Run.bind_ok (Run.modifyBuf_apply _ _)]
      exact hrun
    · by_contra hcon
      rw [not_or, not_or] at hcon
      have h0 : oldBm = 0 := by omega
      unfold wipeOld at hok
      rw [if_pos hlt, h.oldBm_eq, hstop, Run.bind_ok (Run.modifyBuf_apply _ _), h0] at hok
      unfold fillRange at hok
      have hbad : validateOffsets o { cfg' with wipeResize := toU64 ((0 : Nat) : Int) }
          (min ((min (lastKnownOffset cfg + 4096) cfg'.bmOffset : Nat) - ((0 : Nat) : Int))
            bufferSize).toNat (toU64 ((0 : Nat) : Int)) = false := by
        have hstart : mdAreaStart { cfg' with wipeResize := toU64 ((0 : Nat) : Int) } =
            cfg'.bmOffset := h.areaStart
        have hig : o.ignoreSanityChecks = false := by simpa using hcon.2.2
        simp only [validateOffsets, hstart, toS64_of_lt (show cfg'.bmOffset < 2 ^ 63 by omega),
          hig, Bool.or_false]
        simp [toU64]
        omega
      rw [if_pos (by omega)] at hok
      simp only [if_true] at hok
      rw [Run.bind_error (m := pwriteOrDie _ _ _ _) (s := .exit 10)
        (by rw [pwriteOrDie, hbad]; rfl)] at hok
      cases hok
  · refine ⟨fun _ => ⟨w, ?_, fun _ _ => rfl⟩, fun _ => .inl (by omega)⟩
    unfold wipeOld
    rw [if_neg hlt]
    rfl

section Move

variable {K : OnDisk9} {cfg : Format} {disk : Mem} {bm' : Nat}

theorem reInitializeMdOffsets_opened (h : OpenedAtLastKnown K cfg disk) (o : Options) :
    reInitializeMdOffsets o cfg =
      (bmBytes cfg.md (cfg.bdSize / 512)).map (flexIntFormat cfg) := by
  obtain ⟨bm, hv⟩ := (isValidMd_flexInt_iff h.version).1 h.valid
  obtain ⟨hm1, _⟩ := mdIdsOk_peers hv.ids
  obtain ⟨_, ⟨k, _, hgran⟩, _⟩ := bmBytes_ok hv.bm_ok
  refine reInitializeMdOffsets_flexInt h.mdIndex (fun h0 => ?_) (fun h0 => ?_)
  · rw [h0] at hgran
    exact absurd hgran.symm (Nat.two_pow_pos _).ne'
  · rw [h0] at hm1
    exact absurd hm1 (by decide)

/-- Laying the metadata out a second time changes nothing. -/
theorem reInitializeMdOffsets_again (h : OpenedAtLastKnown K cfg disk) (o : Options)
    (hbm : bmBytes cfg.md (cfg.bdSize / 512) = .ok bm') :
    reInitializeMdOffsets o (flexIntFormat cfg bm') = .ok (flexIntFormat cfg bm') := by
  obtain ⟨bm, hv⟩ := (isValidMd_flexInt_iff h.version).1 h.valid
  obtain ⟨hm1, _⟩ := mdIdsOk_peers hv.ids
  obtain ⟨_, ⟨k, _, hgran⟩, _⟩ := bmBytes_ok hv.bm_ok
  have hbm' : bmBytes (flexIntFormat cfg bm').md ((flexIntFormat cfg bm').bdSize / 512) = .ok bm' :=
    hbm
  rw [reInitializeMdOffsets_flexInt (show (flexIntFormat cfg bm').mdIndex = .flexInt from h.mdIndex),
    hbm']
  · rfl
  · intro (h0 : cfg.md.bmBytesPerBit = 0)
    rw [h0] at hgran
    exact absurd hgran.symm (Nat.two_pow_pos _).ne'
  · intro (h0 : cfg.md.maxPeers = 0)
    rw [h0] at hm1
    exact absurd hm1 (by decide)

/-- The superblock of the new layout is valid. -/
theorem isValidMd_moved (h : OpenedAtLastKnown K cfg disk) (hfit : LayoutsFit cfg bm') :
    isValidMd cfg.version (flexIntFormat cfg bm').md .flexInt cfg.bdSize = .ok true := by
  obtain ⟨bm, hv⟩ := (isValidMd_flexInt_iff h.version).1 h.valid
  have hal := alSizeSect_of_alOffset hv.alOffset hfit.al_nonneg hfit.al_le
  obtain ⟨hsa, hsb, hsz⟩ := flexIntFormat_sect (mdIdsOk_peers hv.ids).2 hfit.bm_ok hal
    hfit.al_nonneg hfit.al_le
  have hal' : alSizeSect (flexIntFormat cfg bm').md = -cfg.md.alOffset.toInt := hal
  refine (isValidMd_flexInt_iff h.version).2 ⟨bm', hv.magic, hv.ids, hfit.bm_ok, rfl, ?_, ?_⟩
  · rw [hsb, hal']
    omega
  · rw [hsz, hal']
    omega

/-- It differs from the old one in `md_size_sect` and `bm_offset` only. -/
theorem flexIntFormat_md (h : OpenedAtLastKnown K cfg disk) :
    (flexIntFormat cfg bm').md = { cfg.md with
      mdSizeSect := (flexIntFormat cfg bm').md.mdSizeSect
      bmOffset := (flexIntFormat cfg bm').md.bmOffset } := by
  obtain ⟨bm, hv⟩ := (isValidMd_flexInt_iff h.version).1 h.valid
  exact MdCpu.ext rfl rfl rfl rfl hv.alOffset.symm rfl rfl rfl rfl rfl rfl rfl rfl rfl rfl rfl rfl
    rfl rfl

theorem normalMd_moved (h : OpenedAtLastKnown K cfg disk) :
    normalMd cfg.version (flexIntFormat cfg bm').md = (flexIntFormat cfg bm').md := by
  have hmd : normalMd cfg.version cfg.md = cfg.md := by
    rw [h.md, normalMd_decodeMd K h.version]
  have hwith := normalMd_with h.version cfg.md cfg.md.effectiveSize
    (flexIntFormat cfg bm').md.mdSizeSect cfg.md.alOffset (flexIntFormat cfg bm').md.bmOffset
    cfg.md.flags cfg.md.magic
  rw [hmd] at hwith
  rw [flexIntFormat_md h]
  exact hwith

/-- Up to the wipe: activity log, bitmap and superblock have been written. -/
theorem moveToNewLocation_ok (w : World) (h : OpenedAtLastKnown K cfg w.disk)
    (hle : cfg.lkBdSize ≤ cfg.bdSize) (hfit : LayoutsFit cfg bm') {o : Options}
    (hd : o.dryRun = false) {oldBm bm al : Nat} (hm : Moves cfg (flexIntFormat cfg bm') oldBm bm al) :
    ∃ w₁, moveToNewLocation K o cfg w = (.ok (true, flexIntFormat cfg bm'), w₁) ∧
      (∀ k < bm, w₁.disk ((flexIntFormat cfg bm').bmOffset + k) =
        peelMove bufferSize oldBm (flexIntFormat cfg bm').bmOffset (bitmapRest bm) (bitmapChunks bm)
          (copyWithin w.disk (oldBm + bm) (flexIntFormat cfg bm').alOffset al)
          ((flexIntFormat cfg bm').bmOffset + k)) ∧
      (∀ k < al, w₁.disk ((flexIntFormat cfg bm').alOffset + k) = w.disk (oldBm + bm + k)) ∧
      (∀ a < 4096, w₁.disk ((flexIntFormat cfg bm').mdOffset + a) =
        encodeMd K cfg.version (flexIntFormat cfg bm').md a) := by
  have e1 := hm.oldMd_eq
  have e2 := hm.newAl_eq
  have e3 := hm.newMd_eq
  have e4 := hm.newEnd
  have e5 := hm.up
  have e6 := hm.bm_le
  obtain ⟨_, _, hsum⟩ := bitmapRest_spec hm.bm_pos
  have hre := reInitializeMdOffsets_opened h o
  rw [hfit.bm_ok] at hre
  have hagain := reInitializeMdOffsets_again h o hfit.bm_ok
  have hvalid := isValidMd_moved h hfit
  generalize hcfg' : flexIntFormat cfg bm' = cfg' at *
  have hver : cfg'.version = cfg.version := by rw [← hcfg']; rfl
  have hidx : cfg'.mdIndex = .flexInt := by rw [← hcfg']; exact h.mdIndex
  have hbd : cfg'.bdSize = cfg.bdSize := by rw [← hcfg']; rfl
  obtain ⟨w1, hrun1, hdisk1⟩ := @moveBlock_ok o cfg' _ (oldBm + bm) cfg'.alOffset hd hm.al_le
    (by omega) (by omega) (hm.validate o (by omega) (by omega)) hm.small w
  obtain ⟨w2, hrun2, hdisk2⟩ := moveBitmap_ok hm hd w1
  obtain ⟨w3, hrun3, hframe3⟩ := initTrail_ok hm hd w2
  obtain ⟨w4, hrun4, hdisk4⟩ := mdCpuToDisk_ok K (o := o) hd
    (by rw [hver, hidx, hbd]; exact hvalid) (hm.validate o (by omega) (by omega)) (by omega) w3
  refine ⟨w4, ?_, fun k hk => ?_, fun k hk => ?_, fun a ha => ?_⟩
  · unfold moveToNewLocation
    rw [Run.bind_ok (assert_pos h.version w), Run.bind_ok (assert_pos h.mdIndex w),
      Run.bind_ok (assert_pos hle w), h.valid, hre,
      Run.bind_ok (show liftExcept (.ok true) w = _ from rfl), Run.bind_ok (assert_pos rfl w),
      Run.bind_ok (show liftExcept ((Except.ok bm').map (flexIntFormat cfg)) w =
        (.ok (flexIntFormat cfg bm'), w) from rfl), hcfg']
    have hal : moveBlock o cfg' (lastKnownOffset cfg - (lastKnownOffset cfg +
        cfg.md.alOffset.toInt * 512)) (lastKnownOffset cfg + cfg.md.alOffset.toInt * 512)
        cfg'.alOffset w = (.ok (), w1) := by
      rw [hm.oldAl_eq, ← hrun1]
      congr 1
      omega
    rw [Run.bind_ok hal, Run.bind_ok hrun2, Run.bind_ok hrun3, hagain,
      Run.bind_ok (show liftExcept (.ok cfg') w3 = (.ok cfg', w3) from rfl), Run.bind_ok hrun4]
    rfl
  · rw [hdisk4, blit_out (by omega), hframe3 _ (by omega), hdisk2, hdisk1]
  · rw [hdisk4, blit_out (by omega), hframe3 _ (by omega), hdisk2, peelMove_out _ _ (by omega),
      hdisk1, copyWithin, blit_in (by omega) (by omega)]
    congr 1
    omega
  · rw [hdisk4, blit_in (by omega) (by omega), hver]
    congr 1
    omega

/-- A move that got as far as the wipe had both layouts on the device. -/
theorem layoutsFit_of_moveToNewLocation {w w₁ : World} {r : Bool × Format} {o : Options}
    (h : OpenedAtLastKnown K cfg w.disk) (hle : cfg.lkBdSize ≤ cfg.bdSize) (hd : o.dryRun = false)
    (hrun : moveToNewLocation K o cfg w = (.ok r, w₁)) : ∃ bm', LayoutsFit cfg bm' := by
  unfold moveToNewLocation at hrun
  rw [Run.bind_ok (assert_pos h.version w), Run.bind_ok (assert_pos h.mdIndex w),
    Run.bind_ok (assert_pos hle w), h.valid,
    Run.bind_ok (show liftExcept (.ok true) w = _ from rfl), Run.bind_ok (assert_pos rfl w),
    reInitializeMdOffsets_opened h] at hrun
  obtain ⟨cfg', w1, hlift, hrun⟩ := Run.of_bind_ok hrun
  obtain ⟨hmap, rfl⟩ := of_liftExcept_ok hlift
  cases hbm : bmBytes cfg.md (cfg.bdSize / 512) with
  | error e => rw [hbm] at hmap; cases hmap
  | ok bm' =>
    rw [hbm] at hmap
    obtain rfl : flexIntFormat cfg bm' = cfg' := by simpa [Except.map] using hmap
    obtain ⟨u, w2, hal, hrun⟩ := Run.of_bind_ok hrun
    obtain ⟨u, w3, hbitmap, hrun⟩ := Run.of_bind_ok hrun
    -- the count of the activity log
    unfold moveBlock at hal
    split at hal
    · cases hal
    rename_i hcount
    rw [not_or, Int.not_lt, Int.not_lt] at hcount
    -- the last chunk was read at the old and written at the new position
    unfold moveBitmap at hbitmap
    obtain ⟨cur, w4, _, hlast⟩ := Run.of_bind_ok hbitmap
    simp only at hlast
    unfold moveBlock at hlast
    split at hlast
    · cases hlast
    obtain ⟨u, w5, hread, hwrite⟩ := Run.of_bind_ok hlast
    obtain ⟨hold, rfl⟩ := of_preadOrDie_ok hread
    obtain ⟨_, hnew, _⟩ := of_pwriteOrDie_ok hd hwrite
    obtain ⟨bm, hv⟩ := (isValidMd_flexInt_iff h.version).1 h.valid
    have h0 : cfg.md.alOffset.toInt ≤ 0 := by omega
    have hbuf : -cfg.md.alOffset.toInt * 512 ≤ bufferSize := by omega
    have hsect := (bmBytes_ok hbm).1
    have hal' := alSizeSect_of_alOffset hv.alOffset h0 hbuf
    obtain ⟨_, hsb, _⟩ := flexIntFormat_sect (mdIdsOk_peers hv.ids).2 hbm hal' h0 hbuf
    refine ⟨bm', hbm, h0, hbuf, ?_, ?_⟩
    · have hlo := BitVec.le_toInt cfg.md.bmOffset
      have hsize : toU64 (lastKnownOffset cfg + cfg.md.bmOffset.toInt * 512) ≤ cfg.bdSize :=
        (Nat.le_add_right _ _).trans hold
      unfold oldBmStart
      unfold toU64 at hsize
      simp only [Nat.reduceSub, Int.reducePow, Nat.reducePow] at *
      omega
    · have hlo := BitVec.le_toInt (flexIntFormat cfg bm').md.bmOffset
      have hsize : toU64 (toU64 (cfg.mdOffset + (flexIntFormat cfg bm').md.bmOffset.toInt * 512) : Nat)
          ≤ cfg.bdSize := (Nat.le_add_right _ _).trans hnew
      have hd' := bmBytes_dvd hbm
      unfold newBmStart
      rw [← h.mdOffset]
      rw [hsb] at hlo hsize
      unfold toU64 at hsize
      simp only [Nat.reduceSub, Int.reducePow, Nat.reducePow] at *
      omega

/-- The bytes on both sides of every chunk boundary of the old bitmap agree, 4k each. -/
def BoundariesAgree (disk : Mem) (oldBm bm : Nat) : Prop :=
  ∀ j < bitmapChunks bm, ∀ t < 4096,
    disk (oldBm + (bitmapRest bm + j * bufferSize) + t) =
      disk (oldBm + (bitmapRest bm + j * bufferSize) - 4096 + t)

/-- When the chunk loop reproduces the old bitmap. -/
theorem peelMove_bitmap_iff {cfg' : Format} {oldBm bm al : Nat} (hm : Moves cfg cfg' oldBm bm al)
    (disk : Mem) :
    (∀ k < bm, peelMove bufferSize oldBm cfg'.bmOffset (bitmapRest bm) (bitmapChunks bm)
        (copyWithin disk (oldBm + bm) cfg'.alOffset al) (cfg'.bmOffset + k) = disk (oldBm + k)) ↔
      oldBm ≤ cfg'.bmOffset ∨ BoundariesAgree disk oldBm bm := by
  obtain ⟨hr0, hrB, hsum⟩ := bitmapRest_spec hm.bm_pos
  have e1 := hm.oldMd_eq
  have e2 := hm.newAl_eq
  have e3 := hm.newMd_eq
  have e5 := hm.up
  -- the activity log went above the old bitmap
  have hkeep : ∀ a < oldBm + bm, copyWithin disk (oldBm + bm) cfg'.alOffset al a = disk a :=
    fun a ha => blit_out (by omega)
  rcases hm.shift with hup | hdown
  · refine ⟨fun _ => .inl hup, fun _ k hk => ?_⟩
    rw [peelMove_up hup _ _ k (by omega), hkeep _ (by omega)]
  · have hrest : 4096 ≤ bitmapRest bm := by
      obtain ⟨c, hc⟩ := hm.bm_dvd
      have hB : bufferSize = 4096 * 8192 := by decide +kernel
      have hdvd : 4096 ∣ bitmapRest bm := by
        rw [bitmapRest, hc, hB]
        exact Nat.dvd_sub (Dvd.intro _ rfl) ((Dvd.intro _ rfl).mul_left _)
      exact Nat.le_of_dvd hr0 hdvd
    have hiff := peelMove_down_exact_iff (n := bitmapChunks bm) hdown
      (show 2 * 4096 ≤ bufferSize by decide +kernel) hrest
      (copyWithin disk (oldBm + bm) cfg'.alOffset al)
    have hj : ∀ j < bitmapChunks bm, bitmapRest bm + j * bufferSize + bufferSize ≤ bm := by
      intro j hj
      have := Nat.mul_le_mul_right bufferSize (show j + 1 ≤ bitmapChunks bm by omega)
      rw [Nat.add_mul] at this
      omega
    have hB : 4096 ≤ bufferSize := by decide +kernel
    constructor
    · intro h
      refine .inr fun j hlt t ht => ?_
      have hle := hj j hlt
      have := hiff.1 (fun k hk => by rw [h k (by omega), hkeep _ (by omega)]) j hlt t ht
      rwa [hkeep _ (by omega), hkeep _ (by omega)] at this
    · rintro (hc | hagree) k hk
      · omega
      · rw [hiff.2 (fun j hlt t ht => ?_) k (by omega), hkeep _ (by omega)]
        have hle := hj j hlt
        rw [hkeep _ (by omega), hkeep _ (by omega)]
        exact hagree j hlt t ht

end Move

/-! ## The claim of the move -/

/-- Bytes of the bitmap and of the activity log at the last known location. -/
def oldBmBytes (cfg : Format) : Nat := ((cfg.md.alOffset - cfg.md.bmOffset).toInt * 512).toNat

def oldAlBytes (cfg : Format) : Nat := (-cfg.md.alOffset.toInt * 512).toNat

/-- The metadata was moved to the layout `cfg'`: `w` before, `w₁` before the wipe, `w'` at the
    end. -/
structure MetadataMoved (K : OnDisk9) (o : Options) (cfg : Format) (w : World) (cfg' : Format)
    (w₁ w' : World) : Prop where
  layout : reInitializeMdOffsets o cfg = .ok cfg'
  run : v08MoveInternalMdAfterResize K o cfg w = (.ok true, w')
  beforeWipe : moveToNewLocation K o cfg w = (.ok (true, cfg'), w₁)
  bitmap : ∀ k < oldBmBytes cfg,
    w'.disk (cfg'.bmOffset + k) = w.disk ((oldBmStart cfg).toNat + k)
  activityLog : ∀ k < oldAlBytes cfg,
    w'.disk (cfg'.alOffset + k) = w.disk (lastKnownOffset cfg - oldAlBytes cfg + k)
  superblock : decodeMd K cfg.version (fun a => w'.disk (cfg'.mdOffset + a)) =
    { cfg.md with mdSizeSect := cfg'.md.mdSizeSect, bmOffset := cfg'.md.bmOffset }
  wipe : ∀ a, cfg'.bmOffset ≤ a → a < cfg'.mdOffset + 4096 → w'.disk a = w₁.disk a

/-- When the move is harmless: both layouts lie on the device, the wipe need not write at offset
    zero, and a bitmap that moves down has equal bytes around its chunk boundaries. -/
def MoveSafe (o : Options) (cfg : Format) (disk : Mem) : Prop :=
  ∃ bm', LayoutsFit cfg bm' ∧
    (newBmStart cfg bm' ≤ lastKnownOffset cfg ∨ 0 < oldBmStart cfg ∨ o.ignoreSanityChecks = true) ∧
    (oldBmStart cfg ≤ newBmStart cfg bm' ∨
      BoundariesAgree disk (oldBmStart cfg).toNat (oldBmBytes cfg))

/-- The two conditions of `MoveSafe` in terms of the new layout. -/
theorem Moves.starts {cfg : Format} {bm' bm al : Nat}
    (hm : Moves cfg (flexIntFormat cfg bm') (oldBmStart cfg).toNat bm al)
    (hfit : LayoutsFit cfg bm') (hmd : cfg.mdOffset = v07StyleMdGetByteOffset .flexInt cfg.bdSize)
    (hal : al = oldAlBytes cfg) :
    newBmStart cfg bm' = (flexIntFormat cfg bm').bmOffset ∧
      oldBmStart cfg = (oldBmStart cfg).toNat ∧ oldBmBytes cfg = bm := by
  have h1 := hfit.oldBm_nonneg
  have h0 := hfit.al_nonneg
  have e1 : (flexIntFormat cfg bm').bmOffset + bm' = (flexIntFormat cfg bm').alOffset := hm.newAl_eq
  have e2 : (flexIntFormat cfg bm').alOffset + al = cfg.mdOffset := hm.newMd_eq
  have e3 := hm.bm_eq
  unfold newBmStart oldBmBytes
  unfold oldAlBytes at hal
  omega

theorem v08Move_of_moved {K : OnDisk9} {o : Options} {cfg cfg' : Format} {w w₁ : World}
    (h : moveToNewLocation K o cfg w = (.ok (true, cfg'), w₁)) :
    v08MoveInternalMdAfterResize K o cfg w =
      (wipeOld o cfg' cfg.md (lastKnownOffset cfg) >>= fun _ => pure true) w₁ := by
  unfold v08MoveInternalMdAfterResize
  rw [Run.bind_ok h, if_pos rfl]

theorem metadataMoved_iff {K : OnDisk9} {o : Options} {cfg : Format} {w : World}
    (h : OpenedAtLastKnown K cfg w.disk) (hgrow : cfg.lkBdSize ≤ cfg.bdSize)
    (hd : o.dryRun = false) :
    (∃ cfg' w₁ w', MetadataMoved K o cfg w cfg' w₁ w') ↔ MoveSafe o cfg w.disk := by
  constructor
  · rintro ⟨cfg', w₁, w', hmoved⟩
    obtain ⟨bm', hfit⟩ := layoutsFit_of_moveToNewLocation h hgrow hd hmoved.beforeWipe
    obtain ⟨bm, hv, hm⟩ := flexInt_moves h hgrow hfit
    obtain ⟨hn, hold, hbytes⟩ := hm.starts hfit h.mdOffset rfl
    obtain ⟨w₂, hrun, hbitmap, _, _⟩ := moveToNewLocation_ok w h hgrow hfit hd hm
    have heq := hmoved.beforeWipe
    rw [hrun] at heq
    cases heq
    have hfinal := hmoved.run
    rw [v08Move_of_moved hrun] at hfinal
    obtain ⟨u, w₃, hwipe, hfinal⟩ := Run.of_bind_ok hfinal
    have hcond := (wipeOld_ok_iff hm hd w₁).2 (by rw [hwipe])
    have e2 := hm.newAl_eq
    have e3 := hm.newMd_eq
    have e6 := hm.bm_le
    refine ⟨bm', hfit, hcond.imp (fun hle => by omega) (Or.imp_left fun hlt => by omega), ?_⟩
    rw [hn, hold, hbytes]
    have hpeel := (peelMove_bitmap_iff hm w.disk).1 fun k hk => by
      rw [← hbitmap k hk, ← hmoved.wipe _ (by omega) (by omega), hmoved.bitmap k (by omega)]
    exact hpeel.imp (fun hle => by omega) id
  · rintro ⟨bm', hfit, hwipe, hpeel⟩
    obtain ⟨bm, hv, hm⟩ := flexInt_moves h hgrow hfit
    obtain ⟨hn, hold, hbytes⟩ := hm.starts hfit h.mdOffset rfl
    obtain ⟨w₁, hrun, hbitmap, hal, hmd⟩ := moveToNewLocation_ok w h hgrow hfit hd hm
    obtain ⟨w', hwiped, hframe⟩ := (wipeOld_ok_iff hm hd w₁).1
      (hwipe.imp (fun hle => by omega) (Or.imp_left fun hlt => by omega))
    have e1 := hm.oldMd_eq
    have e2 := hm.newAl_eq
    have e3 := hm.newMd_eq
    have hre := reInitializeMdOffsets_opened h o
    rw [hfit.bm_ok] at hre
    refine ⟨flexIntFormat cfg bm', w₁, w', hre, ?_, hrun, fun k hk => ?_, fun k hk => ?_, ?_,
      fun a ha _ => hframe a ha⟩
    · rw [v08Move_of_moved hrun, Run.bind_ok hwiped]
      rfl
    · rw [hframe _ (by omega), hbitmap k (by omega)]
      refine (peelMove_bitmap_iff hm w.disk).2 ?_ k (by omega)
      rw [hbytes] at hpeel
      exact hpeel.imp (fun hle => by omega) id
    · rw [hframe _ (by omega), hal k hk]
      congr 1
      unfold oldAlBytes
      omega
    · have hdec : decodeMd K cfg.version (fun a => w'.disk ((flexIntFormat cfg bm').mdOffset + a)) =
          decodeMd K cfg.version (encodeMd K cfg.version (flexIntFormat cfg bm').md) :=
        decodeMd_congr K fun a ha => by rw [hframe _ (by omega), hmd a ha]
      rw [hdec, decodeMd_encodeMd, normalMd_moved h]
      exact flexIntFormat_md h

/-- **Moving internal metadata after a grow preserves it exactly when the move is safe.** -/
theorem move_preserves_iff {K : OnDisk9} {o : Options} {lk : Option (Nat × BitVec 64)}
    {cfg₀ cfg : Format} {w₀ w : World}
    (hopen : v08MdOpen K o lk cfg₀ w₀ = (.ok (.validMdFoundAtLastKnownLocation, cfg), w))
    (hgrow : cfg.lkBdSize ≤ cfg.bdSize) (hd : o.dryRun = false) :
    (∃ cfg' w₁ w', MetadataMoved K o cfg w cfg' w₁ w') ↔ MoveSafe o cfg w.disk :=
  metadataMoved_iff (v08MdOpen_lastKnown K hopen) hgrow hd

/-! ## Two grown devices -/

/-- An 8.4 superblock for a bitmap of `bmSect` sectors. -/
def grownMd (bmSect : BitVec 32) : MdCpu :=
  { sampleMd 0 bmSect 1 with magic := DRBD_MD_MAGIC_08 }

/-- A device that just got the size `bdSize`, before it is opened. -/
def grownFormat (bdSize : Nat) : Format :=
  { sampleFormat 0 0 1 with version := .v08, md := zeroMd, bdSize := bdSize }

/-- Its content: the superblock at `oldMd`, and one set bit at byte `set`. -/
def grownDisk (bmSect : BitVec 32) (oldMd set : Nat) : Mem :=
  blit (mdCpuToDisk08 (grownMd bmSect)) 0 (fun a => if a = set then 1 else 0) oldMd 4096

theorem decodeMd_grownDisk (bmSect : BitVec 32) (oldMd set : Nat) :
    decodeMd packedOnDisk9 .v08 (fun a => grownDisk bmSect oldMd set (oldMd + a)) =
      grownMd bmSect := by
  rw [@decodeMd_congr packedOnDisk9 _ _ (encodeMd packedOnDisk9 .v08 (grownMd bmSect))
    fun a ha => by
      rw [grownDisk, blit_in (by omega) (by omega)]
      congr 1
      omega,
    decodeMd_encodeMd]
  refine MdCpu.ext rfl rfl rfl rfl rfl rfl rfl rfl ?_ rfl rfl rfl rfl rfl rfl ?_ rfl rfl rfl
  · funext i
    exact ite_self _
  · funext i
    exact ite_self _

theorem isValidMd_grownDisk_zero {bmSect : BitVec 32} {oldMd set off bdSize : Nat}
    (h : oldMd + 4096 ≤ off) (hset : set < off) :
    isValidMd .v08 (decodeMd packedOnDisk9 .v08 fun a => grownDisk bmSect oldMd set (off + a))
      .flexInt bdSize = .ok false := by
  rw [decodeMd_congr packedOnDisk9 fun a ha => by
    rw [grownDisk, blit_out (by omega), if_neg (by omega)]]
  have hmagic : mdMagicOk .v08 (decodeMd packedOnDisk9 .v08 fun _ => 0).magic = false := by
    decide +kernel
  rw [isValidMd, hmagic]
  rfl

/-- The device once it was opened. -/
def grownOpened (bmSect : BitVec 32) (lk bdSize : Nat) : Format :=
  { grownFormat bdSize with
    mdOffset := v07StyleMdGetByteOffset .flexInt bdSize
    lkBdSize := lk
    lkBdUuid := 0
    md := grownMd bmSect }

theorem v08MdOpen_grown {bmSect : BitVec 32} {lk bdSize oldMd set : Nat}
    (hoff : v07StyleMdGetByteOffset .flexInt lk = oldMd) (hbd : SO_MUCH ≤ bdSize)
    (hsmall : bdSize < 2 ^ 63) (hlk : lk ≠ 0) (hne : lk ≠ bdSize) (hacc : oldMd + 4096 ≤ bdSize)
    (hold : isValidMd .v08 (grownMd bmSect) .flexInt lk = .ok true)
    (hnew : isValidMd .v08 (decodeMd packedOnDisk9 .v08 fun a => grownDisk bmSect oldMd set
      (v07StyleMdGetByteOffset .flexInt bdSize + a)) .flexInt bdSize = .ok false) :
    ∃ w, w.disk = grownDisk bmSect oldMd set ∧
      v08MdOpen packedOnDisk9 {} (some (lk, 0)) (grownFormat bdSize)
        (.init (grownDisk bmSect oldMd set) fun _ => 0) =
          (.ok (.validMdFoundAtLastKnownLocation, grownOpened bmSect lk bdSize), w) := by
  subst hoff
  have hdec := decodeMd_grownDisk bmSect (v07StyleMdGetByteOffset .flexInt lk) set
  obtain ⟨w, hdisk, hopen⟩ := @v08MdOpen_found packedOnDisk9 {} _ 0 (grownFormat bdSize)
    (.init (grownDisk bmSect (v07StyleMdGetByteOffset .flexInt lk) set) fun _ => 0)
    (show MdFormat.v08 ≠ .v07 by decide) rfl rfl hbd
    (hsmall.trans (by decide)) hnew hlk hne hacc
    ((congrArg (isValidMd .v08 · .flexInt lk) hdec).trans hold)
    (fun h0 => absurd ((congrArg MdCpu.magic hdec).symm.trans h0)
      (show DRBD_MD_MAGIC_08 ≠ 0 by decide)) (.inl rfl)
  refine ⟨w, hdisk, hopen.trans ?_⟩
  have hdec' : decodeMd packedOnDisk9 (grownFormat bdSize).version (fun a =>
      (World.init (grownDisk bmSect (v07StyleMdGetByteOffset .flexInt lk) set) fun _ => 0).disk
        (v07StyleMdGetByteOffset .flexInt lk + a)) = grownMd bmSect := hdec
  rw [hdec']
  rfl

theorem move_preserves_iff_doubled :
    ∃ w cfg' w₁ w', v08MdOpen packedOnDisk9 {} (some (2 ^ 27, 0)) (grownFormat (2 ^ 28))
        (.init (grownDisk 8 (2 ^ 27 - 4096) (2 ^ 27 - 40960)) fun _ => 0) =
          (.ok (.validMdFoundAtLastKnownLocation, grownOpened 8 (2 ^ 27) (2 ^ 28)), w) ∧
      MetadataMoved packedOnDisk9 {} (grownOpened 8 (2 ^ 27) (2 ^ 28)) w cfg' w₁ w' := by
  obtain ⟨w, hdisk, hopen⟩ := @v08MdOpen_grown 8 (2 ^ 27) (2 ^ 28) (2 ^ 27 - 4096)
    (2 ^ 27 - 40960) (by decide +kernel) (by decide) (by decide)
    (by decide) (by decide) (by decide) (by decide +kernel)
    (isValidMd_grownDisk_zero (by decide +kernel) (by decide +kernel))
  have hsafe : MoveSafe {} (grownOpened 8 (2 ^ 27) (2 ^ 28)) w.disk :=
    ⟨8192, ⟨by decide +kernel, by decide +kernel, by decide +kernel, by decide +kernel,
      by decide +kernel⟩, .inr (.inl (by decide +kernel)), .inl (by decide +kernel)⟩
  obtain ⟨cfg', w₁, w', hmoved⟩ := (move_preserves_iff hopen (by decide) rfl).2 hsafe
  exact ⟨w, cfg', w₁, w', hopen, hmoved⟩

/-- A device of 1 TiB and 128 MiB grows by one sector: the superblock stays, the bitmap of one
    full buffer and 4k moves down by 4k, and its first set bit is lost. -/
theorem move_loses_first_block :
    ∃ w, v08MdOpen packedOnDisk9 {} (some (2 ^ 40 + 2 ^ 27, 0)) (grownFormat (2 ^ 40 + 2 ^ 27 + 512))
        (.init (grownDisk 65544 (2 ^ 40 + 2 ^ 27 - 4096) (2 ^ 40 + 2 ^ 27 - 33595392)) fun _ => 0) =
          (.ok (.validMdFoundAtLastKnownLocation,
            grownOpened 65544 (2 ^ 40 + 2 ^ 27) (2 ^ 40 + 2 ^ 27 + 512)), w) ∧
      ¬ ∃ cfg' w₁ w', MetadataMoved packedOnDisk9 {}
        (grownOpened 65544 (2 ^ 40 + 2 ^ 27) (2 ^ 40 + 2 ^ 27 + 512)) w cfg' w₁ w' := by
  obtain ⟨w, hdisk, hopen⟩ := @v08MdOpen_grown 65544 (2 ^ 40 + 2 ^ 27)
    (2 ^ 40 + 2 ^ 27 + 512) (2 ^ 40 + 2 ^ 27 - 4096)
    (2 ^ 40 + 2 ^ 27 - 33595392) (by decide +kernel) (by decide) (by decide)
    (by decide) (by decide) (by decide) (by decide +kernel)
    (by
      rw [show v07StyleMdGetByteOffset .flexInt (2 ^ 40 + 2 ^ 27 + 512) = 2 ^ 40 + 2 ^ 27 - 4096 by
        decide +kernel, decodeMd_grownDisk]
      decide +kernel)
  refine ⟨w, hopen, fun hmoved => ?_⟩
  obtain ⟨bm', hfit, _, hpeel⟩ := (metadataMoved_iff (v08MdOpen_lastKnown _ hopen)
    (show 2 ^ 40 + 2 ^ 27 ≤ 2 ^ 40 + 2 ^ 27 + 512 by decide) rfl).1 hmoved
  have hbm : bmBytes (grownMd 65544) ((2 ^ 40 + 2 ^ 27 + 512) / 512) = .ok 33562624 := by
    decide +kernel
  have hbm' : (.ok bm' : Except Stop Nat) = .ok 33562624 := hfit.bm_ok.symm.trans hbm
  cases hbm'
  rcases hpeel with hup | hagree
  · exact absurd hup (by decide +kernel)
  · have h0 := hagree 0 (by decide +kernel) 0 (by decide)
    rw [hdisk] at h0
    exact absurd h0 (by decide +kernel)

end DrbdUtils.Meta
