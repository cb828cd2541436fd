import DrbdUtils.Meta.Format
import Mathlib.Data.BitVec

/-!
# Where the metadata is

The layout computations of `drbdmeta.c`: `bm_bytes()`, `v07_style_md_get_byte_offset()`,
`max_usable_sectors()`, `re_initialize_md_offsets()`, `is_valid_md()` and
`clip_effective_size_and_bm_bytes()`, and the facts about the bitmap granularity that every
user of the layout relies on.

There are two layouts.  External: superblock, activity log, bitmap, from `md_offset` up.
Internal: bitmap, activity log, superblock, the offsets of the first two being negative.
-/

set_option autoImplicit false

namespace DrbdUtils.Meta

open BlockDevice

/-- `bm_bytes`: bitmap bytes, over all peer slots, for a device of `sectors` sectors. -/
def bmBytes (md : MdCpu) (sectors : Nat) : Except Stop Nat :=
  if sectors ≤ 2 ^ (50 - 9) ∧ BM_BLOCK_SIZE_MIN ≤ md.bmBytesPerBit.toNat ∧
      md.bmBytesPerBit.toNat ≤ BM_BLOCK_SIZE_MAX ∧ isPowerOf2 md.bmBytesPerBit.toNat then
    let sectorsPerBit := md.bmBytesPerBit.toNat >>> 9
    let bmBits := (sectors + sectorsPerBit - 1) / sectorsPerBit
    let bmBits := align bmBits 64
    .ok (align (bmBits / 8 * md.maxPeers.toNat) 4096)
  else .error .abort

/-- Number of bits one peer slot needs for a device of `sectors` sectors. -/
def deviceBits (md : MdCpu) (sectors : Nat) : Nat :=
  let sectorsPerBit := md.bmBytesPerBit.toNat >>> 9
  (sectors + sectorsPerBit - 1) / sectorsPerBit

/-- The granularities the bitmap code admits: power-of-two multiples of 4k up to 1M. -/
theorem granularity_of_isPowerOf2 {n : Nat} (h1 : BM_BLOCK_SIZE_MIN ≤ n)
    (h2 : n ≤ BM_BLOCK_SIZE_MAX) (h : isPowerOf2 n = true) : ∃ k ≤ 8, n = 2 ^ (12 + k) := by
  rw [isPowerOf2_iff] at h
  obtain ⟨k, rfl⟩ := h
  simp only [BM_BLOCK_SIZE_MIN, BM_BLOCK_SIZE_MAX] at h1 h2
  have h12 : 12 ≤ k := by
    by_contra hc
    have := Nat.pow_le_pow_right (show 0 < 2 by omega) (show k ≤ 11 by omega)
    omega
  have h20 : k ≤ 20 := by
    by_contra hc
    have := Nat.pow_le_pow_right (show 0 < 2 by omega) (show 21 ≤ k by omega)
    omega
  exact ⟨k - 12, by omega, by congr 1; omega⟩

/-- What a successful `bm_bytes()` has checked and computed. -/
theorem bmBytes_ok {md : MdCpu} {sectors bm : Nat} (h : bmBytes md sectors = .ok bm) :
    sectors ≤ 2 ^ 41 ∧ (∃ k ≤ 8, md.bmBytesPerBit.toNat = 2 ^ (12 + k)) ∧
      bm = align (align (deviceBits md sectors) 64 / 8 * md.maxPeers.toNat) 4096 := by
  unfold bmBytes at h
  split at h
  · rename_i hc
    obtain ⟨hs, h1, h2, hp⟩ := hc
    refine ⟨hs, granularity_of_isPowerOf2 h1 h2 hp, ?_⟩
    simp only [Except.ok.injEq] at h
    exact h.symm
  · cases h

theorem bmBytes_dvd {md : MdCpu} {sectors bm : Nat} (h : bmBytes md sectors = .ok bm) :
    4096 ∣ bm := by
  obtain ⟨_, _, rfl⟩ := bmBytes_ok h
  exact dvd_align _ _

/-- A larger device never has a smaller bitmap. -/
theorem bmBytes_mono {md : MdCpu} {sectors sectors' bm bm' : Nat} (hle : sectors ≤ sectors')
    (h : bmBytes md sectors = .ok bm) (h' : bmBytes md sectors' = .ok bm') : bm ≤ bm' := by
  obtain ⟨_, _, rfl⟩ := bmBytes_ok h
  obtain ⟨_, _, rfl⟩ := bmBytes_ok h'
  have hbits : deviceBits md sectors ≤ deviceBits md sectors' := by
    unfold deviceBits
    exact Nat.div_le_div_right (by omega)
  unfold align
  gcongr

/-! ## Offsets -/

/-- Sectors of the activity log: a product of `uint32_t`s read as `int`. -/
def alSizeSect (md : MdCpu) : Int := (md.alStripes * md.alStripeSize4k * 8).toInt

/-- `v07_style_md_get_byte_offset`. -/
def v07StyleMdGetByteOffset (idx : MdIndex) (bdSize : Nat) : Nat :=
  match idx with
  | .fixed idx => MD_RESERVED_SECT_07 * idx * 512
  | .internal => toU64 (roundDown bdSize 4096 - MD_RESERVED_SECT_07 * 512)
  | .flexInt => roundDown (toU64 (bdSize - 4096)) 4096
  | .flexExt => 0

/-- Sectors from the bitmap to the end of an external metadata area. -/
def externalBmSect (md : MdCpu) : Nat := (md.mdSizeSect - md.bmOffset).toNat

/-- `max_usable_sectors`. -/
def maxUsableSectors (cfg : Format) : Except Stop Nat :=
  if cfg.mdIndex = .internal ∨ cfg.mdIndex = .flexInt then
    .ok (min (min cfg.mdOffset cfg.alOffset) cfg.bmOffset / 512)
  else
    let bytesPerBit := cfg.md.bmBytesPerBit.toNat
    let admitted : Bool :=
      if cfg.version ≠ .v09 ∨ cfg.mdIndex ≠ .flexExt then bytesPerBit = BM_BLOCK_SIZE_4k
      else isPowerOf2 bytesPerBit && BM_BLOCK_SIZE_MIN ≤ bytesPerBit &&
        bytesPerBit ≤ BM_BLOCK_SIZE_MAX
    if admitted then
      .ok (externalBmSect cfg.md * 512 * 8 / 64 / cfg.md.maxPeers.toNat * 64 * bytesPerBit
        % 2 ^ 64 / 512)
    else .error .abort

/-- The defaults `re_initialize_md_offsets` fills in. -/
def saneDefaults (o : Options) (md : MdCpu) : MdCpu :=
  { md with
    bmBytesPerBit := if md.bmBytesPerBit ≠ 0 then md.bmBytesPerBit
      else if o.bmBlockSize ≠ 0 then o.bmBlockSize else BitVec.ofNat 32 DEFAULT_BM_BLOCK_SIZE
    maxPeers := if md.maxPeers = 0 then 1 else md.maxPeers }

/-- The sector offsets `re_initialize_md_offsets` chooses, and `bm_bytes`. -/
def mdSectOffsets (cfg : Format) (md : MdCpu) : Except Stop (MdCpu × Nat) :=
  let external (mdSizeSect : BitVec 32) (bmOffset : Int) : MdCpu × Nat :=
    let md := { md with
      mdSizeSect := mdSizeSect
      alOffset := BitVec.ofNat 32 MD_AL_OFFSET_07
      bmOffset := BitVec.ofInt 32 bmOffset }
    (md, 512 * externalBmSect md)
  match cfg.mdIndex with
  | .fixed _ =>
    .ok (external (BitVec.ofNat 32 MD_RESERVED_SECT_07) (MD_AL_OFFSET_07 + alSizeSect md))
  | .flexExt =>
    .ok (external (BitVec.ofNat 32 (cfg.bdSize / 512)) (MD_AL_OFFSET_07 + alSizeSect md))
  | .internal => .ok (external (BitVec.ofNat 32 MD_RESERVED_SECT_07) MD_BM_OFFSET_07)
  | .flexInt => do
    let bm ← bmBytes md (cfg.bdSize / 512)
    let bmSect := align (bm / 512) 8
    if MD_BM_MAX_BYTE_FLEX / 512 * md.maxPeers.toNat < bmSect then .error (.exit 10)
    else
      let mdSizeSect : Int := bmSect + (MD_AL_OFFSET_07 + alSizeSect md)
      .ok ({ md with
        mdSizeSect := BitVec.ofInt 32 mdSizeSect
        alOffset := BitVec.ofInt 32 (-alSizeSect md)
        bmOffset := BitVec.ofInt 32 (-mdSizeSect + MD_AL_OFFSET_07) }, bm)

/-- The byte offsets that belong to the sector offsets of a superblock. -/
def setByteOffsets (cfg : Format) (md : MdCpu) : Format :=
  { cfg with
    md := md
    alOffset := toU64 (cfg.mdOffset + md.alOffset.toInt * 512)
    bmOffset := toU64 (cfg.mdOffset + md.bmOffset.toInt * 512) }

/-- `re_initialize_md_offsets`. -/
def reInitializeMdOffsets (o : Options) (cfg : Format) : Except Stop Format := do
  let (md, bm) ← mdSectOffsets cfg (saneDefaults o cfg.md)
  let cfg := { setByteOffsets cfg md with bmBytes := bm }
  let maxUsableSect ← maxUsableSectors cfg
  return { cfg with maxUsableSect := maxUsableSect }

/-- The magic numbers of a format. -/
def mdMagicOk (f : MdFormat) (magic : BitVec 32) : Bool :=
  match f with
  | .v07 => magic = DRBD_MD_MAGIC_07
  | .v08 => magic = DRBD_MD_MAGIC_08 || magic = DRBD_MD_MAGIC_84_UNCLEAN
  | .v09 => magic = DRBD_MD_MAGIC_09

/-- A node id or bitmap index: `-1` for none. -/
def idInBounds (x : BitVec 32) : Bool := -1 ≤ x.toInt && x.toInt ≤ DRBD_PEERS_MAX - 1

/-- The bounds checks of `is_valid_md`. -/
def mdIdsOk (md : MdCpu) : Bool :=
  (1 ≤ md.maxPeers.toNat && md.maxPeers.toNat ≤ DRBD_PEERS_MAX - 1) && idInBounds md.nodeId &&
    decide (∀ n : Fin DRBD_PEERS_MAX, n < md.maxPeers.toNat → idInBounds (md.peers n).bitmapIndex)

/-- `is_valid_md`. -/
def isValidMd (f : MdFormat) (md : MdCpu) (idx : MdIndex) (llSize : Nat) : Except Stop Bool :=
  if !(mdMagicOk f md.magic && mdIdsOk md) then .ok false
  else if idx = .flexInt then
    if md.alOffset ≠ BitVec.ofInt 32 (-alSizeSect md) then .ok false
    else do
      let bm ← bmBytes md (llSize / 512)
      let mdSizeSect : Int := align (bm / 512) 8 + (MD_AL_OFFSET_07 + alSizeSect md)
      if md.bmOffset.toInt ≠ -mdSizeSect + MD_AL_OFFSET_07 then .ok false
      else .ok (md.mdSizeSect.toNat = mdSizeSect || f = .v07)
  else .ok (md.alOffset = BitVec.ofNat 32 MD_AL_OFFSET_07 &&
    md.bmOffset = BitVec.ofInt 32 (MD_AL_OFFSET_07 + alSizeSect md))

/-- `clip_effective_size_and_bm_bytes`. -/
def clipEffectiveSizeAndBmBytes (cfg : Format) : Except Stop Format := do
  let md := if cfg.maxUsableSect < cfg.md.effectiveSize.toNat then
      { cfg.md with effectiveSize := BitVec.ofNat 64 cfg.maxUsableSect } else cfg.md
  let bm ← bmBytes md md.effectiveSize.toNat
  return { cfg with md := md, bmBytes := bm }

/-! ## Flexible internal metadata -/

/-- What `is_valid_md` checks of flexible internal metadata, since 8.0. -/
structure FlexIntValid (f : MdFormat) (md : MdCpu) (llSize bm : Nat) : Prop where
  magic : mdMagicOk f md.magic = true
  ids : mdIdsOk md = true
  bm_ok : bmBytes md (llSize / 512) = .ok bm
  alOffset : md.alOffset = BitVec.ofInt 32 (-alSizeSect md)
  bmOffset : md.bmOffset.toInt = -(bm / 512 : Nat) - alSizeSect md
  mdSizeSect : (md.mdSizeSect.toNat : Int) = (bm / 512 : Nat) + (8 + alSizeSect md)

theorem align_sect {md : MdCpu} {sectors bm : Nat} (h : bmBytes md sectors = .ok bm) :
    align (bm / 512) 8 = bm / 512 := by
  obtain ⟨c, rfl⟩ := bmBytes_dvd h
  exact align_eq_of_dvd (by omega) ⟨c, by omega⟩

theorem mdIdsOk_peers {md : MdCpu} (h : mdIdsOk md = true) :
    1 ≤ md.maxPeers.toNat ∧ md.maxPeers.toNat ≤ 31 := by
  simp only [mdIdsOk, Bool.and_eq_true, decide_eq_true_eq] at h
  exact h.1.1

theorem mdIdsOk_maxPeers_ne {md : MdCpu} (h : mdIdsOk md = true) : md.maxPeers ≠ 0 := by
  intro h0
  have hpos := (mdIdsOk_peers h).1
  rw [h0] at hpos
  exact absurd hpos (by decide)

theorem isValidMd_flexInt_iff {f : MdFormat} {md : MdCpu} {llSize : Nat} (hf : f ≠ .v07) :
    isValidMd f md .flexInt llSize = .ok true ↔ ∃ bm, FlexIntValid f md llSize bm := by
  unfold isValidMd
  by_cases hhead : (mdMagicOk f md.magic && mdIdsOk md) = true
  · rw [hhead, if_neg (by decide), if_pos rfl]
    rw [Bool.and_eq_true] at hhead
    by_cases hal : md.alOffset = BitVec.ofInt 32 (-alSizeSect md)
    · rw [if_neg (not_not.2 hal)]
      cases hb : bmBytes md (llSize / 512) with
      | error e =>
        refine ⟨fun h => (by cases h), ?_⟩
        rintro ⟨bm, h⟩
        rw [h.bm_ok] at hb
        cases hb
      | ok bm =>
        have hstep : (do
            let bm ← (Except.ok bm : Except Stop Nat)
            let mdSizeSect : Int := align (bm / 512) 8 + (MD_AL_OFFSET_07 + alSizeSect md)
            if md.bmOffset.toInt ≠ -mdSizeSect + MD_AL_OFFSET_07 then (.ok false : Except Stop Bool)
            else .ok (md.mdSizeSect.toNat = mdSizeSect || f = MdFormat.v07)) =
            if md.bmOffset.toInt ≠ -((bm / 512 : Nat) + (8 + alSizeSect md)) + 8 then .ok false
            else .ok (decide ((md.mdSizeSect.toNat : Int) = (bm / 512 : Nat) + (8 + alSizeSect md))) := by
          simp only [bind, Except.bind, align_sect hb, hf, decide_false, Bool.or_false,
            MD_AL_OFFSET_07, Nat.cast_ofNat]
        rw [hstep]
        constructor
        · intro h
          split at h
          · cases h
          · rename_i hbm
            simp only [Except.ok.injEq, decide_eq_true_eq] at h
            have hbm' := not_not.1 hbm
            exact ⟨bm, hhead.1, hhead.2, hb, hal, by omega, h⟩
        · rintro ⟨bm', h⟩
          have heq : bm' = bm := by
            have := h.bm_ok
            rw [hb, Except.ok.injEq] at this
            exact this.symm
          subst heq
          have hbm := h.bmOffset
          rw [if_neg (by omega), decide_eq_true h.mdSizeSect]
    · rw [if_pos hal]
      refine ⟨fun h => (by cases h), ?_⟩
      rintro ⟨bm, h⟩
      exact absurd h.alOffset hal
  · rw [Bool.not_eq_true] at hhead
    rw [hhead, if_pos (by decide)]
    refine ⟨fun h => (by cases h), ?_⟩
    rintro ⟨bm, h⟩
    rw [h.magic, h.ids] at hhead
    cases hhead

/-- The layout `re_initialize_md_offsets` chooses for flexible internal metadata. -/
def flexIntFormat (cfg : Format) (bm : Nat) : Format :=
  let mdSizeSect : Int := (bm / 512 : Nat) + (8 + alSizeSect cfg.md)
  let cfg := setByteOffsets cfg { cfg.md with
    mdSizeSect := BitVec.ofInt 32 mdSizeSect
    alOffset := BitVec.ofInt 32 (-alSizeSect cfg.md)
    bmOffset := BitVec.ofInt 32 (-mdSizeSect + 8) }
  { cfg with
    bmBytes := bm
    maxUsableSect := min (min cfg.mdOffset cfg.alOffset) cfg.bmOffset / 512 }

theorem saneDefaults_eq {o : Options} {md : MdCpu} (h1 : md.bmBytesPerBit ≠ 0)
    (h2 : md.maxPeers ≠ 0) : saneDefaults o md = md := by
  unfold saneDefaults
  rw [if_pos h1, if_neg h2]

/-- A bitmap never exceeds what the format admits per peer. -/
theorem bmBytes_le_flex {md : MdCpu} {sectors bm : Nat} (h : bmBytes md sectors = .ok bm) :
    bm / 512 ≤ MD_BM_MAX_BYTE_FLEX / 512 * md.maxPeers.toNat := by
  obtain ⟨hs, ⟨k, hk, hgran⟩, rfl⟩ := bmBytes_ok h
  have hspb : md.bmBytesPerBit.toNat >>> 9 = 2 ^ (3 + k) := by
    rw [hgran, Nat.shiftRight_eq_div_pow, show 12 + k = 9 + (3 + k) by omega, Nat.pow_add,
      Nat.mul_div_cancel_left _ (by decide)]
  have hbits : deviceBits md sectors ≤ 2 ^ 38 := by
    unfold deviceBits
    rw [hspb]
    interval_cases k <;> simp only [Nat.reduceAdd, Nat.reducePow] <;> omega
  have h64 : align (deviceBits md sectors) 64 / 8 ≤ 2 ^ 35 := by unfold align; omega
  have hmul := Nat.mul_le_mul_right md.maxPeers.toNat h64
  have halign : align (align (deviceBits md sectors) 64 / 8 * md.maxPeers.toNat) 4096 ≤
      2 ^ 35 * md.maxPeers.toNat :=
    align_le_of_dvd (by omega) hmul (Dvd.dvd.mul_right (by decide) _)
  simp only [MD_BM_MAX_BYTE_FLEX]
  omega

theorem reInitializeMdOffsets_flexInt {o : Options} {cfg : Format} (hidx : cfg.mdIndex = .flexInt)
    (h1 : cfg.md.bmBytesPerBit ≠ 0) (h2 : cfg.md.maxPeers ≠ 0) :
    reInitializeMdOffsets o cfg = (bmBytes cfg.md (cfg.bdSize / 512)).map (flexIntFormat cfg) := by
  unfold reInitializeMdOffsets
  rw [saneDefaults_eq h1 h2]
  unfold mdSectOffsets
  rw [hidx]
  cases hb : bmBytes cfg.md (cfg.bdSize / 512) with
  | error e => rfl
  | ok bm =>
    have hle := bmBytes_le_flex hb
    simp only [bind, Except.bind, align_sect hb, if_neg (Nat.not_lt.2 hle)]
    simp only [maxUsableSectors, setByteOffsets, hidx, or_true, if_true, pure, Except.pure,
      Except.map, flexIntFormat, MD_AL_OFFSET_07, Nat.cast_ofNat]

/-! ## The bitmap area -/

/-- The bitmap part of the device. -/
def bitmapArea (cfg : Format) (disk : Mem) : Mem := fun a => disk (cfg.bmOffset + a)

/-- `[bmOffset, bmOffset + len)` lies on the device and inside the metadata area that
    `validate_offsets_or_die` derives from the superblock. -/
structure BitmapInside (cfg : Format) (len : Nat) : Prop where
  device : cfg.bmOffset + len ≤ cfg.bdSize
  start : toS64 (mdAreaStart cfg) ≤ cfg.bmOffset
  stop : (cfg.bmOffset + len : Int) ≤ toS64 (mdAreaStart cfg) + mdAreaLen cfg

theorem BitmapInside.validate {cfg : Format} {len count offset : Nat} (h : BitmapInside cfg len)
    (o : Options) (h1 : cfg.bmOffset ≤ offset) (h2 : offset + count ≤ cfg.bmOffset + len) :
    validateOffsets o cfg count offset = true := by
  have hs := h.start
  have ht := h.stop
  have : toS64 (mdAreaStart cfg) ≤ offset ∧
      (offset + count : Int) ≤ toS64 (mdAreaStart cfg) + mdAreaLen cfg := by omega
  simp [validateOffsets, this]

/-! ## Sample layouts -/

/-- Superblock of flexible internal metadata with 4k granularity and default striping, for a
    bitmap of `bmSect` sectors. -/
def sampleMd (effectiveSize : BitVec 64) (bmSect maxPeers : BitVec 32) : MdCpu where
  gc := fun _ => 0
  magic := DRBD_MD_MAGIC_09
  effectiveSize := effectiveSize
  mdSizeSect := bmSect + 72
  alOffset := -64
  alNrExtents := 1237
  bmOffset := -64 - bmSect
  currentUuid := UUID_JUST_CREATED
  historyUuids := fun _ => 0
  flags := MDF_PRIMARY_IND
  deviceUuid := 0x1122334455667788
  bmBytesPerBit := 4096
  laPeerMaxBioSize := 0
  maxPeers := maxPeers
  nodeId := 0
  peers := fun _ => ⟨0, 0, 0, 0⟩
  alStripes := 1
  alStripeSize4k := 8
  members := 0

/-- Its device: bitmap, activity log and superblock behind the data. -/
def sampleFormat (effectiveSize : BitVec 64) (bmSect maxPeers : BitVec 32) : Format where
  version := .v09
  mdHardSectSize := ⟨512, by decide, by decide⟩
  mdIndex := .flexInt
  bmBytes := bmSect.toNat * 512
  md := sampleMd effectiveSize bmSect maxPeers
  mdOffset := (effectiveSize.toNat + bmSect.toNat + 64) * 512
  alOffset := (effectiveSize.toNat + bmSect.toNat) * 512
  bmOffset := effectiveSize.toNat * 512
  wipeFixed := 0
  wipeFlex := 0
  wipeResize := 0
  bdSize := (effectiveSize.toNat + bmSect.toNat + 72) * 512
  maxUsableSect := effectiveSize.toNat
  lkBdSize := 0
  lkBdUuid := 0

/-- A 128 MiB device with one peer. -/
abbrev format128M : Format := sampleFormat 262144 8 1

theorem format128M_bmBytes :
    bmBytes format128M.md format128M.md.effectiveSize.toNat = .ok format128M.bmBytes := by
  decide +kernel

theorem format128M_inside : BitmapInside format128M format128M.bmBytes where
  device := by decide +kernel
  start := by decide +kernel
  stop := by decide +kernel

end DrbdUtils.Meta
