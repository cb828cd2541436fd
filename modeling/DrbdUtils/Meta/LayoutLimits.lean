import DrbdUtils.Meta.Layout

/-!
# Limits of the layout computations

`re_initialize_md_offsets()` chooses where the superblock, the activity log and the bitmap are,
in signed 32-bit sector offsets, unsigned 32-bit sizes and 64-bit byte offsets.  This file
compares its choice with the same layout over the integers.

* `layout_wellFormed_iff` — exactly when the regions that come out are disjoint, aligned, on the
  device and clear of the usable data, nothing having wrapped.
* `usable_fits_iff` — exactly when the bitmap of the clipped effective size fits the bitmap area
  of an external layout.
-/

set_option autoImplicit false

namespace DrbdUtils.Meta

/-- Sectors of the activity log, without a wrap. -/
def alSect (md : MdCpu) : Nat := md.alStripes.toNat * md.alStripeSize4k.toNat * 8

/-- The activity log striping `main()` accepts. -/
structure AlAdmitted (md : MdCpu) : Prop where
  min : 8 ≤ md.alStripes.toNat * md.alStripeSize4k.toNat
  max : md.alStripes.toNat * md.alStripeSize4k.toNat ≤ 8192

/-- The bitmap granularities of the format: power-of-two multiples of 4k up to 1M. -/
structure GranularityAdmitted (md : MdCpu) : Prop where
  min : BM_BLOCK_SIZE_MIN ≤ md.bmBytesPerBit.toNat
  max : md.bmBytesPerBit.toNat ≤ BM_BLOCK_SIZE_MAX
  pow : isPowerOf2 md.bmBytesPerBit.toNat = true

/-- The number of peers `create-md` accepts. -/
structure MaxPeersAdmitted (md : MdCpu) : Prop where
  min : 1 ≤ md.maxPeers.toNat
  max : md.maxPeers.toNat ≤ 31

theorem AlAdmitted.alSizeSect_eq {md : MdCpu} (h : AlAdmitted md) : alSizeSect md = alSect md := by
  have hmax := h.max
  have hlt : md.alStripes.toNat * md.alStripeSize4k.toNat < 2 ^ 32 := by omega
  have hnat : (md.alStripes * md.alStripeSize4k * 8).toNat = alSect md := by
    rw [BitVec.toNat_mul, BitVec.toNat_mul, Nat.mod_eq_of_lt hlt,
      show (8 : BitVec 32).toNat = 8 from rfl, Nat.mod_eq_of_lt (by omega)]
    rfl
  have hle : alSect md ≤ 65536 := by unfold alSect; omega
  unfold alSizeSect
  rw [BitVec.toInt_eq_toNat_of_lt (by omega), hnat]

theorem AlAdmitted.alSect_bounds {md : MdCpu} (h : AlAdmitted md) :
    64 ≤ alSect md ∧ alSect md ≤ 65536 ∧ 8 ∣ alSect md := by
  have h1 := h.min
  have h2 := h.max
  unfold alSect
  exact ⟨by omega, by omega, Dvd.intro_left _ rfl⟩

theorem GranularityAdmitted.ne_zero {md : MdCpu} (h : GranularityAdmitted md) :
    md.bmBytesPerBit ≠ 0 := by
  rintro h0
  have := h.min
  rw [h0] at this
  exact absurd this (by decide)

theorem MaxPeersAdmitted.ne_zero {md : MdCpu} (h : MaxPeersAdmitted md) : md.maxPeers ≠ 0 := by
  rintro h0
  have := h.min
  rw [h0] at this
  exact absurd this (by decide)

/-- Sectors per bitmap bit. -/
def sectorsPerBit (md : MdCpu) : Nat := md.bmBytesPerBit.toNat / 512

theorem GranularityAdmitted.sectors {md : MdCpu} (h : GranularityAdmitted md) :
    ∃ k ≤ 8, md.bmBytesPerBit.toNat = 2 ^ (12 + k) ∧ md.bmBytesPerBit.toNat >>> 9 = 2 ^ (3 + k) ∧
      sectorsPerBit md = 2 ^ (3 + k) := by
  obtain ⟨k, hk, hpow⟩ := granularity_of_isPowerOf2 h.min h.max h.pow
  have hdiv : 2 ^ (12 + k) / 512 = 2 ^ (3 + k) := by
    rw [show 12 + k = 9 + (3 + k) by omega, Nat.pow_add]
    exact Nat.mul_div_cancel_left _ (by decide)
  refine ⟨k, hk, hpow, ?_, ?_⟩
  · rw [Nat.shiftRight_eq_div_pow, hpow]
    exact hdiv
  · unfold sectorsPerBit
    rw [hpow, hdiv]

/-! ## External layouts -/

/-- `md_index` of an external layout. -/
def MdIndex.isExternal : MdIndex → Bool
  | .fixed _ | .flexExt => true
  | .internal | .flexInt => false

/-- Sectors of an external metadata area, as the `uint32_t` they are stored in. -/
def externalSize (idx : MdIndex) (bdSize : Nat) : BitVec 32 :=
  match idx with
  | .flexExt => BitVec.ofNat 32 (bdSize / 512)
  | _ => BitVec.ofNat 32 MD_RESERVED_SECT_07

/-- The superblock fields of an external layout. -/
def externalMd (cfg : Format) : MdCpu :=
  { cfg.md with
    mdSizeSect := externalSize cfg.mdIndex cfg.bdSize
    alOffset := BitVec.ofNat 32 MD_AL_OFFSET_07
    bmOffset := BitVec.ofInt 32 (MD_AL_OFFSET_07 + alSizeSect cfg.md) }

/-- Sectors in front of the bitmap of an external layout. -/
def externalHead (md : MdCpu) : Nat := MD_AL_OFFSET_07 + alSect md

/-- The granularities an external layout of this format may have. -/
def externalGranularity (cfg : Format) : Prop :=
  (cfg.version = .v09 ∧ cfg.mdIndex = .flexExt) ∨ cfg.md.bmBytesPerBit.toNat = BM_BLOCK_SIZE_4k

/-- Sectors a bitmap of `bytes` bytes can cover: whole 64-bit words for each peer. -/
def coveredSectors (md : MdCpu) (bytes : Nat) : Nat :=
  bytes / (8 * md.maxPeers.toNat) * 64 * sectorsPerBit md

theorem mdSectOffsets_external (cfg : Format) (h : cfg.mdIndex.isExternal = true) :
    mdSectOffsets cfg cfg.md = .ok (externalMd cfg, 512 * externalBmSect (externalMd cfg)) := by
  unfold mdSectOffsets externalMd externalSize
  cases hidx : cfg.mdIndex with
  | fixed i => rfl
  | flexExt => rfl
  | internal => rw [hidx] at h; cases h
  | flexInt => rw [hidx] at h; cases h

theorem externalMd_bmOffset {cfg : Format} (hal : AlAdmitted cfg.md) :
    (externalMd cfg).bmOffset = BitVec.ofNat 32 (externalHead cfg.md) := by
  unfold externalMd externalHead
  rw [hal.alSizeSect_eq]
  apply BitVec.eq_of_toInt_eq
  rw [← Int.natCast_add, BitVec.ofInt_natCast]

theorem externalBmSect_eq {cfg : Format} (hal : AlAdmitted cfg.md) :
    externalBmSect (externalMd cfg) =
      (2 ^ 32 - externalHead cfg.md + (externalSize cfg.mdIndex cfg.bdSize).toNat) % 2 ^ 32 := by
  have hb := hal.alSect_bounds
  unfold externalBmSect
  rw [externalMd_bmOffset hal, BitVec.toNat_sub, BitVec.toNat_ofNat,
    Nat.mod_eq_of_lt (a := externalHead cfg.md) (by unfold externalHead MD_AL_OFFSET_07; omega)]
  rfl

/-- The bits of each peer times the granularity stay below `2^64`. -/
theorem capacity_lt {md : MdCpu} (hg : GranularityAdmitted md) {sect : Nat} (hs : sect < 2 ^ 32) :
    sect * 512 * 8 / 64 / md.maxPeers.toNat * 64 * md.bmBytesPerBit.toNat < 2 ^ 64 := by
  have hmax := hg.max
  have h1 : sect * 512 * 8 / 64 / md.maxPeers.toNat ≤ sect * 64 :=
    (Nat.div_le_self _ _).trans (by omega)
  have h2 : sect * 512 * 8 / 64 / md.maxPeers.toNat * 64 ≤ sect * 4096 := by omega
  calc _ ≤ sect * 4096 * BM_BLOCK_SIZE_MAX := Nat.mul_le_mul h2 hmax
    _ < 2 ^ 64 := by unfold BM_BLOCK_SIZE_MAX; omega

theorem capacity_sectors {md : MdCpu} (hg : GranularityAdmitted md) (sect : Nat) :
    sect * 512 * 8 / 64 / md.maxPeers.toNat * 64 * md.bmBytesPerBit.toNat / 512 =
      coveredSectors md (sect * 512) := by
  obtain ⟨k, -, hpow, -, hspb⟩ := hg.sectors
  have hbits : sect * 512 * 8 / 64 = sect * 512 / 8 := by omega
  have h512 : (2 : Nat) ^ (12 + k) = 2 ^ (3 + k) * 512 := by
    rw [show 12 + k = 3 + k + 9 by omega, Nat.pow_add]
  unfold coveredSectors
  rw [hbits, Nat.div_div_eq_div_mul, hpow, hspb, h512, ← Nat.mul_assoc]
  exact Nat.mul_div_cancel _ (by decide)

/-- What `re_initialize_md_offsets` leaves for an external layout. -/
def externalFormat (cfg : Format) : Format :=
  { setByteOffsets cfg (externalMd cfg) with
    bmBytes := 512 * externalBmSect (externalMd cfg)
    maxUsableSect := coveredSectors cfg.md (externalBmSect (externalMd cfg) * 512) }

theorem maxUsableSectors_internal {cfg : Format} (hidx : cfg.mdIndex.isExternal = false) :
    maxUsableSectors cfg = .ok (min (min cfg.mdOffset cfg.alOffset) cfg.bmOffset / 512) := by
  have hint : cfg.mdIndex = .internal ∨ cfg.mdIndex = .flexInt := by
    cases h : cfg.mdIndex <;> simp_all [MdIndex.isExternal]
  unfold maxUsableSectors
  rw [if_pos hint]

theorem maxUsableSectors_external {cfg : Format} (hidx : cfg.mdIndex.isExternal = true)
    (hg : GranularityAdmitted cfg.md) (hext : externalGranularity cfg) :
    maxUsableSectors cfg = .ok (coveredSectors cfg.md (externalBmSect cfg.md * 512)) := by
  have hadm : (if cfg.version ≠ .v09 ∨ cfg.mdIndex ≠ .flexExt then
      decide (cfg.md.bmBytesPerBit.toNat = BM_BLOCK_SIZE_4k)
      else isPowerOf2 cfg.md.bmBytesPerBit.toNat &&
        decide (BM_BLOCK_SIZE_MIN ≤ cfg.md.bmBytesPerBit.toNat) &&
        decide (cfg.md.bmBytesPerBit.toNat ≤ BM_BLOCK_SIZE_MAX)) = true := by
    split
    · rename_i hne
      have : ¬(cfg.version = .v09 ∧ cfg.mdIndex = .flexExt) := by
        rintro ⟨h1, h2⟩
        exact hne.elim (· h1) (· h2)
      exact decide_eq_true (hext.resolve_left this)
    · rw [hg.pow, decide_eq_true hg.min, decide_eq_true hg.max]
      rfl
  have hnot : ¬(cfg.mdIndex = .internal ∨ cfg.mdIndex = .flexInt) := by
    rintro (h | h) <;> rw [h] at hidx <;> cases hidx
  unfold maxUsableSectors
  rw [if_neg hnot]
  simp only [hadm, if_true]
  have hsect : externalBmSect cfg.md < 2 ^ 32 := BitVec.isLt _
  rw [Nat.mod_eq_of_lt (capacity_lt hg hsect), capacity_sectors hg]

theorem maxUsableSectors_refused {cfg : Format} (hidx : cfg.mdIndex.isExternal = true)
    (hext : ¬externalGranularity cfg) : maxUsableSectors cfg = .error .abort := by
  have hnot : ¬(cfg.mdIndex = .internal ∨ cfg.mdIndex = .flexInt) := by
    rintro (h | h) <;> rw [h] at hidx <;> cases hidx
  have hcase : cfg.version ≠ .v09 ∨ cfg.mdIndex ≠ .flexExt := by
    by_contra hc
    push Not at hc
    exact hext (Or.inl hc)
  have h4k : ¬cfg.md.bmBytesPerBit.toNat = BM_BLOCK_SIZE_4k := fun h => hext (Or.inr h)
  unfold maxUsableSectors
  rw [if_neg hnot]
  simp only [if_pos hcase, decide_eq_false h4k, Bool.false_eq_true, if_false]

/-- **External layouts.**  `re_initialize_md_offsets` refuses a granularity the format does not
    have, and otherwise computes the 64-bit quantities without overflow. -/
theorem reInitializeMdOffsets_external {o : Options} {cfg : Format}
    (hidx : cfg.mdIndex.isExternal = true) (hg : GranularityAdmitted cfg.md)
    (hp : MaxPeersAdmitted cfg.md) :
    (externalGranularity cfg → reInitializeMdOffsets o cfg = .ok (externalFormat cfg)) ∧
      (¬externalGranularity cfg → reInitializeMdOffsets o cfg = .error .abort) := by
  unfold reInitializeMdOffsets
  rw [saneDefaults_eq hg.ne_zero hp.ne_zero, mdSectOffsets_external cfg hidx]
  simp only [bind, Except.bind]
  constructor
  · intro hext
    rw [@maxUsableSectors_external { setByteOffsets cfg (externalMd cfg) with
      bmBytes := 512 * externalBmSect (externalMd cfg) } hidx ⟨hg.min, hg.max, hg.pow⟩ hext]
    rfl
  · intro hext
    rw [@maxUsableSectors_refused { setByteOffsets cfg (externalMd cfg) with
      bmBytes := 512 * externalBmSect (externalMd cfg) } hidx hext]

/-! ## The bitmap of the usable size -/

theorem align_le_iff {x y a : Nat} (ha : 0 < a) : align x a ≤ y ↔ x ≤ roundDown y a := by
  constructor
  · intro h
    have hdvd := dvd_align x a
    have hge := align_ge x ha
    obtain ⟨c, hc⟩ := hdvd
    have : c ≤ y / a := (Nat.le_div_iff_mul_le ha).2 (by rw [Nat.mul_comm, ← hc]; exact h)
    have := Nat.mul_le_mul_left a this
    unfold roundDown
    rw [Nat.mul_comm (y / a)]
    omega
  · intro h
    exact (align_le_of_dvd ha h (Dvd.intro_left _ rfl)).trans (roundDown_le y a)

theorem ceil_le_iff {s d m : Nat} (hd : 0 < d) : (s + d - 1) / d ≤ m ↔ s ≤ m * d := by
  rw [← Nat.lt_succ_iff, Nat.div_lt_iff_lt_mul hd, Nat.succ_mul]
  omega

/-- **The bitmap fits.**  A bitmap area of `bytes` bytes takes the bitmap of exactly those sizes
    that its whole 4k blocks cover. -/
theorem bmBytes_le_iff {md : MdCpu} (hg : GranularityAdmitted md) (hp : MaxPeersAdmitted md)
    {sectors bm bytes : Nat} (h : bmBytes md sectors = .ok bm) :
    bm ≤ bytes ↔ sectors ≤ coveredSectors md (roundDown bytes 4096) := by
  obtain ⟨k, -, -, hshift, hspb⟩ := hg.sectors
  obtain ⟨-, -, rfl⟩ := bmBytes_ok h
  have hpos : 0 < 8 * md.maxPeers.toNat := by have := hp.min; omega
  have hbits : deviceBits md sectors = (sectors + sectorsPerBit md - 1) / sectorsPerBit md := by
    unfold deviceBits
    rw [hshift, hspb]
  have hwords : align (deviceBits md sectors) 64 / 8 * md.maxPeers.toNat =
      (deviceBits md sectors + 64 - 1) / 64 * (8 * md.maxPeers.toNat) := by
    unfold align
    rw [show (deviceBits md sectors + (64 - 1)) / 64 * 64 / 8 =
      (deviceBits md sectors + 64 - 1) / 64 * 8 by omega, Nat.mul_assoc]
  rw [align_le_iff (by decide), hwords, ← Nat.le_div_iff_mul_le hpos, ceil_le_iff (by decide),
    hbits, ceil_le_iff (by rw [hspb]; positivity)]
  rfl

/-- The bitmap of the size that `clip_effective_size_and_bm_bytes` leaves stays in the area
    behind the activity log, and the size itself is computed without a 64-bit overflow. -/
structure UsableFits (o : Options) (cfg : Format) : Prop where
  noOverflow : ∀ cfg', reInitializeMdOffsets o cfg = .ok cfg' →
    externalBmSect cfg'.md * 512 * 8 / 64 / cfg'.md.maxPeers.toNat * 64 *
      cfg'.md.bmBytesPerBit.toNat < 2 ^ 64
  fits : ∀ cfg' cfg'' bm, reInitializeMdOffsets o cfg = .ok cfg' →
    clipEffectiveSizeAndBmBytes cfg' = .ok cfg'' →
    bmBytes cfg''.md cfg''.md.effectiveSize.toNat = .ok bm →
    (bm : Int) ≤ 512 * ((cfg''.md.mdSizeSect.toNat : Int) - cfg''.md.bmOffset.toInt)

/-- The log fits in front of the bitmap, and the 4k blocks of the rest cover the usable size (or
    `bm_bytes` refuses it). -/
def BitmapHasRoom (cfg : Format) : Prop :=
  let size := (externalSize cfg.mdIndex cfg.bdSize).toNat
  let bytes := (size - externalHead cfg.md) * 512
  let sectors := min cfg.md.effectiveSize.toNat (coveredSectors cfg.md bytes)
  if externalHead cfg.md ≤ size then
    sectors ≤ coveredSectors cfg.md (roundDown bytes 4096) ∨ 2 ^ 41 < sectors
  else 2 ^ 41 < cfg.md.effectiveSize.toNat

theorem coveredSectors_lt {md : MdCpu} (hg : GranularityAdmitted md) {sect : Nat}
    (hs : sect < 2 ^ 32) : coveredSectors md (sect * 512) < 2 ^ 64 := by
  rw [← capacity_sectors hg]
  exact (Nat.div_le_self _ _).trans_lt (capacity_lt hg hs)

/-- The size that is left after clipping, and the bitmap for it. -/
theorem clip_externalFormat {cfg cfg'' : Format} (hg : GranularityAdmitted cfg.md)
    (h : clipEffectiveSizeAndBmBytes (externalFormat cfg) = .ok cfg'') :
    cfg''.md.effectiveSize.toNat =
        min cfg.md.effectiveSize.toNat (externalFormat cfg).maxUsableSect ∧
      cfg''.md.mdSizeSect = (externalMd cfg).mdSizeSect ∧
      cfg''.md.bmOffset = (externalMd cfg).bmOffset ∧
      ∀ sectors, bmBytes cfg''.md sectors = bmBytes cfg.md sectors := by
  have hlt : (externalFormat cfg).maxUsableSect < 2 ^ 64 := coveredSectors_lt hg (BitVec.isLt _)
  unfold clipEffectiveSizeAndBmBytes at h
  split at h
  · rename_i hclip
    obtain ⟨bm, -, h⟩ := except_bind_ok_iff.1 h
    cases h
    have : (externalFormat cfg).md.effectiveSize = cfg.md.effectiveSize := rfl
    rw [this] at hclip
    refine ⟨?_, rfl, rfl, fun _ => rfl⟩
    rw [BitVec.toNat_ofNat, Nat.mod_eq_of_lt hlt, min_eq_right hclip.le]
  · rename_i hclip
    obtain ⟨bm, -, h⟩ := except_bind_ok_iff.1 h
    cases h
    have : (externalFormat cfg).md.effectiveSize = cfg.md.effectiveSize := rfl
    rw [this] at hclip
    exact ⟨by rw [this, min_eq_left (not_lt.1 hclip)], rfl, rfl, fun _ => rfl⟩

theorem clip_ok_of_le {cfg : Format} (hg : GranularityAdmitted cfg.md)
    (h : min cfg.md.effectiveSize.toNat (externalFormat cfg).maxUsableSect ≤ 2 ^ 41) :
    ∃ cfg'' bm, clipEffectiveSizeAndBmBytes (externalFormat cfg) = .ok cfg'' ∧
      bmBytes cfg''.md cfg''.md.effectiveSize.toNat = .ok bm := by
  have hlt : (externalFormat cfg).maxUsableSect < 2 ^ 64 := coveredSectors_lt hg (BitVec.isLt _)
  have hbm : ∀ md : MdCpu, md.bmBytesPerBit = cfg.md.bmBytesPerBit →
      md.effectiveSize.toNat ≤ 2 ^ 41 → ∃ bm, bmBytes md md.effectiveSize.toNat = .ok bm := by
    intro md hmd hle
    unfold bmBytes
    rw [if_pos ⟨hle, hmd ▸ hg.min, hmd ▸ hg.max, hmd ▸ hg.pow⟩]
    exact ⟨_, rfl⟩
  have heff : (externalFormat cfg).md.effectiveSize = cfg.md.effectiveSize := rfl
  unfold clipEffectiveSizeAndBmBytes
  split
  · rename_i hclip
    rw [heff] at hclip
    rw [min_eq_right hclip.le] at h
    obtain ⟨bm, hbm⟩ := hbm { (externalFormat cfg).md with
      effectiveSize := BitVec.ofNat 64 (externalFormat cfg).maxUsableSect } rfl
      (by rw [BitVec.toNat_ofNat, Nat.mod_eq_of_lt hlt]; exact h)
    exact ⟨_, bm, except_bind_ok_iff.2 ⟨bm, hbm, rfl⟩, hbm⟩
  · rename_i hclip
    rw [heff] at hclip
    rw [min_eq_left (not_lt.1 hclip)] at h
    obtain ⟨bm, hbm⟩ := hbm (externalFormat cfg).md rfl h
    exact ⟨_, bm, except_bind_ok_iff.2 ⟨bm, hbm, rfl⟩, hbm⟩

/-- An area that has wrapped below zero seems to cover more than `bm_bytes` admits. -/
theorem coveredSectors_wrapped {md : MdCpu} (hg : GranularityAdmitted md) (hp : MaxPeersAdmitted md)
    {sect : Nat} (hs : 2 ^ 32 - 65544 ≤ sect) : 2 ^ 41 < coveredSectors md (sect * 512) := by
  obtain ⟨k, -, -, -, hspb⟩ := hg.sectors
  have hp1 := hp.min
  have hp2 := hp.max
  have hpeers : sect * 512 / (8 * 31) ≤ sect * 512 / (8 * md.maxPeers.toNat) :=
    Nat.div_le_div_left (by omega) (by omega)
  have hspb8 : 8 ≤ sectorsPerBit md := by
    rw [hspb, Nat.pow_add]
    have := Nat.two_pow_pos k
    omega
  have hwords : 2 ^ 41 < sect * 512 / (8 * 31) * 64 * 8 := by omega
  calc 2 ^ 41 < sect * 512 / (8 * 31) * 64 * 8 := hwords
    _ ≤ coveredSectors md (sect * 512) :=
      Nat.mul_le_mul (Nat.mul_le_mul_right 64 hpeers) hspb8

theorem externalHead_bounds {md : MdCpu} (hal : AlAdmitted md) :
    72 ≤ externalHead md ∧ externalHead md ≤ 65544 ∧ 8 ∣ externalHead md := by
  obtain ⟨h1, h2, h3⟩ := hal.alSect_bounds
  unfold externalHead MD_AL_OFFSET_07
  exact ⟨by omega, by omega, by omega⟩

theorem externalMd_bmOffset_toInt {cfg : Format} (hal : AlAdmitted cfg.md) :
    (externalMd cfg).bmOffset.toInt = externalHead cfg.md := by
  have := (externalHead_bounds hal).2.1
  rw [externalMd_bmOffset hal, BitVec.toInt_eq_toNat_of_lt, BitVec.toNat_ofNat,
    Nat.mod_eq_of_lt (by omega)]
  rw [BitVec.toNat_ofNat, Nat.mod_eq_of_lt (by omega)]
  omega

/-- The bitmap of the clipped size ends where the metadata area does, or in front of it. -/
def ClippedFits (cfg : Format) : Prop :=
  ∀ cfg'' bm, clipEffectiveSizeAndBmBytes (externalFormat cfg) = .ok cfg'' →
    bmBytes cfg''.md cfg''.md.effectiveSize.toNat = .ok bm →
    (bm : Int) ≤
      512 * ((externalSize cfg.mdIndex cfg.bdSize).toNat - (externalHead cfg.md : Int))

/-- What the two functions leave, in terms of the input. -/
theorem usableFits_iff_clippedFits {o : Options} {cfg : Format} (hal : AlAdmitted cfg.md)
    (hg : GranularityAdmitted cfg.md)
    (hinit : reInitializeMdOffsets o cfg = .ok (externalFormat cfg)) :
    UsableFits o cfg ↔ ClippedFits cfg := by
  have hsize : (externalMd cfg).mdSizeSect = externalSize cfg.mdIndex cfg.bdSize := rfl
  constructor
  · intro h cfg'' bm hclip hbm
    have := h.fits _ cfg'' bm hinit hclip hbm
    obtain ⟨-, h1, h2, -⟩ := clip_externalFormat hg hclip
    rwa [h1, h2, hsize, externalMd_bmOffset_toInt hal] at this
  · intro h
    refine ⟨fun cfg' hcfg => ?_, fun cfg' cfg'' bm hcfg hclip hbm => ?_⟩
    · rw [hinit] at hcfg
      cases hcfg
      exact capacity_lt hg (BitVec.isLt _)
    · rw [hinit] at hcfg
      cases hcfg
      obtain ⟨-, h1, h2, -⟩ := clip_externalFormat hg hclip
      rw [h1, h2, hsize, externalMd_bmOffset_toInt hal]
      exact h cfg'' bm hclip hbm

/-- Behind the log there is room: the blocks there have to cover the clipped size, unless
    `bm_bytes` refuses it. -/
theorem clippedFits_of_room {cfg : Format} (hal : AlAdmitted cfg.md)
    (hg : GranularityAdmitted cfg.md) (hp : MaxPeersAdmitted cfg.md)
    (hroom : externalHead cfg.md ≤ (externalSize cfg.mdIndex cfg.bdSize).toNat) :
    ClippedFits cfg ↔ BitmapHasRoom cfg := by
  obtain ⟨hh1, hh2, -⟩ := externalHead_bounds hal
  have hsizelt : (externalSize cfg.mdIndex cfg.bdSize).toNat < 2 ^ 32 := BitVec.isLt _
  have hsect : externalBmSect (externalMd cfg) =
      (externalSize cfg.mdIndex cfg.bdSize).toNat - externalHead cfg.md := by
    rw [externalBmSect_eq hal]
    omega
  have husable : (externalFormat cfg).maxUsableSect = coveredSectors cfg.md
      (((externalSize cfg.mdIndex cfg.bdSize).toNat - externalHead cfg.md) * 512) := by
    rw [← hsect]
    rfl
  unfold BitmapHasRoom
  simp only [if_pos hroom]
  constructor
  · intro h
    rw [or_iff_not_imp_right]
    intro hle
    obtain ⟨cfg'', bm, hclip, hbm⟩ := @clip_ok_of_le cfg hg (by rw [husable]; omega)
    have hbound := h cfg'' bm hclip hbm
    obtain ⟨heff, -, -, hsame⟩ := clip_externalFormat hg hclip
    rw [hsame, heff, husable] at hbm
    exact (bmBytes_le_iff hg hp hbm).1 (by omega)
  · intro h cfg'' bm hclip hbm
    obtain ⟨heff, -, -, hsame⟩ := clip_externalFormat hg hclip
    rw [hsame, heff, husable] at hbm
    have hle := (bmBytes_ok hbm).1
    have := (bmBytes_le_iff hg hp hbm).2 (h.resolve_right (by omega))
    omega

/-- The log does not fit: the usable size is out of range, and only a size that `bm_bytes` refuses
    keeps the bitmap inside. -/
theorem clippedFits_of_no_room {cfg : Format} (hal : AlAdmitted cfg.md)
    (hg : GranularityAdmitted cfg.md) (hp : MaxPeersAdmitted cfg.md)
    (hroom : ¬externalHead cfg.md ≤ (externalSize cfg.mdIndex cfg.bdSize).toNat) :
    ClippedFits cfg ↔ BitmapHasRoom cfg := by
  obtain ⟨hh1, hh2, -⟩ := externalHead_bounds hal
  have hsizelt : (externalSize cfg.mdIndex cfg.bdSize).toNat < 2 ^ 32 := BitVec.isLt _
  have hsect : 2 ^ 32 - 65544 ≤ externalBmSect (externalMd cfg) := by
    rw [externalBmSect_eq hal]
    omega
  have husable : 2 ^ 41 < (externalFormat cfg).maxUsableSect := coveredSectors_wrapped hg hp hsect
  unfold BitmapHasRoom
  simp only [if_neg hroom]
  constructor
  · intro h
    by_contra hle
    obtain ⟨cfg'', bm, hclip, hbm⟩ := @clip_ok_of_le cfg hg (by omega)
    have := h cfg'' bm hclip hbm
    omega
  · intro h cfg'' bm hclip hbm
    obtain ⟨heff, -, -, -⟩ := clip_externalFormat hg hclip
    have hle := (bmBytes_ok hbm).1
    omega

/-- **The usable size and the bitmap area.**  For every external layout, device size, log,
    granularity and number of peers, the bitmap of the clipped effective size stays in the
    metadata area if and only if the log fits and the 4k blocks behind it cover that size. -/
theorem usable_fits_iff {o : Options} {cfg : Format} (hidx : cfg.mdIndex.isExternal = true)
    (hal : AlAdmitted cfg.md) (hg : GranularityAdmitted cfg.md) (hp : MaxPeersAdmitted cfg.md) :
    UsableFits o cfg ↔ (externalGranularity cfg → BitmapHasRoom cfg) := by
  obtain ⟨hok, herr⟩ := reInitializeMdOffsets_external (o := o) hidx hg hp
  by_cases hext : externalGranularity cfg
  · rw [usableFits_iff_clippedFits hal hg (hok hext), imp_iff_right hext]
    by_cases hroom : externalHead cfg.md ≤ (externalSize cfg.mdIndex cfg.bdSize).toNat
    · exact clippedFits_of_room hal hg hp hroom
    · exact clippedFits_of_no_room hal hg hp hroom
  · constructor
    · exact fun _ h => absurd h hext
    · intro _
      refine ⟨fun cfg' h => ?_, fun cfg' _ _ h => ?_⟩ <;>
      · rw [herr hext] at h
        cases h

/-- A flexible external metadata device for one peer, with default striping, that was last used
    with a backing device of 512 GiB. -/
def externalSample (bdSize : Nat) : Format :=
  { sampleFormat (2 ^ 30) 8 1 with
    mdIndex := .flexExt
    mdOffset := 0
    bdSize := bdSize }

theorem sampleMd_admitted : AlAdmitted (sampleMd (2 ^ 30) 8 1) ∧
    GranularityAdmitted (sampleMd (2 ^ 30) 8 1) ∧ MaxPeersAdmitted (sampleMd (2 ^ 30) 8 1) :=
  ⟨⟨by decide, by decide⟩, ⟨by decide, by decide, by decide⟩, ⟨by decide, by decide⟩⟩

/-- A device of 1 MiB is a multiple of 4k. -/
theorem usable_fits_megabyte : UsableFits {} (externalSample (2 ^ 20)) :=
  have ⟨hal, hg, hp⟩ := sampleMd_admitted
  (usable_fits_iff rfl hal hg hp).2 fun _ => by unfold BitmapHasRoom; decide +kernel

/-- On a device of 145 sectors the 73 sectors behind the log cover a size whose bitmap takes
    eighty. -/
theorem usable_outgrows_bitmap : ¬UsableFits {} (externalSample (145 * 512)) := by
  intro h
  obtain ⟨hal, hg, hp⟩ := sampleMd_admitted
  have hinit := (@reInitializeMdOffsets_external {} (externalSample (145 * 512))
    rfl hg hp).1 (Or.inl ⟨rfl, rfl⟩)
  obtain ⟨cfg'', bm, hclip, hbm⟩ := @clip_ok_of_le (externalSample (145 * 512)) hg
    (by decide +kernel)
  have hbound := h.fits _ cfg'' bm hinit hclip hbm
  obtain ⟨heff, hsize, hoff, hsame⟩ := clip_externalFormat hg hclip
  rw [hsize, hoff, externalMd_bmOffset_toInt hal] at hbound
  rw [heff, hsame] at hbm
  have hover : ¬bm ≤ 73 * 512 := fun hle =>
    absurd ((bmBytes_le_iff hg hp hbm).1 hle) (by decide +kernel)
  have harea : ((externalMd (externalSample (145 * 512))).mdSizeSect.toNat : Int) -
      externalHead (externalSample (145 * 512)).md = 73 := by decide +kernel
  omega

/-! ## Well-formed layouts -/

/-- The layout over the integers: byte offset of the superblock, size of the metadata and offsets
    of log and bitmap in sectors, bytes of the bitmap. -/
structure ExactLayout where
  mdOffset : Int
  mdSizeSect : Int
  alOffset : Int
  bmOffset : Int
  bmBytes : Int

/-- Bytes of the bitmap, over all peers, of a device of `sectors` sectors. -/
def bitmapBytes (md : MdCpu) (sectors : Nat) : Nat :=
  align (align (deviceBits md sectors) 64 / 8 * md.maxPeers.toNat) 4096

/-- Superblock, log and bitmap in this order, in `size` sectors from `mdOffset` on. -/
def ExactLayout.external (mdOffset size bmOffset : Int) : ExactLayout where
  mdOffset := mdOffset
  mdSizeSect := size
  alOffset := MD_AL_OFFSET_07
  bmOffset := bmOffset
  bmBytes := 512 * (size - bmOffset)

/-- The layout of an index kind, without machine integers. -/
def exactLayout (cfg : Format) : ExactLayout :=
  match cfg.mdIndex with
  | .fixed idx =>
    .external (MD_RESERVED_SECT_07 * 512 * idx) MD_RESERVED_SECT_07 (externalHead cfg.md)
  | .flexExt => .external 0 (cfg.bdSize / 512 : Nat) (externalHead cfg.md)
  | .internal =>
    .external (roundDown cfg.bdSize 4096 - MD_RESERVED_SECT_07 * 512) MD_RESERVED_SECT_07
      MD_BM_OFFSET_07
  | .flexInt =>
    { mdOffset := roundDown (cfg.bdSize - 4096) 4096
      mdSizeSect := bitmapBytes cfg.md (cfg.bdSize / 512) / 512 + externalHead cfg.md
      alOffset := -alSect cfg.md
      bmOffset := -(bitmapBytes cfg.md (cfg.bdSize / 512) / 512 + alSect cfg.md)
      bmBytes := bitmapBytes cfg.md (cfg.bdSize / 512) }

/-- The computed offsets and sizes are those of the layout over the integers. -/
structure NoWrap (L : ExactLayout) (cfg : Format) : Prop where
  mdOffset : (cfg.mdOffset : Int) = L.mdOffset
  mdSizeSect : (cfg.md.mdSizeSect.toNat : Int) = L.mdSizeSect
  mdAlOffset : cfg.md.alOffset.toInt = L.alOffset
  mdBmOffset : cfg.md.bmOffset.toInt = L.bmOffset
  alOffset : (cfg.alOffset : Int) = L.mdOffset + L.alOffset * 512
  bmOffset : (cfg.bmOffset : Int) = L.mdOffset + L.bmOffset * 512
  bmBytes : (cfg.bmBytes : Int) = L.bmBytes

/-- A byte range of the metadata device. -/
structure Region where
  start : Nat
  len : Nat

def Region.stop (r : Region) : Nat := r.start + r.len

def Region.Disjoint (r r' : Region) : Prop := r.stop ≤ r'.start ∨ r'.stop ≤ r.start

/-- Superblock, activity log and bitmap. -/
def mdRegions (cfg : Format) : List Region :=
  [⟨cfg.mdOffset, 4096⟩, ⟨cfg.alOffset, alSect cfg.md * 512⟩, ⟨cfg.bmOffset, cfg.bmBytes⟩]

/-- What a layout must be: nothing has wrapped, the regions are pairwise disjoint, aligned
    relative to the superblock and on the device, and internal metadata is behind the data. -/
structure LayoutWellFormed (L : ExactLayout) (cfg : Format) : Prop where
  noWrap : NoWrap L cfg
  disjoint : (mdRegions cfg).Pairwise Region.Disjoint
  aligned : ∀ r ∈ mdRegions cfg, (4096 : Int) ∣ r.start - cfg.mdOffset
  onDevice : ∀ r ∈ mdRegions cfg, r.stop ≤ cfg.bdSize
  usable : cfg.mdIndex.isExternal = false → ∀ r ∈ mdRegions cfg, cfg.maxUsableSect * 512 ≤ r.start

/-- The inputs of the layout computation: a device that `v07_style_md_open` admits, up to 1 PiB,
    and the superblock at the place its index kind has. -/
structure LayoutInput (cfg : Format) : Prop where
  size_ge : SO_MUCH ≤ cfg.bdSize
  size_le : cfg.bdSize ≤ 2 ^ 50
  mdOffset : cfg.mdOffset = v07StyleMdGetByteOffset cfg.mdIndex cfg.bdSize
  al : AlAdmitted cfg.md
  granularity : GranularityAdmitted cfg.md
  peers : MaxPeersAdmitted cfg.md

/-- The condition under which the layout comes out right. -/
def LayoutHasRoom (cfg : Format) : Prop :=
  match cfg.mdIndex with
  | .fixed idx => externalGranularity cfg → MD_RESERVED_SECT_07 * 512 * (idx + 1) ≤ cfg.bdSize
  | .flexExt =>
    externalGranularity cfg → externalHead cfg.md * 512 ≤ cfg.bdSize ∧ cfg.bdSize < 2 ^ 41
  | .internal => MD_RESERVED_SECT_07 * 512 ≤ cfg.bdSize ∧ alSect cfg.md = MD_AL_MAX_SECT_07
  | .flexInt => bitmapBytes cfg.md (cfg.bdSize / 512) + externalHead cfg.md * 512 ≤
      roundDown cfg.bdSize 4096

theorem toU64_eq_of_nonneg {x : Int} (h1 : 0 ≤ x) (h2 : x < 2 ^ 64) : (toU64 x : Int) = x := by
  unfold toU64
  omega

section WellFormed

variable {o : Options} {cfg : Format}

/-- The three regions of a layout with the superblock first. -/
theorem wellFormed_external {size : Nat} {bmOffset : Nat} {cfg' : Format} {mdOffset : Nat}
    (hw : NoWrap (.external mdOffset size bmOffset) cfg') (hal : AlAdmitted cfg'.md)
    (hbm : externalHead cfg'.md ≤ bmOffset) (h8 : 8 ∣ bmOffset)
    (hend : mdOffset + size * 512 ≤ cfg'.bdSize)
    (husable : cfg'.mdIndex.isExternal = false → cfg'.maxUsableSect * 512 ≤ mdOffset) :
    LayoutWellFormed (.external mdOffset size bmOffset) cfg' := by
  have hmd := hw.mdOffset
  have halo := hw.alOffset
  have hbmo := hw.bmOffset
  have hbytes := hw.bmBytes
  simp only [ExactLayout.external, MD_AL_OFFSET_07] at hmd halo hbmo hbytes
  simp only [externalHead, MD_AL_OFFSET_07] at hbm
  obtain ⟨h1, h2, -⟩ := hal.alSect_bounds
  refine ⟨hw, ?_, ?_, ?_, ?_⟩
  · simp only [mdRegions, List.pairwise_cons, List.mem_cons, List.not_mem_nil, or_false,
      forall_eq_or_imp, forall_eq, Region.Disjoint, Region.stop]
    refine ⟨⟨by omega, by omega⟩, by omega, by simp⟩
  · simp only [mdRegions, List.mem_cons, List.not_mem_nil, or_false, forall_eq_or_imp, forall_eq]
    exact ⟨by omega, by omega, by omega⟩
  · simp only [mdRegions, List.mem_cons, List.not_mem_nil, or_false, forall_eq_or_imp, forall_eq,
      Region.stop]
    exact ⟨by omega, by omega, by omega⟩
  · intro hint
    have := husable hint
    simp only [mdRegions, List.mem_cons, List.not_mem_nil, or_false, forall_eq_or_imp, forall_eq]
    exact ⟨by omega, by omega, by omega⟩

/-- The area of a layout with the superblock first is on the device, and the log fits in it. -/
theorem LayoutWellFormed.external_room {size bmOffset : Nat} {cfg' : Format} {mdOffset : Int}
    (h : LayoutWellFormed (.external mdOffset size bmOffset) cfg') :
    0 ≤ mdOffset ∧ bmOffset ≤ size ∧ mdOffset + size * 512 ≤ cfg'.bdSize := by
  have hmd := h.noWrap.mdOffset
  have hbmo := h.noWrap.bmOffset
  have hbytes := h.noWrap.bmBytes
  have hstop := h.onDevice ⟨cfg'.bmOffset, cfg'.bmBytes⟩ (by simp [mdRegions])
  simp only [ExactLayout.external, Region.stop] at hmd hbmo hbytes hstop
  exact ⟨by omega, by omega, by omega⟩

theorem setByteOffsets_alOffset {md : MdCpu} {x : Int}
    (h : (cfg.mdOffset : Int) + md.alOffset.toInt * 512 = x) (h1 : 0 ≤ x) (h2 : x < 2 ^ 64) :
    ((setByteOffsets cfg md).alOffset : Int) = x := by
  subst h
  exact toU64_eq_of_nonneg h1 h2

theorem setByteOffsets_bmOffset {md : MdCpu} {x : Int}
    (h : (cfg.mdOffset : Int) + md.bmOffset.toInt * 512 = x) (h1 : 0 ≤ x) (h2 : x < 2 ^ 64) :
    ((setByteOffsets cfg md).bmOffset : Int) = x := by
  subst h
  exact toU64_eq_of_nonneg h1 h2

theorem noWrap_external (hal : AlAdmitted cfg.md)
    (hroom : externalHead cfg.md ≤ (externalSize cfg.mdIndex cfg.bdSize).toNat)
    (hmd : cfg.mdOffset < 2 ^ 63) :
    NoWrap (.external cfg.mdOffset (externalSize cfg.mdIndex cfg.bdSize).toNat
      (externalHead cfg.md)) (externalFormat cfg) where
  mdOffset := rfl
  mdSizeSect := rfl
  mdAlOffset := rfl
  mdBmOffset := externalMd_bmOffset_toInt hal
  alOffset := @setByteOffsets_alOffset cfg (externalMd cfg) _ rfl
    (by simp only [ExactLayout.external]; omega)
    (by simp only [ExactLayout.external, MD_AL_OFFSET_07]; omega)
  bmOffset := by
    have := (externalHead_bounds hal).2.1
    refine @setByteOffsets_bmOffset cfg (externalMd cfg) _ ?_ ?_ ?_
    · rw [externalMd_bmOffset_toInt hal]
      rfl
    · simp only [ExactLayout.external]
      omega
    · simp only [ExactLayout.external]
      omega
  bmBytes := by
    have hlt : (externalSize cfg.mdIndex cfg.bdSize).toNat < 2 ^ 32 := BitVec.isLt _
    have := (externalHead_bounds hal).2.1
    simp only [externalFormat, ExactLayout.external]
    rw [externalBmSect_eq hal]
    omega

theorem layout_fixed {idx : Nat} (h : LayoutInput cfg) (hidx : cfg.mdIndex = .fixed idx) :
    LayoutWellFormed (exactLayout cfg) (externalFormat cfg) ↔
      MD_RESERVED_SECT_07 * 512 * (idx + 1) ≤ cfg.bdSize := by
  obtain ⟨hh1, hh2, hh8⟩ := externalHead_bounds h.al
  have hsize : (externalSize cfg.mdIndex cfg.bdSize).toNat = MD_RESERVED_SECT_07 := by
    rw [hidx]
    rfl
  have hmd : cfg.mdOffset = MD_RESERVED_SECT_07 * 512 * idx := by
    rw [h.mdOffset, hidx]
    simp only [v07StyleMdGetByteOffset, MD_RESERVED_SECT_07]
    omega
  have hexact : exactLayout cfg =
      .external cfg.mdOffset (externalSize cfg.mdIndex cfg.bdSize).toNat (externalHead cfg.md) := by
    unfold exactLayout
    rw [hidx, hmd]
    push_cast
    rfl
  rw [hexact]
  constructor
  · intro hwf
    have := hwf.external_room.2.2
    rw [hsize, show (externalFormat cfg).bdSize = cfg.bdSize from rfl] at this
    simp only [MD_RESERVED_SECT_07] at this hmd ⊢
    omega
  · intro hroom
    have := h.size_le
    simp only [MD_RESERVED_SECT_07] at hsize hmd hroom
    refine wellFormed_external (noWrap_external h.al (by omega) (by omega)) ⟨h.al.min, h.al.max⟩
      le_rfl hh8 ?_ ?_
    · show _ ≤ cfg.bdSize
      omega
    · show cfg.mdIndex.isExternal = false → _
      rw [hidx]
      exact fun hc => by cases hc

theorem layout_flexExt (h : LayoutInput cfg) (hidx : cfg.mdIndex = .flexExt) :
    LayoutWellFormed (exactLayout cfg) (externalFormat cfg) ↔
      externalHead cfg.md * 512 ≤ cfg.bdSize ∧ cfg.bdSize < 2 ^ 41 := by
  obtain ⟨hh1, hh2, hh8⟩ := externalHead_bounds h.al
  have hmd : cfg.mdOffset = 0 := by
    rw [h.mdOffset, hidx]
    rfl
  have hsize : (externalSize cfg.mdIndex cfg.bdSize).toNat = cfg.bdSize / 512 % 2 ^ 32 := by
    rw [hidx]
    exact BitVec.toNat_ofNat ..
  have hexact : exactLayout cfg = .external 0 (cfg.bdSize / 512 : Nat) (externalHead cfg.md) := by
    unfold exactLayout
    rw [hidx]
  constructor
  · intro hwf
    rw [hexact] at hwf
    have hroom := hwf.external_room.2.1
    have hwrap := hwf.noWrap.mdSizeSect
    have hlt : (externalFormat cfg).md.mdSizeSect.toNat < 2 ^ 32 := BitVec.isLt _
    simp only [ExactLayout.external] at hwrap
    omega
  · rintro ⟨hroom, hlt⟩
    have hsame : (externalSize cfg.mdIndex cfg.bdSize).toNat = cfg.bdSize / 512 := by omega
    rw [hexact, ← hsame, show (0 : Int) = (cfg.mdOffset : Nat) by rw [hmd]; rfl]
    refine wellFormed_external (noWrap_external h.al (by omega) (by omega)) ⟨h.al.min, h.al.max⟩
      le_rfl hh8 ?_ ?_
    · show _ ≤ cfg.bdSize
      omega
    · show cfg.mdIndex.isExternal = false → _
      rw [hidx]
      exact fun hc => by cases hc

/-- The superblock fields of the fixed-size internal metadata of v07. -/
def internalMd (md : MdCpu) : MdCpu :=
  { md with
    mdSizeSect := BitVec.ofNat 32 MD_RESERVED_SECT_07
    alOffset := BitVec.ofNat 32 MD_AL_OFFSET_07
    bmOffset := BitVec.ofInt 32 MD_BM_OFFSET_07 }

/-- What `re_initialize_md_offsets` leaves for the fixed-size internal metadata of v07. -/
def internalFormat (cfg : Format) : Format :=
  let opened := setByteOffsets cfg (internalMd cfg.md)
  { opened with
    bmBytes := 512 * externalBmSect (internalMd cfg.md)
    maxUsableSect := min (min cfg.mdOffset opened.alOffset) opened.bmOffset / 512 }

theorem internalMd_offsets (md : MdCpu) : (internalMd md).alOffset.toInt = 8 ∧
    (internalMd md).bmOffset.toInt = 72 ∧ (internalMd md).mdSizeSect.toNat = 262144 ∧
      externalBmSect (internalMd md) = 262072 := by
  refine ⟨?_, ?_, ?_, ?_⟩
  · show (BitVec.ofNat 32 MD_AL_OFFSET_07).toInt = 8
    decide
  · show (BitVec.ofInt 32 MD_BM_OFFSET_07).toInt = 72
    decide
  · show (BitVec.ofNat 32 MD_RESERVED_SECT_07).toNat = 262144
    decide
  · show (BitVec.ofNat 32 MD_RESERVED_SECT_07 - BitVec.ofInt 32 MD_BM_OFFSET_07).toNat = 262072
    decide

theorem internalFormat_mdOffset : (internalFormat cfg).mdOffset = cfg.mdOffset := by
  simp only [internalFormat, setByteOffsets]

theorem internalFormat_bdSize : (internalFormat cfg).bdSize = cfg.bdSize := by
  simp only [internalFormat, setByteOffsets]

theorem internalFormat_md : (internalFormat cfg).md = internalMd cfg.md := by
  simp only [internalFormat, setByteOffsets]

theorem internalFormat_alOffset :
    (internalFormat cfg).alOffset = (setByteOffsets cfg (internalMd cfg.md)).alOffset := by
  simp only [internalFormat]

theorem internalFormat_bmOffset :
    (internalFormat cfg).bmOffset = (setByteOffsets cfg (internalMd cfg.md)).bmOffset := by
  simp only [internalFormat]

theorem internalFormat_usable : (internalFormat cfg).maxUsableSect * 512 ≤ cfg.mdOffset := by
  have hmin : ∀ a b : Nat, min (min cfg.mdOffset a) b / 512 * 512 ≤ cfg.mdOffset := by
    intro a b
    omega
  exact hmin _ _

theorem reInitializeMdOffsets_internal (hidx : cfg.mdIndex = .internal)
    (hg : cfg.md.bmBytesPerBit ≠ 0) (hp : cfg.md.maxPeers ≠ 0) :
    reInitializeMdOffsets o cfg = .ok (internalFormat cfg) := by
  unfold reInitializeMdOffsets
  rw [saneDefaults_eq hg hp]
  unfold mdSectOffsets
  rw [hidx]
  simp only [bind, Except.bind, maxUsableSectors, setByteOffsets, hidx, true_or, if_true, pure,
    Except.pure, internalFormat, internalMd]

theorem layout_internal (h : LayoutInput cfg) (hidx : cfg.mdIndex = .internal) :
    LayoutWellFormed (exactLayout cfg) (internalFormat cfg) ↔
      MD_RESERVED_SECT_07 * 512 ≤ cfg.bdSize ∧ alSect cfg.md = MD_AL_MAX_SECT_07 := by
  obtain ⟨h1, h2, -⟩ := h.al.alSect_bounds
  have hle := h.size_le
  have hdown := roundDown_le cfg.bdSize 4096
  obtain ⟨hoal, hobm, hosize, hsect⟩ := internalMd_offsets cfg.md
  have hlog : alSect (internalFormat cfg).md = alSect cfg.md := by
    simp only [alSect, internalFormat, setByteOffsets, internalMd]
  have hres : MD_RESERVED_SECT_07 = 262144 := rfl
  have hal : MD_AL_MAX_SECT_07 = 64 := rfl
  have hbm : MD_BM_OFFSET_07 = 72 := rfl
  have hmd : cfg.mdOffset = toU64 (roundDown cfg.bdSize 4096 - 134217728) := by
    rw [h.mdOffset, hidx]
    simp only [v07StyleMdGetByteOffset, hres]
    rfl
  have hexact : exactLayout cfg =
      .external (roundDown cfg.bdSize 4096 - 134217728) (262144 : Nat) (72 : Nat) := by
    unfold exactLayout
    rw [hidx]
    simp only [hres, hbm]
    rfl
  rw [hexact, hres, hal]
  constructor
  · intro hwf
    have hroom := hwf.external_room
    have halo := hwf.noWrap.alOffset
    have hbmo := hwf.noWrap.bmOffset
    have hbytes := hwf.noWrap.bmBytes
    have hdis := hwf.disjoint
    simp only [mdRegions, List.pairwise_cons, List.mem_cons, List.not_mem_nil, or_false,
      forall_eq_or_imp, forall_eq, Region.Disjoint, Region.stop, hlog] at hdis
    have hdis := hdis.2.1
    simp only [ExactLayout.external, MD_AL_OFFSET_07] at halo hbmo hbytes
    constructor <;> omega
  · rintro ⟨hroom, h64⟩
    have hoff : (cfg.mdOffset : Int) = roundDown cfg.bdSize 4096 - 134217728 := by
      rw [hmd]
      apply toU64_eq_of_nonneg
      · unfold roundDown
        omega
      · omega
    have hwrap :
        NoWrap (.external cfg.mdOffset (262144 : Nat) (72 : Nat)) (internalFormat cfg) := by
      rw [← internalFormat_md] at hosize hoal hobm
      refine ⟨congrArg _ internalFormat_mdOffset, congrArg _ hosize, hoal, hobm, ?_, ?_, ?_⟩
      all_goals rw [internalFormat_md] at hosize hoal hobm
      · rw [internalFormat_alOffset]
        refine @setByteOffsets_alOffset cfg (internalMd cfg.md) _ ?_ ?_ ?_ <;>
          simp only [hoal, ExactLayout.external, MD_AL_OFFSET_07] <;> omega
      · rw [internalFormat_bmOffset]
        refine @setByteOffsets_bmOffset cfg (internalMd cfg.md) _ ?_ ?_ ?_ <;>
          simp only [hobm, ExactLayout.external] <;> omega
      · simp only [internalFormat, hsect, ExactLayout.external]
        omega
    rw [← hoff]
    refine wellFormed_external hwrap ⟨h.al.min, h.al.max⟩ ?_ (by decide) ?_
      fun _ => internalFormat_usable
    · simp only [externalHead, hlog, h64, MD_AL_OFFSET_07]
      omega
    · rw [internalFormat_bdSize]
      omega

theorem bmBytes_bitmapBytes (h : LayoutInput cfg) :
    bmBytes cfg.md (cfg.bdSize / 512) = .ok (bitmapBytes cfg.md (cfg.bdSize / 512)) := by
  have hle := h.size_le
  unfold bmBytes
  rw [if_pos ⟨by omega, h.granularity.min, h.granularity.max, h.granularity.pow⟩]
  rfl

/-- The sector offsets of flexible internal metadata fit 32 bits up to 1 PiB. -/
theorem flexIntFormat_exact (h : LayoutInput cfg) {bm : Nat}
    (hbm : bmBytes cfg.md (cfg.bdSize / 512) = .ok bm) :
    ((flexIntFormat cfg bm).md.mdSizeSect.toNat : Int) = (bm / 512 : Nat) + externalHead cfg.md ∧
      (flexIntFormat cfg bm).md.alOffset.toInt = -alSect cfg.md ∧
      (flexIntFormat cfg bm).md.bmOffset.toInt = -((bm / 512 : Nat) + alSect cfg.md) := by
  have hflex := Nat.le_trans (bmBytes_le_flex hbm) (Nat.mul_le_mul_left _ h.peers.max)
  simp only [MD_BM_MAX_BYTE_FLEX, Nat.reducePow, Nat.reduceDiv, Nat.reduceMul,
    Nat.reduceSub] at hflex
  have hal := h.al.alSect_bounds.2.1
  simp only [flexIntFormat, setByteOffsets, h.al.alSizeSect_eq, externalHead, MD_AL_OFFSET_07,
    BitVec.toInt_ofInt, BitVec.toNat_ofInt]
  generalize alSect cfg.md = a at *
  generalize bm / 512 = n at *
  simp only [Int.bmod_def, Nat.reducePow]
  refine ⟨by omega, by omega, by omega⟩

theorem flexInt_mdOffset (h : LayoutInput cfg) (hidx : cfg.mdIndex = .flexInt) :
    cfg.mdOffset = roundDown (cfg.bdSize - 4096) 4096 ∧
      roundDown cfg.bdSize 4096 = cfg.mdOffset + 4096 := by
  have hge : 68 * 1024 ≤ cfg.bdSize := h.size_ge
  have hle := h.size_le
  have hmd : cfg.mdOffset = roundDown (toU64 (cfg.bdSize - 4096)) 4096 := by
    rw [h.mdOffset, hidx]
    simp only [v07StyleMdGetByteOffset]
  rw [hmd]
  simp only [roundDown, toU64]
  omega

theorem flexIntFormat_alOffset (bm : Nat) : (flexIntFormat cfg bm).alOffset =
    toU64 (cfg.mdOffset + (flexIntFormat cfg bm).md.alOffset.toInt * 512) := by
  simp only [flexIntFormat, setByteOffsets]

theorem flexIntFormat_bmOffset (bm : Nat) : (flexIntFormat cfg bm).bmOffset =
    toU64 (cfg.mdOffset + (flexIntFormat cfg bm).md.bmOffset.toInt * 512) := by
  simp only [flexIntFormat, setByteOffsets]

theorem flexIntFormat_usable (bm : Nat) : (flexIntFormat cfg bm).maxUsableSect =
    min (min (flexIntFormat cfg bm).mdOffset (flexIntFormat cfg bm).alOffset)
      (flexIntFormat cfg bm).bmOffset / 512 := by
  simp only [flexIntFormat]

/-- What flexible internal metadata keeps of the input. -/
theorem flexIntFormat_kept (bm : Nat) : (flexIntFormat cfg bm).mdOffset = cfg.mdOffset ∧
    (flexIntFormat cfg bm).bmBytes = bm ∧ (flexIntFormat cfg bm).bdSize = cfg.bdSize ∧
    alSect (flexIntFormat cfg bm).md = alSect cfg.md := by
  simp only [flexIntFormat, setByteOffsets, alSect, and_self]

/-- The three regions of a layout with the superblock last. -/
theorem wellFormed_flexInt {L : ExactLayout} {cfg' : Format} {al bm : Nat} (hw : NoWrap L cfg')
    (hal : alSect cfg'.md = al) (hbm : cfg'.bmBytes = bm) (h8 : 8 ∣ al) (hdvd : 4096 ∣ bm)
    (halo : cfg'.alOffset + al * 512 = cfg'.mdOffset) (hbmo : cfg'.bmOffset + bm = cfg'.alOffset)
    (hend : cfg'.mdOffset + 4096 ≤ cfg'.bdSize)
    (husable : cfg'.maxUsableSect =
      min (min cfg'.mdOffset cfg'.alOffset) cfg'.bmOffset / 512) :
    LayoutWellFormed L cfg' := by
  subst hal hbm
  refine ⟨hw, ?_, ?_, ?_, fun _ => ?_⟩
  · simp only [mdRegions, List.pairwise_cons, List.mem_cons, List.not_mem_nil, or_false,
      forall_eq_or_imp, forall_eq, Region.Disjoint, Region.stop]
    exact ⟨⟨by omega, by omega⟩, by omega, by simp⟩
  · simp only [mdRegions, List.mem_cons, List.not_mem_nil, or_false, forall_eq_or_imp, forall_eq]
    exact ⟨by omega, by omega, by omega⟩
  · simp only [mdRegions, List.mem_cons, List.not_mem_nil, or_false, forall_eq_or_imp, forall_eq,
      Region.stop]
    exact ⟨by omega, by omega, by omega⟩
  · simp only [mdRegions, List.mem_cons, List.not_mem_nil, or_false, forall_eq_or_imp, forall_eq]
    exact ⟨by omega, by omega, by omega⟩

theorem layout_flexInt (h : LayoutInput cfg) (hidx : cfg.mdIndex = .flexInt) :
    LayoutWellFormed (exactLayout cfg)
        (flexIntFormat cfg (bitmapBytes cfg.md (cfg.bdSize / 512))) ↔
      bitmapBytes cfg.md (cfg.bdSize / 512) + externalHead cfg.md * 512 ≤
        roundDown cfg.bdSize 4096 := by
  obtain ⟨hmd, hdown⟩ := flexInt_mdOffset h hidx
  have hexact : exactLayout cfg =
      { mdOffset := cfg.mdOffset
        mdSizeSect := bitmapBytes cfg.md (cfg.bdSize / 512) / 512 + externalHead cfg.md
        alOffset := -alSect cfg.md
        bmOffset := -(bitmapBytes cfg.md (cfg.bdSize / 512) / 512 + alSect cfg.md)
        bmBytes := bitmapBytes cfg.md (cfg.bdSize / 512) } := by
    unfold exactLayout
    rw [hidx, hmd]
  rw [hexact, hdown]
  have hbm := bmBytes_bitmapBytes h
  have hdvd := bmBytes_dvd hbm
  obtain ⟨hsize, hoal, hobm⟩ := flexIntFormat_exact h hbm
  obtain ⟨h1, h2, h8⟩ := h.al.alSect_bounds
  have hhead : externalHead cfg.md = 8 + alSect cfg.md := rfl
  have hle := h.size_le
  have hend := roundDown_le cfg.bdSize 4096
  rw [hdown] at hend
  clear hexact hmd hdown
  generalize bitmapBytes cfg.md (cfg.bdSize / 512) = bm at *
  obtain ⟨hkmd, hkbm, hkbd, hkal⟩ := @flexIntFormat_kept cfg bm
  have halo := @flexIntFormat_alOffset cfg bm
  have hbmo := @flexIntFormat_bmOffset cfg bm
  rw [hoal] at halo
  rw [hobm] at hbmo
  constructor
  · intro hwf
    have := hwf.noWrap.bmOffset
    simp only at this
    omega
  · intro hroom
    have halo' := toU64_eq_of_nonneg (x := cfg.mdOffset + -alSect cfg.md * 512)
      (by omega) (by omega)
    have hbmo' := toU64_eq_of_nonneg (x := cfg.mdOffset + -((bm / 512 : Nat) + alSect cfg.md) * 512)
      (by omega) (by omega)
    rw [← halo] at halo'
    rw [← hbmo] at hbmo'
    refine wellFormed_flexInt ⟨?_, ?_, hoal, ?_, ?_, ?_, ?_⟩ hkal hkbm h8 hdvd ?_ ?_ ?_
      (flexIntFormat_usable bm)
    · rw [hkmd]
    · rw [hsize]
      rfl
    · rw [hobm]
      rfl
    · rw [halo']
    · rw [hbmo']
      rfl
    · rw [hkbm]
    · omega
    · omega
    · omega

/-- **Layouts.**  For every device size up to 1 PiB, index kind, striping, granularity and number
    of peers, `re_initialize_md_offsets` ends the program or produces a well-formed layout if and
    only if the device has room for it in the sense of `LayoutHasRoom`. -/
theorem layout_wellFormed_iff (h : LayoutInput cfg) :
    (∀ cfg', reInitializeMdOffsets o cfg = .ok cfg' → LayoutWellFormed (exactLayout cfg) cfg') ↔
      LayoutHasRoom cfg := by
  have hg := h.granularity
  have hp := h.peers
  have hone : ∀ r : Format, reInitializeMdOffsets o cfg = .ok r →
      ((∀ cfg', reInitializeMdOffsets o cfg = .ok cfg' → LayoutWellFormed (exactLayout cfg) cfg') ↔
        LayoutWellFormed (exactLayout cfg) r) := by
    intro r hr
    refine ⟨fun hall => hall r hr, fun hwf cfg' hcfg => ?_⟩
    rw [hr] at hcfg
    cases hcfg
    exact hwf
  have hexternal : cfg.mdIndex.isExternal = true → ∀ P : Prop,
      (LayoutWellFormed (exactLayout cfg) (externalFormat cfg) ↔ P) →
      ((∀ cfg', reInitializeMdOffsets o cfg = .ok cfg' → LayoutWellFormed (exactLayout cfg) cfg') ↔
        (externalGranularity cfg → P)) := by
    intro hidx P hP
    obtain ⟨hok, herr⟩ := reInitializeMdOffsets_external (o := o) hidx hg hp
    by_cases hext : externalGranularity cfg
    · rw [hone _ (hok hext), hP, imp_iff_right hext]
    · refine ⟨fun _ hc => absurd hc hext, fun _ cfg' hcfg => ?_⟩
      rw [herr hext] at hcfg
      cases hcfg
  unfold LayoutHasRoom
  cases hidx : cfg.mdIndex with
  | fixed idx => exact hexternal (by rw [hidx]; rfl) _ (layout_fixed h hidx)
  | flexExt => exact hexternal (by rw [hidx]; rfl) _ (layout_flexExt h hidx)
  | internal =>
    have hrun : reInitializeMdOffsets o cfg = .ok (internalFormat cfg) :=
      reInitializeMdOffsets_internal hidx h.granularity.ne_zero h.peers.ne_zero
    exact (hone _ hrun).trans (layout_internal h hidx)
  | flexInt =>
    refine (hone _ ?_).trans (layout_flexInt h hidx)
    rw [reInitializeMdOffsets_flexInt hidx hg.ne_zero hp.ne_zero, bmBytes_bitmapBytes h]
    rfl

end WellFormed

theorem layoutInput_megabyte : LayoutInput (externalSample (2 ^ 20)) :=
  have ⟨hal, hg, hp⟩ := sampleMd_admitted
  ⟨by decide, by decide, rfl, hal, hg, hp⟩

theorem layout_wellFormed_megabyte : ∃ cfg', reInitializeMdOffsets {} (externalSample (2 ^ 20)) =
    .ok cfg' ∧ LayoutWellFormed (exactLayout (externalSample (2 ^ 20))) cfg' := by
  have hin := layoutInput_megabyte
  have hinit := (@reInitializeMdOffsets_external {} (externalSample (2 ^ 20)) rfl
    hin.granularity hin.peers).1 (Or.inl ⟨rfl, rfl⟩)
  exact ⟨_, hinit, (layout_wellFormed_iff hin).2 (fun _ => by decide +kernel) _ hinit⟩

/-- The smallest device that is admitted, as flexible external metadata with a log of 32 MiB. -/
def largeLogSample : Format :=
  { externalSample SO_MUCH with
    md := { sampleMd (2 ^ 30) 8 1 with alStripeSize4k := 8192 } }

theorem layoutInput_largeLog : LayoutInput largeLogSample where
  size_ge := le_rfl
  size_le := by decide
  mdOffset := rfl
  al := ⟨by decide, by decide⟩
  granularity := ⟨by decide, by decide, by decide⟩
  peers := ⟨by decide, by decide⟩

/-- The log does not fit, and nothing is refused. -/
theorem layout_illFormed_largeLog : ¬∀ cfg', reInitializeMdOffsets {} largeLogSample = .ok cfg' →
    LayoutWellFormed (exactLayout largeLogSample) cfg' := by
  intro h
  have hin := layoutInput_largeLog
  have hinit := (@reInitializeMdOffsets_external {} largeLogSample rfl
    hin.granularity hin.peers).1 (Or.inl ⟨rfl, rfl⟩)
  exact absurd ((layout_flexExt hin rfl).1 (h _ hinit)).1 (by decide +kernel)

end DrbdUtils.Meta
