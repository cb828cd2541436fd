import DrbdUtils.Meta.ActivityLog

/-!
# The `apply-al` command

`meta_apply_al()` of `drbdmeta.c`: open the device, replay the activity log, mark the hot extents
in the bitmap, re-initialise the log, set `MDF_AL_CLEAN` in the superblock.  The three writes go
to three disjoint areas, in this order.

* `opened_iff` — opening a device reads its superblock, and nothing else.
* `Opened.disjoint` — the log and the superblock lie outside of the bitmap.
* `openAndReplay_iff` — opening and replaying the log writes nothing.
* `metaApplyAl_cases` — a run writes nothing, or does its work on the replayed extents.
-/

set_option autoImplicit false

namespace DrbdUtils.Meta

open BlockDevice

/-! ## Model -/

/-- `qsort` of `hot_extent`. -/
def HotArray.sorted (hot : HotArray) : HotExtents where
  extents := (List.ofFn fun i => (hot i).toNat).mergeSort
  length_eq := by rw [List.length_mergeSort, List.length_ofFn]
  lt := by
    intro e he
    rw [List.mem_mergeSort, List.mem_ofFn] at he
    obtain ⟨i, rfl⟩ := he
    exact (hot i).isLt

/-- `need_to_apply_al`; the flags of 0.7 are the first generation counter. -/
def needToApplyAl (cfg : Format) : Bool :=
  if cfg.version = .v07 then cfg.md.gc 0 &&& MDF_PRIMARY_IND ≠ 0
  else cfg.md.flags &&& MDF_PRIMARY_IND ≠ 0

/-- `cfg->ops->open`. -/
def mdOpen (K : OnDisk9) (o : Options) (lk : Option (Nat × BitVec 64)) (cfg : Format) :
    MetaRun (MdOpenRc × Format) :=
  if cfg.version = .v07 then v07StyleMdOpen K cfg else v08MdOpen K o lk cfg

/-- Does the log in the buffer have the 8.4 layout? -/
def looksLike84 (md : MdCpu) (buf : Mem) : Bool :=
  md.magic = DRBD_MD_MAGIC_84_UNCLEAN || md.magic = DRBD_MD_MAGIC_09 ||
    be32At buf 0 = DRBD_AL_MAGIC || be32At buf 4096 = DRBD_AL_MAGIC ||
    md.alStripes ≠ 1 || md.alStripeSize4k ≠ 8

/-- The choice between the replay functions, and `re_initialize_anyways`. -/
def replayAl (A : AlLayout) (cfg : Format) (buf : Mem) : Except Stop (Replay × Bool) :=
  if cfg.version = .v07 then (replayAl07 cfg.md buf .unused).map (·, false)
  else if looksLike84 cfg.md buf then
    if be32At buf 0 = DRBD_AL_PMEM_MAGIC then (replayAlPmem A cfg.md buf .unused).map (·, false)
    else (replayAl84 A cfg.md buf .unused).map (·, false)
  else (replayAl07 cfg.md buf .unused).map (·, true)

/-- Bytes of the log that are read: the product is an `unsigned int`. -/
def alReadSize (md : MdCpu) : Nat := min (md.alStripes * md.alStripeSize4k * 4096).toNat bufferSize

/-- Up to the replay; `none` when there is no valid metadata. -/
def openAndReplay (K : OnDisk9) (A : AlLayout) (o : Options) (lk : Option (Nat × BitVec 64))
    (cfg : Format) : MetaRun (Option (Format × Replay × Bool)) := do
  let opened ← mdOpen K o lk cfg
  if opened.1 ≠ .validMdFound then pure none
  else do
    preadOrDie opened.2 (alReadSize opened.2.md) opened.2.alOffset
    let buf ← Run.getBuf
    let r ← liftExcept (replayAl A opened.2 buf)
    pure (some (opened.2, r))

def ReplayRc.isError : ReplayRc → Bool
  | .found _ => false
  | _ => true

def ReplayRc.isPositive : ReplayRc → Bool
  | .found n => 0 < n
  | _ => false

/-- Mark the hot extents, if there is a need to; `need_to_update_md_flags`. -/
def applyHot (o : Options) (cfg : Format) (r : Replay) : MetaRun Bool :=
  if r.rc.isPositive && needToApplyAl cfg then do
    let _ ← applyAl o cfg r.hot.sorted
    pure true
  else pure false

/-- The superblock that says the log is clean. -/
def markClean (cfg : Format) : Format :=
  { cfg with md := { cfg.md with
    flags := if cfg.version ≠ .v07 then cfg.md.flags ||| MDF_AL_CLEAN else cfg.md.flags
    magic := if cfg.version = .v08 then DRBD_MD_MAGIC_08 else cfg.md.magic } }

/-- Re-initialise the log if asked to, and update the superblock. -/
def cleanUp (K : OnDisk9) (A : AlLayout) (o : Options) (cfg : Format) (reInitialize update : Bool) :
    MetaRun Int := do
  if reInitialize then initializeAl A o cfg
  if update || (cfg.version ≠ .v07 && (cfg.md.flags &&& MDF_AL_CLEAN = 0 ||
      cfg.md.magic ≠ DRBD_MD_MAGIC_08)) then do
    let ok ← mdCpuToDisk K o (markClean cfg)
    pure (if ok then 0 else -1)
  else pure 0

/-- What follows the replay. -/
def applyReplay (K : OnDisk9) (A : AlLayout) (o : Options) (cfg : Format) (r : Replay)
    (reInitializeAnyways : Bool) : MetaRun Int :=
  if r.rc.isError && needToApplyAl cfg then pure (if r.rc = .enodata then 1 else 2)
  else do
    let update ← applyHot o cfg r
    cleanUp K A o cfg (reInitializeAnyways || (r.rc.isError && cfg.version ≠ .v07) ||
      (r.rc.isPositive && cfg.version ≠ .v07)) update

/-- `meta_apply_al`. -/
def metaApplyAl (K : OnDisk9) (A : AlLayout) (o : Options) (lk : Option (Nat × BitVec 64))
    (cfg : Format) : MetaRun Int := do
  let found ← openAndReplay K A o lk cfg
  match found with
  | none => pure (-1)
  | some (cfg, r, reInitializeAnyways) => applyReplay K A o cfg r reInitializeAnyways

/-- A fresh process: the buffer is new memory. -/
def freshWorld (disk : Mem) : World := .init disk fun _ => 0

/-! ## Opening -/

/-- Where the superblock is, and what it says. -/
def superblockOffset (cfg : Format) : Nat := v07StyleMdGetByteOffset cfg.mdIndex cfg.bdSize

def superblockAt (K : OnDisk9) (cfg : Format) (disk : Mem) : MdCpu :=
  decodeMd K cfg.version fun a => disk (superblockOffset cfg + a)

/-- The layout that follows from a valid superblock. -/
def openedFormat (cfg : Format) (md : MdCpu) : Except Stop Format := do
  let cfg := setByteOffsets { cfg with mdOffset := superblockOffset cfg } md
  let maxUsableSect ← maxUsableSectors cfg
  clipEffectiveSizeAndBmBytes { cfg with maxUsableSect := maxUsableSect }

/-- What opening a device found: valid metadata, from which the layout follows. -/
structure Opened (K : OnDisk9) (cfg₀ : Format) (disk : Mem) (cfg : Format) : Prop where
  size : SO_MUCH ≤ cfg₀.bdSize
  offset : superblockOffset cfg₀ + 4096 ≤ cfg₀.bdSize
  valid : isValidMd cfg₀.version (superblockAt K cfg₀ disk) cfg₀.mdIndex cfg₀.bdSize = .ok true
  layout : openedFormat cfg₀ (superblockAt K cfg₀ disk) = .ok cfg

theorem openedFormat_ok_iff {cfg₀ cfg : Format} {md : MdCpu} :
    openedFormat cfg₀ md = .ok cfg ↔ ∃ maxUsableSect,
      maxUsableSectors (setByteOffsets { cfg₀ with mdOffset := superblockOffset cfg₀ } md) =
        .ok maxUsableSect ∧
      clipEffectiveSizeAndBmBytes { setByteOffsets { cfg₀ with mdOffset := superblockOffset cfg₀ } md
        with maxUsableSect := maxUsableSect } = .ok cfg := except_bind_ok_iff

section Open

variable {K : OnDisk9} {A : AlLayout} {o : Options} {lk : Option (Nat × BitVec 64)} {cfg₀ cfg : Format}

theorem v07StyleMdOpen_found_iff {w w' : World} :
    v07StyleMdOpen K cfg₀ w = (.ok (.validMdFound, cfg), w') ↔
      Opened K cfg₀ w.disk cfg ∧ w' = w.read 4096 (superblockOffset cfg₀) := by
  constructor
  · intro h
    unfold v07StyleMdOpen at h
    split at h
    · cases h
    rename_i hsize
    simp only at h
    split at h
    · cases h
    rename_i hoff
    obtain ⟨found, w1, hfound, h⟩ := Run.of_bind_ok h
    obtain ⟨hb, rfl, ok, hok, rfl⟩ := of_mdDiskToCpu_ok K hfound
    cases ok with
    | false => cases h
    | true =>
      obtain ⟨mu, w2, hmu, h⟩ := Run.of_bind_ok h
      obtain ⟨hmu', rfl⟩ := of_liftExcept_ok hmu
      obtain ⟨cfg2, w3, hclip, h⟩ := Run.of_bind_ok h
      obtain ⟨hclip', rfl⟩ := of_liftExcept_ok hclip
      cases h
      exact ⟨⟨Nat.not_lt.1 hsize, hb, hok, openedFormat_ok_iff.2 ⟨mu, hmu', hclip'⟩⟩, rfl⟩
  · rintro ⟨h, rfl⟩
    have hsize := h.size
    have hoff := h.offset
    obtain ⟨mu, hmu, hclip⟩ := openedFormat_ok_iff.1 h.layout
    unfold v07StyleMdOpen
    rw [if_neg (by omega)]
    simp only
    rw [if_neg (by unfold superblockOffset at hoff; omega),
      Run.bind_ok (mdDiskToCpu_ok K hoff w h.valid)]
    exact (Run.bind_ok (congrArg (·, _) hmu)).trans ((Run.bind_ok (congrArg (·, _) hclip)).trans rfl)

/-- **Opening a device reads its superblock**, and what was found depends on nothing else. -/
theorem opened_iff (hver : cfg₀.version ≠ .v07) {w w' : World} :
    mdOpen K o lk cfg₀ w = (.ok (.validMdFound, cfg), w') ↔
      Opened K cfg₀ w.disk cfg ∧ w' = w.read 4096 (superblockOffset cfg₀) := by
  rw [← v07StyleMdOpen_found_iff, mdOpen, if_neg hver]
  constructor
  · intro h
    obtain ⟨found, w1, hopen, h⟩ := Run.of_bind_ok h
    by_cases hfound : found.1 = .validMdFound
    · rw [if_pos hfound] at h
      cases h
      exact hopen
    · rw [if_neg hfound] at h
      obtain ⟨cfg2, w2, _, h⟩ := Run.of_bind_ok h
      split at h <;> cases h
  · intro h
    unfold v08MdOpen
    rw [Run.bind_ok h, if_pos rfl]
    rfl

/-- The superblock after clipping, for an area that can hold `maxUsableSect` sectors. -/
def clipMd (md : MdCpu) (maxUsableSect : Nat) : MdCpu :=
  { md with effectiveSize := if maxUsableSect < md.effectiveSize.toNat then
      BitVec.ofNat 64 maxUsableSect else md.effectiveSize }

theorem clip_ok_iff {c : Format} : clipEffectiveSizeAndBmBytes c = .ok cfg ↔
    ∃ bm, bmBytes c.md (clipMd c.md c.maxUsableSect).effectiveSize.toNat = .ok bm ∧
      { c with md := clipMd c.md c.maxUsableSect, bmBytes := bm } = cfg := by
  have hmd : (if c.maxUsableSect < c.md.effectiveSize.toNat then
      { c.md with effectiveSize := BitVec.ofNat 64 c.maxUsableSect } else c.md) =
      clipMd c.md c.maxUsableSect := by
    unfold clipMd
    split <;> rfl
  unfold clipEffectiveSizeAndBmBytes
  rw [hmd]
  exact except_bind_ok_iff.trans (exists_congr fun bm => and_congr_right fun _ => by
    simp [pure, Except.pure])

theorem clipMd_le (md : MdCpu) (mu : Nat) : (clipMd md mu).effectiveSize.toNat ≤ mu := by
  unfold clipMd
  dsimp only
  split
  · rw [BitVec.toNat_ofNat]
    exact Nat.mod_le _ _
  · omega

/-- What is known of an opened device. -/
structure OpenedSpec (K : OnDisk9) (cfg₀ : Format) (disk : Mem) (cfg : Format) (mu : Nat) : Prop where
  usable : maxUsableSectors (setByteOffsets { cfg₀ with mdOffset := superblockOffset cfg₀ } cfg.md) =
    .ok mu
  md : cfg.md = clipMd (superblockAt K cfg₀ disk) mu
  bmBytes_ok : bmBytes cfg.md cfg.md.effectiveSize.toNat = .ok cfg.bmBytes
  format : cfg = { setByteOffsets { cfg₀ with mdOffset := superblockOffset cfg₀ } cfg.md with
    maxUsableSect := mu, bmBytes := cfg.bmBytes }

theorem Opened.spec {disk : Mem} (h : Opened K cfg₀ disk cfg) : ∃ mu, OpenedSpec K cfg₀ disk cfg mu := by
  obtain ⟨mu, hmu, hclip⟩ := openedFormat_ok_iff.1 h.layout
  obtain ⟨bm, hbm, rfl⟩ := clip_ok_iff.1 hclip
  exact ⟨mu, hmu, rfl, hbm, rfl⟩

theorem OpenedSpec.offsets {disk : Mem} {mu : Nat} (h : OpenedSpec K cfg₀ disk cfg mu) :
    cfg.version = cfg₀.version ∧ cfg.mdIndex = cfg₀.mdIndex ∧ cfg.bdSize = cfg₀.bdSize ∧
      cfg.mdOffset = superblockOffset cfg₀ ∧
      cfg.alOffset = toU64 (superblockOffset cfg₀ + cfg.md.alOffset.toInt * 512) ∧
      cfg.bmOffset = toU64 (superblockOffset cfg₀ + cfg.md.bmOffset.toInt * 512) := by
  have hf := h.format
  generalize cfg.md = md at hf ⊢
  generalize cfg.bmBytes = bm at hf
  subst hf
  exact ⟨rfl, rfl, rfl, rfl, rfl, rfl⟩

theorem alSizeSect_of_fits {md : MdCpu} (h : alMx md * 4096 ≤ bufferSize) :
    alSizeSect md = alMx md * 8 := by
  have hB : bufferSize = 8192 * 4096 := by decide +kernel
  unfold alMx at *
  unfold alSizeSect
  generalize md.alStripes * md.alStripeSize4k = p at *
  rw [BitVec.toInt_eq_toNat_bmod, BitVec.toNat_mul, Int.bmod_def, show (8 : BitVec 32).toNat = 8 from rfl]
  omega

theorem toInt_ofInt_32 {q : Int} (hlo : -2 ^ 31 ≤ q) (hhi : q < 2 ^ 31) :
    (BitVec.ofInt 32 q).toInt = q := by
  rw [BitVec.toInt_ofInt]
  exact Int.bmod_eq_of_le (by omega) (by omega)

/-- The three areas of an opened device, as far as they are written: bitmap, log and superblock. -/
structure AreasDisjoint (cfg : Format) : Prop where
  superblock : cfg.mdOffset + 4096 ≤ cfg.bmOffset ∨ cfg.bmOffset + cfg.bmBytes ≤ cfg.mdOffset
  log : cfg.alOffset + alMx cfg.md * 4096 ≤ cfg.bdSize →
    (cfg.alOffset + alMx cfg.md * 4096 ≤ cfg.bmOffset ∨
      cfg.bmOffset + cfg.bmBytes ≤ cfg.alOffset) ∧
    (cfg.alOffset + alMx cfg.md * 4096 ≤ cfg.mdOffset ∨ cfg.mdOffset + 4096 ≤ cfg.alOffset)

theorem Opened.disjoint {disk : Mem} (h : Opened K cfg₀ disk cfg) (hver : cfg₀.version ≠ .v07)
    (hsmall : cfg₀.bdSize < 2 ^ 63) (hfit : alMx cfg.md * 4096 ≤ bufferSize) : AreasDisjoint cfg := by
  obtain ⟨mu, hs⟩ := h.spec
  obtain ⟨_, hidx, hbd, hmd, hal, hbm⟩ := hs.offsets
  have hoff := h.offset
  have hsize := alSizeSect_of_fits hfit
  have hB : bufferSize = 8192 * 4096 := by decide +kernel
  have hsb := hs.md
  by_cases hflex : cfg₀.mdIndex = .flexInt
  · have hv := h.valid
    rw [hflex, isValidMd_flexInt_iff hver] at hv
    obtain ⟨bmf, hv⟩ := hv
    have hale : cfg.md.alOffset = BitVec.ofInt 32 (-alSizeSect cfg.md) := by
      rw [hsb]; exact hv.alOffset
    have hbme : cfg.md.bmOffset.toInt = -(bmf / 512 : Nat) - alSizeSect cfg.md := by
      rw [hsb]; exact hv.bmOffset
    have hbmf : bmBytes cfg.md (cfg₀.bdSize / 512) = .ok bmf := by rw [hsb]; exact hv.bm_ok
    -- the bitmap is no larger than the room in front of the log
    have hmu : mu ≤ cfg₀.bdSize / 512 := by
      have := hs.usable
      unfold maxUsableSectors at this
      rw [if_pos (.inr hflex)] at this
      cases this
      refine Nat.div_le_div_right ?_
      show min (min (superblockOffset cfg₀) _) _ ≤ _
      omega
    have hle : cfg.bmBytes ≤ bmf := by
      refine bmBytes_mono (Nat.le_trans ?_ hmu) hs.bmBytes_ok hbmf
      rw [hsb]
      exact clipMd_le _ _
    have hdvd := bmBytes_dvd hbmf
    have hbound := BitVec.le_toInt cfg.md.bmOffset
    rw [hbme, hsize] at hbound
    have halt : cfg.md.alOffset.toInt = -(alMx cfg.md * 8 : Nat) := by
      rw [hale, hsize, toInt_ofInt_32 (by omega) (by omega)]
      omega
    rw [halt] at hal
    rw [hbme, hsize] at hbm
    unfold toU64 at hal hbm
    obtain ⟨c, rfl⟩ := hdvd
    constructor
    · omega
    · intro hfits
      omega
  · have hv := h.valid
    unfold isValidMd at hv
    split at hv
    · cases hv
    simp only [Except.ok.injEq, Bool.and_eq_true, decide_eq_true_eq] at hv
    have hale : cfg.md.alOffset = BitVec.ofNat 32 MD_AL_OFFSET_07 := by rw [hsb]; exact hv.1
    have hbme : cfg.md.bmOffset = BitVec.ofInt 32 (MD_AL_OFFSET_07 + alSizeSect cfg.md) := by
      rw [hsb]; exact hv.2
    have halt : cfg.md.alOffset.toInt = 8 := by rw [hale]; decide
    have hbmt : cfg.md.bmOffset.toInt = 8 + (alMx cfg.md * 8 : Nat) := by
      have height : (MD_AL_OFFSET_07 : Int) = 8 := rfl
      rw [hbme, hsize, height, toInt_ofInt_32 (by omega) (by omega)]
      omega
    rw [halt] at hal
    rw [hbmt] at hbm
    unfold toU64 at hal hbm
    constructor
    · omega
    · intro hfits
      omega

/-! ## The replayed log -/

/-- The process when it replays the log of an opened device. -/
def replayWorld (cfg : Format) (disk : Mem) : World :=
  ((freshWorld disk).read 4096 cfg.mdOffset).read (alReadSize cfg.md) cfg.alOffset

/-- The log was read and replayed. -/
structure Replayed (K : OnDisk9) (A : AlLayout) (cfg₀ : Format) (disk : Mem) (cfg : Format)
    (r : Replay) (reInitializeAnyways : Bool) : Prop where
  opened : Opened K cfg₀ disk cfg
  readable : cfg.alOffset + alReadSize cfg.md ≤ cfg.bdSize
  replay : replayAl A cfg (replayWorld cfg disk).buf = .ok (r, reInitializeAnyways)

theorem preadOrDie_silent (c : Format) (count offset : Nat) : (preadOrDie c count offset).Silent :=
  .ite (Run.silent_read _ _) (Run.silent_stop _)

theorem liftExcept_silent {α : Type} (x : Except Stop α) : (liftExcept x).Silent := fun w => .refl w

theorem mdDiskToCpu_silent (c : Format) : (mdDiskToCpu K c).Silent :=
  (preadOrDie_silent _ _ _).bind fun _ => Run.silent_getBuf.bind fun _ =>
    (liftExcept_silent _).bind fun _ => Run.silent_pure _

theorem v07StyleMdOpen_silent (c : Format) : (v07StyleMdOpen K c).Silent := by
  refine .ite (Run.silent_stop _) (.ite (Run.silent_stop _) ((mdDiskToCpu_silent _).bind fun found => ?_))
  cases found with
  | none => exact Run.silent_pure _
  | some c =>
    exact (liftExcept_silent _).bind fun _ => (liftExcept_silent _).bind fun _ => Run.silent_pure _

theorem v08CheckForResize_silent (c : Format) : (v08CheckForResize K o lk c).Silent := by
  refine Run.Silent.bind (fun w => ?_) fun _ => .ite (Run.silent_pure _) ?_
  · unfold assert
    split
    · exact Run.silent_pure _ w
    · exact Run.silent_stop _ w
  · cases lk with
    | none => exact Run.silent_pure _
    | some lk =>
      refine .ite (Run.silent_pure _) (.ite ?_ (Run.silent_pure _))
      exact (preadOrDie_silent _ _ _).bind fun _ => Run.silent_getBuf.bind fun _ =>
        (liftExcept_silent _).bind fun _ => Run.silent_pure _

theorem mdOpen_silent (c : Format) : (mdOpen K o lk c).Silent :=
  .ite (v07StyleMdOpen_silent c) ((v07StyleMdOpen_silent c).bind fun _ => .ite (Run.silent_pure _)
    ((v08CheckForResize_silent _).bind fun _ => .ite (Run.silent_pure _) (Run.silent_pure _)))

theorem openAndReplay_silent : (openAndReplay K A o lk cfg₀).Silent :=
  (mdOpen_silent _).bind fun _ => .ite (Run.silent_pure _)
    ((preadOrDie_silent _ _ _).bind fun _ => Run.silent_getBuf.bind fun _ =>
      (liftExcept_silent _).bind fun _ => Run.silent_pure _)

theorem openAndReplay_iff (hver : cfg₀.version ≠ .v07) {disk : Mem} {r : Replay} {re : Bool}
    {w : World} :
    openAndReplay K A o lk cfg₀ (freshWorld disk) = (.ok (some (cfg, r, re)), w) ↔
      Replayed K A cfg₀ disk cfg r re ∧ w = replayWorld cfg disk := by
  have hworld : Opened K cfg₀ disk cfg →
      (freshWorld disk).read 4096 (superblockOffset cfg₀) = (freshWorld disk).read 4096 cfg.mdOffset := by
    intro h
    obtain ⟨mu, hs⟩ := h.spec
    rw [hs.offsets.2.2.2.1]
  constructor
  · intro h
    obtain ⟨⟨rc, c⟩, w1, hopen, h⟩ := Run.of_bind_ok h
    by_cases hrc : rc = .validMdFound
    · subst hrc
      rw [if_neg (by simp)] at h
      obtain ⟨hop, rfl⟩ := (opened_iff hver).1 hopen
      obtain ⟨_, w2, hread, h⟩ := Run.of_bind_ok h
      obtain ⟨hle, rfl⟩ := of_preadOrDie_ok hread
      obtain ⟨buf, w3, hbuf, h⟩ := Run.of_bind_ok h
      cases hbuf
      obtain ⟨r', w4, hrep, h⟩ := Run.of_bind_ok h
      obtain ⟨hrep', rfl⟩ := of_liftExcept_ok hrep
      cases h
      rw [hworld hop] at hrep' ⊢
      exact ⟨⟨hop, hle, hrep'⟩, rfl⟩
    · rw [if_pos hrc] at h
      cases h
  · rintro ⟨h, rfl⟩
    have hopen : mdOpen K o lk cfg₀ (freshWorld disk) =
        (.ok (.validMdFound, cfg), (freshWorld disk).read 4096 cfg.mdOffset) :=
      (opened_iff hver).2 ⟨h.opened, (hworld h.opened).symm⟩
    unfold openAndReplay
    rw [Run.bind_ok hopen, if_neg (by simp), Run.bind_ok (preadOrDie_ok h.readable _),
      Run.bind_ok (Run.getBuf_apply _)]
    exact (Run.bind_ok (congrArg (·, _) h.replay)).trans rfl

/-- A run stops without a write, or goes on with the log it replayed. -/
theorem metaApplyAl_cases (hver : cfg₀.version ≠ .v07) (disk : Mem) :
    ((metaApplyAl K A o lk cfg₀ (freshWorld disk)).1 ≠ .ok 0 ∧
      (freshWorld disk).Extends (metaApplyAl K A o lk cfg₀ (freshWorld disk)).2 []) ∨
    ∃ cfg r re, Replayed K A cfg₀ disk cfg r re ∧
      metaApplyAl K A o lk cfg₀ (freshWorld disk) =
        applyReplay K A o cfg r re (replayWorld cfg disk) := by
  have hsilent := @openAndReplay_silent K A o lk cfg₀
    (freshWorld disk)
  generalize hres : openAndReplay K A o lk cfg₀ (freshWorld disk) = res at hsilent
  obtain ⟨res, w'⟩ := res
  unfold metaApplyAl
  rcases res with e | found
  · rw [Run.bind_error hres]
    exact .inl ⟨by simp, hsilent⟩
  · rw [Run.bind_ok hres]
    rcases found with _ | ⟨cfg, r, re⟩
    · exact .inl ⟨by simp [Run.pure_apply], hsilent⟩
    · obtain ⟨hrep, rfl⟩ := (openAndReplay_iff hver).1 hres
      exact .inr ⟨cfg, r, re, hrep, rfl⟩

theorem metaApplyAl_of_replayed (hver : cfg₀.version ≠ .v07) {disk : Mem} {r : Replay} {re : Bool}
    (h : Replayed K A cfg₀ disk cfg r re) :
    metaApplyAl K A o lk cfg₀ (freshWorld disk) =
      applyReplay K A o cfg r re (replayWorld cfg disk) := by
  unfold metaApplyAl
  rw [Run.bind_ok ((openAndReplay_iff hver).2 ⟨h, rfl⟩)]

end Open

end DrbdUtils.Meta
