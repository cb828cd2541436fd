import DrbdUtils.Meta.CreateMd
import DrbdUtils.Meta.AlBounds
import DrbdUtils.Meta.CheckResize

/-!
# The assertions of opening and initialising

`bm_bytes()` and `max_usable_sectors()` assert that the granularity is one of the format and that the
device has at most 1 PiB.  `is_valid_md()` calls the first with what it read from the device, and
`main()` checks the granularity it is given without looking at the index.

* `v07StyleMdOpen_aborts_iff`, `v08CheckForResize_aborts_iff`, `detectMd_aborts_iff`,
  `mdInitialize_aborts_iff` — exactly when one of the assertions fails.
* `noAssertFails_iff` — none fails exactly when the superblocks that are checked have a granularity
  of their layout and the options do not ask for another.
-/

set_option autoImplicit false

namespace DrbdUtils.Meta

open BlockDevice

/-! ## The helpers -/

/-- What `bm_bytes` asserts. -/
structure BmBytesAsserts (md : MdCpu) (sectors : Nat) : Prop where
  sectors : sectors ≤ 2 ^ (50 - 9)
  granularity : GranularityAdmitted md

/-- What `max_usable_sectors` asserts of external metadata. -/
structure MaxUsableAsserts (cfg : Format) : Prop where
  index : externalGranularity cfg
  granularity : GranularityAdmitted cfg.md

theorem bmBytes_abort_iff {md : MdCpu} {sectors : Nat} {e : Stop} :
    bmBytes md sectors = .error e ↔ e = .abort ∧ ¬BmBytesAsserts md sectors := by
  unfold bmBytes
  split
  · rename_i h
    exact iff_of_false (fun h => by cases h) fun hn => hn.2 ⟨h.1, h.2.1, h.2.2.1, h.2.2.2⟩
  · rename_i h
    have hnot : ¬BmBytesAsserts md sectors := fun hok =>
      h ⟨hok.sectors, hok.granularity.min, hok.granularity.max, hok.granularity.pow⟩
    rw [Except.error.injEq, eq_comm]
    exact (and_iff_left hnot).symm

theorem granularity_4k {md : MdCpu} (h : md.bmBytesPerBit.toNat = BM_BLOCK_SIZE_4k) :
    GranularityAdmitted md := by
  refine ⟨?_, ?_, ?_⟩ <;> rw [h] <;> decide +kernel

theorem maxUsableSectors_abort_iff {cfg : Format} {e : Stop} :
    maxUsableSectors cfg = .error e ↔
      e = .abort ∧ cfg.mdIndex.isExternal = true ∧ ¬MaxUsableAsserts cfg := by
  by_cases hidx : cfg.mdIndex.isExternal = true
  · by_cases hok : MaxUsableAsserts cfg
    · rw [maxUsableSectors_external hidx hok.granularity hok.index]
      exact iff_of_false (fun h => by cases h) fun h => h.2.2 hok
    · have habort : maxUsableSectors cfg = .error .abort := by
        by_cases hext : externalGranularity cfg
        · have hng : ¬GranularityAdmitted cfg.md := fun hg => hok ⟨hext, hg⟩
          obtain ⟨hver, hflex⟩ := hext.resolve_right fun h => hng (granularity_4k h)
          have hadm : (isPowerOf2 cfg.md.bmBytesPerBit.toNat &&
              decide (BM_BLOCK_SIZE_MIN ≤ cfg.md.bmBytesPerBit.toNat) &&
              decide (cfg.md.bmBytesPerBit.toNat ≤ BM_BLOCK_SIZE_MAX)) = false := by
            rw [← Bool.not_eq_true, Bool.and_eq_true, Bool.and_eq_true, decide_eq_true_eq,
              decide_eq_true_eq]
            exact fun h => hng ⟨h.1.2, h.2, h.1.1⟩
          unfold maxUsableSectors
          simp only [hver, hflex, ne_eq, not_true_eq_false, or_self, if_false, hadm,
            Bool.false_eq_true, reduceCtorEq]
        · exact maxUsableSectors_refused hidx hext
      rw [habort, Except.error.injEq, eq_comm]
      exact (and_iff_left ⟨hidx, hok⟩).symm
  · rw [maxUsableSectors_internal (Bool.not_eq_true _ ▸ hidx)]
    exact iff_of_false (fun h => by cases h) fun h => hidx h.2.1

/-- A superblock on which `is_valid_md` computes the size of the bitmap. -/
structure BitmapChecked (f : MdFormat) (md : MdCpu) : Prop where
  magic : mdMagicOk f md.magic = true
  ids : mdIdsOk md = true
  alOffset : md.alOffset = BitVec.ofInt 32 (-alSizeSect md)

theorem isValidMd_abort_iff {f : MdFormat} {md : MdCpu} {idx : MdIndex} {llSize : Nat} {e : Stop} :
    isValidMd f md idx llSize = .error e ↔
      e = .abort ∧ idx = .flexInt ∧ BitmapChecked f md ∧ ¬BmBytesAsserts md (llSize / 512) := by
  unfold isValidMd
  by_cases hhead : (mdMagicOk f md.magic && mdIdsOk md) = true
  · rw [hhead, if_neg (by decide)]
    rw [Bool.and_eq_true] at hhead
    by_cases hidx : idx = .flexInt
    · rw [if_pos hidx]
      by_cases hal : md.alOffset = BitVec.ofInt 32 (-alSizeSect md)
      · rw [if_neg (not_not.2 hal), except_bind_error_iff, bmBytes_abort_iff]
        constructor
        · rintro (h | ⟨bm, -, h⟩)
          · exact ⟨h.1, hidx, ⟨hhead.1, hhead.2, hal⟩, h.2⟩
          · dsimp only at h
            split at h <;> cases h
        · exact fun h => Or.inl ⟨h.1, h.2.2.2⟩
      · rw [if_pos hal]
        exact iff_of_false (fun h => by cases h) fun h => hal h.2.2.1.alOffset
    · rw [if_neg hidx]
      exact iff_of_false (fun h => by cases h) fun h => hidx h.2.1
  · rw [Bool.not_eq_true] at hhead
    rw [hhead, if_pos (by decide)]
    refine iff_of_false (fun h => by cases h) fun h => ?_
    rw [h.2.2.1.magic, h.2.2.1.ids] at hhead
    cases hhead

/-- `is_valid_md` is through with a superblock of any other layout. -/
structure FixedOffsets (f : MdFormat) (md : MdCpu) : Prop where
  magic : mdMagicOk f md.magic = true
  ids : mdIdsOk md = true
  alOffset : md.alOffset = BitVec.ofNat 32 MD_AL_OFFSET_07
  bmOffset : md.bmOffset = BitVec.ofInt 32 (MD_AL_OFFSET_07 + alSizeSect md)

theorem isValidMd_fixed_iff {f : MdFormat} {md : MdCpu} {idx : MdIndex} {llSize : Nat}
    (hidx : idx ≠ .flexInt) : isValidMd f md idx llSize = .ok true ↔ FixedOffsets f md := by
  unfold isValidMd
  rw [if_neg hidx]
  constructor
  · intro h
    split at h
    · cases h
    · rename_i hhead
      simp only [Except.ok.injEq, Bool.and_eq_true, decide_eq_true_eq] at h
      simp only [Bool.not_eq_true', Bool.not_eq_false, Bool.and_eq_true] at hhead
      exact ⟨hhead.1, hhead.2, h.1, h.2⟩
  · intro h
    simp [h.magic, h.ids, h.alOffset, h.bmOffset]

/-- The size that `clip_effective_size_and_bm_bytes` uses. -/
def clippedSize (cfg : Format) : Nat := min cfg.md.effectiveSize.toNat cfg.maxUsableSect

theorem clip_abort_iff {cfg : Format} {e : Stop} :
    clipEffectiveSizeAndBmBytes cfg = .error e ↔
      e = .abort ∧ ¬BmBytesAsserts cfg.md (clippedSize cfg) := by
  have hclip : clipEffectiveSizeAndBmBytes cfg = .error e ↔
      bmBytes cfg.md (clippedSize cfg) = .error e := by
    have heff := cfg.md.effectiveSize.isLt
    unfold clipEffectiveSizeAndBmBytes clippedSize
    split
    · rename_i hlt
      have hnat : (BitVec.ofNat 64 cfg.maxUsableSect).toNat = cfg.maxUsableSect := by
        rw [BitVec.toNat_ofNat]
        exact Nat.mod_eq_of_lt (by omega)
      rw [except_bind_error_iff, show min cfg.md.effectiveSize.toNat cfg.maxUsableSect =
        cfg.maxUsableSect by omega]
      dsimp only
      rw [hnat]
      constructor
      · rintro (h | ⟨bm, -, h⟩)
        · exact h
        · cases h
      · exact Or.inl
    · rw [except_bind_error_iff, show min cfg.md.effectiveSize.toNat cfg.maxUsableSect =
        cfg.md.effectiveSize.toNat by omega]
      constructor
      · rintro (h | ⟨bm, -, h⟩)
        · exact h
        · cases h
      · exact Or.inl
  rw [hclip, bmBytes_abort_iff]

/-! ## Opening -/

section Open

variable {K : OnDisk9} {o : Options} {lk : Option (Nat × BitVec 64)} {cfg : Format}

theorem mdDiskToCpu_error {e : Stop} (hb : cfg.mdOffset + 4096 ≤ cfg.bdSize) (w : World)
    (h : isValidMd cfg.version (decodeMd K cfg.version fun a => w.disk (cfg.mdOffset + a))
      cfg.mdIndex cfg.bdSize = .error e) :
    mdDiskToCpu K cfg w = (.error e, w.read 4096 cfg.mdOffset) := by
  unfold mdDiskToCpu
  rw [Run.bind_ok (preadOrDie_ok hb w), Run.bind_ok (Run.getBuf_apply _), decodeMd_read]
  exact Run.bind_error (congrArg (·, _) h)

/-- The superblock of the index is on the device. -/
structure HasSuperblock (cfg : Format) : Prop where
  soMuch : SO_MUCH ≤ cfg.bdSize
  offset : superblockOffset cfg + 4096 ≤ cfg.bdSize

theorem preadOrDie_error {count offset : Nat} {w w' : World} {e : Stop}
    (h : preadOrDie cfg count offset w = (.error e, w')) : e = .exit 10 := by
  unfold preadOrDie at h
  split at h
  · cases h
  · cases h
    rfl

/-- Reading a superblock aborts in `is_valid_md`. -/
theorem of_mdDiskToCpu_abort {w w' : World} (h : mdDiskToCpu K cfg w = (.error .abort, w')) :
    cfg.mdOffset + 4096 ≤ cfg.bdSize ∧
      isValidMd cfg.version (decodeMd K cfg.version fun a => w.disk (cfg.mdOffset + a))
        cfg.mdIndex cfg.bdSize = .error .abort := by
  unfold mdDiskToCpu at h
  rcases Run.of_bind_error h with h | ⟨u, w1, hread, h⟩
  · cases preadOrDie_error h
  obtain ⟨hb, rfl⟩ := of_preadOrDie_ok hread
  rcases Run.of_bind_error h with h | ⟨buf, w2, hbuf, h⟩
  · cases h
  cases hbuf
  rw [decodeMd_read] at h
  rcases Run.of_bind_error h with h | ⟨ok, w3, hok, h⟩
  · exact ⟨hb, congrArg Prod.fst h⟩
  · cases h

theorem of_v07StyleMdOpen_abort {w w' : World}
    (h : v07StyleMdOpen K cfg w = (.error .abort, w')) : HasSuperblock cfg ∧
      (isValidMd cfg.version (superblockAt K cfg w.disk) cfg.mdIndex cfg.bdSize = .error .abort ∨
        isValidMd cfg.version (superblockAt K cfg w.disk) cfg.mdIndex cfg.bdSize = .ok true ∧
        openedFormat cfg (superblockAt K cfg w.disk) = .error .abort) := by
  unfold v07StyleMdOpen at h
  split at h
  · cases h
  rename_i hsize
  simp only at h
  split at h
  · cases h
  rename_i hoff
  rcases Run.of_bind_error h with h | ⟨found, w1, hfound, h⟩
  · obtain ⟨hb, hvalid⟩ := of_mdDiskToCpu_abort h
    exact ⟨⟨Nat.not_lt.1 hsize, hb⟩, Or.inl hvalid⟩
  · obtain ⟨hb, rfl, ok, hok, rfl⟩ := of_mdDiskToCpu_ok K hfound
    cases ok with
    | false => cases h
    | true =>
      refine ⟨⟨Nat.not_lt.1 hsize, hb⟩, Or.inr ⟨hok, except_bind_error_iff.2 ?_⟩⟩
      rcases Run.of_bind_error h with h | ⟨mu, w2, hmu, h⟩
      · exact Or.inl (congrArg Prod.fst h)
      · refine Or.inr ⟨mu, congrArg Prod.fst hmu, ?_⟩
        rcases Run.of_bind_error h with h | ⟨cfg2, w3, -, h⟩
        · exact congrArg Prod.fst h
        · cases h

theorem v07StyleMdOpen_abort_iff (w : World) :
    (∃ w', v07StyleMdOpen K cfg w = (.error .abort, w')) ↔ HasSuperblock cfg ∧
      (isValidMd cfg.version (superblockAt K cfg w.disk) cfg.mdIndex cfg.bdSize = .error .abort ∨
        isValidMd cfg.version (superblockAt K cfg w.disk) cfg.mdIndex cfg.bdSize = .ok true ∧
        openedFormat cfg (superblockAt K cfg w.disk) = .error .abort) := by
  constructor
  · rintro ⟨w', h⟩
    exact of_v07StyleMdOpen_abort h
  · rintro ⟨h, habort⟩
    have hsize := h.soMuch
    have hoff := h.offset
    unfold v07StyleMdOpen
    rw [if_neg (by omega)]
    simp only
    rw [if_neg (by unfold superblockOffset at hoff; omega)]
    rcases habort with hvalid | ⟨hvalid, hopened⟩
    · exact ⟨_, Run.bind_error (mdDiskToCpu_error hoff w hvalid)⟩
    · rw [Run.bind_ok (mdDiskToCpu_ok K hoff w hvalid)]
      rcases except_bind_error_iff.1 hopened with hmu | ⟨mu, hmu, hclip⟩
      · exact ⟨_, Run.bind_error (congrArg (·, _) hmu)⟩
      · exact ⟨_, (Run.bind_ok (congrArg (·, _) hmu)).trans
          (Run.bind_error (congrArg (·, _) hclip))⟩

/-- The data sectors that the bitmap of an external layout covers. -/
def coveredSize (md : MdCpu) : Nat := coveredSectors md (externalBmSect md * 512)

/-- The superblocks that opening handles without a failed assertion. -/
def OpenSafe (cfg : Format) (md : MdCpu) : Prop :=
  match cfg.mdIndex with
  | .flexInt => BitmapChecked cfg.version md → GranularityAdmitted md
  | .internal => FixedOffsets cfg.version md → GranularityAdmitted md
  | .fixed _ | .flexExt => FixedOffsets cfg.version md →
    MaxUsableAsserts { cfg with md := md } ∧ min md.effectiveSize.toNat (coveredSize md) ≤ 2 ^ 41

/-- The part behind `is_valid_md`. -/
theorem openedFormat_abort_iff {md : MdCpu} : openedFormat cfg md = .error .abort ↔
    (cfg.mdIndex.isExternal = true ∧ ¬MaxUsableAsserts { cfg with md := md }) ∨
    ∃ mu, maxUsableSectors (setByteOffsets { cfg with mdOffset := superblockOffset cfg } md) =
        .ok mu ∧ ¬BmBytesAsserts md (min md.effectiveSize.toNat mu) := by
  unfold openedFormat
  rw [except_bind_error_iff, maxUsableSectors_abort_iff]
  refine or_congr ⟨fun h => ⟨h.2.1, fun hok => h.2.2 ⟨hok.index, hok.granularity⟩⟩,
    fun h => ⟨rfl, h.1, fun hok => h.2 ⟨hok.index, hok.granularity⟩⟩⟩
    (exists_congr fun mu => and_congr_right fun _ => ?_)
  rw [clip_abort_iff]
  exact and_iff_right rfl

/-- Internal metadata begins on the device, so that the size it leaves is small enough. -/
theorem openedFormat_internal_iff (hbd : cfg.bdSize ≤ 2 ^ 50) (h : HasSuperblock cfg)
    (hidx : cfg.mdIndex.isExternal = false) (md : MdCpu) :
    openedFormat cfg md = .error .abort ↔ ¬GranularityAdmitted md := by
  have hoff := h.offset
  have hmu := @maxUsableSectors_internal
    (setByteOffsets { cfg with mdOffset := superblockOffset cfg } md) hidx
  have hle : ∀ x y, min (min (superblockOffset cfg) x) y / 512 ≤ 2 ^ 41 := by
    intro x y
    omega
  rw [openedFormat_abort_iff, hmu]
  constructor
  · rintro (⟨hext, -⟩ | ⟨mu, hmu, hnot⟩)
    · rw [hidx] at hext
      cases hext
    · cases hmu
      exact fun hg => hnot ⟨(Nat.min_le_right _ _).trans (hle _ _), hg⟩
  · exact fun hg => Or.inr ⟨_, rfl, fun h => hg h.granularity⟩

theorem openedFormat_external_iff (hidx : cfg.mdIndex.isExternal = true) (md : MdCpu) :
    openedFormat cfg md = .error .abort ↔ ¬(MaxUsableAsserts { cfg with md := md } ∧
      min md.effectiveSize.toNat (coveredSize md) ≤ 2 ^ 41) := by
  rw [openedFormat_abort_iff]
  by_cases hok : MaxUsableAsserts { cfg with md := md }
  · have hmu := @maxUsableSectors_external
      (setByteOffsets { cfg with mdOffset := superblockOffset cfg } md) hidx hok.granularity hok.index
    rw [hmu]
    constructor
    · rintro (h | ⟨mu, hmu, hnot⟩) hsafe
      · exact h.2 hok
      · cases hmu
        exact hnot ⟨hsafe.2, hok.granularity⟩
    · exact fun h => Or.inr ⟨_, rfl, fun hasserts => h ⟨hok, hasserts.sectors⟩⟩
  · exact iff_of_true (Or.inl ⟨hidx, hok⟩) fun h => hok h.1

/-- A valid flexible internal superblock has a bitmap. -/
theorem of_isValidMd_flexInt {f : MdFormat} {md : MdCpu} {llSize : Nat}
    (h : isValidMd f md .flexInt llSize = .ok true) : BmBytesAsserts md (llSize / 512) := by
  have hchecked : BitmapChecked f md := by
    unfold isValidMd at h
    split at h
    · cases h
    rename_i hhead
    simp only [Bool.not_eq_true', Bool.not_eq_false, Bool.and_eq_true] at hhead
    rw [if_pos rfl] at h
    split at h
    · cases h
    rename_i hal
    exact ⟨hhead.1, hhead.2, not_not.1 hal⟩
  by_contra hnot
  have := isValidMd_abort_iff.2 ⟨rfl, rfl, hchecked, hnot⟩
  rw [h] at this
  cases this

theorem v07StyleMdOpen_aborts_iff (hbd : cfg.bdSize ≤ 2 ^ 50) (w : World) :
    (∃ w', v07StyleMdOpen K cfg w = (.error .abort, w')) ↔
      HasSuperblock cfg ∧ ¬OpenSafe cfg (superblockAt K cfg w.disk) := by
  rw [v07StyleMdOpen_abort_iff]
  refine and_congr_right fun h => ?_
  generalize superblockAt K cfg w.disk = md
  rw [isValidMd_abort_iff]
  have hexternal (hidx : cfg.mdIndex.isExternal = true) (hne : cfg.mdIndex ≠ .flexInt) :
      (.abort = Stop.abort ∧ cfg.mdIndex = .flexInt ∧ BitmapChecked cfg.version md ∧
          ¬BmBytesAsserts md (cfg.bdSize / 512)) ∨
        (isValidMd cfg.version md cfg.mdIndex cfg.bdSize = .ok true ∧
          openedFormat cfg md = .error .abort) ↔
        ¬(FixedOffsets cfg.version md → MaxUsableAsserts { cfg with md := md } ∧
          min md.effectiveSize.toNat (coveredSize md) ≤ 2 ^ 41) := by
    rw [isValidMd_fixed_iff hne, openedFormat_external_iff hidx, Classical.not_imp]
    exact or_iff_right fun h => hne h.2.1
  unfold OpenSafe
  cases hidx : cfg.mdIndex with
  | fixed i =>
    rw [hidx] at hexternal
    exact hexternal rfl (by simp)
  | flexExt =>
    rw [hidx] at hexternal
    exact hexternal rfl (by simp)
  | internal =>
    rw [isValidMd_fixed_iff (by simp), openedFormat_internal_iff hbd h (by rw [hidx]; rfl)]
    simp
  | flexInt =>
    rw [openedFormat_internal_iff hbd h (by rw [hidx]; rfl), Classical.not_imp]
    constructor
    · rintro (⟨-, -, hchecked, hnot⟩ | ⟨hvalid, hnot⟩)
      · exact ⟨hchecked, fun hg => hnot ⟨by omega, hg⟩⟩
      · exact absurd (of_isValidMd_flexInt hvalid).granularity hnot
    · exact fun ⟨hchecked, hnot⟩ => Or.inl ⟨rfl, rfl, hchecked, fun h => hnot h.granularity⟩

/-- The last known superblock, where `v08_check_for_resize` looks for one, can be checked. -/
def ResizeSafe (K : OnDisk9) (lk : Option (Nat × BitVec 64)) (cfg : Format) (disk : Mem) : Prop :=
  ∀ size uuid, lk = some (size, uuid) → cfg.version ≠ .v07 → cfg.mdIndex = .flexInt →
    size ≠ cfg.bdSize → v07StyleMdGetByteOffset .flexInt size + 4096 ≤ cfg.bdSize →
    BitmapChecked cfg.version (superblockFor K cfg disk size) →
    BmBytesAsserts (superblockFor K cfg disk size) (size / 512)

theorem v08CheckForResize_aborts_iff (hmagic : cfg.md.magic = 0) (w : World) :
    (∃ w', v08CheckForResize K o lk cfg w = (.error .abort, w')) ↔
      ¬ResizeSafe K lk cfg w.disk := by
  constructor
  · rintro ⟨w', h⟩ hsafe
    unfold v08CheckForResize at h
    rw [Run.bind_ok (assert_pos hmagic w)] at h
    split at h
    · cases h
    rename_i hkind
    rw [not_or, not_not] at hkind
    rcases lk with _ | ⟨size, uuid⟩
    · cases h
    dsimp only at h
    split at h
    · cases h
    rename_i hne
    split at h
    · rcases Run.of_bind_error h with h | ⟨u, w1, hread, h⟩
      · cases preadOrDie_error h
      obtain ⟨hin, rfl⟩ := of_preadOrDie_ok hread
      rcases Run.of_bind_error h with h | ⟨buf, w2, hbuf, h⟩
      · cases h
      cases hbuf
      rw [decodeMd_read] at h
      rcases Run.of_bind_error h with h | ⟨ok, w3, -, h⟩
      · obtain ⟨-, -, hchecked, hnot⟩ := isValidMd_abort_iff.1 (congrArg Prod.fst h)
        exact hnot (hsafe size uuid rfl hkind.1 hkind.2 hne hin hchecked)
      · cases h
    · cases h
  · intro hsafe
    unfold ResizeSafe at hsafe
    push Not at hsafe
    obtain ⟨size, uuid, rfl, hver, hidx, hne, hin, hchecked, hnot⟩ := hsafe
    have hvalid : isValidMd cfg.version (superblockFor K cfg w.disk size) .flexInt size =
        .error .abort := isValidMd_abort_iff.2 ⟨rfl, rfl, hchecked, hnot⟩
    unfold v08CheckForResize
    rw [Run.bind_ok (assert_pos hmagic w), if_neg (by simp [hver, hidx])]
    dsimp only
    rw [if_neg hne, if_pos (by omega)]
    refine ⟨_, (Run.bind_ok (preadOrDie_ok hin w)).trans ((Run.bind_ok (Run.getBuf_apply _)).trans
      (@Run.bind_error _ _ _ _ _ _ (w.read 4096 (v07StyleMdGetByteOffset .flexInt size)) _ ?_))⟩
    rw [decodeMd_read]
    exact congrArg (·, _) hvalid

/-- A block that `detect_md` can check. -/
def DetectSafe (K : OnDisk9) (buf : Mem) (llSize : Nat) (idx : MdIndex) : Prop :=
  idx = .flexInt → ∀ f, BitmapChecked f (decodeMd K f buf) →
    BmBytesAsserts (decodeMd K f buf) (llSize / 512)

theorem detectMd_aborts_iff (buf : Mem) (llSize : Nat) (idx : MdIndex) :
    detectMd K buf llSize idx = .error .abort ↔ ¬DetectSafe K buf llSize idx := by
  have hvalid (f : MdFormat) : isValidMd f (decodeMd K f buf) idx llSize = .error .abort ↔
      idx = .flexInt ∧ BitmapChecked f (decodeMd K f buf) ∧
        ¬BmBytesAsserts (decodeMd K f buf) (llSize / 512) := by
    rw [isValidMd_abort_iff]
    exact and_iff_right rfl
  unfold detectMd
  constructor
  · intro h hsafe
    rcases except_bind_error_iff.1 h with h | ⟨ok7, -, h⟩
    · obtain ⟨hidx, hchecked, hnot⟩ := (hvalid .v07).1 h
      exact hnot (hsafe hidx .v07 hchecked)
    rcases except_bind_error_iff.1 h with h | ⟨ok8, -, h⟩
    · obtain ⟨hidx, hchecked, hnot⟩ := (hvalid .v08).1 h
      exact hnot (hsafe hidx .v08 hchecked)
    rcases except_bind_error_iff.1 h with h | ⟨ok9, -, h⟩
    · obtain ⟨hidx, hchecked, hnot⟩ := (hvalid .v09).1 h
      exact hnot (hsafe hidx .v09 hchecked)
    · cases h
  · intro hsafe
    unfold DetectSafe at hsafe
    push Not at hsafe
    obtain ⟨hidx, f, hchecked, hnot⟩ := hsafe
    have herror := (hvalid f).2 ⟨hidx, hchecked, hnot⟩
    -- The validator is asked three times; it either answers or stops with the same failure.
    have hstop (g : MdFormat) : (∃ ok, isValidMd g (decodeMd K g buf) idx llSize = .ok ok) ∨
        isValidMd g (decodeMd K g buf) idx llSize = .error .abort := by
      cases h : isValidMd g (decodeMd K g buf) idx llSize with
      | ok ok => exact Or.inl ⟨ok, rfl⟩
      | error e =>
        obtain ⟨rfl, -⟩ := isValidMd_abort_iff.1 h
        exact Or.inr rfl
    rcases hstop .v07 with ⟨ok7, h7⟩ | h7
    · rw [h7]
      rcases hstop .v08 with ⟨ok8, h8⟩ | h8
      · rw [h8]
        cases f with
        | v07 => rw [h7] at herror; cases herror
        | v08 => rw [h8] at herror; cases herror
        | v09 => rw [herror]; rfl
      · rw [h8]
        rfl
    · rw [h7]
      rfl

end Open

/-! ## Initialising -/

section Initialise

variable {A : AlLayout} {X : Outside} {o : Options} {cfg : Format}

/-- What `main` checks of `--bitmap-block-size`. -/
structure BlockSizeChecked (o : Options) (f : MdFormat) : Prop where
  v09 : f = .v09
  pow : isPowerOf2 o.bmBlockSize.toNat = true
  min : BM_BLOCK_SIZE_MIN ≤ o.bmBlockSize.toNat
  max : o.bmBlockSize.toNat ≤ BM_BLOCK_SIZE_MAX

/-- A granularity that is not 4k, for metadata that has to have 4k. -/
def InitSafe (o : Options) (cfg : Format) : Prop :=
  ∀ i, cfg.mdIndex = .fixed i → o.bmBlockSize ≠ 0 → o.bmBlockSize.toNat = BM_BLOCK_SIZE_4k

theorem reInitializeMdOffsets_abort_iff (hbd : cfg.bdSize ≤ 2 ^ 50)
    (ho : o.bmBlockSize ≠ 0 → BlockSizeChecked o cfg.version)
    (hgran : cfg.md.bmBytesPerBit = 0) :
    reInitializeMdOffsets o cfg = .error .abort ↔ ¬InitSafe o cfg := by
  have hdefault : (saneDefaults o cfg.md).bmBytesPerBit =
      if o.bmBlockSize ≠ 0 then o.bmBlockSize else BitVec.ofNat 32 DEFAULT_BM_BLOCK_SIZE := by
    unfold saneDefaults
    rw [hgran]
    rfl
  have hg : GranularityAdmitted (saneDefaults o cfg.md) := by
    by_cases hb : o.bmBlockSize = 0
    · rw [if_neg (not_not.2 hb)] at hdefault
      exact granularity_4k (by rw [hdefault]; decide)
    · rw [if_pos hb] at hdefault
      have hchecked := ho hb
      exact ⟨hdefault ▸ hchecked.min, hdefault ▸ hchecked.max, hdefault ▸ hchecked.pow⟩
  have hmax {md : MdCpu} {bm : Nat} (hmd : mdSectOffsets cfg (saneDefaults o cfg.md) = .ok (md, bm)) :
      maxUsableSectors { setByteOffsets cfg md with bmBytes := bm } = .error .abort ↔
        cfg.mdIndex.isExternal = true ∧ ¬((cfg.version = .v09 ∧ cfg.mdIndex = .flexExt) ∨
          (saneDefaults o cfg.md).bmBytesPerBit.toNat = BM_BLOCK_SIZE_4k) := by
    obtain ⟨_, _, _, rfl⟩ := mdSectOffsets_fields hmd
    rw [maxUsableSectors_abort_iff]
    refine (and_iff_right rfl).trans (and_congr_right fun _ => not_congr ⟨fun h => h.index,
      fun h => ⟨h, ⟨hg.min, hg.max, hg.pow⟩⟩⟩)
  unfold reInitializeMdOffsets InitSafe
  rw [except_bind_error_iff]
  have hsect : mdSectOffsets cfg (saneDefaults o cfg.md) ≠ .error .abort := by
    unfold mdSectOffsets
    cases cfg.mdIndex with
    | fixed i => exact fun h => by cases h
    | flexExt => exact fun h => by cases h
    | internal => exact fun h => by cases h
    | flexInt =>
      intro h
      rcases except_bind_error_iff.1 h with h | ⟨bm, -, h⟩
      · exact (bmBytes_abort_iff.1 h).2 ⟨by omega, hg⟩
      · simp only at h
        split at h <;> cases h
  rw [or_iff_right hsect]
  constructor
  · rintro ⟨⟨md, bm⟩, hmd, h⟩ hsafe
    rcases except_bind_error_iff.1 h with h | ⟨mu, -, h⟩
    · obtain ⟨hext, hnot⟩ := (hmax hmd).1 h
      rw [not_or] at hnot
      by_cases hb : o.bmBlockSize = 0
      · rw [hdefault, if_neg (not_not.2 hb)] at hnot
        exact hnot.2 (by decide)
      · rw [hdefault, if_pos hb] at hnot
        cases hidx : cfg.mdIndex with
        | fixed i => exact hnot.2 (hsafe i hidx hb)
        | flexExt => exact hnot.1 ⟨(ho hb).v09, hidx⟩
        | internal => rw [hidx] at hext; cases hext
        | flexInt => rw [hidx] at hext; cases hext
    · cases h
  · intro hsafe
    push Not at hsafe
    obtain ⟨i, hidx, hb, hne⟩ := hsafe
    have hext : cfg.mdIndex.isExternal = true := by rw [hidx]; rfl
    obtain ⟨⟨md, bm⟩, hmd⟩ : ∃ a, mdSectOffsets cfg (saneDefaults o cfg.md) = .ok a := by
      unfold mdSectOffsets
      rw [hidx]
      exact ⟨_, rfl⟩
    refine ⟨(md, bm), hmd, except_bind_error_iff.2 (Or.inl ((hmax hmd).2 ⟨hext, ?_⟩))⟩
    rw [hdefault, if_pos hb]
    rintro (⟨-, hflex⟩ | h4k)
    · rw [hidx] at hflex
      cases hflex
    · exact hne h4k

/-! ### Behind the layout -/

theorem checkForExistingData_noAbort (hmax : maxUsableSectors cfg ≠ .error .abort) :
    Never .abort (checkForExistingData X o cfg) := by
  unfold checkForExistingData
  refine (preadOrDie_never (by decide) _ _ _).bind fun _ => never_getBuf.bind fun buf => ?_
  refine Never.ite (never_pure ()) ((never_liftExcept hmax).bind fun _ => ?_)
  refine Never.ite (Never.ite (never_pure ()) (never_stop (by decide))) ?_
  refine Never.ite (Never.ite (never_pure ()) (never_stop (by decide))) ?_
  exact Never.ite (never_stop (by decide)) (Never.ite (never_pure ()) (never_stop (by decide)))

theorem initializeAl_noAbort : Never .abort (initializeAl A o cfg) := by
  unfold initializeAl
  exact Never.ite (never_stop (by decide))
    ((never_modifyBuf _).bind fun _ => pwriteOrDie_never (by decide) _ _ _ _)

theorem initBitmapLoop_noAbort (off bytesLeft : Nat) :
    Never .abort (initBitmapLoop o cfg off bytesLeft) := by
  induction off, bytesLeft using initBitmapLoop.induct with
  | case1 off bytesLeft ih =>
    rw [initBitmapLoop]
    refine (pwriteOrDie_never (by decide) _ _ _ _).bind fun _ => ?_
    split
    · exact never_pure ()
    · rename_i hmore
      exact ih hmore

theorem initializeBitmap_noAbort : Never .abort (initializeBitmap X o cfg) := by
  have hfast : Never .abort (zerooutBitmapFast cfg) :=
    never_getBuf.bind fun _ => (never_modifyBuf _).bind fun _ =>
      Never.bind (fun _ h => by cases h) fun _ => never_modifyBuf _
  have hpwrite (value : Byte) : Never .abort (initBitmapPwrite o cfg value) :=
    (never_modifyBuf _).bind fun _ => initBitmapLoop_noAbort _ _
  unfold initializeBitmap
  cases o.initializeBitmapMode with
  | skip => exact never_pure ()
  | zeroout => exact hfast.ite (hpwrite 0)
  | zerooutIoctlOnly => exact hfast.ite (never_stop (by decide))
  | zerooutPwrite => exact hpwrite 0
  | setAll => exact hpwrite 0xff

/-- What the layout of `re_initialize_md_offsets` asserted once holds again. -/
theorem maxUsableSectors_of_reInitialize {cfg' : Format}
    (h : reInitializeMdOffsets o cfg = .ok cfg') : maxUsableSectors cfg' ≠ .error .abort := by
  obtain ⟨⟨md, bm⟩, -, h⟩ := except_bind_ok_iff.1 h
  obtain ⟨mu, hmu, h⟩ := except_bind_ok_iff.1 h
  cases h
  intro habort
  have hboth : (.ok mu : Except Stop Nat) = .error .abort := hmu.symm.trans habort
  cases hboth

theorem mdInitialize_aborts_iff (hbd : cfg.bdSize ≤ 2 ^ 50)
    (ho : o.bmBlockSize ≠ 0 → BlockSizeChecked o cfg.version) (maxPeers : Nat) (w : World) :
    (∃ w', mdInitialize A X o maxPeers cfg w = (.error .abort, w')) ↔ ¬InitSafe o cfg := by
  have hre := @reInitializeMdOffsets_abort_iff o { cfg with md :=
    { initializedMd o maxPeers cfg.version with alNrExtents := 257, bmBytesPerBit := 0 } } hbd ho rfl
  rw [show InitSafe o cfg ↔ InitSafe o { cfg with md :=
    { initializedMd o maxPeers cfg.version with alNrExtents := 257, bmBytesPerBit := 0 } } from
    Iff.rfl, ← hre]
  unfold mdInitialize mdInitializeCommon
  constructor
  · rintro ⟨w', h⟩
    rcases Run.of_bind_error h with h | ⟨cfg', w1, hlift, hrest⟩
    · exact congrArg Prod.fst h
    · obtain ⟨hok, rfl⟩ := of_liftExcept_ok hlift
      have hnever : Never .abort (do
          checkForExistingData X o cfg'
          initializeAl A o cfg'
          initializeBitmap X o cfg'
          pure cfg' : MetaRun Format) :=
        (checkForExistingData_noAbort (maxUsableSectors_of_reInitialize hok)).bind fun _ =>
          initializeAl_noAbort.bind fun _ => initializeBitmap_noAbort.bind fun _ => never_pure _
      exact absurd (congrArg Prod.fst hrest) (hnever _)
  · exact fun h => ⟨w, Run.bind_error (congrArg (·, w) h)⟩

end Initialise

/-! ## No failed assertion -/

/-- Neither opening, nor looking for other formats, nor initialising fails an assertion. -/
structure NoAssertFails (K : OnDisk9) (A : AlLayout) (X : Outside) (o : Options)
    (lk : Option (Nat × BitVec 64)) (maxPeers : Nat) (buf : Mem) (idx : MdIndex) (cfg : Format)
    (w : World) : Prop where
  v07StyleMdOpen : ∀ w', v07StyleMdOpen K cfg w ≠ (.error .abort, w')
  v08CheckForResize : ∀ w', v08CheckForResize K o lk cfg w ≠ (.error .abort, w')
  detectMd : detectMd K buf cfg.bdSize idx ≠ .error .abort
  mdInitialize : ∀ w', mdInitialize A X o maxPeers cfg w ≠ (.error .abort, w')

/-- **The assertions of opening and initialising.**  On a device of at most 1 PiB, with options that
    `main` accepts, no assertion fails exactly when each superblock that is checked has a granularity
    that its layout allows, and no other granularity than 4k is asked for at a fixed index. -/
theorem noAssertFails_iff (K : OnDisk9) (A : AlLayout) (X : Outside) (o : Options)
    (lk : Option (Nat × BitVec 64)) (maxPeers : Nat) (buf : Mem) (idx : MdIndex) {cfg : Format}
    (w : World) (hbd : cfg.bdSize ≤ 2 ^ 50) (hmagic : cfg.md.magic = 0)
    (ho : o.bmBlockSize ≠ 0 → BlockSizeChecked o cfg.version) :
    NoAssertFails K A X o lk maxPeers buf idx cfg w ↔
      (HasSuperblock cfg → OpenSafe cfg (superblockAt K cfg w.disk)) ∧
        ResizeSafe K lk cfg w.disk ∧ DetectSafe K buf cfg.bdSize idx ∧ InitSafe o cfg := by
  have hopen := @v07StyleMdOpen_aborts_iff K cfg hbd w
  have hresize := @v08CheckForResize_aborts_iff K o lk cfg hmagic w
  have hdetect := @detectMd_aborts_iff K buf cfg.bdSize idx
  have hinit := @mdInitialize_aborts_iff A X o cfg hbd ho maxPeers w
  constructor
  · rintro ⟨h1, h2, h3, h4⟩
    refine ⟨fun hsb => ?_, ?_, ?_, ?_⟩
    · by_contra hnot
      obtain ⟨w', h⟩ := hopen.2 ⟨hsb, hnot⟩
      exact h1 w' h
    · by_contra hnot
      obtain ⟨w', h⟩ := hresize.2 hnot
      exact h2 w' h
    · by_contra hnot
      exact h3 (hdetect.2 hnot)
    · by_contra hnot
      obtain ⟨w', h⟩ := hinit.2 hnot
      exact h4 w' h
  · rintro ⟨h1, h2, h3, h4⟩
    refine ⟨fun w' h => ?_, fun w' h => ?_, fun h => ?_, fun w' h => ?_⟩
    · obtain ⟨hsb, hnot⟩ := hopen.1 ⟨w', h⟩
      exact hnot (h1 hsb)
    · exact hresize.1 ⟨w', h⟩ h2
    · exact hdetect.1 h h3
    · exact hinit.1 ⟨w', h⟩ h4

/-- An empty device of 256 MiB has nothing to trip over. -/
theorem noAssertFails_empty : NoAssertFails packedOnDisk9 packedAl nobody {} none 1 (fun _ => 0)
    .flexInt (grownFormat (2 ^ 28)) (freshWorld fun _ => 0) := by
  have hmagic (f : MdFormat) : ¬BitmapChecked f (decodeMd packedOnDisk9 f fun _ => 0) := by
    intro h
    have hno : mdMagicOk f (decodeMd packedOnDisk9 f fun _ => 0).magic = false := by
      cases f <;> decide +kernel
    rw [h.magic] at hno
    cases hno
  refine (noAssertFails_iff packedOnDisk9 packedAl nobody {} none 1 (fun _ => 0) .flexInt
    (freshWorld fun _ => 0) (by decide) rfl fun h => absurd rfl h).2 ⟨fun _ h => ?_, ?_, ?_, ?_⟩
  · exact absurd h (hmagic .v08)
  · rintro size uuid h
    cases h
  · exact fun _ f h => absurd h (hmagic f)
  · rintro i h
    cases h

/-- A device with a superblock where the index is looked for. -/
def deviceWith (cfg : Format) (md : MdCpu) : Mem :=
  fun a => encodeMd packedOnDisk9 cfg.version md (a - superblockOffset cfg)

theorem superblockAt_deviceWith (cfg : Format) (md : MdCpu) :
    superblockAt packedOnDisk9 cfg (deviceWith cfg md) = normalMd cfg.version md := by
  have hdisk : (fun a => deviceWith cfg md (superblockOffset cfg + a)) =
      encodeMd packedOnDisk9 cfg.version md := by
    funext a
    exact congrArg (encodeMd packedOnDisk9 cfg.version md) (Nat.add_sub_cancel_left _ _)
  unfold superblockAt
  rw [hdisk]
  exact decodeMd_encodeMd packedOnDisk9 cfg.version md

/-- An 8.4 superblock that claims a granularity of 0 bytes. -/
def ungranularMd : MdCpu := { grownMd 8 with bmBytesPerBit := 0 }

def ungranularDisk : Mem := deviceWith (grownFormat (2 ^ 28)) ungranularMd

/-- **Two failed assertions.**  `--bitmap-block-size=8k` with a fixed index, which `main` accepts, and
    an 8.4 superblock whose granularity is 0. -/
theorem noAssertFails_not :
    (BlockSizeChecked { bmBlockSize := 8192 } .v09 ∧
      ¬NoAssertFails packedOnDisk9 packedAl nobody { bmBlockSize := 8192 } none 1 (fun _ => 0) .flexInt
        { grownFormat (2 ^ 28) with version := .v09, mdIndex := .fixed 0 }
        (freshWorld fun _ => 0)) ∧
    ¬NoAssertFails packedOnDisk9 packedAl nobody {} none 1 (fun _ => 0) .flexInt
      (grownFormat (2 ^ 28)) (freshWorld ungranularDisk) := by
  have hchecked : BlockSizeChecked { bmBlockSize := 8192 } .v09 :=
    ⟨rfl, by decide, by decide, by decide⟩
  refine ⟨⟨hchecked, fun h => ?_⟩, fun h => ?_⟩
  · obtain ⟨w', hw'⟩ := (@mdInitialize_aborts_iff packedAl nobody { bmBlockSize := 8192 }
      { grownFormat (2 ^ 28) with version := .v09, mdIndex := .fixed 0 } (by decide)
      (fun _ => hchecked) 1 (freshWorld fun _ => 0)).2 fun hsafe =>
        absurd (hsafe 0 rfl (by decide)) (by decide)
    exact h.mdInitialize w' hw'
  · have hdisk (d : Mem) : (freshWorld d).disk = d := rfl
    have hsb : HasSuperblock (grownFormat (2 ^ 28)) := ⟨by decide +kernel, by decide +kernel⟩
    have hunsafe : ¬OpenSafe (grownFormat (2 ^ 28)) (superblockAt packedOnDisk9
        (grownFormat (2 ^ 28)) (freshWorld ungranularDisk).disk) := by
      rw [hdisk, ungranularDisk, superblockAt_deviceWith]
      intro hsafe
      exact absurd (hsafe ⟨by decide +kernel, by decide +kernel, by decide +kernel⟩).min
        (by decide +kernel)
    have hbd : (grownFormat (2 ^ 28)).bdSize ≤ 2 ^ 50 := by decide +kernel
    obtain ⟨w', hw'⟩ := (v07StyleMdOpen_aborts_iff hbd (freshWorld ungranularDisk)).2 ⟨hsb, hunsafe⟩
    exact h.v07StyleMdOpen w' hw'

end DrbdUtils.Meta
