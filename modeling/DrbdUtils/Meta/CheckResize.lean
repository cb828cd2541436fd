import DrbdUtils.Meta.CreateMd

/-!
# The preconditions of the move

`meta_chk_offline_resize()`, and what `v08_move_internal_md_after_resize()` asserts about a device
whose metadata `v08_md_open()` found at the last known location.  The one open question is whether
the device is at least as large as it was: the open path compares positions that are rounded down
to 4k, the move compares sizes.

* `v08MdOpen_lastKnown_iff` — when the metadata is found at the last known location.
* `checkResize_asserts_iff` — the assertions hold unless the device lost less than a 4k block and
  its bitmap became smaller with it.
-/

set_option autoImplicit false

namespace DrbdUtils.Meta

open BlockDevice

/-! ## Model -/

/-- What the callers and the start of `v08_move_internal_md_after_resize` assert. -/
structure AssertsHold (cfg : Format) : Prop where
  version : cfg.version ≠ .v07
  mdIndex : cfg.mdIndex = .flexInt
  lkBdSize : cfg.lkBdSize ≠ 0
  magic : cfg.md.magic ≠ 0
  size : cfg.lkBdSize ≤ cfg.bdSize
  valid : isValidMd cfg.version cfg.md .flexInt cfg.lkBdSize = .ok true

/-- `meta_chk_offline_resize`; `true` for exit code 0.  Closing updates the file with the last known
    size, and nothing on the device. -/
def metaChkOfflineResize (K : OnDisk9) (o : Options) (lk : Option (Nat × BitVec 64)) (cfg : Format) :
    MetaRun Bool := do
  let opened ← v08MdOpen K o lk cfg
  match opened.1 with
  | .validMdFound => pure true
  | .noValidMdFound => pure false
  | .validMdFoundAtLastKnownLocation => do
    assert (opened.2.version ≠ .v07)
    assert (opened.2.mdIndex = .flexInt)
    assert (opened.2.lkBdSize ≠ 0)
    assert (opened.2.md.magic ≠ 0)
    v08MoveInternalMdAfterResize K o opened.2

/-! ## Found at the last known location -/

section Open

variable (K : OnDisk9) (o : Options) (lk : Option (Nat × BitVec 64)) (cfg : Format) (disk : Mem)

/-- The superblock that belongs to a size of the device. -/
def superblockFor (size : Nat) : MdCpu :=
  decodeMd K cfg.version fun a => disk (v07StyleMdGetByteOffset .flexInt size + a)

/-- What `v08_md_open` finds for the last known size, and does not find for the current one. -/
structure FoundAtLastKnown (size : Nat) (uuid : BitVec 64) : Prop where
  version : cfg.version ≠ .v07
  mdIndex : cfg.mdIndex = .flexInt
  notFound : cfg.md.magic = 0
  soMuch : SO_MUCH ≤ cfg.bdSize
  resized : size ≠ cfg.bdSize
  accessible : v07StyleMdGetByteOffset .flexInt size + 4096 ≤ cfg.bdSize
  notCurrent : isValidMd cfg.version (superblockFor K cfg disk cfg.bdSize) .flexInt cfg.bdSize =
    .ok false
  lastKnown : isValidMd cfg.version (superblockFor K cfg disk size) .flexInt size = .ok true
  uuid : uuid = 0 ∨ (superblockFor K cfg disk size).deviceUuid = uuid ∨ o.force = true

end Open

section Found

variable {K : OnDisk9} {o : Options} {lk : Option (Nat × BitVec 64)} {cfg cfg' : Format}
  {w w' : World}

theorem isValidMd_magic {f : MdFormat} {md : MdCpu} {idx : MdIndex} {size : Nat}
    (h : isValidMd f md idx size = .ok true) : md.magic ≠ 0 := by
  intro hzero
  have hmagic : mdMagicOk f md.magic = false := by
    rw [hzero]
    cases f <;> decide
  rw [isValidMd, hmagic] at h
  cases h

theorem of_v08CheckForResize {cfg : Format} (hmagic : cfg'.md.magic ≠ 0)
    (h : v08CheckForResize K o lk cfg w = (.ok cfg', w')) :
    ∃ size uuid, lk = some (size, uuid) ∧ cfg.version ≠ .v07 ∧ cfg.mdIndex = .flexInt ∧
      cfg.md.magic = 0 ∧ size ≠ cfg.bdSize ∧
      v07StyleMdGetByteOffset .flexInt size + 4096 ≤ cfg.bdSize ∧
      isValidMd cfg.version (superblockFor K cfg w.disk size) .flexInt size = .ok true ∧
      (uuid = 0 ∨ (superblockFor K cfg w.disk size).deviceUuid = uuid ∨ o.force = true) ∧
      cfg' = { cfg with
        lkBdSize := size
        lkBdUuid := uuid
        md := superblockFor K cfg w.disk size } := by
  unfold v08CheckForResize at h
  obtain ⟨u, w1, hassert, h1⟩ := Run.of_bind_ok h
  obtain ⟨hzero, rfl⟩ := assert_ok hassert
  by_cases hkind : cfg.version = .v07 ∨ cfg.mdIndex ≠ .flexInt
  · rw [if_pos hkind] at h1
    cases h1
    exact absurd hzero hmagic
  rw [if_neg hkind] at h1
  rw [not_or, not_not] at hkind
  rcases lk with _ | ⟨size, uuid⟩
  · cases h1
    exact absurd hzero hmagic
  dsimp only at h1
  by_cases hne : size = cfg.bdSize
  · rw [if_pos hne] at h1
    cases h1
    exact absurd hzero hmagic
  rw [if_neg hne] at h1
  by_cases hacc : v07StyleMdGetByteOffset .flexInt size < cfg.bdSize
  · rw [if_pos hacc] at h1
    obtain ⟨u, w2, hread, h2⟩ := Run.of_bind_ok h1
    obtain ⟨hin, rfl⟩ := of_preadOrDie_ok hread
    obtain ⟨buf, w3, hbuf, h3⟩ := Run.of_bind_ok h2
    cases hbuf
    obtain ⟨valid, w4, hlift, h4⟩ := Run.of_bind_ok h3
    obtain ⟨hvalid, rfl⟩ := of_liftExcept_ok hlift
    cases h4
    rw [decodeMd_read] at hvalid hmagic ⊢
    split at hmagic
    · rename_i hok
      rw [if_pos hok]
      simp only [Bool.and_eq_true, Bool.or_eq_true, decide_eq_true_eq, or_assoc] at hok
      rw [hok.1] at hvalid
      exact ⟨size, uuid, rfl, hkind.1, hkind.2, hzero, hne, hin, hvalid, hok.2, rfl⟩
    · exact absurd hzero hmagic
  · rw [if_neg hacc] at h1
    cases h1
    exact absurd hzero hmagic

/-- **Metadata found at the last known location.** -/
theorem v08MdOpen_lastKnown_iff (hbd : cfg.bdSize < 2 ^ 64) :
    (∃ w', v08MdOpen K o lk cfg w = (.ok (.validMdFoundAtLastKnownLocation, cfg'), w')) ↔
    ∃ size uuid, lk = some (size, uuid) ∧ size ≠ 0 ∧ FoundAtLastKnown K o cfg w.disk size uuid ∧
      cfg' = { cfg with
        mdOffset := v07StyleMdGetByteOffset .flexInt cfg.bdSize
        lkBdSize := size
        lkBdUuid := uuid
        md := superblockFor K cfg w.disk size } := by
  constructor
  · rintro ⟨w', h⟩
    obtain ⟨⟨rc, cfg1⟩, w1, hopen, h1⟩ := Run.of_bind_ok h
    by_cases hrc : rc = .validMdFound
    · subst hrc
      rw [if_pos rfl] at h1
      cases h1
    obtain ⟨hsize, hdisk, hnot, rfl⟩ := of_v07StyleMdOpen_notFound K hopen hrc
    rw [if_neg hrc] at h1
    obtain ⟨cfg2, w2, hcheck, h2⟩ := Run.of_bind_ok h1
    split at h2
    · cases h2
    · rename_i hfound
      rw [not_or] at hfound
      cases h2
      obtain ⟨size, uuid, rfl, hver, hidx, hzero, hne, hacc, hvalid, huuid, rfl⟩ :=
        of_v08CheckForResize hfound.2 hcheck
      rw [show cfg.mdIndex = .flexInt from hidx] at hnot ⊢
      rw [hdisk] at hvalid huuid ⊢
      exact ⟨size, uuid, rfl, hfound.1,
        ⟨hver, hidx, hzero, hsize, hne, hacc, hnot, hvalid, huuid⟩, rfl⟩
  · rintro ⟨size, uuid, rfl, hsize, h, rfl⟩
    obtain ⟨w', -, hopen⟩ := v08MdOpen_found K h.version h.mdIndex h.notFound h.soMuch hbd h.notCurrent
      hsize h.resized h.accessible h.lastKnown (isValidMd_magic h.lastKnown) h.uuid
    exact ⟨w', hopen⟩

/-- The move gives up on a device that is smaller than it was. -/
theorem v08Move_shrunk (hver : cfg.version ≠ .v07) (hidx : cfg.mdIndex = .flexInt)
    (hlt : cfg.bdSize < cfg.lkBdSize) (w : World) :
    v08MoveInternalMdAfterResize K o cfg w = (.error .abort, w) := by
  have habort : assert (cfg.lkBdSize ≤ cfg.bdSize) w = (.error .abort, w) := by
    rw [assert, if_neg (by omega)]
    rfl
  have hmove : moveToNewLocation K o cfg w = (.error .abort, w) := by
    unfold moveToNewLocation
    rw [Run.bind_ok (assert_pos hver w), Run.bind_ok (assert_pos hidx w), Run.bind_error habort]
  unfold v08MoveInternalMdAfterResize
  rw [Run.bind_error hmove]

theorem metaChkOfflineResize_shrunk
    (hopen : v08MdOpen K o lk cfg w = (.ok (.validMdFoundAtLastKnownLocation, cfg'), w'))
    (hver : cfg'.version ≠ .v07) (hidx : cfg'.mdIndex = .flexInt) (hlk : cfg'.lkBdSize ≠ 0)
    (hmagic : cfg'.md.magic ≠ 0) (hlt : cfg'.bdSize < cfg'.lkBdSize) :
    metaChkOfflineResize K o lk cfg w = (.error .abort, w') := by
  unfold metaChkOfflineResize
  refine (Run.bind_ok hopen).trans ?_
  refine (Run.bind_ok (assert_pos hver w')).trans ((Run.bind_ok (assert_pos hidx w')).trans ?_)
  refine (Run.bind_ok (assert_pos hlk w')).trans ((Run.bind_ok (assert_pos hmagic w')).trans ?_)
  exact v08Move_shrunk hver hidx hlt w'

/-! ## Sizes within one block -/

/-- The current and the last known size share the place of the superblock, which fits the larger,
    last known one only: the bitmap became smaller with the device. -/
structure ShrunkInBlock (K : OnDisk9) (o : Options) (cfg : Format) (disk : Mem) (size : Nat)
    (uuid : BitVec 64) : Prop where
  version : cfg.version ≠ .v07
  mdIndex : cfg.mdIndex = .flexInt
  notFound : cfg.md.magic = 0
  soMuch : SO_MUCH ≤ cfg.bdSize
  shrunk : cfg.bdSize < size
  block : roundDown size 4096 ≤ cfg.bdSize
  lastKnown : isValidMd cfg.version (superblockFor K cfg disk cfg.bdSize) .flexInt size = .ok true
  bitmap : bmBytes (superblockFor K cfg disk cfg.bdSize) (cfg.bdSize / 512) ≠
    bmBytes (superblockFor K cfg disk cfg.bdSize) (size / 512)
  uuid : uuid = 0 ∨ (superblockFor K cfg disk cfg.bdSize).deviceUuid = uuid ∨ o.force = true

theorem flexOffset_eq {size : Nat} (h1 : 4096 ≤ size) (h2 : size < 2 ^ 64) :
    v07StyleMdGetByteOffset .flexInt size = roundDown size 4096 - 4096 := by
  unfold v07StyleMdGetByteOffset roundDown toU64
  simp only
  omega

/-- What is valid for one size is valid for another one if the bitmap is the same. -/
theorem isValidMd_resized {f : MdFormat} {md : MdCpu} {size bdSize bm bm' : Nat} (hf : f ≠ .v07)
    (h : FlexIntValid f md size bm) (hbm : bmBytes md (bdSize / 512) = .ok bm') :
    isValidMd f md .flexInt bdSize = .ok false ↔ bm' ≠ bm := by
  constructor
  · rintro hnot rfl
    have hvalid := (isValidMd_flexInt_iff hf).2
      ⟨bm', ⟨h.magic, h.ids, hbm, h.alOffset, h.bmOffset, h.mdSizeSect⟩⟩
    rw [hnot] at hvalid
    cases hvalid
  · intro hne
    have htotal : ∃ ok, isValidMd f md .flexInt bdSize = .ok ok := by
      unfold isValidMd
      rw [hbm]
      simp only [bind, Except.bind]
      split_ifs <;> exact ⟨_, rfl⟩
    obtain ⟨ok, hok⟩ := htotal
    cases ok with
    | false => exact hok
    | true =>
      obtain ⟨bm'', h'⟩ := (isValidMd_flexInt_iff hf).1 hok
      obtain ⟨c, rfl⟩ := bmBytes_dvd h.bm_ok
      obtain ⟨c', rfl⟩ := bmBytes_dvd hbm
      have heq := h'.bm_ok
      rw [hbm, Except.ok.injEq] at heq
      have hoff := h'.bmOffset
      rw [← heq, h.bmOffset] at hoff
      exact absurd (by omega) hne

/-- A device that became smaller is found at the last known location in one case. -/
theorem foundAtLastKnown_shrunk_iff {disk : Mem} {size : Nat} {uuid : BitVec 64}
    (hsize : size < 2 ^ 64) : FoundAtLastKnown K o cfg disk size uuid ∧ cfg.bdSize < size ↔
      ShrunkInBlock K o cfg disk size uuid := by
  have hplace : SO_MUCH ≤ cfg.bdSize → cfg.bdSize < size → (roundDown size 4096 ≤ cfg.bdSize ↔
      v07StyleMdGetByteOffset .flexInt size + 4096 ≤ cfg.bdSize) := by
    intro hmuch hlt
    unfold SO_MUCH at hmuch
    rw [flexOffset_eq (by omega) hsize]
    unfold roundDown
    omega
  have hsame : SO_MUCH ≤ cfg.bdSize → cfg.bdSize < size → roundDown size 4096 ≤ cfg.bdSize →
      superblockFor K cfg disk size = superblockFor K cfg disk cfg.bdSize := by
    intro hmuch hlt hblock
    unfold SO_MUCH at hmuch
    unfold superblockFor
    rw [flexOffset_eq (by omega) hsize, flexOffset_eq (by omega) (by omega),
      show roundDown size 4096 = roundDown cfg.bdSize 4096 by unfold roundDown at hblock ⊢; omega]
  have hbitmap : ∀ {md : MdCpu}, cfg.version ≠ .v07 → cfg.bdSize < size →
      isValidMd cfg.version md .flexInt size = .ok true →
      (isValidMd cfg.version md .flexInt cfg.bdSize = .ok false ↔
        bmBytes md (cfg.bdSize / 512) ≠ bmBytes md (size / 512)) := by
    intro md hver hlt hvalid
    obtain ⟨bm, h⟩ := (isValidMd_flexInt_iff hver).1 hvalid
    obtain ⟨hmin, hmax, hpow⟩ := bmBytes_granularity h.bm_ok
    have hle := (bmBytes_ok h.bm_ok).1
    obtain ⟨bm', hbm'⟩ := @bmBytes_of_le md (cfg.bdSize / 512) (by omega) hmin hmax
      hpow
    rw [isValidMd_resized hver h hbm', h.bm_ok, hbm', ne_eq, ne_eq, Except.ok.injEq]
  constructor
  · rintro ⟨h, hlt⟩
    have hblock := (hplace h.soMuch hlt).2 h.accessible
    have hold := h.lastKnown
    have huuid := h.uuid
    rw [hsame h.soMuch hlt hblock] at hold huuid
    exact ⟨h.version, h.mdIndex, h.notFound, h.soMuch, hlt, hblock, hold,
      (hbitmap h.version hlt hold).1 h.notCurrent, huuid⟩
  · intro h
    refine ⟨⟨h.version, h.mdIndex, h.notFound, h.soMuch, by have := h.shrunk; omega,
      (hplace h.soMuch h.shrunk).1 h.block, (hbitmap h.version h.shrunk h.lastKnown).2 h.bitmap, ?_,
      ?_⟩, h.shrunk⟩
    · rw [hsame h.soMuch h.shrunk h.block]
      exact h.lastKnown
    · rw [hsame h.soMuch h.shrunk h.block]
      exact h.uuid

end Found

/-- **check-resize.**  For every device content, current size and last known record: what the move
    asserts holds whenever the metadata was found at the last known location, if and only if the
    device did not shrink within a block in such a way that its bitmap became smaller. -/
theorem checkResize_asserts_iff (K : OnDisk9) (o : Options) {lk : Option (Nat × BitVec 64)}
    {cfg : Format} (w : World) (hbd : cfg.bdSize < 2 ^ 64)
    (hlk : ∀ size uuid, lk = some (size, uuid) → size < 2 ^ 64) :
    (∀ cfg' w', v08MdOpen K o lk cfg w = (.ok (.validMdFoundAtLastKnownLocation, cfg'), w') →
      AssertsHold cfg') ↔
    ∀ size uuid, lk = some (size, uuid) → ¬ShrunkInBlock K o cfg w.disk size uuid := by
  constructor
  · rintro h size uuid rfl hshrunk
    obtain ⟨hfound, hlt⟩ := (foundAtLastKnown_shrunk_iff (hlk size uuid rfl)).2 hshrunk
    obtain ⟨w', hopen⟩ := (v08MdOpen_lastKnown_iff hbd).2 ⟨size, uuid, rfl, by omega, hfound, rfl⟩
    have hle : size ≤ cfg.bdSize := (h _ w' hopen).size
    omega
  · intro h cfg' w' hopen
    obtain ⟨size, uuid, hsome, hne, hfound, rfl⟩ := (v08MdOpen_lastKnown_iff hbd).1 ⟨w', hopen⟩
    refine ⟨hfound.version, hfound.mdIndex, hne, isValidMd_magic hfound.lastKnown, ?_,
      hfound.lastKnown⟩
    by_contra hlt
    exact h size uuid hsome ((foundAtLastKnown_shrunk_iff (hlk size uuid hsome)).1
      ⟨hfound, Nat.lt_of_not_le hlt⟩)

/-- The device of 128 MiB that grew to 256 MiB. -/
theorem checkResize_asserts_doubled : ∃ w, v08MdOpen packedOnDisk9 {} (some (2 ^ 27, 0))
    (grownFormat (2 ^ 28)) (.init (grownDisk 8 (2 ^ 27 - 4096) (2 ^ 27 - 40960)) fun _ => 0) =
      (.ok (.validMdFoundAtLastKnownLocation, grownOpened 8 (2 ^ 27) (2 ^ 28)), w) ∧
    AssertsHold (grownOpened 8 (2 ^ 27) (2 ^ 28)) := by
  obtain ⟨w, -, hopen⟩ := @v08MdOpen_grown 8 (2 ^ 27) (2 ^ 28) (2 ^ 27 - 4096)
    (2 ^ 27 - 40960) (by decide +kernel) (by decide) (by decide)
    (by decide) (by decide) (by decide) (by decide +kernel)
    (isValidMd_grownDisk_zero (by decide +kernel) (by decide +kernel))
  refine ⟨w, hopen, (checkResize_asserts_iff packedOnDisk9 {} _ (by decide) ?_).2 ?_ _ w hopen⟩
  · intro size uuid h
    cases h
    decide
  · intro size uuid h hshrunk
    cases h
    exact absurd hshrunk.shrunk (by decide)

/-- A device of 128 MiB and one sector loses the sector: the superblock is found where it was, and
    check-resize aborts. -/
theorem checkResize_aborts_shrunk : ∃ w w',
    v08MdOpen packedOnDisk9 {} (some (2 ^ 27 + 512, 0)) (grownFormat (2 ^ 27))
      (.init (grownDisk 16 (2 ^ 27 - 4096) (2 ^ 27 - 40960)) fun _ => 0) =
        (.ok (.validMdFoundAtLastKnownLocation, grownOpened 16 (2 ^ 27 + 512) (2 ^ 27)), w) ∧
    ¬AssertsHold (grownOpened 16 (2 ^ 27 + 512) (2 ^ 27)) ∧
    metaChkOfflineResize packedOnDisk9 {} (some (2 ^ 27 + 512, 0)) (grownFormat (2 ^ 27))
      (.init (grownDisk 16 (2 ^ 27 - 4096) (2 ^ 27 - 40960)) fun _ => 0) = (.error .abort, w') := by
  obtain ⟨w, -, hopen⟩ := @v08MdOpen_grown 16 (2 ^ 27 + 512) (2 ^ 27) (2 ^ 27 - 4096)
    (2 ^ 27 - 40960) (by decide +kernel) (by decide) (by decide)
    (by decide) (by decide) (by decide) (by decide +kernel) (by
      rw [show v07StyleMdGetByteOffset .flexInt (2 ^ 27) = 2 ^ 27 - 4096 by decide +kernel,
        decodeMd_grownDisk]
      decide +kernel)
  exact ⟨w, w, hopen, fun h => absurd h.size (by decide), metaChkOfflineResize_shrunk hopen
    (show MdFormat.v08 ≠ .v07 by decide) rfl (show 2 ^ 27 + 512 ≠ 0 by decide)
    (show DRBD_MD_MAGIC_08 ≠ 0 by decide) (show 2 ^ 27 < 2 ^ 27 + 512 by decide)⟩

end DrbdUtils.Meta
