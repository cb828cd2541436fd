import DrbdUtils.Meta.Commands
import DrbdUtils.Meta.OpenAsserts

/-!
# Dry runs

With `--dry-run` nothing is to change.  The guard is in `pwrite_or_die()` and in `v08_md_close()`; the
ioctl that zeroes the bitmap and two of the calls of `lk_bdev_delete()` do not pass it.

* `function_leavesAll_iff` — exactly which runs leave the device and the file as they were.
-/

set_option autoImplicit false

namespace DrbdUtils.Meta

open BlockDevice

/-! ## Without a write -/

section Silent

variable {K : OnDisk9} {A : AlLayout} {X : Outside} {o : Options} {lk : Option (Nat × BitVec 64)}

theorem assert_silent (p : Prop) [Decidable p] : (assert p).Silent :=
  .ite (Run.silent_pure _) (Run.silent_stop _)

theorem findInternalMd_silent (cfg : Format) : (findInternalMd K cfg).Silent := by
  refine (findFixedMd_silent cfg).bind fun fixedMd => ?_
  cases fixedMd with
  | some md => exact Run.silent_pure _
  | none =>
    exact (preadOrDie_silent _ _ _).bind fun _ => Run.silent_getBuf.bind fun _ =>
      (liftExcept_silent _).bind fun _ => Run.silent_pure _

theorem convertOrReplace_silent (bitsSet : Bool) (src : MdFormat) (md : MdCpu) (cfg : Format) :
    (convertOrReplace X o bitsSet src md cfg).Silent :=
  .ite (liftExcept_silent _) (.ite (Run.silent_pure _) (Run.silent_stop _))

theorem replaceInternalMd_silent (bitsSet : Bool) (src : MdFormat) (md : MdCpu) (cfg : Format) :
    (replaceInternalMd X o bitsSet src md cfg).Silent :=
  .ite (.ite (Run.silent_stop _) (.ite (Run.silent_pure _) (Run.silent_stop _)))
    (convertOrReplace_silent _ _ _ _)

theorem checkInternalMdFlavours_silent (bitsSet : Bool) (cfg : Format) :
    (checkInternalMdFlavours K X o bitsSet cfg).Silent := by
  refine (assert_silent _).bind fun _ => (findInternalMd_silent cfg).bind fun found => ?_
  rcases found with _ | ⟨src, md, fixed⟩
  · exact Run.silent_pure _
  · exact (replaceInternalMd_silent _ _ _ _).bind fun _ => Run.silent_pure _

theorem checkExternalMdFlavours_silent (bitsSet : Bool) (cfg : Format) :
    (checkExternalMdFlavours K X o bitsSet cfg).Silent := by
  refine .ite (.ite (Run.silent_pure _) (Run.silent_stop _)) ((preadOrDie_silent _ _ _).bind fun _ =>
    Run.silent_getBuf.bind fun _ => (liftExcept_silent _).bind fun found => ?_)
  rcases found with _ | ⟨src, md⟩
  · exact Run.silent_pure _
  · exact convertOrReplace_silent _ _ _ _

theorem checkMdFlavours_silent (bitsSet : Bool) (cfg : Format) :
    (checkMdFlavours K X o bitsSet cfg).Silent :=
  .ite (checkInternalMdFlavours_silent _ _) (checkExternalMdFlavours_silent _ _)

theorem fprintfBmStart_silent (cfg : Format) (maxPeers n maxChunkSize : Nat) (s : BmDump) :
    (fprintfBmStart cfg maxPeers n maxChunkSize s).Silent :=
  (assert_silent _).bind fun _ => (preadOrDie_silent _ _ _).bind fun _ => Run.silent_pure _

theorem fprintfBmLoop_silent (cfg : Format) (maxPeers peerNr n maxChunkSize fuel : Nat)
    (l : BmLabel) (s : BmDump) :
    (fprintfBmLoop cfg maxPeers peerNr n maxChunkSize fuel l s).Silent := by
  induction fuel generalizing l s with
  | zero => cases l <;> first | exact Run.silent_pure _ | exact Run.silent_stop _
  | succ fuel ih =>
    cases l with
    | done => exact Run.silent_pure _
    | head =>
      exact .ite (.ite ((fprintfBmStart_silent _ _ _ _ _).bind fun _ => ih _ _) (ih _ _))
        (Run.silent_pure _)
    | next => exact Run.silent_getBuf.bind fun _ => (liftExcept_silent _).bind fun _ => ih _ _

theorem fprintfBm_silent (cfg : Format) (peerNr fuel : Nat) : (fprintfBm cfg peerNr fuel).Silent :=
  (assert_silent _).bind fun _ => (assert_silent _).bind fun _ =>
    .ite ((fprintfBmStart_silent _ _ _ _ _).bind fun _ => (fprintfBmLoop_silent _ _ _ _ _ _ _ _).bind
      fun _ => Run.silent_pure _) (Run.silent_pure _)

theorem changeBits_silent (bpe m pos chunk : Nat) (l : List Nat) (additionalBitsSet : Nat) :
    (changeBits bpe m pos chunk l additionalBitsSet).Silent := by
  induction l generalizing additionalBitsSet with
  | nil => exact Run.silent_pure _
  | cons enr rest ih =>
    exact (assert_silent _).bind fun _ => (assert_silent _).bind fun _ =>
      .ite ((Run.silent_modifyBuf _).bind fun _ => ih _)
        (Run.silent_getBuf.bind fun _ => (Run.silent_modifyBuf _).bind fun _ => ih _)

end Silent

/-! ## Behind the guard -/

section Guarded

variable {K : OnDisk9} {A : AlLayout} {X : Outside} {o : Options}

theorem pwriteOrDie_dry (hd : o.dryRun = true) (cfg : Format) (count offset : Nat) :
    (pwriteOrDie o cfg count offset).Silent := by
  unfold pwriteOrDie
  rw [if_pos hd]
  exact .ite (Run.silent_stop _) (Run.silent_pure _)

theorem pwriteWithLimitOrDie_dry (hd : o.dryRun = true) (cfg : Format) (count offset limit : Nat) :
    (pwriteWithLimitOrDie o cfg count offset limit).Silent :=
  .ite (Run.silent_stop _) ((pwriteOrDie_dry hd _ _ _).bind fun _ => Run.silent_pure _)

theorem mdCpuToDisk_dry (hd : o.dryRun = true) (cfg : Format) : (mdCpuToDisk K o cfg).Silent :=
  (liftExcept_silent _).bind fun _ => .ite ((Run.silent_modifyBuf _).bind fun _ =>
    (pwriteOrDie_dry hd _ _ _).bind fun _ => Run.silent_pure _) (Run.silent_pure _)

theorem initializeAl_dry (hd : o.dryRun = true) (cfg : Format) : (initializeAl A o cfg).Silent :=
  .ite (Run.silent_stop _) ((Run.silent_modifyBuf _).bind fun _ => pwriteOrDie_dry hd _ _ _)

theorem initBitmapLoop_dry (hd : o.dryRun = true) (cfg : Format) (off bytesLeft : Nat) :
    (initBitmapLoop o cfg off bytesLeft).Silent := by
  induction off, bytesLeft using initBitmapLoop.induct with
  | case1 off bytesLeft ih =>
    rw [initBitmapLoop]
    refine (pwriteOrDie_dry hd _ _ _).bind fun _ => ?_
    split
    · exact Run.silent_pure _
    · rename_i hmore
      exact ih hmore

theorem initBitmapPwrite_dry (hd : o.dryRun = true) (cfg : Format) (clearOrSet : Byte) :
    (initBitmapPwrite o cfg clearOrSet).Silent :=
  (Run.silent_modifyBuf _).bind fun _ => initBitmapLoop_dry hd _ _ _

theorem wipeBlock_dry (hd : o.dryRun = true) (cfg : Format) (offset : Nat) :
    (wipeBlock o cfg offset).Silent :=
  .ite (pwriteOrDie_dry hd _ _ _) (Run.silent_pure _)

theorem wipeAfterConvert_dry (hd : o.dryRun = true) (cfg : Format) :
    (wipeAfterConvert o cfg).Silent :=
  (Run.silent_modifyBuf _).bind fun _ => (wipeBlock_dry hd _ _).bind fun _ => wipeBlock_dry hd _ _

/-! ### Applying the activity log -/

theorem applyAlLoop_dry (hd : o.dryRun = true) (cfg : Format) (bmBytes bpe m : Nat) (hot : List Nat)
    (additionalBitsSet : Nat) : (applyAlLoop o cfg bmBytes bpe m hot additionalBitsSet).Silent := by
  induction hot, additionalBitsSet using applyAlLoop.induct bmBytes bpe m with
  | case1 additionalBitsSet =>
    rw [applyAlLoop]
    exact Run.silent_pure _
  | case2 rest additionalBitsSet =>
    rw [applyAlLoop, if_pos rfl]
    exact Run.silent_pure _
  | case3 enr rest additionalBitsSet henr hbeyond ih =>
    rw [applyAlLoop, if_neg henr, if_pos hbeyond]
    exact ih
  | case4 enr rest additionalBitsSet henr hbeyond firstEx ih =>
    rw [applyAlLoop, if_neg henr, if_neg hbeyond]
    exact (assert_silent _).bind fun _ => (preadOrDie_silent _ _ _).bind fun _ =>
      (changeBits_silent _ _ _ _ _ _).bind fun _ => (pwriteOrDie_dry hd _ _ _).bind fun _ => ih _

theorem applyHot_dry (hd : o.dryRun = true) (cfg : Format) (r : Replay) : (applyHot o cfg r).Silent :=
  .ite (((assert_silent _).bind fun _ => (assert_silent _).bind fun _ =>
    (applyAlLoop_dry hd _ _ _ _ _ _).bind fun _ => Run.silent_pure _).bind fun _ =>
      Run.silent_pure _) (Run.silent_pure _)

/-! ### Moving -/

theorem moveBlock_dry (hd : o.dryRun = true) (cfg : Format) (count src dst : Int) :
    (moveBlock o cfg count src dst).Silent :=
  .ite (Run.silent_stop _) ((preadOrDie_silent _ _ _).bind fun _ => pwriteOrDie_dry hd _ _ _)

theorem moveBitmapChunks_dry (hd : o.dryRun = true) (cfg : Format) (oldBmOffset cur : Int) :
    (moveBitmapChunks o cfg oldBmOffset cur).Silent := by
  induction cur using moveBitmapChunks.induct oldBmOffset with
  | case1 cur hlt ih =>
    rw [moveBitmapChunks, if_pos hlt]
    exact (preadOrDie_silent _ _ _).bind fun _ => (pwriteOrDie_dry hd _ _ _).bind fun _ => ih
  | case2 cur hlt =>
    rw [moveBitmapChunks, if_neg hlt]
    exact Run.silent_pure _

theorem fillRange_dry (hd : o.dryRun = true) (cfg : Format) (wipe : Bool) (stop off : Int) :
    (fillRange o cfg wipe stop off).Silent := by
  induction off using fillRange.induct cfg wipe stop with
  | case1 off hlt chunk ih =>
    rw [fillRange, if_pos hlt]
    exact (pwriteOrDie_dry hd _ _ _).bind fun _ => ih
  | case2 off hlt =>
    rw [fillRange, if_neg hlt]
    exact Run.silent_pure _

theorem moveToNewLocation_dry (hd : o.dryRun = true) (cfg : Format) :
    (moveToNewLocation K o cfg).Silent := by
  have hbitmap (cfg : Format) (mdOld : MdCpu) (oldOffset : Nat) :
      (moveBitmap o cfg mdOld oldOffset).Silent :=
    (moveBitmapChunks_dry hd _ _ _).bind fun _ => moveBlock_dry hd _ _ _ _
  have htrail (cfg : Format) (mdOld : MdCpu) : (initTrail o cfg mdOld).Silent :=
    .ite ((Run.silent_modifyBuf _).bind fun _ => fillRange_dry hd _ _ _ _) (Run.silent_pure _)
  exact (assert_silent _).bind fun _ => (assert_silent _).bind fun _ => (assert_silent _).bind fun _ =>
    (liftExcept_silent _).bind fun _ => (assert_silent _).bind fun _ =>
    (liftExcept_silent _).bind fun _ => (moveBlock_dry hd _ _ _ _).bind fun _ =>
    (hbitmap _ _ _).bind fun _ => (htrail _ _).bind fun _ => (liftExcept_silent _).bind fun _ =>
    (mdCpuToDisk_dry hd _).bind fun _ => Run.silent_pure _

theorem wipeOld_dry (hd : o.dryRun = true) (cfg : Format) (mdOld : MdCpu) (oldOffset : Nat) :
    (wipeOld o cfg mdOld oldOffset).Silent :=
  .ite ((Run.silent_modifyBuf _).bind fun _ => fillRange_dry hd _ _ _ _) (Run.silent_pure _)

/-! ### Restoring -/

theorem writeBitmapWindow_dry (hd : o.dryRun = true) (cfg : Format) (parseOnly : Bool) (window : Nat)
    (words : Int) (truncated : Bool) :
    (writeBitmapWindow o cfg parseOnly window words truncated).Silent :=
  .ite (.ite (Run.silent_stop _) ((Run.silent_modifyBuf _).bind fun _ =>
    .ite ((Run.silent_pure _).bind fun _ => Run.silent_pure _)
      ((pwriteWithLimitOrDie_dry hd _ _ _ _).bind fun _ => Run.silent_pure _))) (Run.silent_pure _)

theorem parseBitmap_dry (hd : o.dryRun = true) (cfg : Format) (parseOnly : Bool) (toks : List Token)
    (fuel : Nat) : (parseBitmap o cfg parseOnly toks fuel).Silent := by
  suffices ∀ window truncated, (parseBitmapLoop o cfg parseOnly toks fuel window truncated).Silent from
    this 0 false
  induction fuel with
  | zero => exact fun _ _ => Run.silent_stop _
  | succ fuel ih =>
    intro window truncated
    exact Run.silent_getBuf.bind fun _ => (liftExcept_silent _).bind fun _ =>
      (Run.silent_modifyBuf _).bind fun _ => (writeBitmapWindow_dry hd _ _ _ _ _).bind fun _ =>
        .ite (ih _ _) (Run.silent_pure _)

end Guarded

/-! ## Past the guard -/

section CreateMd

variable (K : OnDisk9) (A : AlLayout) (X : Outside) (o : Options)

/-- The bitmap area has no set bit. -/
def BitmapZero (cfg : Format) (disk : Mem) : Prop :=
  ∀ a, cfg.bmOffset ≤ a → a < cfg.bmOffset + align cfg.bmBytes cfg.mdHardSectSize.val → disk a = 0

/-- `md_initialize`, up to `initialize_bitmap()`. -/
def mdInitializeToBitmap (maxPeers : Nat) (cfg : Format) : MetaRun (Option Format) := do
  let cfg ← liftExcept (reInitializeMdOffsets o { cfg with md :=
    { initializedMd o maxPeers cfg.version with alNrExtents := 257, bmBytesPerBit := 0 } })
  checkForExistingData X o cfg
  initializeAl A o cfg
  pure (some cfg)

/-- `create-md` behind opening, up to `initialize_bitmap()`; `none` when it does not come there. -/
def createMdHereToBitmap (maxPeers : Nat) (bitsSet : Bool) (cfg : Format) :
    MetaRun (Option Format) := do
  let cfg ← checkMdFlavours K X o bitsSet cfg
  if cfg.md.magic = 0 then mdInitializeToBitmap A X o maxPeers cfg else pure none

/-- `create-md`, up to `initialize_bitmap()`. -/
def createMdToBitmap (lk : Option (Nat × BitVec 64)) (arg : Nat) (cfg : Format) :
    MetaRun (Option Format) := do
  let maxPeers := if cfg.version = .v09 then arg else 1
  if maxPeers < 1 ∨ DRBD_PEERS_MAX - 1 < maxPeers then Run.stop (.exit 20)
  else do
    let opened ← mdOpen K o lk cfg
    if opened.1 = .validMdFoundAtLastKnownLocation then
      if o.alStripesUsed ∧ (o.alStripes ≠ opened.2.md.alStripes ∨
          o.alStripeSize4k ≠ opened.2.md.alStripeSize4k) then Run.stop (.exit 20)
      else if !o.force && X.move then pure none
      else createMdHereToBitmap K A X o maxPeers false { opened.2 with md := zeroMd }
    else createMdHereToBitmap K A X o maxPeers (opened.1 = .validMdFound) opened.2

/-- The ioctl has nothing to do, or is not made. -/
def ZerooutHarmless (cfg : Format) (disk : Mem) : Prop :=
  o.initializeBitmapMode = .zeroout ∨ o.initializeBitmapMode = .zerooutIoctlOnly →
    X.zerooutBitmapFast = true → BitmapZero cfg disk

variable {K A X o}

theorem zerooutBitmapFast_keeps_iff {cfg : Format} {w : World} :
    (zerooutBitmapFast cfg).Keeps w ↔ BitmapZero cfg w.disk := by
  have hdisk : (zerooutBitmapFast cfg w).2.disk = blit (fun _ => 0) 0 w.disk cfg.bmOffset
      (align cfg.bmBytes cfg.mdHardSectSize.val) :=
    World.write_disk (w.mapBuf fun _ _ => 0) _ _
  unfold Run.Keeps
  rw [hdisk]
  constructor
  · intro h a hlo hhi
    rw [← h, blit_in hlo hhi]
  · intro h
    funext a
    by_cases ha : cfg.bmOffset ≤ a ∧ a < cfg.bmOffset + align cfg.bmBytes cfg.mdHardSectSize.val
    · rw [blit_in ha.1 ha.2, h a ha.1 ha.2]
    · rw [blit_out (by omega)]

theorem initializeBitmap_keeps_iff (hd : o.dryRun = true) {cfg : Format} {w : World} :
    (initializeBitmap X o cfg).Keeps w ↔ ZerooutHarmless X o cfg w.disk := by
  unfold initializeBitmap ZerooutHarmless
  cases hmode : o.initializeBitmapMode with
  | skip => exact iff_of_true ((Run.silent_pure _).keeps w) (by simp)
  | zerooutPwrite => exact iff_of_true ((initBitmapPwrite_dry hd _ _).keeps w) (by simp)
  | setAll => exact iff_of_true ((initBitmapPwrite_dry hd _ _).keeps w) (by simp)
  | zeroout =>
    by_cases hfast : X.zerooutBitmapFast = true
    · simp only [hfast, if_true, true_or, forall_const]
      exact zerooutBitmapFast_keeps_iff
    · simp only [hfast]
      exact iff_of_true ((initBitmapPwrite_dry hd _ _).keeps w) (by simp)
  | zerooutIoctlOnly =>
    by_cases hfast : X.zerooutBitmapFast = true
    · simp only [hfast, if_true, or_true, forall_const]
      exact zerooutBitmapFast_keeps_iff
    · simp only [hfast]
      exact iff_of_true ((Run.silent_stop _).keeps w) (by simp)

theorem mdInitialize_keeps_iff (hd : o.dryRun = true) {maxPeers : Nat} {cfg : Format} {w : World} :
    (mdInitialize A X o maxPeers cfg).Keeps w ↔ (mdInitializeToBitmap A X o maxPeers cfg).Reaches w
      fun cfg w => ZerooutHarmless X o cfg w.disk := by
  unfold mdInitialize mdInitializeCommon mdInitializeToBitmap
  rw [Run.keeps_bind (liftExcept_silent _), Run.reaches_bind]
  refine forall₃_congr fun cfg w _ => ?_
  rw [Run.keeps_bind (checkForExistingData_silent _), Run.reaches_bind]
  refine forall₃_congr fun _ w _ => ?_
  rw [Run.keeps_bind (initializeAl_dry hd _), Run.reaches_bind]
  refine forall₃_congr fun _ w _ => ?_
  rw [Run.keeps_bind_left fun _ => Run.silent_pure _, initializeBitmap_keeps_iff hd,
    Run.reaches_some]

theorem createMdHere_keeps_iff (hd : o.dryRun = true) {c : CreateOptions} {maxPeers : Nat}
    {bitsSet : Bool} {cfg : Format} {w : World} :
    (createMdHere K A X o c maxPeers bitsSet cfg).Keeps w ↔
      (createMdHereToBitmap K A X o maxPeers bitsSet cfg).Reaches w
        fun cfg w => ZerooutHarmless X o cfg w.disk := by
  unfold createMdHere prepareMd createMdHereToBitmap
  rw [Run.keeps_bind_left fun _ => (liftExcept_silent _).bind fun _ =>
      (mdCpuToDisk_dry hd _).bind fun _ => .ite ((wipeAfterConvert_dry hd _).bind fun _ =>
        Run.silent_pure _) (Run.silent_pure _),
    Run.keeps_bind (checkMdFlavours_silent _ _), Run.reaches_bind]
  refine forall₃_congr fun cfg w _ => ?_
  by_cases hmagic : cfg.md.magic = 0
  · rw [if_pos hmagic, if_pos hmagic, Run.keeps_bind_left fun _ => Run.silent_pure _,
      mdInitialize_keeps_iff hd]
  · rw [if_neg hmagic, if_neg hmagic]
    exact iff_of_true (((checkForExistingData_silent _).bind fun _ => Run.silent_pure _).keeps w)
      Run.reaches_none

theorem moveMd_dry (hd : o.dryRun = true) (cfg : Format) : (moveMd K X o cfg).Silent :=
  (checkForExistingData_silent _).bind fun _ => (moveToNewLocation_dry hd _).bind fun _ =>
    .ite ((wipeOld_dry hd _ _ _).bind fun _ => Run.silent_pure _) (Run.silent_pure _)

theorem metaCreateMd_keeps_iff (hd : o.dryRun = true) {c : CreateOptions}
    {lk : Option (Nat × BitVec 64)} {arg : Nat} {cfg : Format} {w : World} :
    (metaCreateMd K A X o c lk arg cfg).Keeps w ↔ (createMdToBitmap K A X o lk arg cfg).Reaches w
      fun cfg w => ZerooutHarmless X o cfg w.disk := by
  unfold metaCreateMd createMdToBitmap
  dsimp only
  generalize (if cfg.version = .v09 then arg else 1) = maxPeers
  split
  · exact iff_of_true ((Run.silent_stop _).keeps w) Run.reaches_stop
  · rw [Run.keeps_bind (mdOpen_silent _), Run.reaches_bind]
    refine forall₃_congr fun opened w _ => ?_
    split
    · split
      · exact iff_of_true ((Run.silent_stop _).keeps w) Run.reaches_stop
      · split
        · exact iff_of_true ((moveMd_dry hd _).keeps w) Run.reaches_none
        · exact createMdHere_keeps_iff hd
    · exact createMdHere_keeps_iff hd

end CreateMd

/-! ## The commands -/

/-- A run leaves every byte of the device and of the file. -/
def LeavesAll (lkFile : LkFile) (m : MetaRun Ended) (w : World) : Prop :=
  (m w).2.disk = w.disk ∧ leftFile lkFile (m w).1 = lkFile

/-- It does so wherever it starts. -/
def Harmless (lkFile : LkFile) (m : MetaRun Ended) : Prop := ∀ w, LeavesAll lkFile m w

section Commands

variable {lkFile : LkFile}

theorem leavesAll_pure {ended : Ended} {w : World} :
    LeavesAll lkFile (pure ended) w ↔ ended.lkFile = lkFile := and_iff_right rfl

theorem leavesAll_bind {α : Type} {m : MetaRun α} {f : α → MetaRun Ended} {w : World}
    (hm : m.Silent) : LeavesAll lkFile (m >>= f) w ↔
      ∀ a w', m w = (.ok a, w') → LeavesAll lkFile (f a) w' := by
  have hkeep := hm.keeps w
  rcases hres : m w with ⟨r, w'⟩
  unfold Run.Keeps at hkeep
  unfold LeavesAll
  rw [hres] at hkeep
  cases r with
  | ok a =>
    rw [Run.bind_ok hres]
    refine ⟨fun h b w'' hb => ?_, fun h => ⟨(h a w' rfl).1.trans hkeep, (h a w' rfl).2⟩⟩
    cases hb
    exact ⟨h.1.trans hkeep.symm, h.2⟩
  | error s =>
    rw [Run.bind_error hres]
    exact iff_of_true ⟨hkeep, rfl⟩ fun a w'' h => by cases h

/-- A run that ends with the file as it was. -/
theorem leavesAll_bind_pure {α : Type} {m : MetaRun α} {f : α → Ended} {w : World}
    (hf : ∀ a, (f a).lkFile = lkFile) :
    LeavesAll lkFile (m >>= fun a => pure (f a)) w ↔ m.Keeps w := by
  rcases hres : m w with ⟨r, w'⟩
  unfold LeavesAll Run.Keeps
  rw [hres]
  cases r with
  | ok a =>
    rw [Run.bind_ok hres]
    exact and_iff_left (hf a)
  | error s =>
    rw [Run.bind_error hres]
    exact and_iff_left rfl

theorem Harmless.pure {ended : Ended} (h : ended.lkFile = lkFile) : Harmless lkFile (pure ended) :=
  fun _ => leavesAll_pure.2 h

theorem Harmless.stop (s : Stop) : Harmless lkFile (Run.stop s) := fun _ => ⟨rfl, rfl⟩

theorem Harmless.bind {α : Type} {m : MetaRun α} {f : α → MetaRun Ended} (hm : m.Silent)
    (hf : ∀ a, Harmless lkFile (f a)) : Harmless lkFile (m >>= f) :=
  fun _ => (leavesAll_bind hm).2 fun a w' _ => hf a w'

theorem Harmless.ite {p : Prop} [Decidable p] {m m' : MetaRun Ended} (h : Harmless lkFile m)
    (h' : Harmless lkFile m') : Harmless lkFile (if p then m else m') := by
  split
  · exact h
  · exact h'

variable {I : Invocation} {cfg : Format}

theorem openMd_silent (lkFile : LkFile) (cfg : Format) : (I.openMd lkFile cfg).Silent :=
  mdOpen_silent _

theorem close_dry (hd : I.options.dryRun = true) (cfg : Format) (updateLkBdev : Bool) :
    I.close lkFile cfg updateLkBdev = lkFile := by
  unfold Invocation.close
  rw [if_neg (by simp [hd])]

theorem writeAndClose_harmless (hd : I.options.dryRun = true) (cfg : Format) :
    Harmless lkFile (writeAndClose I lkFile cfg) :=
  .bind (mdCpuToDisk_dry hd _) fun _ => .pure (close_dry hd _ _)

/-- With another return value. -/
theorem writeAndClose_rv_harmless (hd : I.options.dryRun = true) (cfg : Format) (rv : Ended → Int) :
    Harmless lkFile (writeAndClose I lkFile cfg >>= fun ended =>
      pure { ended with rv := rv ended }) := by
  have hsilent : (writeAndClose I lkFile cfg).Silent :=
    (mdCpuToDisk_dry hd _).bind fun _ => Run.silent_pure _
  refine fun w => (leavesAll_bind hsilent).2 fun ended w' h => leavesAll_pure.2 ?_
  have hleaves : LeavesAll lkFile (writeAndClose I lkFile cfg) w := writeAndClose_harmless hd cfg w
  unfold LeavesAll at hleaves
  rw [h] at hleaves
  exact hleaves.2

theorem openAndClose_harmless (hd : I.options.dryRun = true) :
    Harmless lkFile (openAndClose I lkFile cfg) :=
  .bind (openMd_silent _ _) fun _ => .ite (.pure rfl) (.pure (close_dry hd _ _))

theorem moveAndClose_silent (hd : I.options.dryRun = true) (cfg : Format) :
    (moveAndClose I lkFile cfg).Silent :=
  (moveToNewLocation_dry hd _).bind fun _ =>
    .ite ((wipeOld_dry hd _ _ _).bind fun _ => Run.silent_pure _) (Run.silent_pure _)

theorem moveAndClose_lkFile (hd : I.options.dryRun = true) {cfg cfg' : Format} {ok : Bool}
    {lkFile' : LkFile} {w w' : World}
    (h : moveAndClose I lkFile cfg w = (.ok (ok, cfg', lkFile'), w')) : lkFile' = lkFile := by
  obtain ⟨moved, w1, -, h⟩ := Run.of_bind_ok h
  split at h
  · obtain ⟨u, w2, -, h⟩ := Run.of_bind_ok h
    cases h
    exact close_dry hd _ _
  · cases h
    rfl

theorem openMoved_silent (hd : I.options.dryRun = true) : (openMoved I lkFile cfg).Silent :=
  (openMd_silent _ _).bind fun _ => .ite ((moveAndClose_silent hd _).bind fun _ =>
    .ite ((openMd_silent _ _).bind fun _ => Run.silent_pure _) (Run.silent_pure _))
      (Run.silent_pure _)

theorem openMoved_lkFile (hd : I.options.dryRun = true) {rc : MdOpenRc} {cfg' : Format}
    {lkFile' : LkFile} {w w' : World}
    (h : openMoved I lkFile cfg w = (.ok (rc, cfg', lkFile'), w')) : lkFile' = lkFile := by
  obtain ⟨opened, w1, -, h⟩ := Run.of_bind_ok h
  split at h
  · obtain ⟨⟨ok, cfg2, lkFile2⟩, w2, hmoved, h⟩ := Run.of_bind_ok h
    have hfile := moveAndClose_lkFile hd hmoved
    split at h
    · obtain ⟨again, w3, -, h⟩ := Run.of_bind_ok h
      cases h
      exact hfile
    · cases h
      exact hfile
  · cases h
    rfl

theorem metaRepairMd_harmless (hd : I.options.dryRun = true) :
    Harmless lkFile (metaRepairMd I lkFile cfg) := by
  refine fun w => (leavesAll_bind (openMoved_silent hd)).2 fun opened w' h => ?_
  obtain ⟨rc, cfg', lkFile'⟩ := opened
  obtain rfl := openMoved_lkFile hd h
  refine Harmless.ite (.pure rfl) ?_ w'
  dsimp only
  cases day0PeerId cfg'.md with
  | none => exact .pure rfl
  | some day0P =>
    exact .ite (.bind (mdCpuToDisk_dry hd _) fun _ => .pure (close_dry hd _ _))
      (.pure (close_dry hd _ _))

theorem metaGenericDumpSuperblock_harmless (hd : I.options.dryRun = true) :
    Harmless lkFile (metaGenericDumpSuperblock I lkFile cfg) := by
  refine .bind (mdOpen_silent _) fun opened => ?_
  cases opened.1 with
  | validMdFound => exact .pure (close_dry hd _ _)
  | noValidMdFound => exact .stop _
  | validMdFoundAtLastKnownLocation => exact .stop _

theorem printfBmFrom_silent (cfg : Format) (n peerNr : Nat) : (printfBmFrom I cfg n peerNr).Silent := by
  induction n generalizing peerNr with
  | zero => exact Run.silent_pure _
  | succ n ih => exact (fprintfBm_silent _ _ _).bind fun _ => (ih _).bind fun _ => Run.silent_pure _

theorem metaDumpMd_harmless (hd : I.options.dryRun = true) :
    Harmless lkFile (metaDumpMd I lkFile cfg) :=
  .bind (openMd_silent _ _) fun _ => .ite (.pure rfl) (.ite (.pure rfl)
    (.bind (liftExcept_silent _) fun _ => .bind (printfBmFrom_silent _ _ _) fun _ =>
      .pure (close_dry hd _ _)))

theorem metaOutdate_harmless (hd : I.options.dryRun = true) :
    Harmless lkFile (metaOutdate I lkFile cfg) := by
  refine .bind (openMd_silent _ _) fun opened => .ite (.pure rfl) ?_
  cases outdateGi cfg.version opened.2.md with
  | none => exact .stop _
  | some md => exact writeAndClose_harmless hd _

theorem metaWriteDevUuid_harmless (hd : I.options.dryRun = true) (arg : Option (List Char)) :
    Harmless lkFile (metaWriteDevUuid I lkFile cfg arg) := by
  cases arg with
  | none => exact .stop _
  | some arg => exact .bind (openMd_silent _ _) fun _ => .ite (.pure rfl) (writeAndClose_harmless hd _)

theorem metaSetGi_harmless (hd : I.options.dryRun = true) (arg : Option (List Char)) :
    Harmless lkFile (metaSetGi I lkFile cfg arg) := by
  cases arg with
  | none => exact .stop _
  | some line =>
    exact .bind (openMd_silent _ _) fun _ => .ite (.pure rfl)
      (.bind (liftExcept_silent _) fun _ => .ite (writeAndClose_harmless hd _) (.stop _))

theorem metaForgetPeer_harmless (hd : I.options.dryRun = true) :
    Harmless lkFile (metaForgetPeer I lkFile cfg) :=
  .bind (openMd_silent _ _) fun _ => .ite (.pure rfl) (writeAndClose_rv_harmless hd _ _)

theorem metaApplyAlClosing_harmless (hd : I.options.dryRun = true) :
    Harmless lkFile (metaApplyAlClosing I lkFile cfg) := by
  refine .bind openAndReplay_silent fun found => ?_
  rcases found with _ | ⟨cfg, r, reInitializeAnyways⟩
  · exact .pure rfl
  · have hupdate (update : Bool) : Harmless lkFile (if update || (cfg.version ≠ .v07 &&
        (cfg.md.flags &&& MDF_AL_CLEAN = 0 || cfg.md.magic ≠ DRBD_MD_MAGIC_08)) then
          writeAndClose I lkFile (markClean cfg) else pure ⟨0, lkFile⟩) :=
      .ite (writeAndClose_harmless hd _) (.pure rfl)
    exact .ite (.pure rfl) (.bind (applyHot_dry hd _ _) fun update =>
      .ite (.bind (initializeAl_dry hd _) fun _ => hupdate update) (hupdate update))

theorem restoreFrom_harmless (hd : I.options.dryRun = true) (cfg : Format) (toks : List Token)
    (parseOnly : Bool) : Harmless lkFile (restoreFrom I lkFile cfg toks parseOnly) := by
  have hparse (cfg : Format) (toks : List Token) : Harmless lkFile (do
      let parsed ← liftExcept (parseMd cfg.version cfg.md toks)
      let cfg ← liftExcept (adjustStriping I.options { cfg with md := parsed.1 })
      let cfg ← liftExcept (clipEffectiveSizeAndBmBytes cfg)
      let rest ← parseBitmap I.options cfg parseOnly parsed.2 I.fuel
      if rest ≠ [] then Run.stop (.exit 10)
      else if parseOnly then pure ⟨0, lkFile⟩
      else do
        let ended ← writeAndClose I lkFile cfg
        pure { ended with rv := if ended.rv = 0 then 0 else -1 }) :=
    .bind (liftExcept_silent _) fun _ => .bind (liftExcept_silent _) fun _ =>
      .bind (liftExcept_silent _) fun _ => .bind (parseBitmap_dry hd _ _ _ _) fun _ =>
        .ite (.stop _) (.ite (.pure rfl) (writeAndClose_rv_harmless hd _ _))
  exact .bind (liftExcept_silent _) fun _ => .bind (liftExcept_silent _) fun _ =>
    .ite (hparse _ _) (.bind (checkForExistingData_silent _) fun _ => hparse _ _)

theorem verifyDumpfileOrRestore_harmless (hd : I.options.dryRun = true) (parseOnly : Bool)
    (dump : Option (List Char)) :
    Harmless lkFile (verifyDumpfileOrRestore I lkFile cfg parseOnly dump) := by
  cases dump with
  | none => exact .stop _
  | some text =>
    exact .ite (restoreFrom_harmless hd _ _ _) (.bind (openMd_silent _ _) fun _ =>
      .ite (.pure rfl) (restoreFrom_harmless hd _ _ _))

/-! ### Those with a way past the guard -/

/-- What `wipe-md` finds before it deletes the file. -/
def WipeMdSafe (I : Invocation) (lkFile : LkFile) (cfg : Format) (w : World) : Prop :=
  ∀ cfg' w', I.openMd lkFile cfg w = (.ok (.validMdFound, cfg'), w') →
    confirmed I.options I.answer = true →
    validateOffsets I.options cfg' 4096 cfg'.mdOffset = true → lkFile = none

theorem metaWipeMd_leavesAll_iff (hd : I.options.dryRun = true) {w : World} :
    LeavesAll lkFile (metaWipeMd I lkFile cfg) w ↔ WipeMdSafe I lkFile cfg w := by
  have hwipe (cfg : Format) (w : World) : LeavesAll lkFile (do
      Run.modifyBuf fun buf => fill buf 0 4096 0
      pwriteOrDie I.options cfg 4096 cfg.mdOffset
      pure ⟨0, none⟩) w ↔
        (validateOffsets I.options cfg 4096 cfg.mdOffset = true → lkFile = none) := by
    rw [leavesAll_bind (Run.silent_modifyBuf _)]
    by_cases hv : validateOffsets I.options cfg 4096 cfg.mdOffset = true
    · have hpwrite (w : World) :
          pwriteOrDie I.options cfg 4096 cfg.mdOffset w = (.ok (), w) := by
        unfold pwriteOrDie
        rw [if_neg (by simp [hv]), if_pos hd]
        rfl
      constructor
      · intro h _
        have := (leavesAll_bind (pwriteOrDie_dry hd _ _ _)).1 (h () _ rfl) () _ (hpwrite _)
        exact (leavesAll_pure.1 this).symm
      · intro h _ w1 _
        exact (leavesAll_bind (pwriteOrDie_dry hd _ _ _)).2 fun _ w2 _ =>
          leavesAll_pure.2 (h hv).symm
    · refine iff_of_true (fun _ w1 _ => (leavesAll_bind (pwriteOrDie_dry hd _ _ _)).2 ?_)
        fun h => absurd h hv
      intro _ w2 h
      unfold pwriteOrDie at h
      rw [if_pos (by simp [hv])] at h
      cases h
  unfold metaWipeMd WipeMdSafe
  rw [leavesAll_bind (openMd_silent _ _)]
  constructor
  · intro h cfg' w' hopen hconfirmed
    have := h _ w' hopen
    rw [if_neg (by simp), if_pos hconfirmed, hwipe] at this
    exact this
  · rintro h ⟨rc, cfg'⟩ w' hopen
    by_cases hrc : rc = .validMdFound
    · subst hrc
      rw [if_neg (by simp)]
      by_cases hconfirmed : confirmed I.options I.answer = true
      · rw [if_pos hconfirmed, hwipe]
        exact h cfg' w' hopen hconfirmed
      · rw [if_neg hconfirmed]
        exact Harmless.stop _ w'
    · rw [if_pos hrc]
      exact leavesAll_pure.2 rfl

/-- What `check-resize` finds before it deletes the file. -/
def CheckResizeSafe (I : Invocation) (lkFile : LkFile) (cfg : Format) (w : World) : Prop :=
  ∀ cfg' w', I.openMd lkFile cfg w = (.ok (.validMdFound, cfg'), w') → cfg'.mdIndex ≠ .flexInt →
    lkFile = none

theorem metaCheckResize_leavesAll_iff (hd : I.options.dryRun = true) {w : World} :
    LeavesAll lkFile (metaCheckResize I lkFile cfg) w ↔ CheckResizeSafe I lkFile cfg w := by
  unfold metaCheckResize CheckResizeSafe
  rw [leavesAll_bind (openMd_silent _ _)]
  constructor
  · intro h cfg' w' hopen hidx
    have hfile := leavesAll_pure.1 (h _ w' hopen)
    rw [close_dry hd, if_pos hidx] at hfile
    exact hfile.symm
  · rintro h ⟨rc, cfg'⟩ w' hopen
    cases rc with
    | validMdFound =>
      refine leavesAll_pure.2 ?_
      rw [close_dry hd]
      split
      · rename_i hidx
        exact (h cfg' w' hopen hidx).symm
      · rfl
    | noValidMdFound => exact leavesAll_pure.2 rfl
    | validMdFoundAtLastKnownLocation =>
      refine Harmless.bind (assert_silent _) (fun _ => .bind (assert_silent _) fun _ =>
        .bind (assert_silent _) fun _ => .bind (assert_silent _) fun _ w => ?_) w'
      refine (leavesAll_bind (moveAndClose_silent hd _)).2 fun moved w' hmoved => leavesAll_pure.2 ?_
      exact moveAndClose_lkFile hd hmoved

/-- What `create-md` finds before it zeroes the bitmap. -/
def CreateMdSafe (I : Invocation) (lkFile : LkFile) (cfg : Format) (arg : Option Nat) (w : World) :
    Prop :=
  (cfg.version = .v09 → arg ≠ none) →
    (createMdToBitmap I.onDisk9 I.alLayout I.outside I.options
      ((lkBdevLoad lkFile).map fun bd => (bd.bdSize, bd.bdUuid)) (arg.getD 1) cfg).Reaches w
        fun cfg w => ZerooutHarmless I.outside I.options cfg w.disk

theorem metaCreateMdClosing_leavesAll_iff (hd : I.options.dryRun = true) {arg : Option Nat}
    {w : World} : LeavesAll lkFile (metaCreateMdClosing I lkFile cfg arg) w ↔
      CreateMdSafe I lkFile cfg arg w := by
  unfold metaCreateMdClosing CreateMdSafe
  split
  · rename_i h
    exact iff_of_true (Harmless.stop _ w) fun hne => absurd h.2 (hne h.1)
  · rename_i h
    rw [leavesAll_bind_pure fun _ => close_dry hd _ _, metaCreateMd_keeps_iff hd]
    exact ⟨fun hr _ => hr, fun hr => hr fun hver harg => h ⟨hver, harg⟩⟩

/-! ### All of them -/

/-- The three ways past the guard are not taken, or change nothing. -/
def DryRunSafe (I : Invocation) (lkFile : LkFile) (cfg : Format) (w : World) : Command → Prop
  | .wipeMd => WipeMdSafe I lkFile cfg w
  | .checkResize => CheckResizeSafe I lkFile cfg w
  | .createMd maxPeers => CreateMdSafe I lkFile cfg maxPeers w
  | _ => True

/-- **A dry run changes nothing, but for three commands.**  Every run of every command leaves each
    byte of the device and of the file, exactly when `wipe-md` and `check-resize` find no file to
    delete, and `create-md` no bit to clear with the ioctl. -/
theorem function_leavesAll_iff (I : Invocation) (lkFile : LkFile) (cfg : Format) (w : World)
    (c : Command) (hd : I.options.dryRun = true) :
    LeavesAll lkFile (c.function I lkFile cfg) w ↔ DryRunSafe I lkFile cfg w c := by
  cases c with
  | wipeMd => exact metaWipeMd_leavesAll_iff hd
  | checkResize => exact metaCheckResize_leavesAll_iff hd
  | createMd maxPeers => exact metaCreateMdClosing_leavesAll_iff hd
  | getGi => exact iff_true_intro (openAndClose_harmless hd w)
  | showGi => exact iff_true_intro (openAndClose_harmless hd w)
  | dstate => exact iff_true_intro (openAndClose_harmless hd w)
  | readDevUuid => exact iff_true_intro (openAndClose_harmless hd w)
  | dumpMd => exact iff_true_intro (metaDumpMd_harmless hd w)
  | dumpSuperblock => exact iff_true_intro (metaGenericDumpSuperblock_harmless hd w)
  | hexdumpSuperblock => exact iff_true_intro (metaGenericDumpSuperblock_harmless hd w)
  | restoreMd dump => exact iff_true_intro (verifyDumpfileOrRestore_harmless hd _ _ w)
  | verifyDump dump => exact iff_true_intro (verifyDumpfileOrRestore_harmless hd _ _ w)
  | applyAl => exact iff_true_intro (metaApplyAlClosing_harmless hd w)
  | outdate => exact iff_true_intro (metaOutdate_harmless hd w)
  | invalidate =>
    exact iff_true_intro (Harmless.bind (openMd_silent _ _) (fun _ =>
      .ite (.pure rfl) (writeAndClose_harmless hd _)) w)
  | writeDevUuid arg => exact iff_true_intro (metaWriteDevUuid_harmless hd _ w)
  | setGi arg => exact iff_true_intro (metaSetGi_harmless hd _ w)
  | forgetPeer => exact iff_true_intro (metaForgetPeer_harmless hd w)
  | repairMd => exact iff_true_intro (metaRepairMd_harmless hd w)

end Commands

/-- A dry run whose questions are answered with yes. -/
def dryInvocation : Invocation where
  onDisk9 := packedOnDisk9
  alLayout := packedAl
  outside := { nobody with zerooutBitmapFast := true }
  options := { dryRun := true, force := true }
  create := {}
  nodeId := 0
  mdDeviceName := "/dev/sda".toList
  answer := true
  fuel := 0

theorem dryInvocation_dryRun : dryInvocation.options.dryRun = true := rfl

/-- Without a file there is none to delete. -/
theorem function_leavesAll_noFile : LeavesAll none
    (Command.wipeMd.function dryInvocation none (grownFormat (2 ^ 28))) (freshWorld fun _ => 0) :=
  (function_leavesAll_iff dryInvocation none (grownFormat (2 ^ 28)) (freshWorld fun _ => 0) .wipeMd
    rfl).2 fun _ _ _ _ _ => rfl

/-- A device of 256 MiB with 8.4 metadata. -/
def validDisk : Mem := deviceWith (grownFormat (2 ^ 28)) (grownMd 16)

theorem openMd_validDisk (lkFile : LkFile) : ∃ cfg w',
    dryInvocation.openMd lkFile (grownFormat (2 ^ 28)) (freshWorld validDisk) =
      (.ok (.validMdFound, cfg), w') ∧
    validateOffsets dryInvocation.options cfg 4096 cfg.mdOffset = true := by
  have hdisk (d : Mem) : (freshWorld d).disk = d := rfl
  have hmd : superblockAt packedOnDisk9 (grownFormat (2 ^ 28)) (freshWorld validDisk).disk =
      normalMd .v08 (grownMd 16) := by
    rw [hdisk, validDisk, superblockAt_deviceWith]
    rfl
  obtain ⟨cfg, hcfg, hvalidate⟩ : ∃ cfg,
      openedFormat (grownFormat (2 ^ 28)) (normalMd .v08 (grownMd 16)) = .ok cfg ∧
        validateOffsets dryInvocation.options cfg 4096 cfg.mdOffset = true :=
    ⟨_, rfl, by decide +kernel⟩
  have hopened : Opened packedOnDisk9 (grownFormat (2 ^ 28)) (freshWorld validDisk).disk cfg := by
    refine ⟨by decide +kernel, by decide +kernel, ?_, ?_⟩
    · rw [hmd]
      decide +kernel
    · rw [hmd]
      exact hcfg
  exact ⟨cfg, _, (opened_iff (show MdFormat.v08 ≠ .v07 by decide)).2 ⟨hopened, rfl⟩, hvalidate⟩

theorem mdInitializeToBitmap_startsZero (X : Outside) {w : World} (h : StartsZero w) :
    ∃ w', w'.disk = w.disk ∧ mdInitializeToBitmap packedAl X dryInvocation.options 1 emptyCfg w =
      (.ok (some emptyInitialized), w') := by
  have hre : reInitializeMdOffsets dryInvocation.options { emptyCfg with
      md := { initializedMd dryInvocation.options 1 .v08 with
        alNrExtents := 257, bmBytesPerBit := 0 } } = .ok emptyInitialized := rfl
  obtain ⟨w', hal⟩ : ∃ w', initializeAl packedAl dryInvocation.options emptyInitialized
      (w.read SO_MUCH 0) = (.ok (), w') := by
    unfold initializeAl
    rw [if_neg (by decide +kernel), Run.bind_ok (Run.modifyBuf_apply _ _)]
    unfold pwriteOrDie
    rw [if_neg (by decide +kernel), if_pos dryInvocation_dryRun]
    exact ⟨_, rfl⟩
  refine ⟨w', ((initializeAl_dry dryInvocation_dryRun _).disk_eq hal).trans
    (World.read_disk w SO_MUCH 0), ?_⟩
  unfold mdInitializeToBitmap
  refine (Run.bind_ok (congrArg (·, w) hre)).trans ?_
  rw [Run.bind_ok (checkForExistingData_startsZero X dryInvocation.options h), Run.bind_ok hal]
  rfl

/-- On an external device without metadata, `create-md` comes to `initialize_bitmap()`. -/
theorem createMdToBitmap_startsZero (X : Outside) {w : World} (h : StartsZero w) :
    ∃ w', w'.disk = w.disk ∧
      createMdToBitmap packedOnDisk9 packedAl X dryInvocation.options none 1 emptyCfg w =
        (.ok (some emptyInitialized), w') := by
  obtain ⟨w1, hz1, hd1, hopen⟩ := mdOpen_startsZero dryInvocation.options h
  obtain ⟨w2, hz2, hd2, hcheck⟩ := checkMdFlavours_startsZero X dryInvocation.options hz1
  obtain ⟨w3, hd3, hinit⟩ := mdInitializeToBitmap_startsZero X hz2
  refine ⟨w3, hd3.trans (hd2.trans hd1), ?_⟩
  unfold createMdToBitmap
  simp only
  rw [if_neg (by decide), Run.bind_ok hopen, if_neg (by decide)]
  exact (Run.bind_ok hcheck).trans hinit

/-- A device of 1 MiB with one bit set in what will be the bitmap. -/
def oneBitDisk : Mem := fun a => if a = 100000 then 1 else 0

/-- **`create-md --dry-run` clears the bitmap**, and `wipe-md --dry-run` deletes the file. -/
theorem function_leavesAll_not :
    ¬LeavesAll none ((Command.createMd none).function dryInvocation none emptyCfg)
        (freshWorld oneBitDisk) ∧
      ¬LeavesAll (some "268435456\t/dev/sda\n".toList)
        (Command.wipeMd.function dryInvocation (some "268435456\t/dev/sda\n".toList)
          (grownFormat (2 ^ 28))) (freshWorld validDisk) := by
  constructor
  · intro h
    have hstart : StartsZero (freshWorld oneBitDisk) :=
      ⟨fun a ha => if_neg (by unfold SO_MUCH at ha; omega), rfl⟩
    obtain ⟨w', hdisk, hreach⟩ := createMdToBitmap_startsZero dryInvocation.outside hstart
    have hzero := (metaCreateMdClosing_leavesAll_iff dryInvocation_dryRun).1 h (fun hver => by cases hver)
      emptyInitialized w' hreach (Or.inl rfl) rfl 100000 (by decide) (by decide)
    rw [hdisk] at hzero
    exact absurd hzero (by decide)
  · intro h
    obtain ⟨cfg, w', hopen, hvalidate⟩ := openMd_validDisk (some "268435456\t/dev/sda\n".toList)
    cases (metaWipeMd_leavesAll_iff dryInvocation_dryRun).1 h cfg w' hopen rfl hvalidate

end DrbdUtils.Meta
