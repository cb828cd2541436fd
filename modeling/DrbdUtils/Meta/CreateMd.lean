import DrbdUtils.Meta.ActivityLog
import DrbdUtils.Meta.ApplyAlCommand
import DrbdUtils.Meta.Resize

/-!
# Creating metadata

`meta_create_md()` of `drbdmeta.c` and what it calls: opening the device, looking for metadata of
other formats (`check_internal_md_flavours()`, `check_external_md_flavours()`, `detect_md()`),
converting it (`convert_md()`), initialising an empty area (`md_initialize_common()`), the options
that change superblock fields, and writing the superblock.

The answers of the user, the file system detection, the zero-out ioctl and the random bytes are
the parameter `Outside`.  An ioctl that fails is taken to have written nothing.

* `isValidMd_normalMd` — a superblock that was accepted is accepted when it is read back.
* `reopens_of_written` — what the next open finds behind a written superblock.
* `createMd_reopens` — so does every run of `create-md` that reports success.
-/

set_option autoImplicit false

namespace DrbdUtils.Meta

open BlockDevice

/-! ## Options and answers -/

def MDF_CONSISTENT : BitVec 32 := 1 <<< 0
def MDF_CONNECTED_IND : BitVec 32 := 1 <<< 2
def MDF_FULL_SYNC : BitVec 32 := 1 <<< 3
def MDF_WAS_UP_TO_DATE : BitVec 32 := 1 <<< 4
def MDF_PEER_OUT_DATED : BitVec 32 := 1 <<< 5

def MDF_PEER_CONNECTED : BitVec 32 := 1 <<< 0
def MDF_PEER_OUTDATED : BitVec 32 := 1 <<< 1
def MDF_PEER_FULL_SYNC : BitVec 32 := 1 <<< 3
def MDF_PEER_DEVICE_SEEN : BitVec 32 := 1 <<< 4

/-- `f.bsize` of what is refused whatever its size. -/
def REFUSE_BSIZE : Nat := 0xFFFFffffFFFF0000

/-- `--initial-current-uuid`. -/
inductive InitialCurrentUuid where
  | notGiven
  | generate
  | hex (value : BitVec 64)
  | malformed

/-- The options of `create-md` alone. -/
structure CreateOptions where
  peerMaxBioSize : BitVec 32 := 0
  effectiveSize : BitVec 64 := 0
  diskfulPeerMask : BitVec 64 := 0
  initialCurrentUuid : InitialCurrentUuid := .notGiven
  consistent : Bool := false
  uptodate : Bool := false
  peersOutdated : Bool := false
  rotateUuids : Bool := false

/-- What a run learns from outside: the answers to its questions, `f.bnum` and `f.bsize` of the
    data it finds in the first 68k, whether the ioctl works, and random bytes. -/
structure Outside where
  move : Bool
  changeStripes : Bool
  overwrite : Bool
  convert : Bool
  replace : Bool
  proceed : Bool
  existingData : Mem → Nat × Nat
  zerooutBitmapFast : Bool
  random : Nat → BitVec 64

/-- `confirmed`. -/
def confirmed (o : Options) (answer : Bool) : Bool := o.force || answer

/-- `generate_random_uuid`, the `call`-th time. -/
def generateRandomUuid (X : Outside) (call : Nat) : Except Stop (BitVec 64) :=
  match ((List.range 4).map fun i => X.random (4 * call + i) &&& ~~~1).find?
      (fun val => val ≠ 0 && val ≠ UUID_JUST_CREATED) with
  | some val => .ok val
  | none => .error (.exit 20)

/-! ## Initialising -/

/-- `check_for_existing_data`, behind the detection of file systems. -/
def checkForExistingData (X : Outside) (o : Options) (cfg : Format) : MetaRun Unit := do
  preadOrDie cfg SO_MUCH 0
  let buf ← Run.getBuf
  if (List.range SO_MUCH).all (fun a => buf a = 0) then pure ()
  else do
    let (bnum, bsize) := X.existingData buf
    let maxUsable ← liftExcept (maxUsableSectors cfg)
    let fsKB := (bsize * bnum + 1023) % 2 ^ 64 / 1024
    if bnum ≠ 0 ∧ cfg.mdIndex ≠ .internal ∧ cfg.mdIndex ≠ .flexInt then
      if o.ignoreSanityChecks then pure () else Run.stop (.exit 40)
    else if bnum ≠ 0 ∧ REFUSE_BSIZE ≤ bsize then
      if o.ignoreSanityChecks then pure () else Run.stop (.exit 40)
    else if bnum ≠ 0 ∧ maxUsable / 2 < fsKB then Run.stop (.exit 40)
    else if confirmed o X.proceed then pure ()
    else Run.stop (.exit 1)

/-- The loop of `init_bitmap_pwrite`. -/
def initBitmapLoop (o : Options) (cfg : Format) (off bytesLeft : Nat) : MetaRun Unit := do
  pwriteOrDie o cfg (min bufferSize bytesLeft) off
  if bytesLeft - min bufferSize bytesLeft = 0 then pure ()
  else initBitmapLoop o cfg (off + min bufferSize bytesLeft) (bytesLeft - min bufferSize bytesLeft)
termination_by bytesLeft
decreasing_by
  have := bufferSize_pos
  omega

/-- `init_bitmap_pwrite`. -/
def initBitmapPwrite (o : Options) (cfg : Format) (clearOrSet : Byte) : MetaRun Unit := do
  Run.modifyBuf fun buf => fill buf 0 bufferSize clearOrSet
  initBitmapLoop o cfg cfg.bmOffset (align cfg.bmBytes cfg.mdHardSectSize.val)

/-- `zeroout_bitmap_fast`, when the ioctl works: the buffer is not involved. -/
def zerooutBitmapFast (cfg : Format) : MetaRun Unit := do
  let buf ← Run.getBuf
  Run.modifyBuf fun _ _ => 0
  Run.write (align cfg.bmBytes cfg.mdHardSectSize.val) cfg.bmOffset
  Run.modifyBuf fun _ => buf

/-- `initialize_bitmap`. -/
def initializeBitmap (X : Outside) (o : Options) (cfg : Format) : MetaRun Unit :=
  match o.initializeBitmapMode with
  | .skip => pure ()
  | .zeroout => if X.zerooutBitmapFast then zerooutBitmapFast cfg else initBitmapPwrite o cfg 0
  | .zerooutIoctlOnly =>
    if X.zerooutBitmapFast then zerooutBitmapFast cfg else Run.stop (.exit 10)
  | .zerooutPwrite => initBitmapPwrite o cfg 0
  | .setAll => initBitmapPwrite o cfg 0xff

/-- `md_initialize_common`, with disk writes. -/
def mdInitializeCommon (A : AlLayout) (X : Outside) (o : Options) (cfg : Format) :
    MetaRun Format := do
  let cfg ← liftExcept (reInitializeMdOffsets o
    { cfg with md := { cfg.md with alNrExtents := 257, bmBytesPerBit := 0 } })
  checkForExistingData X o cfg
  initializeAl A o cfg
  initializeBitmap X o cfg
  pure cfg

/-- The superblock fields `v07_md_initialize`, `v08_md_initialize` and `v09_md_initialize` set. -/
def initializedMd (o : Options) (maxPeers : Nat) : MdFormat → MdCpu
  | .v07 => { zeroMd with
      gc := fun i => if i = 0 then 0 else 1
      maxPeers := 1
      magic := DRBD_MD_MAGIC_07
      alStripes := 1
      alStripeSize4k := 8 }
  | .v08 => { zeroMd with
      currentUuid := UUID_JUST_CREATED
      flags := MDF_AL_CLEAN
      maxPeers := 1
      magic := DRBD_MD_MAGIC_08
      alStripes := o.alStripes
      alStripeSize4k := o.alStripeSize4k }
  | .v09 => { zeroMd with
      maxPeers := BitVec.ofNat 32 maxPeers
      flags := MDF_AL_CLEAN
      nodeId := -1
      magic := DRBD_MD_MAGIC_09
      alStripes := o.alStripes
      alStripeSize4k := o.alStripeSize4k
      currentUuid := UUID_JUST_CREATED
      peers := fun _ => ⟨0, 0, 0, -1⟩ }

/-- `cfg->ops->md_initialize`. -/
def mdInitialize (A : AlLayout) (X : Outside) (o : Options) (maxPeers : Nat) (cfg : Format) :
    MetaRun Format :=
  mdInitializeCommon A X o { cfg with md := initializedMd o maxPeers cfg.version }

/-! ## Converting -/

/-- The end of every conversion: new offsets, and a superblock that has to be valid. -/
def finishConversion (o : Options) (target : MdFormat) (cfg : Format) : Except Stop Format := do
  let cfg ← reInitializeMdOffsets o cfg
  let ok ← isValidMd target cfg.md cfg.mdIndex cfg.bdSize
  if ok then pure cfg else .error (.exit 111)

/-- `md_convert_07_to_08`; `bitsSet` when `cfg->bits_set` is not zero. -/
def mdConvert07To08 (o : Options) (bitsSet : Bool) (cfg : Format) : Except Stop Format :=
  let md := cfg.md
  let currentUuid : BitVec 64 :=
    (md.gc 1 &&& 0xffff).setWidth 64 <<< 48 ||| (md.gc 2 &&& 0xffff).setWidth 64 <<< 32 |||
      ((md.gc 3 + md.gc 4) &&& 0xffff).setWidth 64 <<< 16 ||| 0xbabe
  let older (j : Nat) : BitVec 64 := currentUuid - BitVec.ofNat 64 (j * 0x10000)
  finishConversion o .v08 { cfg with md := { md with
    magic := DRBD_MD_MAGIC_08
    flags := md.gc 0
    currentUuid := currentUuid
    peers := fun p => if p = 0 then
      { md.peers p with bitmapUuid := if bitsSet then older 1 else 0 } else md.peers p
    historyUuids := fun i => if (i : Nat) < HISTORY_UUIDS_V08 then older (i + 1 + bitsSet.toNat)
      else md.historyUuids i } }

/-- `md_convert_08_to_07`. -/
def mdConvert08To07 (o : Options) (cfg : Format) : Except Stop Format :=
  finishConversion o .v07 { cfg with md := { cfg.md with magic := DRBD_MD_MAGIC_07 } }

/-- The bits of `v` when `flags` has the bit `mask`. -/
def flagIf (flags mask v : BitVec 32) : BitVec 32 := if flags &&& mask ≠ 0 then v else 0

/-- `md_convert_08_to_09`. -/
def mdConvert08To09 (o : Options) (cfg : Format) : Except Stop Format :=
  let md := cfg.md
  let peerFlags := flagIf md.flags MDF_CONNECTED_IND MDF_PEER_CONNECTED |||
    flagIf md.flags MDF_FULL_SYNC MDF_PEER_FULL_SYNC |||
    flagIf md.flags MDF_PEER_OUT_DATED MDF_PEER_OUTDATED
  finishConversion o .v09 { cfg with md := { md with
    peers := fun p => { md.peers p with
      bitmapUuid := 0, flags := if p = 0 then peerFlags else 0, bitmapIndex := -1 }
    flags := md.flags &&& ~~~(MDF_CONNECTED_IND ||| MDF_FULL_SYNC ||| MDF_PEER_OUT_DATED)
    nodeId := -1
    magic := DRBD_MD_MAGIC_09 } }

/-- `md_convert_09_to_08`. -/
def mdConvert09To08 (o : Options) (cfg : Format) : Except Stop Format :=
  let md := cfg.md
  let peerFlags := (md.peers 0).flags
  finishConversion o .v08 { cfg with md := { md with
    flags := md.flags ||| flagIf peerFlags MDF_PEER_CONNECTED MDF_CONNECTED_IND |||
      flagIf peerFlags MDF_PEER_FULL_SYNC MDF_FULL_SYNC |||
      flagIf peerFlags MDF_PEER_OUTDATED MDF_PEER_OUT_DATED
    magic := DRBD_MD_MAGIC_08
    maxPeers := 1 } }

/-- `convert_md`: the cases of its inner switches fall through. -/
def convertMd (o : Options) (bitsSet : Bool) (src : MdFormat) (cfg : Format) :
    Except Stop Format :=
  match cfg.version, src with
  | .v07, .v09 => mdConvert09To08 o cfg >>= mdConvert08To07 o
  | .v07, .v08 => mdConvert08To07 o cfg
  | .v07, .v07 => .ok cfg
  | .v08, .v07 => mdConvert07To08 o bitsSet cfg
  | .v08, .v08 => .ok cfg
  | .v08, .v09 => mdConvert09To08 o cfg
  | .v09, .v07 => mdConvert07To08 o bitsSet cfg >>= mdConvert08To09 o
  | .v09, .v08 => mdConvert08To09 o cfg
  | .v09, .v09 => .ok cfg

/-! ## Metadata of other formats -/

section Model

variable (K : OnDisk9) (A : AlLayout) (X : Outside) (o : Options)

/-- `detect_md`. -/
def detectMd (buf : Mem) (llSize : Nat) (idx : MdIndex) :
    Except Stop (Option (MdFormat × MdCpu)) := do
  let ok7 ← isValidMd .v07 (decodeMd K .v07 buf) idx llSize
  let ok8 ← isValidMd .v08 (decodeMd K .v08 buf) idx llSize
  let ok9 ← isValidMd .v09 (decodeMd K .v09 buf) idx llSize
  return if ok9 then some (.v09, decodeMd K .v09 buf)
    else if ok8 then some (.v08, decodeMd K .v08 buf)
    else if ok7 then some (.v07, decodeMd K .v07 buf)
    else none

/-- The fixed-size internal metadata of 0.7, where there is room for it. -/
def findFixedMd (cfg : Format) : MetaRun (Option MdCpu) :=
  let fixedOffset := v07StyleMdGetByteOffset .internal cfg.bdSize
  if 0 ≤ toS64 fixedOffset ∧ toS64 fixedOffset < (cfg.bdSize : Int) - 4096 then do
    preadOrDie cfg 4096 fixedOffset
    let buf ← Run.getBuf
    let mdTest := decodeMd K .v07 buf
    let ok ← liftExcept (isValidMd .v07 mdTest .internal cfg.bdSize)
    pure (if ok then some mdTest else none)
  else pure none

/-- The superblock that is in place, its format, and whether it is a fixed-size internal one. -/
def findInternalMd (cfg : Format) : MetaRun (Option (MdFormat × MdCpu × Bool)) := do
  let fixedMd ← findFixedMd K cfg
  match fixedMd with
  | some md => pure (some (.v07, md, true))
  | none => do
    preadOrDie cfg 4096 (v07StyleMdGetByteOffset .flexInt cfg.bdSize)
    let buf ← Run.getBuf
    let found ← liftExcept (detectMd K buf cfg.bdSize .flexInt)
    pure (found.map fun md => (md.1, md.2, false))

/-- Forget the superblock, so that a new one is initialised. -/
def clearMagic (cfg : Format) : Format := { cfg with md := { cfg.md with magic := 0 } }

/-- Convert what was found, or replace it. -/
def convertOrReplace (bitsSet : Bool) (src : MdFormat) (md : MdCpu) (cfg : Format) :
    MetaRun Format :=
  if confirmed o X.convert then liftExcept (convertMd o bitsSet src { cfg with md := md })
  else if confirmed o X.replace then pure (clearMagic cfg)
  else Run.stop (.exit 1)

/-- What is done about internal metadata that is in place. -/
def replaceInternalMd (bitsSet : Bool) (src : MdFormat) (md : MdCpu) (cfg : Format) :
    MetaRun Format :=
  if cfg.version = src then
    if (src ≠ .v07 ∧ (cfg.md.alStripes ≠ o.alStripes ∨
        cfg.md.alStripeSize4k ≠ o.alStripeSize4k)) ∧ confirmed o X.changeStripes then
      Run.stop (.exit 30)
    else if confirmed o X.overwrite then pure (clearMagic cfg)
    else Run.stop (.exit 1)
  else convertOrReplace X o bitsSet src md cfg

/-- "If we change from one layout to the other, we want to wipe the former MD super block after
    successful conversion." -/
def setWipes (src : MdFormat) (fixed : Bool) (cfg : Format) : Format :=
  if src = .v07 ∧ fixed ∧ cfg.mdIndex = .flexInt then
    { cfg with wipeFixed := v07StyleMdGetByteOffset .internal cfg.bdSize }
  else if (src ≠ .v07 ∨ !fixed) ∧ cfg.version = .v07 ∧ cfg.mdIndex = .internal then
    { cfg with wipeFlex := v07StyleMdGetByteOffset .flexInt cfg.bdSize }
  else cfg

/-- `check_internal_md_flavours`. -/
def checkInternalMdFlavours (bitsSet : Bool) (cfg : Format) : MetaRun Format := do
  assert (cfg.mdIndex = .internal ∨ cfg.mdIndex = .flexInt)
  let found ← findInternalMd K cfg
  match found with
  | none => pure cfg
  | some (src, md, fixed) => do
    let cfg ← replaceInternalMd X o bitsSet src md cfg
    pure (setWipes src fixed cfg)

/-- `check_external_md_flavours`. -/
def checkExternalMdFlavours (bitsSet : Bool) (cfg : Format) : MetaRun Format :=
  if cfg.md.magic ≠ 0 then
    if confirmed o X.overwrite then pure (clearMagic cfg) else Run.stop (.exit 1)
  else do
    preadOrDie cfg 4096 cfg.mdOffset
    let buf ← Run.getBuf
    let found ← liftExcept (detectMd K buf cfg.bdSize .flexExt)
    match found with
    | none => pure cfg
    | some (src, md) => convertOrReplace X o bitsSet src md cfg

def wipeBlock (cfg : Format) (offset : Nat) : MetaRun Unit :=
  if offset ≠ 0 then pwriteOrDie o cfg 4096 offset else pure ()

/-- `wipe_after_convert`. -/
def wipeAfterConvert (cfg : Format) : MetaRun Unit := do
  Run.modifyBuf fun buf => fill buf 0 4096 0
  wipeBlock o cfg cfg.wipeFixed
  wipeBlock o cfg cfg.wipeFlex

/-! ## The command -/

/-- "When converting, keep what we know; still, explicit command line flags win." -/
def setSizes (c : CreateOptions) (converted : Bool) (md : MdCpu) : MdCpu :=
  { md with
    laPeerMaxBioSize := if !converted || c.peerMaxBioSize ≠ 0 then c.peerMaxBioSize
      else md.laPeerMaxBioSize
    effectiveSize := if !converted || c.effectiveSize ≠ 0 then c.effectiveSize
      else md.effectiveSize
    -- `1<<i` is an int
    peers := fun i => if c.diskfulPeerMask &&& ((1 : BitVec 32) <<< (i : Nat)).signExtend 64 ≠ 0 then
      { md.peers i with flags := (md.peers i).flags ||| MDF_PEER_DEVICE_SEEN } else md.peers i }

/-- `--initial-current-uuid`. -/
def setInitialUuid (c : CreateOptions) (md : MdCpu) : Except Stop MdCpu :=
  match c.initialCurrentUuid with
  | .notGiven => .ok md
  | .generate => (generateRandomUuid X 0).map fun uuid => { md with currentUuid := uuid }
  | .hex value =>
    if value &&& ~~~1 = 0 then .error (.exit 10)
    else .ok { md with currentUuid := value &&& ~~~1 }
  | .malformed => .error (.exit 10)

/-- A current uuid that is more than just created, where one is needed. -/
def ensureUuid (call : Nat) (needed : Bool) (md : MdCpu) : Except Stop MdCpu :=
  if needed ∧ md.currentUuid = UUID_JUST_CREATED then
    (generateRandomUuid X call).map fun uuid => { md with currentUuid := uuid }
  else .ok md

/-- `--consistent`, `--uptodate` and `--peers-outdated`. -/
def setFlags (c : CreateOptions) (md : MdCpu) : Except Stop MdCpu := do
  let md ← ensureUuid X 1 (c.consistent || c.uptodate) md
  return { md with
    flags := md.flags ||| (if c.consistent then MDF_CONSISTENT else 0) |||
      (if c.uptodate then MDF_CONSISTENT ||| MDF_WAS_UP_TO_DATE else 0)
    peers := fun p => if c.peersOutdated then
      { md.peers p with flags := (md.peers p).flags ||| MDF_PEER_OUTDATED } else md.peers p }

/-- `--rotate-uuids`. -/
def rotateUuids (c : CreateOptions) (md : MdCpu) : Except Stop MdCpu :=
  if c.rotateUuids then do
    let md ← ensureUuid X 2 true md
    let uuid ← generateRandomUuid X 3
    return { md with
      peers := fun p => { md.peers p with bitmapUuid := md.currentUuid }
      historyUuids := fun i => if i = 0 then md.currentUuid else md.historyUuids i
      currentUuid := uuid }
  else .ok md

/-- The options that change superblock fields. -/
def setOptions (c : CreateOptions) (converted : Bool) (md : MdCpu) : Except Stop MdCpu := do
  let md ← setInitialUuid X c (setSizes c converted md)
  let md ← setFlags X c md
  rotateUuids X c md

/-- The metadata that is in place. -/
def checkMdFlavours (bitsSet : Bool) (cfg : Format) : MetaRun Format :=
  if cfg.mdIndex = .internal ∨ cfg.mdIndex = .flexInt then
    checkInternalMdFlavours K X o bitsSet cfg
  else checkExternalMdFlavours K X o bitsSet cfg

/-- `cfg->md` once it has been initialised, or converted, and whether it was converted. -/
def prepareMd (maxPeers : Nat) (bitsSet : Bool) (cfg : Format) : MetaRun (Bool × Format) := do
  let cfg ← checkMdFlavours K X o bitsSet cfg
  if cfg.md.magic = 0 then do
    let cfg ← mdInitialize A X o maxPeers cfg
    pure (false, cfg)
  else do
    checkForExistingData X o cfg
    pure (true, cfg)

/-- The rest of `meta_create_md`, once the device was opened. -/
def createMdHere (c : CreateOptions) (maxPeers : Nat) (bitsSet : Bool) (cfg : Format) :
    MetaRun (Bool × Format) := do
  let prepared ← prepareMd K A X o maxPeers bitsSet cfg
  let md ← liftExcept (setOptions X c prepared.1 prepared.2.md)
  let cfg := { prepared.2 with md := md }
  let ok ← mdCpuToDisk K o cfg
  if ok then do
    wipeAfterConvert o cfg
    pure (true, cfg)
  else pure (false, cfg)

/-- `v08_move_internal_md_after_resize`, with the `cfg` it leaves. -/
def moveMd (cfg : Format) : MetaRun (Bool × Format) := do
  checkForExistingData X o cfg
  let moved ← moveToNewLocation K o cfg
  if moved.1 then do
    wipeOld o moved.2 cfg.md (lastKnownOffset cfg)
    pure (true, moved.2)
  else pure (false, moved.2)

/-- `meta_create_md`: whether it reports success, and `cfg` at the end; `arg` is MAX_PEERS.
    `cfg->ops->close` writes the last known size to a file, and nothing to the device. -/
def metaCreateMd (c : CreateOptions) (lk : Option (Nat × BitVec 64)) (arg : Nat) (cfg : Format) :
    MetaRun (Bool × Format) := do
  let maxPeers := if cfg.version = .v09 then arg else 1
  if maxPeers < 1 ∨ DRBD_PEERS_MAX - 1 < maxPeers then Run.stop (.exit 20)
  else do
    let opened ← mdOpen K o lk cfg
    if opened.1 = .validMdFoundAtLastKnownLocation then
      if o.alStripesUsed ∧ (o.alStripes ≠ opened.2.md.alStripes ∨
          o.alStripeSize4k ≠ opened.2.md.alStripeSize4k) then Run.stop (.exit 20)
      else if !o.force && X.move then moveMd K X o opened.2
      else createMdHere K A X o c maxPeers false { opened.2 with md := zeroMd }
    else createMdHere K A X o c maxPeers (opened.1 = .validMdFound) opened.2

end Model

/-- `new_cfg`, and what parsing the format arguments and opening the device file fill in. -/
def newCfg (version : MdFormat) (mdHardSectSize : HardSectSize) (mdIndex : MdIndex)
    (bdSize : Nat) : Format where
  version := version
  mdHardSectSize := mdHardSectSize
  mdIndex := mdIndex
  bmBytes := 0
  md := zeroMd
  mdOffset := 0
  alOffset := 0
  bmOffset := 0
  wipeFixed := 0
  wipeFlex := 0
  wipeResize := 0
  bdSize := bdSize
  maxUsableSect := 0
  lkBdSize := 0
  lkBdUuid := 0

/-! ## Reading back -/

/-- The superblock has an activity log: 8.x takes no striping at all for the old default. -/
def StripingSet (md : MdCpu) : Prop := ¬(md.alStripes = 0 ∧ md.alStripeSize4k = 0)

/-- What the codec of a format relies on: 8.x has one bitmap slot, and striping zero is read as the
    default. -/
structure Storable (f : MdFormat) (md : MdCpu) : Prop where
  maxPeers : f = .v08 → md.maxPeers = 1
  striping : f = .v08 → StripingSet md

/-- The fields the layout is computed from. -/
structure SameLayout (md md' : MdCpu) : Prop where
  magic : md'.magic = md.magic
  mdSizeSect : md'.mdSizeSect = md.mdSizeSect
  alOffset : md'.alOffset = md.alOffset
  bmOffset : md'.bmOffset = md.bmOffset
  bmBytesPerBit : md'.bmBytesPerBit = md.bmBytesPerBit
  maxPeers : md'.maxPeers = md.maxPeers
  alStripes : md'.alStripes = md.alStripes
  alStripeSize4k : md'.alStripeSize4k = md.alStripeSize4k

theorem SameLayout.refl (md : MdCpu) : SameLayout md md := ⟨rfl, rfl, rfl, rfl, rfl, rfl, rfl, rfl⟩

theorem SameLayout.trans {md md' md'' : MdCpu} (h : SameLayout md md') (h' : SameLayout md' md'') :
    SameLayout md md'' where
  magic := h'.magic.trans h.magic
  mdSizeSect := h'.mdSizeSect.trans h.mdSizeSect
  alOffset := h'.alOffset.trans h.alOffset
  bmOffset := h'.bmOffset.trans h.bmOffset
  bmBytesPerBit := h'.bmBytesPerBit.trans h.bmBytesPerBit
  maxPeers := h'.maxPeers.trans h.maxPeers
  alStripes := h'.alStripes.trans h.alStripes
  alStripeSize4k := h'.alStripeSize4k.trans h.alStripeSize4k

theorem SameLayout.alSizeSect {md md' : MdCpu} (h : SameLayout md md') :
    alSizeSect md' = alSizeSect md := by
  rw [Meta.alSizeSect, Meta.alSizeSect, h.alStripes, h.alStripeSize4k]

theorem SameLayout.bmBytes {md md' : MdCpu} (h : SameLayout md md') (sectors : Nat) :
    bmBytes md' sectors = bmBytes md sectors := by
  rw [Meta.bmBytes, Meta.bmBytes, h.bmBytesPerBit, h.maxPeers]

theorem Storable.congr {f : MdFormat} {md md' : MdCpu} (h : Storable f md)
    (hl : SameLayout md md') : Storable f md' where
  maxPeers hf := hl.maxPeers.trans (h.maxPeers hf)
  striping hf := by
    rw [StripingSet, hl.alStripes, hl.alStripeSize4k]
    exact h.striping hf

/-- The validity of a superblock, but for the ids in it, depends on the layout fields. -/
theorem SameLayout.isValidMd {f : MdFormat} {md md' : MdCpu} (h : SameLayout md md')
    (hids : mdIdsOk md' = mdIdsOk md) (idx : MdIndex) (llSize : Nat) :
    isValidMd f md' idx llSize = isValidMd f md idx llSize := by
  unfold Meta.isValidMd
  rw [hids, h.magic, h.alOffset, h.bmOffset, h.mdSizeSect, h.alSizeSect, h.bmBytes]

theorem isValidMd_ids {f : MdFormat} {md : MdCpu} {idx : MdIndex} {llSize : Nat}
    (h : isValidMd f md idx llSize = .ok true) : mdIdsOk md = true := by
  by_contra hc
  rw [isValidMd, Bool.eq_false_iff.2 hc, Bool.and_false] at h
  cases h

/-- A superblock that fits its format keeps the layout when it is read back. -/
theorem normalMd_layout {f : MdFormat} {md : MdCpu} (hf : f ≠ .v07) (hs : Storable f md)
    (hids : mdIdsOk md = true) : SameLayout md (normalMd f md) := by
  cases f with
  | v07 => exact absurd rfl hf
  | v08 =>
    have hset := hs.striping rfl
    exact ⟨rfl, rfl, rfl, rfl, rfl, (hs.maxPeers rfl).symm, if_neg hset, if_neg hset⟩
  | v09 =>
    have hle := (mdIdsOk_peers hids).2
    exact ⟨rfl, rfl, rfl, rfl, rfl, if_neg (Nat.not_lt.2 hle), rfl, rfl⟩

theorem normalMd_ids {f : MdFormat} {md : MdCpu} (hf : f ≠ .v07) (hids : mdIdsOk md = true) :
    mdIdsOk (normalMd f md) = true := by
  cases f with
  | v07 => exact absurd rfl hf
  | v08 =>
    have hpeers : ∀ n : Fin DRBD_PEERS_MAX, ((normalMd .v08 md).peers n).bitmapIndex = 0 := by
      intro n
      show (if n = 0 then _ else _ : PeerMdCpu).bitmapIndex = 0
      split <;> rfl
    simp only [mdIdsOk, Bool.and_eq_true, decide_eq_true_eq]
    refine ⟨⟨⟨(by decide : 1 ≤ (1 : BitVec 32).toNat), (by decide : (1 : BitVec 32).toNat ≤ 31)⟩,
      (by decide : idInBounds 0 = true)⟩, fun n _ => ?_⟩
    rw [hpeers]
    decide
  | v09 =>
    have hle := (mdIdsOk_peers hids).2
    have hmax : (normalMd .v09 md).maxPeers = md.maxPeers := if_neg (Nat.not_lt.2 hle)
    unfold mdIdsOk at hids ⊢
    rw [hmax]
    exact hids

/-- **A superblock that was accepted is accepted when it is read back.** -/
theorem isValidMd_normalMd {f : MdFormat} {md : MdCpu} {idx : MdIndex} {llSize : Nat}
    (hf : f ≠ .v07) (hs : Storable f md) (h : isValidMd f md idx llSize = .ok true) :
    isValidMd f (normalMd f md) idx llSize = .ok true := by
  have hids := isValidMd_ids h
  rw [(normalMd_layout hf hs hids).isValidMd ((normalMd_ids hf hids).trans hids.symm), h]

/-- The copy that is read back is stored as the original was: no field of the format is lost. -/
theorem encodeMd_normalMd (K : OnDisk9) {f : MdFormat} {md : MdCpu} (hf : f ≠ .v07)
    (hs : Storable f md) (hids : mdIdsOk md = true) :
    encodeMd K f (normalMd f md) = encodeMd K f md := by
  have hl := normalMd_layout hf hs hids
  cases f with
  | v07 => exact absurd rfl hf
  | v08 =>
    show mdCpuToDisk08 (normalMd .v08 md) = mdCpuToDisk08 md
    unfold mdCpuToDisk08
    rw [hl.alStripes, hl.alStripeSize4k]
    rfl
  | v09 =>
    show K.store (mdCpuToDisk09 (normalMd .v09 md)) = K.store (mdCpuToDisk09 md)
    unfold mdCpuToDisk09
    rw [hl.maxPeers]
    rfl

/-! ## The next open -/

/-- The usable size of an area depends on the layout fields and the byte offsets. -/
theorem maxUsableSectors_congr {cfg cfg' : Format} (hl : SameLayout cfg.md cfg'.md)
    (hver : cfg'.version = cfg.version) (hidx : cfg'.mdIndex = cfg.mdIndex)
    (hmd : cfg'.mdOffset = cfg.mdOffset) (hal : cfg'.alOffset = cfg.alOffset)
    (hbm : cfg'.bmOffset = cfg.bmOffset) : maxUsableSectors cfg' = maxUsableSectors cfg := by
  unfold maxUsableSectors externalBmSect
  rw [hver, hidx, hmd, hal, hbm, hl.bmBytesPerBit, hl.mdSizeSect, hl.bmOffset, hl.maxPeers]

/-- A granularity of the format. -/
theorem bmBytes_of_le {md : MdCpu} {sectors : Nat} (hs : sectors ≤ 2 ^ 41)
    (h1 : BM_BLOCK_SIZE_MIN ≤ md.bmBytesPerBit.toNat)
    (h2 : md.bmBytesPerBit.toNat ≤ BM_BLOCK_SIZE_MAX)
    (h3 : isPowerOf2 md.bmBytesPerBit.toNat = true) : ∃ bm, bmBytes md sectors = .ok bm := by
  unfold bmBytes
  rw [if_pos ⟨hs, h1, h2, h3⟩]
  exact ⟨_, rfl⟩

theorem bmBytes_granularity {md : MdCpu} {sectors bm : Nat} (h : bmBytes md sectors = .ok bm) :
    BM_BLOCK_SIZE_MIN ≤ md.bmBytesPerBit.toNat ∧ md.bmBytesPerBit.toNat ≤ BM_BLOCK_SIZE_MAX ∧
      isPowerOf2 md.bmBytesPerBit.toNat = true := by
  unfold bmBytes at h
  split at h
  · rename_i hc
    exact hc.2
  · cases h

theorem maxUsableSectors_granularity {cfg : Format} {mu : Nat}
    (hidx : ¬(cfg.mdIndex = .internal ∨ cfg.mdIndex = .flexInt))
    (h : maxUsableSectors cfg = .ok mu) :
    BM_BLOCK_SIZE_MIN ≤ cfg.md.bmBytesPerBit.toNat ∧
      cfg.md.bmBytesPerBit.toNat ≤ BM_BLOCK_SIZE_MAX ∧
      isPowerOf2 cfg.md.bmBytesPerBit.toNat = true := by
  unfold maxUsableSectors at h
  rw [if_neg hidx] at h
  simp only at h
  by_cases hkind : cfg.version ≠ .v09 ∨ cfg.mdIndex ≠ .flexExt
  · rw [if_pos hkind] at h
    by_cases h4k : cfg.md.bmBytesPerBit.toNat = BM_BLOCK_SIZE_4k
    · rw [h4k]
      exact ⟨by decide, by decide, by decide +kernel⟩
    · rw [decide_eq_false h4k, if_neg (by decide)] at h
      cases h
  · rw [if_neg hkind] at h
    split at h
    · rename_i hadm
      rw [Bool.and_eq_true, Bool.and_eq_true, decide_eq_true_eq, decide_eq_true_eq] at hadm
      exact ⟨hadm.1.2, hadm.2, hadm.1.1⟩
    · cases h

/-- What holds of `cfg` when its superblock is written at the place the next open looks at. -/
structure Written (cfg₀ cfg : Format) : Prop where
  version : cfg.version = cfg₀.version
  mdIndex : cfg.mdIndex = cfg₀.mdIndex
  bdSize : cfg.bdSize = cfg₀.bdSize
  mdOffset : cfg.mdOffset = superblockOffset cfg₀
  size : SO_MUCH ≤ cfg₀.bdSize
  inside : superblockOffset cfg₀ + 4096 ≤ cfg₀.bdSize
  valid : isValidMd cfg.version cfg.md cfg.mdIndex cfg.bdSize = .ok true
  storable : Storable cfg.version cfg.md
  usable : maxUsableSectors (setByteOffsets cfg cfg.md) = .ok cfg.maxUsableSect

/-- What the next open reports. -/
structure Reopens (K : OnDisk9) (cfg₀ cfg : Format) (disk : Mem) (cfg' : Format) : Prop where
  opened : Opened K cfg₀ disk cfg'
  maxUsableSect : cfg'.maxUsableSect = cfg.maxUsableSect
  md : cfg'.md = clipMd (normalMd cfg.version cfg.md) cfg.maxUsableSect

/-- `bm_bytes()` takes devices up to 1 PiB. -/
def EffectiveSizeAdmitted (cfg : Format) : Prop :=
  min cfg.md.effectiveSize.toNat cfg.maxUsableSect ≤ 2 ^ 41

theorem clipMd_effectiveSize_le (md : MdCpu) (mu : Nat) :
    (clipMd md mu).effectiveSize.toNat ≤ min md.effectiveSize.toNat mu := by
  refine Nat.le_min.2 ⟨?_, clipMd_le md mu⟩
  unfold clipMd
  dsimp only
  split
  · rw [BitVec.toNat_ofNat]
    exact (Nat.mod_le _ _).trans (by omega)
  · exact Nat.le_refl _

/-- The granularity of a written superblock is one of the format. -/
theorem Written.granularity {cfg₀ cfg : Format} (h : Written cfg₀ cfg) (hver : cfg₀.version ≠ .v07)
    (hidx : cfg₀.mdIndex ≠ .internal) :
    BM_BLOCK_SIZE_MIN ≤ cfg.md.bmBytesPerBit.toNat ∧
      cfg.md.bmBytesPerBit.toNat ≤ BM_BLOCK_SIZE_MAX ∧
      isPowerOf2 cfg.md.bmBytesPerBit.toNat = true := by
  by_cases hflex : cfg.mdIndex = .flexInt
  · have hv := h.valid
    rw [hflex] at hv
    obtain ⟨bm, hv⟩ := (isValidMd_flexInt_iff (by rw [h.version]; exact hver)).1 hv
    exact bmBytes_granularity hv.bm_ok
  · refine @maxUsableSectors_granularity (setByteOffsets cfg cfg.md) _ ?_ h.usable
    rintro (hi | hi)
    · exact hidx (h.mdIndex.symm.trans hi)
    · exact hflex hi

/-- Internal metadata is never for more than the device it is on. -/
theorem Written.effectiveSize {cfg₀ cfg : Format} (h : Written cfg₀ cfg) (hver : cfg₀.version ≠ .v07)
    (hflex : cfg₀.mdIndex = .flexInt) : EffectiveSizeAdmitted cfg := by
  have hv := h.valid
  rw [h.mdIndex, hflex] at hv
  obtain ⟨bm, hv⟩ := (isValidMd_flexInt_iff (by rw [h.version]; exact hver)).1 hv
  have hle := (bmBytes_ok hv.bm_ok).1
  have husable := h.usable
  unfold maxUsableSectors at husable
  rw [if_pos (.inr (h.mdIndex.trans hflex))] at husable
  have hmu : cfg.maxUsableSect ≤ cfg.bdSize / 512 := by
    rw [← Except.ok.inj husable]
    refine Nat.div_le_div_right ?_
    have hin := h.inside
    have hoff := h.mdOffset
    have hbd := h.bdSize
    show min (min cfg.mdOffset _) _ ≤ _
    omega
  exact (Nat.min_le_right _ _).trans (hmu.trans hle)

/-- **Behind a written superblock, the next open finds it**: every field its format stores, with
    the effective size clipped. -/
theorem reopens_of_written {K : OnDisk9} {cfg₀ cfg : Format} {disk : Mem} (h : Written cfg₀ cfg)
    (hver : cfg₀.version ≠ .v07) (hidx : cfg₀.mdIndex ≠ .internal)
    (heff : cfg₀.mdIndex ≠ .flexInt → EffectiveSizeAdmitted cfg)
    (hdisk : ∀ a < 4096, disk (cfg.mdOffset + a) = encodeMd K cfg.version cfg.md a) :
    ∃ cfg', Reopens K cfg₀ cfg disk cfg' := by
  have hver' : cfg.version ≠ .v07 := by rw [h.version]; exact hver
  have hids := isValidMd_ids h.valid
  have hlay := normalMd_layout hver' h.storable hids
  have hsb : superblockAt K cfg₀ disk = normalMd cfg.version cfg.md := by
    unfold superblockAt
    rw [← h.version, ← h.mdOffset, decodeMd_congr K hdisk, decodeMd_encodeMd]
  have hvalid := isValidMd_normalMd hver' h.storable h.valid
  have heff' : EffectiveSizeAdmitted cfg := by
    by_cases hflex : cfg₀.mdIndex = .flexInt
    · exact h.effectiveSize hver hflex
    · exact heff hflex
  have hmu : maxUsableSectors (setByteOffsets { cfg₀ with mdOffset := superblockOffset cfg₀ }
      (normalMd cfg.version cfg.md)) = .ok cfg.maxUsableSect := by
    rw [← h.usable]
    refine maxUsableSectors_congr hlay h.version.symm h.mdIndex.symm h.mdOffset.symm ?_ ?_
    · show toU64 (superblockOffset cfg₀ + (normalMd cfg.version cfg.md).alOffset.toInt * 512) =
        toU64 (cfg.mdOffset + cfg.md.alOffset.toInt * 512)
      rw [hlay.alOffset, h.mdOffset]
    · show toU64 (superblockOffset cfg₀ + (normalMd cfg.version cfg.md).bmOffset.toInt * 512) =
        toU64 (cfg.mdOffset + cfg.md.bmOffset.toInt * 512)
      rw [hlay.bmOffset, h.mdOffset]
  obtain ⟨g1, g2, g3⟩ := h.granularity hver hidx
  rw [← hlay.bmBytesPerBit] at g1 g2 g3
  have hsize : (normalMd cfg.version cfg.md).effectiveSize = cfg.md.effectiveSize := by
    cases hv : cfg.version with
    | v07 => exact absurd hv hver'
    | v08 => rfl
    | v09 => rfl
  have hle : (clipMd (normalMd cfg.version cfg.md) cfg.maxUsableSect).effectiveSize.toNat ≤ 2 ^ 41 :=
    (clipMd_effectiveSize_le _ _).trans (by rw [hsize]; exact heff')
  obtain ⟨bm, hbm⟩ := bmBytes_of_le hle g1 g2 g3
  obtain ⟨cfg', hlayout, hmu', hmd'⟩ : ∃ cfg', openedFormat cfg₀ (normalMd cfg.version cfg.md) =
      .ok cfg' ∧ cfg'.maxUsableSect = cfg.maxUsableSect ∧
        cfg'.md = clipMd (normalMd cfg.version cfg.md) cfg.maxUsableSect :=
    ⟨_, openedFormat_ok_iff.2 ⟨cfg.maxUsableSect, hmu, clip_ok_iff.2 ⟨bm, hbm, rfl⟩⟩, rfl, rfl⟩
  refine ⟨cfg', ⟨h.size, h.inside, ?_, ?_⟩, hmu', hmd'⟩
  · rw [hsb, ← h.version, ← h.mdIndex, ← h.bdSize]
    exact hvalid
  · rw [hsb]
    exact hlayout

/-! ## What the steps keep -/

theorem mdSectOffsets_fields {cfg : Format} {md md' : MdCpu} {bm : Nat}
    (h : mdSectOffsets cfg md = .ok (md', bm)) :
    ∃ mdSizeSect alOffset bmOffset, md' = { md with
      mdSizeSect := mdSizeSect, alOffset := alOffset, bmOffset := bmOffset } := by
  unfold mdSectOffsets at h
  split at h
  · cases h
    exact ⟨_, _, _, rfl⟩
  · cases h
    exact ⟨_, _, _, rfl⟩
  · cases h
    exact ⟨_, _, _, rfl⟩
  · obtain ⟨b, _, h⟩ := except_bind_ok_iff.1 h
    simp only at h
    split at h
    · cases h
    · cases h
      exact ⟨_, _, _, rfl⟩

/-- `cfg'` is `cfg` with a new layout. -/
structure Relaid (cfg cfg' : Format) : Prop where
  version : cfg'.version = cfg.version
  mdIndex : cfg'.mdIndex = cfg.mdIndex
  bdSize : cfg'.bdSize = cfg.bdSize
  mdOffset : cfg'.mdOffset = cfg.mdOffset
  wipeFixed : cfg'.wipeFixed = cfg.wipeFixed
  wipeFlex : cfg'.wipeFlex = cfg.wipeFlex
  usable : maxUsableSectors (setByteOffsets cfg' cfg'.md) = .ok cfg'.maxUsableSect
  maxPeers : cfg.md.maxPeers = 1 → cfg'.md.maxPeers = 1
  alStripes : cfg'.md.alStripes = cfg.md.alStripes
  alStripeSize4k : cfg'.md.alStripeSize4k = cfg.md.alStripeSize4k

theorem reInitializeMdOffsets_relaid {o : Options} {cfg cfg' : Format}
    (h : reInitializeMdOffsets o cfg = .ok cfg') : Relaid cfg cfg' := by
  obtain ⟨⟨md, bm⟩, hsect, h⟩ := except_bind_ok_iff.1 h
  obtain ⟨mu, hmu, h⟩ := except_bind_ok_iff.1 h
  obtain ⟨_, _, _, rfl⟩ := mdSectOffsets_fields hsect
  cases h
  refine ⟨rfl, rfl, rfl, rfl, rfl, rfl, ?_, fun hone => ?_, rfl, rfl⟩
  · rw [← hmu]
    exact maxUsableSectors_congr (.refl _) rfl rfl rfl rfl rfl
  · show (if cfg.md.maxPeers = 0 then 1 else cfg.md.maxPeers) = 1
    rw [hone]
    rfl

theorem finishConversion_relaid {o : Options} {f : MdFormat} {cfg cfg' : Format}
    (h : finishConversion o f cfg = .ok cfg') : Relaid cfg cfg' := by
  obtain ⟨cfg1, hre, h⟩ := except_bind_ok_iff.1 h
  obtain ⟨ok, _, h⟩ := except_bind_ok_iff.1 h
  cases ok with
  | false => cases h
  | true =>
    cases h
    exact reInitializeMdOffsets_relaid hre

/-- `cfg` while `create-md` works on it: a superblock it has, if any, fits the format, and what is
    to be wiped lies in front of the place of the new one. -/
structure Ready (cfg₀ cfg : Format) : Prop where
  version : cfg.version = cfg₀.version
  mdIndex : cfg.mdIndex = cfg₀.mdIndex
  bdSize : cfg.bdSize = cfg₀.bdSize
  mdOffset : cfg.mdOffset = superblockOffset cfg₀
  wipeFlex : cfg.wipeFlex = 0
  wipeFixed : cfg.wipeFixed = 0 ∨ cfg.wipeFixed + 4096 ≤ cfg.mdOffset
  storable : cfg.md.magic ≠ 0 → Storable cfg.version cfg.md
  usable : cfg.md.magic ≠ 0 →
    maxUsableSectors (setByteOffsets cfg cfg.md) = .ok cfg.maxUsableSect

theorem Ready.clearMagic {cfg₀ cfg : Format} (h : Ready cfg₀ cfg) : Ready cfg₀ (clearMagic cfg) :=
  ⟨h.version, h.mdIndex, h.bdSize, h.mdOffset, h.wipeFlex, h.wipeFixed, fun hne => absurd rfl hne,
    fun hne => absurd rfl hne⟩

/-- A superblock is there. -/
structure Complete (cfg₀ cfg : Format) : Prop where
  ready : Ready cfg₀ cfg
  storable : Storable cfg.version cfg.md
  usable : maxUsableSectors (setByteOffsets cfg cfg.md) = .ok cfg.maxUsableSect

/-- A superblock of the own format was laid out anew. -/
theorem Ready.relaid {cfg₀ cfg cfg' : Format} {md : MdCpu} (h : Ready cfg₀ cfg)
    (hr : Relaid { cfg with md := md } cfg') (hs : Storable cfg₀.version md) :
    Complete cfg₀ cfg' := by
  have hver : cfg'.version = cfg₀.version := hr.version.trans h.version
  have hst : Storable cfg'.version cfg'.md := by
    rw [hver]
    refine ⟨fun hf => hr.maxPeers (hs.maxPeers hf), fun hf => ?_⟩
    rw [StripingSet, hr.alStripes, hr.alStripeSize4k]
    exact hs.striping hf
  refine ⟨⟨hver, hr.mdIndex.trans h.mdIndex, hr.bdSize.trans h.bdSize, hr.mdOffset.trans h.mdOffset,
    hr.wipeFlex.trans h.wipeFlex, ?_, fun _ => hst, fun _ => hr.usable⟩, hst, hr.usable⟩
  rw [hr.wipeFixed, hr.mdOffset]
  exact h.wipeFixed

/-- The option fields are not part of the layout. -/
theorem setOptions_layout {X : Outside} {c : CreateOptions} {converted : Bool} {md md' : MdCpu}
    (h : setOptions X c converted md = .ok md') : SameLayout md md' := by
  have hinit : ∀ {md md' : MdCpu}, setInitialUuid X c md = .ok md' → SameLayout md md' := by
    intro md md' h
    unfold setInitialUuid at h
    cases hc : c.initialCurrentUuid with
    | notGiven =>
      rw [hc] at h
      cases h
      exact .refl _
    | generate =>
      rw [hc] at h
      cases hg : generateRandomUuid X 0 with
      | error e => rw [hg] at h; cases h
      | ok uuid =>
        rw [hg] at h
        cases h
        exact ⟨rfl, rfl, rfl, rfl, rfl, rfl, rfl, rfl⟩
    | hex value =>
      rw [hc] at h
      simp only at h
      split at h
      · cases h
      · cases h
        exact ⟨rfl, rfl, rfl, rfl, rfl, rfl, rfl, rfl⟩
    | malformed => rw [hc] at h; cases h
  have hensure : ∀ {call : Nat} {needed : Bool} {md md' : MdCpu},
      ensureUuid X call needed md = .ok md' → SameLayout md md' := by
    intro call needed md md' h
    unfold ensureUuid at h
    split at h
    · cases hg : generateRandomUuid X call with
      | error e => rw [hg] at h; cases h
      | ok uuid =>
        rw [hg] at h
        cases h
        exact ⟨rfl, rfl, rfl, rfl, rfl, rfl, rfl, rfl⟩
    · cases h
      exact .refl _
  obtain ⟨md1, h1, h⟩ := except_bind_ok_iff.1 h
  obtain ⟨md2, h2, h⟩ := except_bind_ok_iff.1 h
  have hsizes : SameLayout md (setSizes c converted md) := ⟨rfl, rfl, rfl, rfl, rfl, rfl, rfl, rfl⟩
  have hflags : SameLayout md1 md2 := by
    obtain ⟨md3, h3, h2⟩ := except_bind_ok_iff.1 h2
    cases h2
    exact (hensure h3).trans ⟨rfl, rfl, rfl, rfl, rfl, rfl, rfl, rfl⟩
  have hrotate : SameLayout md2 md' := by
    unfold rotateUuids at h
    split at h
    · obtain ⟨md3, h3, h⟩ := except_bind_ok_iff.1 h
      obtain ⟨uuid, _, h⟩ := except_bind_ok_iff.1 h
      cases h
      exact (hensure h3).trans ⟨rfl, rfl, rfl, rfl, rfl, rfl, rfl, rfl⟩
    · cases h
      exact .refl _
  exact hsizes.trans ((hinit h1).trans (hflags.trans hrotate))

theorem convertMd_v08 (o : Options) (bitsSet : Bool) (src : MdFormat) {cfg : Format}
    (h : cfg.version = .v08) : convertMd o bitsSet src cfg = match src with
      | .v07 => mdConvert07To08 o bitsSet cfg
      | .v08 => .ok cfg
      | .v09 => mdConvert09To08 o cfg := by
  unfold convertMd
  rw [h]
  cases src <;> rfl

theorem convertMd_v09 (o : Options) (bitsSet : Bool) (src : MdFormat) {cfg : Format}
    (h : cfg.version = .v09) : convertMd o bitsSet src cfg = match src with
      | .v07 => mdConvert07To08 o bitsSet cfg >>= mdConvert08To09 o
      | .v08 => mdConvert08To09 o cfg
      | .v09 => .ok cfg := by
  unfold convertMd
  rw [h]
  cases src <;> rfl

/-- Conversions lead to a superblock of the own format. -/
theorem convertMd_ready {o : Options} {bitsSet : Bool} {src : MdFormat} {md : MdCpu}
    {cfg₀ cfg cfg' : Format} (h : Ready cfg₀ cfg) (hver : cfg₀.version ≠ .v07)
    (hne : cfg.version ≠ src) (h07 : src = .v07 → md.maxPeers = 1 ∧ StripingSet md)
    (h09 : cfg.version = .v08 → src = .v09 → StripingSet md)
    (hrun : convertMd o bitsSet src { cfg with md := md } = .ok cfg') : Ready cfg₀ cfg' := by
  have hv := h.version
  cases hcv : cfg.version with
  | v07 => exact absurd (hv.symm.trans hcv) hver
  | v08 =>
    rw [convertMd_v08 o bitsSet src (show Format.version { cfg with md := md } = _ from hcv)] at hrun
    have h8 : cfg₀.version = .v08 := hv.symm.trans hcv
    cases src with
    | v07 =>
      obtain ⟨hone, hset⟩ := h07 rfl
      exact (h.relaid (finishConversion_relaid hrun) ⟨fun _ => hone, fun _ => hset⟩).ready
    | v08 => exact absurd hcv hne
    | v09 =>
      exact (h.relaid (finishConversion_relaid hrun) ⟨fun _ => rfl, fun _ => h09 hcv rfl⟩).ready
  | v09 =>
    rw [convertMd_v09 o bitsSet src (show Format.version { cfg with md := md } = _ from hcv)] at hrun
    have h9 : cfg₀.version ≠ .v08 := by rw [← hv, hcv]; decide
    have hs : ∀ md : MdCpu, Storable cfg₀.version md := fun md =>
      ⟨fun hf => absurd hf h9, fun hf => absurd hf h9⟩
    cases src with
    | v07 =>
      obtain ⟨cfg1, h1, h2⟩ := except_bind_ok_iff.1 hrun
      have hr1 := h.relaid (finishConversion_relaid h1) (hs _)
      exact (hr1.ready.relaid (finishConversion_relaid h2) (hs _)).ready
    | v08 => exact (h.relaid (finishConversion_relaid hrun) (hs _)).ready
    | v09 => exact absurd hcv hne

/-! ## Opening -/

section Run

variable {K : OnDisk9} {A : AlLayout} {X : Outside} {o : Options} {cfg₀ cfg cfg' : Format}
  {w w' : World}

/-- What was decoded fits its format. -/
theorem storable_decodeMd (f : MdFormat) (m : Mem) : Storable f (decodeMd K f m) := by
  refine ⟨fun hf => ?_, fun hf => ?_⟩
  · subst hf
    rfl
  · subst hf
    show ¬((if _ then (1 : BitVec 32) else _) = 0 ∧ (if _ then (8 : BitVec 32) else _) = 0)
    split
    · exact fun h => absurd h.1 (by decide)
    · assumption

/-- Before anything was looked for: what `open` left. -/
structure AtStart (K : OnDisk9) (cfg₀ : Format) (disk : Mem) (cfg : Format) : Prop where
  ready : Ready cfg₀ cfg
  size : SO_MUCH ≤ cfg₀.bdSize
  notFound : cfg.md.magic = 0 →
    isValidMd cfg₀.version (superblockAt K cfg₀ disk) cfg₀.mdIndex cfg₀.bdSize = .ok false

/-- `cfg` as the process starts. -/
structure Fresh (cfg₀ : Format) : Prop where
  md : cfg₀.md = zeroMd
  lkBdSize : cfg₀.lkBdSize = 0
  wipeFixed : cfg₀.wipeFixed = 0
  wipeFlex : cfg₀.wipeFlex = 0

theorem Opened.atStart {disk : Mem} (h : Opened K cfg₀ disk cfg) (hfresh : Fresh cfg₀) :
    AtStart K cfg₀ disk cfg := by
  obtain ⟨mu, hs⟩ := h.spec
  obtain ⟨hver, hidx, hbd, hmd, hal, hbm⟩ := hs.offsets
  have hmu : cfg.maxUsableSect = mu := congrArg Format.maxUsableSect hs.format
  have hmagic : cfg.md.magic = (superblockAt K cfg₀ disk).magic := by rw [hs.md]; rfl
  refine ⟨⟨hver, hidx, hbd, hmd, (congrArg Format.wipeFlex hs.format).trans hfresh.wipeFlex,
    .inl ((congrArg Format.wipeFixed hs.format).trans hfresh.wipeFixed), fun _ => ?_, fun _ => ?_⟩,
    h.size, fun h0 => ?_⟩
  · have hst : Storable cfg₀.version (superblockAt K cfg₀ disk) := storable_decodeMd _ _
    rw [hver]
    refine hst.congr ?_
    rw [hs.md]
    exact ⟨rfl, rfl, rfl, rfl, rfl, rfl, rfl, rfl⟩
  · rw [hmu, ← hs.usable]
    refine maxUsableSectors_congr (.refl _) hver hidx hmd ?_ ?_
    · show toU64 (cfg.mdOffset + _) = _
      rw [hmd]
      rfl
    · show toU64 (cfg.mdOffset + _) = _
      rw [hmd]
      rfl
  · have hv := h.valid
    rw [hmagic] at h0
    rw [isValidMd, h0] at hv
    cases hver₀ : cfg₀.version <;> rw [hver₀] at hv <;> cases hv

/-- Looking at the last known location changes `lk_bd` and the superblock only. -/
theorem v08CheckForResize_kept {lk : Option (Nat × BitVec 64)} (hsmall : cfg.bdSize < 2 ^ 63)
    (h : v08CheckForResize K o lk cfg w = (.ok cfg', w')) :
    ∃ size uuid md, cfg' = { cfg with lkBdSize := size, lkBdUuid := uuid, md := md } ∧
      (size = 0 → md = cfg.md) := by
  unfold v08CheckForResize at h
  obtain ⟨u, w1, _, h⟩ := Run.of_bind_ok h
  split at h
  · cases h
    exact ⟨_, _, _, rfl, fun _ => rfl⟩
  · match lk with
    | none =>
      cases h
      exact ⟨_, _, _, rfl, fun _ => rfl⟩
    | some (size, uuid) =>
      simp only at h
      split at h
      · cases h
        exact ⟨_, _, _, rfl, fun _ => rfl⟩
      · split at h
        · obtain ⟨u, w2, hread, h⟩ := Run.of_bind_ok h
          obtain ⟨hin, _⟩ := of_preadOrDie_ok hread
          obtain ⟨buf, w3, _, h⟩ := Run.of_bind_ok h
          obtain ⟨ok, w4, _, h⟩ := Run.of_bind_ok h
          have hne : size ≠ 0 := by
            rintro rfl
            unfold v07StyleMdGetByteOffset roundDown toU64 at hin
            simp only at hin
            omega
          cases h
          split
          · exact ⟨size, uuid, _, rfl, fun h0 => absurd h0 hne⟩
          · exact ⟨size, uuid, _, rfl, fun h0 => absurd h0 hne⟩
        · cases h
          exact ⟨_, _, _, rfl, fun _ => rfl⟩

/-- **What opening leaves.**  At the last known location: a superblock to move, or to forget. -/
theorem mdOpen_start {lk : Option (Nat × BitVec 64)} {rc : MdOpenRc} (hver : cfg₀.version ≠ .v07)
    (hfresh : Fresh cfg₀) (hsmall : cfg₀.bdSize < 2 ^ 63)
    (h : mdOpen K o lk cfg₀ w = (.ok (rc, cfg), w')) :
    w'.disk = w.disk ∧
      (rc ≠ .validMdFoundAtLastKnownLocation → AtStart K cfg₀ w.disk cfg) ∧
      (rc = .validMdFoundAtLastKnownLocation →
        AtStart K cfg₀ w.disk { cfg with md := zeroMd } ∧ OpenedAtLastKnown K cfg w.disk) := by
  have hdisk := (mdOpen_silent cfg₀).disk_eq h
  refine ⟨hdisk, ?_⟩
  by_cases hfound : rc = .validMdFound
  · subst hfound
    obtain ⟨hop, _⟩ := (opened_iff hver).1 h
    exact ⟨fun _ => hop.atStart hfresh, fun hrc => by cases hrc⟩
  · have h' := h
    rw [mdOpen, if_neg hver] at h'
    have hopen := h'
    obtain ⟨⟨rc1, cfg1⟩, w1, h1, h'⟩ := Run.of_bind_ok h'
    have hrc1 : rc1 ≠ .validMdFound := by
      rintro rfl
      rw [if_pos rfl] at h'
      cases h'
      exact hfound rfl
    rw [if_neg hrc1] at h'
    obtain ⟨hsize, _, hinvalid, rfl⟩ := of_v07StyleMdOpen_notFound K h1 hrc1
    obtain ⟨cfg2, w2, hcheck, h'⟩ := Run.of_bind_ok h'
    obtain ⟨size, uuid, md, rfl, hmd⟩ := v08CheckForResize_kept (by exact hsmall) hcheck
    have hkept : ∀ md : MdCpu, md.magic = 0 → AtStart K cfg₀ w.disk { cfg₀ with
        mdOffset := v07StyleMdGetByteOffset cfg₀.mdIndex cfg₀.bdSize, lkBdSize := size,
        lkBdUuid := uuid, md := md } := fun md h0 =>
      ⟨⟨rfl, rfl, rfl, rfl, hfresh.wipeFlex, .inl hfresh.wipeFixed, fun hne => absurd h0 hne,
        fun hne => absurd h0 hne⟩, hsize, fun _ => hinvalid⟩
    split at h'
    · rename_i hnone
      cases h'
      refine ⟨fun _ => hkept md ?_, fun hrc => by cases hrc⟩
      rcases hnone with h0 | h0
      · rw [hmd h0]
        show cfg₀.md.magic = 0
        rw [hfresh.md]
        rfl
      · exact h0
    · cases h'
      refine ⟨fun hrc => absurd rfl hrc, fun _ => ⟨hkept zeroMd rfl, ?_⟩⟩
      rw [← hdisk]
      exact v08MdOpen_lastKnown K hopen

/-! ## Looking for other metadata -/

theorem checkForExistingData_silent (c : Format) : (checkForExistingData X o c).Silent := by
  unfold checkForExistingData
  refine (preadOrDie_silent _ _ _).bind fun _ => Run.silent_getBuf.bind fun buf => ?_
  refine .ite (Run.silent_pure _) ((liftExcept_silent _).bind fun _ => ?_)
  refine .ite (.ite (Run.silent_pure _) (Run.silent_stop _)) ?_
  refine .ite (.ite (Run.silent_pure _) (Run.silent_stop _)) ?_
  exact .ite (Run.silent_stop _) (.ite (Run.silent_pure _) (Run.silent_stop _))

theorem of_detectMd {buf : Mem} {llSize : Nat} {idx : MdIndex} {src : MdFormat} {md : MdCpu}
    (h : detectMd K buf llSize idx = .ok (some (src, md))) :
    md = decodeMd K src buf ∧ isValidMd src md idx llSize = .ok true := by
  obtain ⟨ok7, h7, h⟩ := except_bind_ok_iff.1 h
  obtain ⟨ok8, h8, h⟩ := except_bind_ok_iff.1 h
  obtain ⟨ok9, h9, h⟩ := except_bind_ok_iff.1 h
  cases ok9 with
  | true => cases h; exact ⟨rfl, h9⟩
  | false =>
    cases ok8 with
    | true => cases h; exact ⟨rfl, h8⟩
    | false =>
      cases ok7 with
      | true => cases h; exact ⟨rfl, h7⟩
      | false => cases h

/-- Metadata that is in place, with a superblock of format `src` at `off`. -/
structure InPlace (K : OnDisk9) (disk : Mem) (off : Nat) (bdSize : Nat) (idx : MdIndex)
    (src : MdFormat) (md : MdCpu) : Prop where
  decoded : md = decodeMd K src fun a => disk (off + a)
  valid : isValidMd src md idx bdSize = .ok true

theorem of_detectMd_read {off llSize : Nat} {idx : MdIndex} {src : MdFormat} {md : MdCpu}
    (h : detectMd K (w.read 4096 off).buf llSize idx = .ok (some (src, md))) :
    InPlace K w.disk off llSize idx src md := by
  obtain ⟨hmd, hvalid⟩ := of_detectMd h
  exact ⟨hmd.trans (decodeMd_read K src w off), hvalid⟩

/-- An external superblock is valid at every index, or at none. -/
theorem isValidMd_external {f : MdFormat} {md : MdCpu} {idx idx' : MdIndex} {llSize : Nat}
    (h : idx ≠ .flexInt) (h' : idx' ≠ .flexInt) :
    isValidMd f md idx llSize = isValidMd f md idx' llSize := by
  unfold isValidMd
  rw [if_neg h, if_neg h']

/-- A superblock of the 9 format that is in place has a log. -/
def SourceStriping (K : OnDisk9) (cfg₀ : Format) (disk : Mem) : Prop :=
  isValidMd .v09 (decodeMd K .v09 fun a => disk (superblockOffset cfg₀ + a)) cfg₀.mdIndex
      cfg₀.bdSize = .ok true →
    StripingSet (decodeMd K .v09 fun a => disk (superblockOffset cfg₀ + a))

theorem stripingSet_v07 (m : Mem) :
    (decodeMd K .v07 m).maxPeers = 1 ∧ StripingSet (decodeMd K .v07 m) :=
  ⟨rfl, fun h => absurd h.1 (show (1 : BitVec 32) ≠ 0 by decide)⟩

/-- Converting or replacing what is in place. -/
theorem convertOrReplace_ready {bitsSet : Bool} {src : MdFormat} {md : MdCpu} {disk : Mem}
    (h : Ready cfg₀ cfg) (hver : cfg₀.version ≠ .v07) (hne : cfg.version ≠ src)
    (hsrc : SourceStriping K cfg₀ disk) (hmd : src ≠ .v09 → ∃ m, md = decodeMd K src m)
    (h09 : src = .v09 → InPlace K disk (superblockOffset cfg₀) cfg₀.bdSize cfg₀.mdIndex .v09 md)
    (hrun : convertOrReplace X o bitsSet src md cfg w = (.ok cfg', w')) : Ready cfg₀ cfg' := by
  unfold convertOrReplace at hrun
  split at hrun
  · obtain ⟨hconv, _⟩ := of_liftExcept_ok hrun
    refine convertMd_ready h hver hne (fun h7 => ?_) (fun _ h9 => ?_) hconv
    · subst h7
      obtain ⟨m, rfl⟩ := hmd (by decide)
      exact stripingSet_v07 m
    · have hin := h09 h9
      have hvalid := hin.valid
      rw [hin.decoded] at hvalid ⊢
      exact hsrc hvalid
  · split at hrun
    · cases hrun
      exact h.clearMagic
    · cases hrun

/-- Where the fixed-size internal metadata of 0.7 can be. -/
def FixedInside (bdSize : Nat) : Prop :=
  0 ≤ toS64 (v07StyleMdGetByteOffset .internal bdSize) ∧
    toS64 (v07StyleMdGetByteOffset .internal bdSize) < (bdSize : Int) - 4096

theorem findFixedMd_silent (c : Format) : (findFixedMd K c).Silent := by
  unfold findFixedMd
  refine Run.Silent.ite ?_ (Run.silent_pure _)
  exact (preadOrDie_silent _ _ _).bind fun _ => Run.silent_getBuf.bind fun _ =>
    (liftExcept_silent _).bind fun _ => Run.silent_pure _

theorem of_findFixedMd {md : MdCpu} (h : findFixedMd K cfg w = (.ok (some md), w')) :
    FixedInside cfg.bdSize ∧ ∃ m, md = decodeMd K .v07 m := by
  unfold findFixedMd at h
  simp only at h
  split at h
  · rename_i hin
    obtain ⟨u, w1, _, h⟩ := Run.of_bind_ok h
    obtain ⟨buf, w2, _, h⟩ := Run.of_bind_ok h
    obtain ⟨ok, w3, _, h⟩ := Run.of_bind_ok h
    cases ok with
    | false => cases h
    | true =>
      cases h
      exact ⟨hin, _, rfl⟩
  · cases h

theorem of_findInternalMd {src : MdFormat} {md : MdCpu} {fixed : Bool}
    (h : findInternalMd K cfg w = (.ok (some (src, md, fixed)), w')) :
    (src = .v07 ∧ fixed = true ∧ FixedInside cfg.bdSize ∧ ∃ m, md = decodeMd K .v07 m) ∨
      (fixed = false ∧ InPlace K w.disk (v07StyleMdGetByteOffset .flexInt cfg.bdSize) cfg.bdSize
        .flexInt src md) := by
  obtain ⟨fixedMd, w1, hfixed, h⟩ := Run.of_bind_ok h
  have hdisk := (findFixedMd_silent cfg).disk_eq hfixed
  cases fixedMd with
  | some md' =>
    cases h
    obtain ⟨hin, hm⟩ := of_findFixedMd hfixed
    exact .inl ⟨rfl, rfl, hin, hm⟩
  | none =>
    obtain ⟨u, w2, hread, h⟩ := Run.of_bind_ok h
    obtain ⟨_, rfl⟩ := of_preadOrDie_ok hread
    obtain ⟨buf, w3, hbuf, h⟩ := Run.of_bind_ok h
    cases hbuf
    obtain ⟨found, w4, hlift, h⟩ := Run.of_bind_ok h
    obtain ⟨hdetect, rfl⟩ := of_liftExcept_ok hlift
    cases found with
    | none => cases h
    | some found =>
      cases h
      rw [← hdisk]
      exact .inr ⟨rfl, of_detectMd_read hdetect⟩

/-- The 0.7 superblock of fixed-size metadata lies in front of flexible metadata. -/
theorem FixedInside.below {bdSize : Nat} (h : FixedInside bdSize) (hsize : SO_MUCH ≤ bdSize)
    (hsmall : bdSize < 2 ^ 63) :
    v07StyleMdGetByteOffset .internal bdSize + 4096 ≤ v07StyleMdGetByteOffset .flexInt bdSize := by
  obtain ⟨h0, h1⟩ := h
  unfold SO_MUCH at hsize
  have hlt : v07StyleMdGetByteOffset .internal bdSize < 2 ^ 63 := by
    by_contra hc
    have hb : v07StyleMdGetByteOffset .internal bdSize < 2 ^ 64 := by
      unfold v07StyleMdGetByteOffset toU64
      simp only
      omega
    unfold toS64 at h0
    rw [Int.bmod_def] at h0
    simp only [Nat.reducePow] at h0
    omega
  rw [toS64_of_lt hlt] at h1
  unfold v07StyleMdGetByteOffset roundDown toU64 MD_RESERVED_SECT_07 at *
  simp only at *
  omega

/-- The wipe of fixed-size metadata stays in front of the new superblock. -/
theorem Ready.setWipes {src : MdFormat} {fixed : Bool} (h : Ready cfg₀ cfg)
    (hver : cfg₀.version ≠ .v07) (hflex : cfg₀.mdIndex = .flexInt)
    (hfixed : fixed = true → FixedInside cfg₀.bdSize) (hsize : SO_MUCH ≤ cfg₀.bdSize)
    (hsmall : cfg₀.bdSize < 2 ^ 63) : Ready cfg₀ (setWipes src fixed cfg) := by
  unfold Meta.setWipes
  split
  · rename_i hwipe
    refine ⟨h.version, h.mdIndex, h.bdSize, h.mdOffset, h.wipeFlex, .inr ?_, h.storable, h.usable⟩
    show v07StyleMdGetByteOffset .internal cfg.bdSize + 4096 ≤ cfg.mdOffset
    rw [h.bdSize, h.mdOffset, superblockOffset, hflex]
    exact (hfixed hwipe.2.1).below hsize hsmall
  · split
    · rename_i h7
      exact absurd (h.version.symm.trans h7.2.1) hver
    · exact h

/-- **Whatever is in place**, `cfg` is ready for a new superblock. -/
theorem checkMdFlavours_ready {bitsSet : Bool} (hstart : AtStart K cfg₀ w.disk cfg)
    (hver : cfg₀.version ≠ .v07) (hidx : cfg₀.mdIndex ≠ .internal) (hsmall : cfg₀.bdSize < 2 ^ 63)
    (hsrc : SourceStriping K cfg₀ w.disk)
    (h : checkMdFlavours K X o bitsSet cfg w = (.ok cfg', w')) : Ready cfg₀ cfg' := by
  have hready := hstart.ready
  unfold checkMdFlavours at h
  by_cases hflex : cfg₀.mdIndex = .flexInt
  · rw [if_pos (.inr (hready.mdIndex.trans hflex))] at h
    unfold checkInternalMdFlavours at h
    obtain ⟨u, w1, hassert, h1⟩ := Run.of_bind_ok h
    obtain ⟨_, rfl⟩ := assert_ok hassert
    obtain ⟨found, w2, hfind, h2⟩ := Run.of_bind_ok h1
    match found with
    | none =>
      cases h2
      exact hready
    | some (src, md, fixed) =>
      have hfound := of_findInternalMd hfind
      rw [hready.bdSize] at hfound
      obtain ⟨cfg2, w3, hreplace, h3⟩ := Run.of_bind_ok h2
      cases h3
      have hready2 : Ready cfg₀ cfg2 := by
        unfold replaceInternalMd at hreplace
        split at hreplace
        · split at hreplace
          · cases hreplace
          · split at hreplace
            · cases hreplace
              exact hready.clearMagic
            · cases hreplace
        · rename_i hne
          refine convertOrReplace_ready hready hver hne hsrc (fun h9 => ?_) (fun h9 => ?_) hreplace
          · rcases hfound with ⟨rfl, _, _, hm⟩ | ⟨_, hin⟩
            · exact hm
            · exact ⟨_, hin.decoded⟩
          · subst h9
            rcases hfound with ⟨h7, _⟩ | ⟨_, hin⟩
            · cases h7
            · rw [superblockOffset, hflex]
              exact hin
      refine hready2.setWipes hver hflex (fun hfx => ?_) hstart.size hsmall
      rcases hfound with ⟨_, _, hin, _⟩ | ⟨hno, _⟩
      · exact hin
      · rw [hno] at hfx
        cases hfx
  · rw [if_neg (by rw [hready.mdIndex, not_or]; exact ⟨hidx, hflex⟩)] at h
    unfold checkExternalMdFlavours at h
    split at h
    · split at h
      · cases h
        exact hready.clearMagic
      · cases h
    · rename_i hmagic
      rw [not_not] at hmagic
      obtain ⟨u, w1, hread, h⟩ := Run.of_bind_ok h
      obtain ⟨_, rfl⟩ := of_preadOrDie_ok hread
      obtain ⟨buf, w2, hbuf, h⟩ := Run.of_bind_ok h
      cases hbuf
      obtain ⟨found, w3, hlift, h⟩ := Run.of_bind_ok h
      obtain ⟨hdetect, rfl⟩ := of_liftExcept_ok hlift
      match found with
      | none =>
        cases h
        exact hready
      | some (src, md) =>
        have hin := of_detectMd_read hdetect
        rw [hready.bdSize, hready.mdOffset] at hin
        -- the own format was looked for already
        have hne : cfg.version ≠ src := by
          rintro rfl
          have hno := hstart.notFound hmagic
          have hyes := hin.valid
          rw [hin.decoded, isValidMd_external (by decide) hflex, hready.version] at hyes
          unfold superblockAt at hno
          rw [hyes] at hno
          cases hno
        refine convertOrReplace_ready hready hver hne hsrc (fun _ => ⟨_, hin.decoded⟩)
          (fun h9 => ?_) h
        subst h9
        exact ⟨hin.decoded, (isValidMd_external hflex (show MdIndex.flexExt ≠ .flexInt by decide)).trans
          hin.valid⟩

/-! ## Writing -/

/-- The striping `main()` accepts: "invalid (too small) al-stripe* settings" otherwise. -/
def StripeOptionsAdmitted (o : Options) : Prop := 32 / 4 ≤ (o.alStripes * o.alStripeSize4k).toNat

theorem initializedMd_storable {maxPeers : Nat} {f : MdFormat} (h : StripeOptionsAdmitted o) :
    Storable f (initializedMd o maxPeers f) := by
  refine ⟨fun hf => ?_, fun hf h0 => ?_⟩
  · subst hf
    rfl
  · subst hf
    unfold StripeOptionsAdmitted at h
    rw [show o.alStripes = 0 from h0.1,
      show (0 * o.alStripeSize4k : BitVec 32) = 0 from BitVec.zero_mul] at h
    exact absurd h (by decide)

theorem prepareMd_complete {maxPeers : Nat} {bitsSet : Bool} {prepared : Bool × Format}
    (hstart : AtStart K cfg₀ w.disk cfg) (hver : cfg₀.version ≠ .v07)
    (hidx : cfg₀.mdIndex ≠ .internal) (hsmall : cfg₀.bdSize < 2 ^ 63)
    (hsrc : SourceStriping K cfg₀ w.disk) (hstripes : StripeOptionsAdmitted o)
    (h : prepareMd K A X o maxPeers bitsSet cfg w = (.ok prepared, w')) :
    Complete cfg₀ prepared.2 := by
  obtain ⟨cfg1, w1, hcheck, h⟩ := Run.of_bind_ok h
  have hready := checkMdFlavours_ready hstart hver hidx hsmall hsrc hcheck
  split at h
  · obtain ⟨cfg2, w2, hinit, h⟩ := Run.of_bind_ok h
    cases h
    obtain ⟨cfg3, w3, hlift, hinit⟩ := Run.of_bind_ok hinit
    obtain ⟨hre, _⟩ := of_liftExcept_ok hlift
    obtain ⟨_, w4, _, hinit⟩ := Run.of_bind_ok hinit
    obtain ⟨_, w5, _, hinit⟩ := Run.of_bind_ok hinit
    obtain ⟨_, w6, _, hinit⟩ := Run.of_bind_ok hinit
    cases hinit
    refine hready.relaid (reInitializeMdOffsets_relaid hre) ?_
    have hst : Storable cfg₀.version (initializedMd o maxPeers cfg1.version) := by
      rw [hready.version]
      exact initializedMd_storable hstripes
    exact ⟨hst.maxPeers, hst.striping⟩
  · rename_i hmagic
    obtain ⟨_, w2, _, h⟩ := Run.of_bind_ok h
    cases h
    exact ⟨hready, hready.storable hmagic, hready.usable hmagic⟩

/-- The option fields leave the superblock complete. -/
theorem Complete.setMd {md : MdCpu} (h : Complete cfg₀ cfg) (hl : SameLayout cfg.md md) :
    Complete cfg₀ { cfg with md := md } := by
  have hr := h.ready
  have hst : Storable cfg.version md := h.storable.congr hl
  have husable : maxUsableSectors (setByteOffsets { cfg with md := md } md) =
      .ok cfg.maxUsableSect := by
    rw [← h.usable]
    refine maxUsableSectors_congr hl rfl rfl rfl ?_ ?_
    · show toU64 (cfg.mdOffset + md.alOffset.toInt * 512) = _
      rw [hl.alOffset]
      rfl
    · show toU64 (cfg.mdOffset + md.bmOffset.toInt * 512) = _
      rw [hl.bmOffset]
      rfl
  exact ⟨⟨hr.version, hr.mdIndex, hr.bdSize, hr.mdOffset, hr.wipeFlex, hr.wipeFixed, fun _ => hst,
    fun _ => husable⟩, hst, husable⟩

theorem wipeBlock_frame {off m : Nat} (hd : o.dryRun = false) (hoff : off = 0 ∨ off + 4096 ≤ m)
    (h : wipeBlock o cfg off w = (.ok (), w')) : ∀ a, m ≤ a → w'.disk a = w.disk a := by
  intro a ha
  unfold wipeBlock at h
  split at h
  · rename_i hne
    obtain ⟨_, _, rfl⟩ := of_pwriteOrDie_ok hd h
    rw [World.write_disk, blit_out (by omega)]
  · cases h
    rfl

/-- The wipes do not touch the new superblock. -/
theorem wipeAfterConvert_frame (hr : Ready cfg₀ cfg) (hd : o.dryRun = false)
    (h : wipeAfterConvert o cfg w = (.ok (), w')) :
    ∀ a, cfg.mdOffset ≤ a → w'.disk a = w.disk a := by
  intro a ha
  obtain ⟨u, w1, hbuf, h⟩ := Run.of_bind_ok h
  cases hbuf
  obtain ⟨u, w2, h1, h2⟩ := Run.of_bind_ok h
  rw [wipeBlock_frame hd (.inl hr.wipeFlex) h2 a ha, wipeBlock_frame hd hr.wipeFixed h1 a ha,
    World.mapBuf_disk]

/-- What a successful run leaves: a superblock the next open will look at, as `cfg` has it. -/
structure Created (K : OnDisk9) (cfg₀ cfg : Format) (disk : Mem) : Prop where
  written : Written cfg₀ cfg
  superblock : ∀ a < 4096, disk (cfg.mdOffset + a) = encodeMd K cfg.version cfg.md a

theorem createMdHere_created {c : CreateOptions} {maxPeers : Nat} {bitsSet : Bool}
    (hstart : AtStart K cfg₀ w.disk cfg) (hver : cfg₀.version ≠ .v07)
    (hidx : cfg₀.mdIndex ≠ .internal) (hsmall : cfg₀.bdSize < 2 ^ 63) (hd : o.dryRun = false)
    (hsrc : SourceStriping K cfg₀ w.disk) (hstripes : StripeOptionsAdmitted o)
    (h : createMdHere K A X o c maxPeers bitsSet cfg w = (.ok (true, cfg'), w')) :
    Created K cfg₀ cfg' w'.disk := by
  obtain ⟨prepared, w1, hprepare, h1⟩ := Run.of_bind_ok h
  have hcomplete := prepareMd_complete hstart hver hidx hsmall hsrc hstripes hprepare
  obtain ⟨md, w2, hlift, h2⟩ := Run.of_bind_ok h1
  obtain ⟨hoptions, rfl⟩ := of_liftExcept_ok hlift
  have hfinal := hcomplete.setMd (setOptions_layout hoptions)
  obtain ⟨ok, w3, hwrite, h3⟩ := Run.of_bind_ok h2
  cases ok with
  | false => cases h3
  | true =>
    obtain ⟨hvalid, hin, hbytes⟩ := of_mdCpuToDisk_ok K hd hwrite
    obtain ⟨u, w4, hwipe, h4⟩ := Run.of_bind_ok h3
    cases h4
    have hr := hfinal.ready
    refine ⟨⟨hr.version, hr.mdIndex, hr.bdSize, hr.mdOffset, hstart.size, ?_, hvalid,
      hfinal.storable, hfinal.usable⟩, fun a ha => ?_⟩
    · rw [← hr.mdOffset, ← hr.bdSize]
      exact hin
    · rw [wipeAfterConvert_frame hr hd hwipe _ (Nat.le_add_right _ _)]
      exact hbytes a ha

/-- Moving the metadata leaves a superblock at its new place. -/
theorem moveMd_created (hopen : OpenedAtLastKnown K cfg w.disk)
    (hmd₀ : Ready cfg₀ { cfg with md := zeroMd }) (hsize : SO_MUCH ≤ cfg₀.bdSize) (hd : o.dryRun = false)
    (h : moveMd K X o cfg w = (.ok (true, cfg'), w')) : Created K cfg₀ cfg' w'.disk := by
  obtain ⟨u, w1, hcheck, h1⟩ := Run.of_bind_ok h
  have hdisk := (checkForExistingData_silent cfg).disk_eq hcheck
  rw [← hdisk] at hopen
  obtain ⟨⟨ok, cfg1⟩, w2, hmove, h2⟩ := Run.of_bind_ok h1
  cases ok with
  | false => cases h2
  | true =>
    obtain ⟨u, w3, hwipe, h3⟩ := Run.of_bind_ok h2
    cases h3
    have hgrow : cfg.lkBdSize ≤ cfg.bdSize := by
      obtain ⟨u, w4, ha, hm⟩ := Run.of_bind_ok hmove
      obtain ⟨u, w5, hb, hm⟩ := Run.of_bind_ok hm
      obtain ⟨u, w6, hc, hm⟩ := Run.of_bind_ok hm
      exact (assert_ok hc).1
    obtain ⟨bm', hfit⟩ := layoutsFit_of_moveToNewLocation hopen hgrow hd hmove
    obtain ⟨bm, hv, hm⟩ := flexInt_moves hopen hgrow hfit
    obtain ⟨w₁, hrun, _, _, hbytes⟩ := moveToNewLocation_ok w1 hopen hgrow hfit hd hm
    rw [hmove] at hrun
    cases hrun
    obtain ⟨w₂, hwiped, hframe⟩ := (wipeOld_ok_iff hm hd w2).1
      ((wipeOld_ok_iff hm hd w2).2 (by rw [hwipe]))
    rw [hwipe] at hwiped
    cases hwiped
    have e2 := hm.newAl_eq
    have e3 := hm.newMd_eq
    have hv' := isValidMd_moved hopen hfit
    have hidx : cfg.mdIndex = .flexInt := hopen.mdIndex
    have hst : Storable cfg.version cfg.md := by
      rw [hopen.md]
      exact storable_decodeMd _ _
    refine ⟨⟨hmd₀.version, hmd₀.mdIndex, hmd₀.bdSize, hmd₀.mdOffset, hsize, ?_, ?_,
      ⟨hst.maxPeers, hst.striping⟩, ?_⟩, fun a ha => ?_⟩
    · rw [← show cfg.mdOffset = superblockOffset cfg₀ from hmd₀.mdOffset,
        ← show cfg.bdSize = cfg₀.bdSize from hmd₀.bdSize]
      exact hm.newEnd
    · show isValidMd cfg.version (flexIntFormat cfg bm').md cfg.mdIndex cfg.bdSize = .ok true
      rw [hidx]
      exact hv'
    · unfold maxUsableSectors
      rw [if_pos (.inr hidx)]
      rfl
    · show w'.disk ((flexIntFormat cfg bm').mdOffset + a) = _
      rw [hframe _ (by omega)]
      exact hbytes a ha

/-- **A run that reports success has written its superblock** where the next open looks. -/
theorem metaCreateMd_created {c : CreateOptions} {lk : Option (Nat × BitVec 64)} {arg : Nat}
    (hfresh : Fresh cfg₀) (hver : cfg₀.version ≠ .v07) (hidx : cfg₀.mdIndex ≠ .internal)
    (hsmall : cfg₀.bdSize < 2 ^ 63) (hd : o.dryRun = false) (hstripes : StripeOptionsAdmitted o)
    (hsrc : SourceStriping K cfg₀ w.disk)
    (h : metaCreateMd K A X o c lk arg cfg₀ w = (.ok (true, cfg), w')) :
    Created K cfg₀ cfg w'.disk := by
  unfold metaCreateMd at h
  generalize (if cfg₀.version = .v09 then arg else 1) = maxPeers at h
  simp only at h
  split at h
  · cases h
  · obtain ⟨⟨rc, cfg1⟩, w1, hopen, h1⟩ := Run.of_bind_ok h
    obtain ⟨hdisk, hhere, hlast⟩ := mdOpen_start hver hfresh hsmall hopen
    rw [← hdisk] at hhere hlast hsrc
    by_cases hrc : rc = .validMdFoundAtLastKnownLocation
    · rw [if_pos hrc] at h1
      obtain ⟨hstart, hlk⟩ := hlast hrc
      split at h1
      · cases h1
      · split at h1
        · exact moveMd_created hlk hstart.ready hstart.size hd h1
        · exact createMdHere_created hstart hver hidx hsmall hd hsrc hstripes h1
    · rw [if_neg hrc] at h1
      exact createMdHere_created (hhere hrc) hver hidx hsmall hd hsrc hstripes h1

end Run

/-! ## An empty device -/

theorem sector_pos : 0 < 512 := by decide

theorem sector_dvd_block : 512 ∣ 4096 := by decide

/-- A device of 1 MiB for 8.x metadata, and what `md_initialize` makes of `cfg`. -/
def emptyCfg : Format := newCfg .v08 ⟨512, sector_pos, sector_dvd_block⟩ .flexExt (2 ^ 20)

def emptyOptions : Options := { initializeBitmapMode := .skip }

def emptyInitialized : Format :=
  { emptyCfg with
    md := { initializedMd {} 1 .v08 with
      alNrExtents := 257
      bmBytesPerBit := 4096
      mdSizeSect := 2048
      alOffset := 8
      bmOffset := 72 }
    alOffset := 4096
    bmOffset := 36864
    bmBytes := 1011712
    maxUsableSect := 64749568 }

/-- Nothing was written yet, and nothing but zeros read. -/
structure ZeroWorld (w : World) : Prop where
  disk : w.disk = fun _ => 0
  buf : w.buf = fun _ => 0

/-- Nothing but zeros where `create-md` looks for what is there, and in the buffer. -/
structure StartsZero (w : World) : Prop where
  disk : ∀ a < SO_MUCH, w.disk a = 0
  buf : w.buf = fun _ => 0

theorem ZeroWorld.startsZero {w : World} (h : ZeroWorld w) : StartsZero w :=
  ⟨fun a _ => congrFun h.disk a, h.buf⟩

theorem StartsZero.read {w : World} (h : StartsZero w) {n : Nat} (hn : n ≤ SO_MUCH) :
    StartsZero (w.read n 0) := by
  refine ⟨h.disk, ?_⟩
  rw [World.read_buf, h.buf]
  funext a
  by_cases ha : a < n
  · rw [blit_in (Nat.zero_le _) (by omega)]
    exact h.disk _ (by omega)
  · exact blit_out (by omega)

theorem isValidMd_zero (f : MdFormat) :
    isValidMd f (decodeMd packedOnDisk9 f fun _ => 0) .flexExt (2 ^ 20) = .ok false := by
  have hmagic : mdMagicOk f (decodeMd packedOnDisk9 f fun _ => 0).magic = false := by
    cases f <;> decide +kernel
  rw [isValidMd, hmagic]
  rfl

section StartsZero

variable {w : World} (X : Outside) (o : Options)

theorem mdOpen_startsZero (h : StartsZero w) :
    ∃ w', StartsZero w' ∧ w'.disk = w.disk ∧
      mdOpen packedOnDisk9 o none emptyCfg w = (.ok (.noValidMdFound, emptyCfg), w') := by
  refine ⟨w.read 4096 0, h.read (by decide), rfl, ?_⟩
  have hdecode : decodeMd packedOnDisk9 .v08 (fun a => w.disk (0 + a)) =
      decodeMd packedOnDisk9 .v08 fun _ => 0 :=
    decodeMd_congr packedOnDisk9 fun a ha => h.disk _ (by unfold SO_MUCH; omega)
  have hinvalid : isValidMd emptyCfg.version (decodeMd packedOnDisk9 emptyCfg.version fun a =>
      w.disk (emptyCfg.mdOffset + a)) emptyCfg.mdIndex emptyCfg.bdSize = .ok false :=
    (congrArg (isValidMd .v08 · .flexExt (2 ^ 20)) hdecode).trans (isValidMd_zero .v08)
  have hopen : v07StyleMdOpen packedOnDisk9 emptyCfg w =
      (.ok (.noValidMdFound, emptyCfg), w.read 4096 0) := by
    unfold v07StyleMdOpen
    rw [if_neg (by decide)]
    simp only
    rw [if_neg (by decide)]
    exact (Run.bind_ok (mdDiskToCpu_ok packedOnDisk9 (by decide) w hinvalid)).trans rfl
  have hcheck : ∀ w, v08CheckForResize packedOnDisk9 o none emptyCfg w = (.ok emptyCfg, w) :=
    fun _ => rfl
  rw [mdOpen, if_neg (by decide)]
  unfold v08MdOpen
  rw [Run.bind_ok hopen, if_neg (by decide), Run.bind_ok (hcheck _)]
  rfl

theorem checkMdFlavours_startsZero (h : StartsZero w) :
    ∃ w', StartsZero w' ∧ w'.disk = w.disk ∧
      checkMdFlavours packedOnDisk9 X o false emptyCfg w = (.ok emptyCfg, w') := by
  have hread := h.read (show 4096 ≤ SO_MUCH by decide)
  refine ⟨w.read 4096 0, hread, rfl, ?_⟩
  have hdetect : detectMd packedOnDisk9 (w.read 4096 0).buf (2 ^ 20) .flexExt = .ok none := by
    rw [hread.buf]
    unfold detectMd
    rw [isValidMd_zero .v07, isValidMd_zero .v08, isValidMd_zero .v09]
    rfl
  rw [checkMdFlavours, if_neg (by decide), checkExternalMdFlavours, if_neg (by decide),
    Run.bind_ok (preadOrDie_ok (by decide) w), Run.bind_ok (Run.getBuf_apply _)]
  exact (Run.bind_ok (congrArg (·, _) hdetect)).trans rfl

theorem checkForExistingData_startsZero (h : StartsZero w) :
    checkForExistingData X o emptyInitialized w = (.ok (), w.read SO_MUCH 0) := by
  have hzero : (List.range SO_MUCH).all (fun a => (w.read SO_MUCH 0).buf a = 0) = true := by
    rw [(h.read (Nat.le_refl _)).buf]
    simp
  unfold checkForExistingData
  rw [Run.bind_ok (preadOrDie_ok (by decide) w), Run.bind_ok (Run.getBuf_apply _), hzero, if_pos rfl]
  rfl

end StartsZero

theorem mdInitialize_startsZero (X : Outside) {w : World} (h : StartsZero w) :
    ∃ w', mdInitialize packedAl X emptyOptions 1 emptyCfg w = (.ok emptyInitialized, w') := by
  have hre : reInitializeMdOffsets emptyOptions { emptyCfg with
      md := { initializedMd emptyOptions 1 .v08 with alNrExtents := 257, bmBytesPerBit := 0 } } =
      .ok emptyInitialized := rfl
  have hal : ∃ w', initializeAl packedAl emptyOptions emptyInitialized (w.read SO_MUCH 0) =
      (.ok (), w') := by
    unfold initializeAl
    rw [if_neg (by decide +kernel), Run.bind_ok (Run.modifyBuf_apply _ _),
      pwriteOrDie_ok (by decide +kernel) rfl (by decide +kernel)]
    exact ⟨_, rfl⟩
  obtain ⟨w', hal⟩ := hal
  refine ⟨w', ?_⟩
  unfold mdInitialize mdInitializeCommon
  refine (Run.bind_ok (congrArg (·, w) hre)).trans ?_
  rw [Run.bind_ok (checkForExistingData_startsZero X emptyOptions h), Run.bind_ok hal]
  rfl

theorem metaCreateMd_empty (X : Outside) {w : World} (h : ZeroWorld w) :
    ∃ w', metaCreateMd packedOnDisk9 packedAl X emptyOptions {} none 1 emptyCfg w =
      (.ok (true, emptyInitialized), w') := by
  obtain ⟨w1, hz1, -, hopen⟩ := mdOpen_startsZero emptyOptions h.startsZero
  obtain ⟨w2, hz2, -, hcheck⟩ := checkMdFlavours_startsZero X emptyOptions hz1
  obtain ⟨w3, hinit⟩ := mdInitialize_startsZero X hz2
  have hsizes : setSizes {} false emptyInitialized.md = emptyInitialized.md := by
    refine MdCpu.ext rfl rfl rfl rfl rfl rfl rfl rfl rfl rfl rfl rfl rfl rfl rfl ?_ rfl rfl rfl
    funext i
    exact if_neg (not_not.2 BitVec.zero_and)
  have hoptions : setOptions X {} false emptyInitialized.md = .ok emptyInitialized.md := by
    unfold setOptions
    rw [hsizes]
    rfl
  obtain ⟨w4, hwrite, _⟩ := @mdCpuToDisk_ok packedOnDisk9 emptyOptions emptyInitialized rfl
    (by decide +kernel) (by decide +kernel) (by decide) w3
  have hprepare : prepareMd packedOnDisk9 packedAl X emptyOptions 1 false emptyCfg w1 =
      (.ok (false, emptyInitialized), w3) := by
    unfold prepareMd
    rw [Run.bind_ok hcheck, if_pos (by decide), Run.bind_ok hinit]
    rfl
  have hhere : createMdHere packedOnDisk9 packedAl X emptyOptions {} 1 false emptyCfg w1 =
      (.ok (true, emptyInitialized), w4.mapBuf fun buf => fill buf 0 4096 0) := by
    unfold createMdHere
    rw [Run.bind_ok hprepare]
    refine (Run.bind_ok (congrArg (·, w3) hoptions)).trans ?_
    refine (Run.bind_ok hwrite).trans ?_
    rfl
  refine ⟨w4.mapBuf fun buf => fill buf 0 4096 0, ?_⟩
  unfold metaCreateMd
  simp only
  rw [if_neg (by decide), Run.bind_ok hopen, if_neg (by decide)]
  exact hhere

/-- What happens outside of the run on the empty device: nothing is asked. -/
def nobody : Outside where
  move := false
  changeStripes := false
  overwrite := false
  convert := false
  replace := false
  proceed := false
  existingData := fun _ => (0, 0)
  zerooutBitmapFast := false
  random := fun _ => 0

/-! ## The round trip -/

theorem fresh_newCfg (f : MdFormat) (hs : HardSectSize) (idx : MdIndex) (bdSize : Nat) :
    Fresh (newCfg f hs idx bdSize) := ⟨rfl, rfl, rfl, rfl⟩

/-- **What `create-md` writes, open finds.**  After every run that reports success, the next open
    of the device finds valid metadata with every field the format stores as it was written, the
    effective size clipped; and superblocks that are accepted are so when they are read back. -/
theorem createMd_reopens {K : OnDisk9} {A : AlLayout} {X : Outside} {o o' : Options}
    {c : CreateOptions} {lk lk' : Option (Nat × BitVec 64)} {arg : Nat} {f : MdFormat}
    {hs : HardSectSize} {idx : MdIndex} {bdSize : Nat} {cfg : Format} {w w' : World}
    (hver : f ≠ .v07) (hidx : idx ≠ .internal) (hsmall : bdSize < 2 ^ 63) (hd : o.dryRun = false)
    (hstripes : StripeOptionsAdmitted o)
    (hsrc : SourceStriping K (newCfg f hs idx bdSize) w.disk)
    (hrun : metaCreateMd K A X o c lk arg (newCfg f hs idx bdSize) w = (.ok (true, cfg), w'))
    (heff : idx ≠ .flexInt → EffectiveSizeAdmitted cfg) :
    (∃ cfg' w'', mdOpen K o' lk' (newCfg f hs idx bdSize) (freshWorld w'.disk) =
        (.ok (.validMdFound, cfg'), w'') ∧
      cfg'.maxUsableSect = cfg.maxUsableSect ∧
      cfg'.md = clipMd (normalMd f cfg.md) cfg.maxUsableSect ∧
      encodeMd K f (normalMd f cfg.md) = encodeMd K f cfg.md) ∧
    ∀ md idx' llSize, isValidMd f md idx' llSize = .ok true → Storable f md →
      decodeMd K f (encodeMd K f md) = normalMd f md ∧
        encodeMd K f (decodeMd K f (encodeMd K f md)) = encodeMd K f md ∧
        isValidMd f (decodeMd K f (encodeMd K f md)) idx' llSize = .ok true := by
  have hcreated := metaCreateMd_created (fresh_newCfg f hs idx bdSize) hver hidx hsmall hd hstripes
    hsrc hrun
  have hw := hcreated.written
  have hcfg : cfg.version = f := hw.version
  constructor
  · obtain ⟨cfg', hre⟩ := reopens_of_written hw hver hidx heff hcreated.superblock
    have hopen : mdOpen K o' lk' (newCfg f hs idx bdSize) (freshWorld w'.disk) =
        (.ok (.validMdFound, cfg'), _) := (opened_iff hver).2 ⟨hre.opened, rfl⟩
    have hmd := hre.md
    rw [hcfg] at hmd
    refine ⟨cfg', _, hopen, hre.maxUsableSect, hmd, ?_⟩
    have hst := hw.storable
    rw [hcfg] at hst
    exact encodeMd_normalMd K hver hst (isValidMd_ids hw.valid)
  · intro md idx' llSize hvalid hst
    rw [decodeMd_encodeMd]
    exact ⟨rfl, encodeMd_normalMd K hver hst (isValidMd_ids hvalid),
      isValidMd_normalMd hver hst hvalid⟩

theorem createMd_reopens_megabyte :
    ∃ w', metaCreateMd packedOnDisk9 packedAl nobody emptyOptions {} none 1 emptyCfg
        (freshWorld fun _ => 0) = (.ok (true, emptyInitialized), w') ∧
      ∃ cfg' w'', mdOpen packedOnDisk9 {} none emptyCfg (freshWorld w'.disk) =
          (.ok (.validMdFound, cfg'), w'') ∧
        cfg'.md = clipMd (normalMd .v08 emptyInitialized.md) 64749568 := by
  obtain ⟨w', hrun⟩ := metaCreateMd_empty nobody (w := freshWorld fun _ => 0) ⟨rfl, rfl⟩
  have hsrc : SourceStriping packedOnDisk9 emptyCfg (freshWorld fun _ => 0).disk := by
    intro hvalid
    have hno : isValidMd .v09 (decodeMd packedOnDisk9 .v09 fun _ => 0) .flexExt (2 ^ 20) =
        .ok true := hvalid
    rw [isValidMd_zero] at hno
    cases hno
  obtain ⟨⟨cfg', w'', hopen, _, hmd, _⟩, _⟩ := @createMd_reopens packedOnDisk9 packedAl nobody
    emptyOptions {} {} none none 1 .v08 ⟨512, by decide, by decide⟩ .flexExt (2 ^ 20) _ _ _
    (by decide) (by decide) (by decide) rfl (by unfold StripeOptionsAdmitted; decide) hsrc hrun
    (fun _ => by unfold EffectiveSizeAdmitted; decide)
  exact ⟨w', hrun, cfg', w'', hopen, hmd⟩

/-- What `create-md` writes for the 8.x format on a device of its own of 1 MiB, with
    `--diskful-peers=0`. -/
def diskfulMd : MdCpu :=
  setSizes { diskfulPeerMask := 1 } false { initializedMd {} 1 .v08 with
    alNrExtents := 257
    bmBytesPerBit := 4096
    mdSizeSect := 2048
    alOffset := 8
    bmOffset := 72 }

/-- The same without a striping, and internal metadata for two peers on a device of 1 GiB. -/
def unstripedMd : MdCpu := { diskfulMd with alStripes := 0, alStripeSize4k := 0, bmOffset := 8 }

def twoPeersMd : MdCpu :=
  { diskfulMd with maxPeers := 2, mdSizeSect := 200, alOffset := -64, bmOffset := -192 }

/-- The 8.x format has no place for the flags of the peers, takes no striping for the old default,
    and has one peer. -/
theorem codec_not_lossless :
    (isValidMd .v08 diskfulMd .flexExt (2 ^ 20) = .ok true ∧
      decodeMd packedOnDisk9 .v08 (encodeMd packedOnDisk9 .v08 diskfulMd) ≠ diskfulMd) ∧
    (isValidMd .v08 unstripedMd .flexExt (2 ^ 20) = .ok true ∧
      isValidMd .v08 (decodeMd packedOnDisk9 .v08 (encodeMd packedOnDisk9 .v08 unstripedMd))
        .flexExt (2 ^ 20) = .ok false) ∧
    isValidMd .v08 twoPeersMd .flexInt (2 ^ 30) = .ok true ∧
      isValidMd .v08 (decodeMd packedOnDisk9 .v08 (encodeMd packedOnDisk9 .v08 twoPeersMd))
        .flexInt (2 ^ 30) = .ok false := by
  simp only [decodeMd_encodeMd]
  refine ⟨⟨by decide +kernel, fun h => ?_⟩, ⟨by decide +kernel, by decide +kernel⟩,
    by decide +kernel, by decide +kernel⟩
  have hflags := congrArg (fun md : MdCpu => (md.peers 0).flags) h
  exact absurd hflags (show (0 : BitVec 32) ≠ 0 ||| MDF_PEER_DEVICE_SEEN by decide)

end DrbdUtils.Meta
