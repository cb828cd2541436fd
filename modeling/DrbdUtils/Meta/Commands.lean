import DrbdUtils.Meta.CreateMd
import DrbdUtils.Meta.BitmapDump
import DrbdUtils.Meta.BitmapRestore
import DrbdUtils.Meta.CheckResize
import DrbdUtils.Meta.SetGi

/-!
# The commands of drbdmeta

Every command of `cmds[]`, for the formats that keep their metadata on a device.  A command changes
that device, and the file with the last known size of the minor.

* `metaApplyAlClosing_world`, `metaCheckResize_world` — with the file in it, a command does to the
  device what it did without.
-/

set_option autoImplicit false

namespace DrbdUtils.Meta

open BlockDevice Numerals

/-! ## The last known size -/

/-- The file at `lk_bdev_path()`: none, or its text. -/
abbrev LkFile := Option (List Char)

/-- `struct bdev_info`. -/
structure BdevInfo where
  bdSize : Nat
  bdUuid : BitVec 64
  bdName : Option (List Char)

/-- `%ms`, behind white space. -/
def scanName (text : List Char) : List Char := (text.dropWhile isSpace).takeWhile (!isSpace ·)

/-- `%[\n]uuid: %llx`, behind the name. -/
def scanUuid : List Char → Option (BitVec 64)
  | '\n' :: rest =>
    match rest.dropWhile (· = '\n') with
    | 'u' :: 'u' :: 'i' :: 'd' :: ':' :: rest =>
      let rest := rest.dropWhile isSpace
      if (strtoul 16 rest).2.1 = rest then none else some (BitVec.ofNat 64 (strtoul 16 rest).1)
    | _ => none
  | _ => none

/-- `lk_bdev_load`; `none` when there is no file, or no size in it. -/
def lkBdevLoad : LkFile → Option BdevInfo
  | none => none
  | some text =>
    let rest := (strtoul 10 text).2.1
    if rest = text then none
    else
      let name := scanName rest
      some {
        bdSize := (strtoul 10 text).1
        bdName := if name = [] then none else some name
        bdUuid := if name = [] then 0
          else (scanUuid ((rest.dropWhile isSpace).drop name.length)).getD 0 }

/-- What `lk_bdev_save` writes. -/
def lkBdevSave (bdSize : Nat) (bdUuid : BitVec 64) (bdName : List Char) : List Char :=
  decText bdSize ++ '\t' :: bdName ++ '\n' ::
    if bdUuid ≠ 0 then "uuid:\t".toList ++ uuidText bdUuid ++ ['\n'] else []

/-! ## A run -/

/-- What is fixed for a run: the codecs, what it learns from outside, the options, and how often the
    loops over the bitmap may be entered. -/
structure Invocation where
  onDisk9 : OnDisk9
  alLayout : AlLayout
  outside : Outside
  options : Options
  create : CreateOptions
  nodeId : Fin DRBD_PEERS_MAX
  mdDeviceName : List Char
  /-- The answer to the question of the command itself. -/
  answer : Bool
  fuel : Nat

/-- How a command ended: its return value, and the file it leaves. -/
structure Ended where
  rv : Int
  lkFile : LkFile

section Commands

variable (I : Invocation) (lkFile : LkFile) (cfg : Format)

/-- `cfg->ops->open`. -/
def Invocation.openMd : MetaRun (MdOpenRc × Format) :=
  mdOpen I.onDisk9 I.options ((lkBdevLoad lkFile).map fun bd => (bd.bdSize, bd.bdUuid)) cfg

/-- `v08_md_close`, and `generic_md_close` for 0.7; `updateLkBdev` is `cfg->update_lk_bdev`. -/
def Invocation.close (updateLkBdev : Bool) : LkFile :=
  if cfg.version ≠ .v07 ∧ updateLkBdev ∧ !I.options.dryRun then
    if cfg.mdIndex ≠ .flexInt then none
    else some (lkBdevSave cfg.bdSize cfg.md.deviceUuid I.mdDeviceName)
  else lkFile

/-- Write the superblock and close, at the end of most commands. -/
def writeAndClose : MetaRun Ended := do
  let ok ← mdCpuToDisk I.onDisk9 I.options cfg
  pure ⟨if ok then 0 else 1, I.close lkFile cfg ok⟩

/-! ### Printing -/

/-- Open, print something of `cfg->md`, close. -/
def openAndClose : MetaRun Ended := do
  let opened ← I.openMd lkFile cfg
  if opened.1 ≠ .validMdFound then pure ⟨-1, lkFile⟩
  else pure ⟨0, I.close lkFile opened.2 false⟩

def metaGetGi : MetaRun Ended := openAndClose I lkFile cfg

def metaShowGi : MetaRun Ended := openAndClose I lkFile cfg

def metaDstate : MetaRun Ended := openAndClose I lkFile cfg

def metaReadDevUuid : MetaRun Ended := openAndClose I lkFile cfg

/-- `meta_generic_dump_superblock`, which opens the device even if it is in use. -/
def metaGenericDumpSuperblock : MetaRun Ended := do
  let opened ← ({ I with options := { I.options with force := true } } : Invocation).openMd lkFile cfg
  match opened.1 with
  | .validMdFound => pure ⟨0, I.close lkFile opened.2 false⟩
  | .validMdFoundAtLastKnownLocation => Run.stop (.exit 2)
  | .noValidMdFound => Run.stop (.exit 3)

def metaDumpSuperblock : MetaRun Ended := metaGenericDumpSuperblock I lkFile cfg

def metaHexDumpSuperblock : MetaRun Ended := metaGenericDumpSuperblock I lkFile cfg

/-- The sections of `printf_bm`, `n` of them from `peerNr` on. -/
def printfBmFrom (cfg : Format) : Nat → Nat → MetaRun (List (List DumpItem))
  | 0, _ => pure []
  | n + 1, peerNr => do
    let section_ ← fprintfBm cfg peerNr I.fuel
    let sections ← printfBmFrom cfg n (peerNr + 1)
    pure (section_.1 :: sections)

/-- `printf_bm`. -/
def printfBm : MetaRun (List (List DumpItem)) :=
  printfBmFrom I cfg (if cfg.version = .v09 then cfg.md.maxPeers.toNat else 1) 0

/-- The layout `dump-md` reads the bitmap with. -/
def dumpedFormat (rc : MdOpenRc) : Except Stop Format :=
  if rc = .validMdFoundAtLastKnownLocation then do
    let bmBytes ← bmBytes cfg.md cfg.md.effectiveSize.toNat
    pure { setByteOffsets { cfg with mdOffset := lastKnownOffset cfg } cfg.md with bmBytes := bmBytes }
  else pure cfg

def alIsClean (md : MdCpu) : Bool :=
  DRBD_MD_MAGIC_84_UNCLEAN ≠ md.magic && md.flags &&& MDF_AL_CLEAN ≠ 0

def metaDumpMd : MetaRun Ended := do
  let opened ← I.openMd lkFile cfg
  if opened.1 = .noValidMdFound then pure ⟨-1, lkFile⟩
  else if !alIsClean opened.2.md && !I.options.force then pure ⟨-1, lkFile⟩
  else do
    let cfg ← liftExcept (dumpedFormat opened.2 opened.1)
    let _ ← printfBm I cfg
    pure ⟨0, I.close lkFile cfg false⟩

/-! ### Changing the superblock -/

/-- `cfg->ops->outdate_gi`; `none` when it refuses. -/
def outdateGi : MdFormat → MdCpu → Option MdCpu
  | .v07, _ => none
  | _, md =>
    if md.flags &&& MDF_CONSISTENT = 0 then none
    else some { md with flags := md.flags &&& ~~~MDF_WAS_UP_TO_DATE }

/-- `cfg->ops->invalidate_gi`; nobody looks at what it returns. -/
def invalidateGi : MdFormat → MdCpu → MdCpu
  | .v07, md => md.setGc Flags (md.gc Flags &&& ~~~MDF_CONSISTENT ||| MDF_FULL_SYNC)
  | .v08, md =>
    { md with flags := md.flags &&& ~~~MDF_CONSISTENT &&& ~~~MDF_WAS_UP_TO_DATE ||| MDF_FULL_SYNC }
  | .v09, md =>
    { md with
      flags := md.flags &&& ~~~MDF_CONSISTENT &&& ~~~MDF_WAS_UP_TO_DATE
      peers := fun p => { md.peers p with flags := (md.peers p).flags ||| MDF_PEER_FULL_SYNC } }

def metaOutdate : MetaRun Ended := do
  let opened ← I.openMd lkFile cfg
  if opened.1 ≠ .validMdFound then pure ⟨-1, lkFile⟩
  else match outdateGi cfg.version opened.2.md with
    | none => Run.stop (.exit 5)
    | some md => writeAndClose I lkFile { opened.2 with md := md }

def metaInvalidate : MetaRun Ended := do
  let opened ← I.openMd lkFile cfg
  if opened.1 ≠ .validMdFound then pure ⟨-1, lkFile⟩
  else writeAndClose I lkFile { opened.2 with md := invalidateGi cfg.version opened.2.md }

/-- `meta_write_dev_uuid`; `none` when its argument is missing. -/
def metaWriteDevUuid (arg : Option (List Char)) : MetaRun Ended :=
  match arg with
  | none => Run.stop (.exit 10)
  | some arg => do
    let opened ← I.openMd lkFile cfg
    if opened.1 ≠ .validMdFound then pure ⟨-1, lkFile⟩
    else writeAndClose I lkFile { opened.2 with
      md := { opened.2.md with deviceUuid := BitVec.ofNat 64 (strtoul 16 arg).1 } }

def metaSetGi (arg : Option (List Char)) : MetaRun Ended :=
  match arg with
  | none => Run.stop (.exit 10)
  | some line => do
    let opened ← I.openMd lkFile cfg
    if opened.1 ≠ .validMdFound then pure ⟨-1, lkFile⟩
    else do
      let tmp ← liftExcept (setGi cfg.version I.nodeId line opened.2.md)
      if confirmed I.options I.answer then writeAndClose I lkFile { opened.2 with md := tmp }
      else Run.stop (.exit 0)

/-- `is_day0_peer`. -/
def isDay0Peer (md : MdCpu) (p : Fin DRBD_PEERS_MAX) : Bool :=
  BitVec.ofNat 32 p ≠ md.nodeId && (md.peers p).bitmapIndex = -1 && (md.peers p).flags = 0

/-- `day0_peer_id`: the last one. -/
def day0PeerId (md : MdCpu) : Option (Fin DRBD_PEERS_MAX) :=
  (List.finRange DRBD_PEERS_MAX).reverse.find? (isDay0Peer md)

/-- What `meta_forget_peer` makes of the superblock. -/
def forgetPeer (nodeId : Fin DRBD_PEERS_MAX) (md : MdCpu) : MdCpu :=
  md.setPeer nodeId {
    bitmapIndex := -1
    flags := 0
    bitmapUuid := ((day0PeerId md).map fun p => (md.peers p).bitmapUuid).getD 0
    bitmapDagtag := ((day0PeerId md).map fun p => (md.peers p).bitmapDagtag).getD 0 }

def metaForgetPeer : MetaRun Ended := do
  let opened ← I.openMd lkFile cfg
  if opened.1 ≠ .validMdFound then pure ⟨-1, lkFile⟩
  else do
    let ended ← writeAndClose I lkFile { opened.2 with md := forgetPeer I.nodeId opened.2.md }
    -- what md_cpu_to_disk() returns is dropped
    pure { ended with rv := 0 }

/-- `meta_wipe_md`. -/
def metaWipeMd : MetaRun Ended := do
  let opened ← I.openMd lkFile cfg
  if opened.1 ≠ .validMdFound then pure ⟨0, lkFile⟩
  else if confirmed I.options I.answer then do
    Run.modifyBuf fun buf => fill buf 0 4096 0
    pwriteOrDie I.options opened.2 4096 opened.2.mdOffset
    -- closing with nothing to update, and lk_bdev_delete()
    pure ⟨0, none⟩
  else Run.stop (.exit 1)

/-! ### Moving -/

/-- `v08_move_internal_md_after_resize`, with the `cfg` and the file it leaves. -/
def moveAndClose : MetaRun (Bool × Format × LkFile) := do
  let moved ← moveToNewLocation I.onDisk9 I.options cfg
  if moved.1 then do
    wipeOld I.options moved.2 cfg.md (lastKnownOffset cfg)
    pure (true, moved.2, I.close lkFile moved.2 true)
  else pure (false, moved.2, lkFile)

/-- Is what the file says about the device out of date? -/
def lkOutOfDate : Bool :=
  match lkBdevLoad lkFile with
  | none => true
  | some bd => bd.bdSize ≠ cfg.bdSize || bd.bdUuid ≠ cfg.md.deviceUuid

/-- `meta_chk_offline_resize`. -/
def metaCheckResize : MetaRun Ended := do
  let opened ← I.openMd lkFile cfg
  match opened.1 with
  | .validMdFound =>
    let lkFile := if opened.2.mdIndex ≠ .flexInt then none else lkFile
    pure ⟨0, I.close lkFile opened.2 (lkOutOfDate lkFile opened.2)⟩
  | .noValidMdFound => pure ⟨-1, lkFile⟩
  | .validMdFoundAtLastKnownLocation => do
    assert (opened.2.version ≠ .v07)
    assert (opened.2.mdIndex = .flexInt)
    assert (opened.2.lkBdSize ≠ 0)
    assert (opened.2.md.magic ≠ 0)
    let moved ← moveAndClose I lkFile opened.2
    pure ⟨if moved.1 then 0 else 1, moved.2.2⟩

/-- The superblock with one uuid for all peers that have the uuid of day 0. -/
def repairDay0 (day0Uuid : BitVec 64) (md : MdCpu) : MdCpu :=
  { md with peers := fun p =>
      if isDay0Peer md p then { md.peers p with bitmapUuid := day0Uuid } else md.peers p }

/-- The first half of `meta_repair_md`: open, and open again once the metadata was moved. -/
def openMoved : MetaRun (MdOpenRc × Format × LkFile) := do
  let opened ← I.openMd lkFile cfg
  if opened.1 = .validMdFoundAtLastKnownLocation then do
    let moved ← moveAndClose I lkFile opened.2
    if moved.1 then do
      let again ← I.openMd moved.2.2 moved.2.1
      pure (again.1, again.2, moved.2.2)
    else pure (opened.1, moved.2)
  else pure (opened.1, opened.2, lkFile)

def metaRepairMd : MetaRun Ended := do
  let opened ← openMoved I lkFile cfg
  let cfg := opened.2.1
  let lkFile := opened.2.2
  if opened.1 ≠ .validMdFound then pure ⟨-1, lkFile⟩
  else match day0PeerId cfg.md with
    | none => pure ⟨0, lkFile⟩
    | some day0P => do
      let day0Uuid := (cfg.md.peers day0P).bitmapUuid
      let dirty := (List.finRange DRBD_PEERS_MAX).any fun p =>
        isDay0Peer cfg.md p && (cfg.md.peers p).bitmapUuid ≠ day0Uuid
      let cfg := { cfg with md := repairDay0 day0Uuid cfg.md }
      let ok ← if !I.options.dryRun && dirty then mdCpuToDisk I.onDisk9 I.options cfg else pure false
      pure ⟨if I.options.dryRun && dirty then -1 else 0, I.close lkFile cfg ok⟩

/-! ### The activity log, and new metadata -/

/-- `meta_apply_al`; it closes the device only if it updated the superblock. -/
def metaApplyAlClosing : MetaRun Ended := do
  let found ← openAndReplay I.onDisk9 I.alLayout I.options
    ((lkBdevLoad lkFile).map fun bd => (bd.bdSize, bd.bdUuid)) cfg
  match found with
  | none => pure ⟨-1, lkFile⟩
  | some (cfg, r, reInitializeAnyways) =>
    if r.rc.isError && needToApplyAl cfg then pure ⟨if r.rc = .enodata then 1 else 2, lkFile⟩
    else do
      let update ← applyHot I.options cfg r
      if reInitializeAnyways || (r.rc.isError && cfg.version ≠ .v07) ||
        (r.rc.isPositive && cfg.version ≠ .v07) then initializeAl I.alLayout I.options cfg
      if update || (cfg.version ≠ .v07 && (cfg.md.flags &&& MDF_AL_CLEAN = 0 ||
        cfg.md.magic ≠ DRBD_MD_MAGIC_08)) then writeAndClose I lkFile (markClean cfg)
      else pure ⟨0, lkFile⟩

/-- `meta_create_md`; `none` when MAX_PEERS is missing. -/
def metaCreateMdClosing (arg : Option Nat) : MetaRun Ended :=
  if cfg.version = .v09 ∧ arg = none then Run.stop (.exit 20)
  else do
    let created ← metaCreateMd I.onDisk9 I.alLayout I.outside I.options I.create
      ((lkBdevLoad lkFile).map fun bd => (bd.bdSize, bd.bdUuid)) (arg.getD 1) cfg
    pure ⟨if created.1 then 0 else 1, I.close lkFile created.2 created.1⟩

/-! ### On the device -/

theorem metaApplyAlClosing_world (w : World) :
    (metaApplyAlClosing I lkFile cfg w).2 = (metaApplyAl I.onDisk9 I.alLayout I.options
      ((lkBdevLoad lkFile).map fun bd => (bd.bdSize, bd.bdUuid)) cfg w).2 := by
  refine Run.bind_world (fun found w => ?_) w
  rcases found with _ | ⟨cfg, r, reInitializeAnyways⟩
  · rfl
  · dsimp only [applyReplay]
    split
    · rfl
    · refine Run.bind_world (fun update w => ?_) w
      have hwrite (w : World) : (writeAndClose I lkFile (markClean cfg) w).2 =
          ((mdCpuToDisk I.onDisk9 I.options (markClean cfg) >>= fun ok =>
            (pure (if ok then 0 else -1) : MetaRun Int)) w).2 :=
        (Run.bind_pure_world _ _ w).trans (Run.bind_pure_world _ _ w).symm
      unfold cleanUp
      split
      · refine Run.bind_world (fun _ w => ?_) w
        split
        · exact hwrite w
        · rfl
      · split
        · exact hwrite w
        · rfl

theorem moveAndClose_world (w : World) : (moveAndClose I lkFile cfg w).2 =
    (v08MoveInternalMdAfterResize I.onDisk9 I.options cfg w).2 := by
  refine Run.bind_world (fun moved w => ?_) w
  split
  · exact (Run.bind_pure_world _ _ w).trans (Run.bind_pure_world _ _ w).symm
  · rfl

theorem metaCheckResize_world (hver : cfg.version ≠ .v07) (w : World) :
    (metaCheckResize I lkFile cfg w).2 = (metaChkOfflineResize I.onDisk9 I.options
      ((lkBdevLoad lkFile).map fun bd => (bd.bdSize, bd.bdUuid)) cfg w).2 := by
  unfold metaCheckResize metaChkOfflineResize Invocation.openMd mdOpen
  rw [if_neg hver]
  refine Run.bind_world (fun opened w => ?_) w
  rcases opened with ⟨rc, cfg⟩
  cases rc with
  | validMdFound => rfl
  | noValidMdFound => rfl
  | validMdFoundAtLastKnownLocation =>
    refine Run.bind_world (fun _ w => Run.bind_world (fun _ w => Run.bind_world (fun _ w =>
      Run.bind_world (fun _ w => ?_) w) w) w) w
    exact (Run.bind_pure_world _ _ w).trans (moveAndClose_world I lkFile cfg w)

end Commands

/-! ## Reading a dump -/

/-- The parser of dumps: it takes the tokens that `yylex` returns one by one. -/
abbrev DumpParser := StateT (List Token) (Except Stop)

/-- `yylex`; `none` at the end of the file. -/
def yylex : DumpParser (Option Token)
  | [] => .ok (none, [])
  | tok :: toks => .ok (some tok, toks)

/-- `md_parse_error`. -/
def mdParseError {α : Type} : DumpParser α := fun _ => .error (.exit 10)

/-- `EXP` of a token without a value. -/
def expTok (expected : Token) : DumpParser Unit := do
  let tok ← yylex
  if tok = some expected then pure () else mdParseError

def expKw (k : Keyword) : DumpParser Unit := expTok (.kw k)

def expOp (op : Op) : DumpParser Unit := expTok (.op op)

/-- `EXP(TK_NUM)`, with `yylval.u64`. -/
def expNum : DumpParser (BitVec 64) := do
  match ← yylex with
  | some (.num v) => pure v
  | _ => mdParseError

/-- `EXP(TK_U64)`. -/
def expU64 : DumpParser (BitVec 64) := do
  match ← yylex with
  | some (.u64 v) => pure v
  | _ => mdParseError

/-- `EXP(TK_U32)`. -/
def expU32 : DumpParser (BitVec 64) := do
  match ← yylex with
  | some (.u32 v) => pure v
  | _ => mdParseError

/-- `EXP(TK_STRING)`. -/
def expStr : DumpParser (List Char) := do
  match ← yylex with
  | some (.str txt) => pure txt
  | _ => mdParseError

/-- A value and the semicolon behind it. -/
def expSemicolon (value : DumpParser (BitVec 64)) : DumpParser (BitVec 64) := do
  let v ← value
  expOp .semicolon
  pure v

/-- `n` values. -/
def expList (value : DumpParser (BitVec 64)) : Nat → DumpParser (List (BitVec 64))
  | 0 => pure []
  | n + 1 => do
    let v ← expSemicolon value
    let vs ← expList value n
    pure (v :: vs)

def MdFormat.name : MdFormat → List Char
  | .v07 => "v07".toList
  | .v08 => "v08".toList
  | .v09 => "v09".toList

/-- The version, and `new_max_peers`. -/
def parseVersion (f : MdFormat) : DumpParser Nat := do
  expKw .version
  let name ← expStr
  if name ≠ f.name then mdParseError
  else do
    expOp .semicolon
    if f = .v09 then do
      expKw .maxPeers
      let v ← expSemicolon expNum
      pure v.toNat
    else pure 1

/-- The generation counters of 0.7. -/
def parseGc (md : MdCpu) : DumpParser MdCpu := do
  expKw .gc
  expOp .braceOpen
  let gc ← expList expNum GEN_CNT_SIZE
  expOp .braceClose
  pure { md with gc := fun i => (gc.getD i 0).setWidth 32 }

/-- The uuids of 8.x. -/
def parseUuids (md : MdCpu) : DumpParser MdCpu := do
  expKw .uuid
  expOp .braceOpen
  let current ← expSemicolon expU64
  let bitmap ← expSemicolon expU64
  let history ← expList expU64 HISTORY_UUIDS_V08
  expKw .flags
  let flags ← expSemicolon expU32
  expOp .braceClose
  pure { md with
    currentUuid := current
    peers := fun p => if p = 0 then { md.peers p with bitmapUuid := bitmap } else md.peers p
    historyUuids := fun i => if (i : Nat) < HISTORY_UUIDS_V08 then history.getD i 0
      else md.historyUuids i
    flags := flags.setWidth 32 }

/-- The fields of a peer, behind its keyword; `slotsSeen` are the slots read before. -/
def parsePeer (slotsSeen : List Int) (md : MdCpu) : DumpParser (List Int × MdCpu) := do
  expOp .bracketOpen
  let v ← expNum
  expOp .bracketClose
  let curSlot := (v.setWidth 32).toInt
  if curSlot < 0 ∨ DRBD_NODE_ID_MAX ≤ curSlot then mdParseError
  else if curSlot ∈ slotsSeen then mdParseError
  else do
    expOp .braceOpen
    expKw .bitmapIndex
    let bitmapIndex ← expSemicolon expNum
    expKw .bitmapUuid
    let bitmapUuid ← expSemicolon expU64
    expKw .bitmapDagtag
    let bitmapDagtag ← expSemicolon expU64
    expKw .flags
    let flags ← expSemicolon expU32
    expOp .braceClose
    pure (curSlot :: slotsSeen, { md with peers := fun p => if (p : Int) = curSlot then
      ⟨bitmapUuid, bitmapDagtag, flags.setWidth 32, bitmapIndex.setWidth 32⟩ else md.peers p })

/-- The loop over the peers; `token` is the one that was read ahead. -/
def parsePeers : Nat → Option Token → List Int → MdCpu → DumpParser MdCpu
  | 0, _, _, md => pure md
  | n + 1, token, slotsSeen, md => do
    if token ≠ some (.kw .peer) then expKw .peer
    let (slotsSeen, md) ← parsePeer slotsSeen md
    parsePeers n none slotsSeen md

/-- What 9.x has before the size. -/
def parseV9 (md : MdCpu) : DumpParser MdCpu := do
  expKw .nodeId
  let nodeId ← expSemicolon expNum
  expKw .currentUuid
  let current ← expSemicolon expU64
  expKw .flags
  let flags ← expSemicolon expU32
  -- a token that is neither of the two is dropped
  let token ← yylex
  let members ← if token = some (.kw .members) then expSemicolon expU64 else pure 0
  let md ← parsePeers DRBD_NODE_ID_MAX token [] { md with
    nodeId := nodeId.setWidth 32, currentUuid := current, flags := flags.setWidth 32
    members := members }
  expKw .historyUuids
  expOp .braceOpen
  let history ← expList expU64 HISTORY_UUIDS
  expOp .braceClose
  pure { md with historyUuids := fun i => history.getD i 0 }

/-- The size, and what 8.x and 9.x have behind it. -/
def parseSizes (f : MdFormat) (md : MdCpu) : DumpParser MdCpu := do
  expKw .laSizeSect
  let effectiveSize ← expSemicolon expNum
  if f = .v07 then
    pure { md with
      effectiveSize := effectiveSize, bmBytesPerBit := BitVec.ofNat 32 BM_BLOCK_SIZE_4k }
  else do
    expKw .bmBytePerBit
    let bmBytesPerBit ← expSemicolon expNum
    if !isPowerOf2 bmBytesPerBit.toNat ∨ bmBytesPerBit.toNat < BM_BLOCK_SIZE_MIN ∨
        BM_BLOCK_SIZE_MAX < bmBytesPerBit.toNat then mdParseError
    else do
      expKw .deviceUuid
      let deviceUuid ← expSemicolon expU64
      expKw .laPeerMaxBioSize
      let laPeerMaxBioSize ← expSemicolon expNum
      expKw .alStripes
      let alStripes ← expSemicolon expNum
      expKw .alStripeSize4k
      let alStripeSize4k ← expSemicolon expNum
      pure { md with
        effectiveSize := effectiveSize
        bmBytesPerBit := bmBytesPerBit.setWidth 32
        deviceUuid := deviceUuid
        laPeerMaxBioSize := laPeerMaxBioSize.setWidth 32
        alStripes := alStripes.setWidth 32
        alStripeSize4k := alStripeSize4k.setWidth 32 }

/-- The superblock of a dump, up to the bitmap. -/
def parseMd (f : MdFormat) (md : MdCpu) : DumpParser MdCpu := do
  let md ← match f with
    | .v07 => parseGc md
    | .v08 => parseUuids md
    | .v09 => parseV9 md
  parseSizes f md

/-- `--al-stripes` and `--al-stripe-size-kB` win over the dump. -/
def adjustStriping (o : Options) (cfg : Format) : Except Stop Format :=
  if o.alStripes ≠ cfg.md.alStripes ∨ o.alStripeSize4k ≠ cfg.md.alStripeSize4k then
    reInitializeMdOffsets o { cfg with md :=
      if o.alStripesUsed then { cfg.md with
        alStripes := o.alStripes, alStripeSize4k := o.alStripeSize4k } else cfg.md }
  else .ok cfg

section Restore

variable (I : Invocation) (lkFile : LkFile) (cfg : Format)

/-- `verify_dumpfile_or_restore`, once the device was opened. -/
def restoreFrom (toks : List Token) (parseOnly : Bool) : MetaRun Ended := do
  let version ← liftExcept (parseVersion cfg.version toks)
  -- md_initialize(), without disk writes
  let cfg ← liftExcept (reInitializeMdOffsets I.options { cfg with md :=
    { initializedMd I.options version.1 cfg.version with alNrExtents := 257, bmBytesPerBit := 0 } })
  if parseOnly then pure () else checkForExistingData I.outside I.options cfg
  let parsed ← liftExcept (parseMd cfg.version cfg.md version.2)
  let cfg ← liftExcept (adjustStriping I.options { cfg with md := parsed.1 })
  let cfg ← liftExcept (clipEffectiveSizeAndBmBytes cfg)
  let rest ← parseBitmap I.options cfg parseOnly parsed.2 I.fuel
  if rest ≠ [] then Run.stop (.exit 10)
  else if parseOnly then pure ⟨0, lkFile⟩
  else do
    let ended ← writeAndClose I lkFile cfg
    pure { ended with rv := if ended.rv = 0 then 0 else -1 }

/-- `verify_dumpfile_or_restore`; `none` when the file cannot be opened. -/
def verifyDumpfileOrRestore (parseOnly : Bool) (dump : Option (List Char)) : MetaRun Ended :=
  match dump with
  | none => Run.stop (.exit 20)
  | some text =>
    if parseOnly then restoreFrom I lkFile cfg (scan text) true
    else do
      let opened ← I.openMd lkFile cfg
      if opened.1 ≠ .noValidMdFound ∧ !confirmed I.options I.answer then pure ⟨-1, lkFile⟩
      else restoreFrom I lkFile opened.2 (scan text) false

def metaRestoreMd (dump : Option (List Char)) : MetaRun Ended :=
  verifyDumpfileOrRestore I lkFile cfg false dump

def metaVerifyDumpFile (dump : Option (List Char)) : MetaRun Ended :=
  verifyDumpfileOrRestore I lkFile cfg true dump

end Restore

/-! ## All commands -/

/-- `cmds[]`, with what a command takes from the command line. -/
inductive Command where
  | getGi
  | showGi
  | dumpMd
  | dumpSuperblock
  | hexdumpSuperblock
  | restoreMd (dump : Option (List Char))
  | verifyDump (dump : Option (List Char))
  | applyAl
  | wipeMd
  | outdate
  | invalidate
  | dstate
  | readDevUuid
  | writeDevUuid (arg : Option (List Char))
  | setGi (arg : Option (List Char))
  | checkResize
  | createMd (maxPeers : Option Nat)
  | forgetPeer
  | repairMd

/-- `command->function`. -/
def Command.function (I : Invocation) (lkFile : LkFile) (cfg : Format) : Command → MetaRun Ended
  | .getGi => metaGetGi I lkFile cfg
  | .showGi => metaShowGi I lkFile cfg
  | .dumpMd => metaDumpMd I lkFile cfg
  | .dumpSuperblock => metaDumpSuperblock I lkFile cfg
  | .hexdumpSuperblock => metaHexDumpSuperblock I lkFile cfg
  | .restoreMd dump => metaRestoreMd I lkFile cfg dump
  | .verifyDump dump => metaVerifyDumpFile I lkFile cfg dump
  | .applyAl => metaApplyAlClosing I lkFile cfg
  | .wipeMd => metaWipeMd I lkFile cfg
  | .outdate => metaOutdate I lkFile cfg
  | .invalidate => metaInvalidate I lkFile cfg
  | .dstate => metaDstate I lkFile cfg
  | .readDevUuid => metaReadDevUuid I lkFile cfg
  | .writeDevUuid arg => metaWriteDevUuid I lkFile cfg arg
  | .setGi arg => metaSetGi I lkFile cfg arg
  | .checkResize => metaCheckResize I lkFile cfg
  | .createMd maxPeers => metaCreateMdClosing I lkFile cfg maxPeers
  | .forgetPeer => metaForgetPeer I lkFile cfg
  | .repairMd => metaRepairMd I lkFile cfg

/-- The file after a run.  A run that ends early has not changed the file yet, but for `repair-md`
    when it moved the metadata and cannot open it again. -/
def leftFile (lkFile : LkFile) : Except Stop Ended → LkFile
  | .ok ended => ended.lkFile
  | .error _ => lkFile

end DrbdUtils.Meta
