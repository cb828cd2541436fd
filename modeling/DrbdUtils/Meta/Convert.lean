import DrbdUtils.Meta.CreateMd
import DrbdUtils.Meta.LayoutLimits

/-!
# Converting between v08 and v09

`md_convert_08_to_09()` and `md_convert_09_to_08()`, one after the other on the same device.  Flags
move to the peer's slot and back; the offsets are computed anew and validated each time.

* `flags_roundTrip` — the flags come back.
* `convert_roundTrip_iff` — everything v08 can express comes back if and only if the peer has no
  bitmap uuid and the layout is one both formats compute in the same way; a conversion to v08 that
  does not exit leaves valid v08 metadata.
-/

set_option autoImplicit false

namespace DrbdUtils.Meta

/-! ## The superblocks -/

/-- The superblock `md_convert_08_to_09` lays out. -/
def to09 (md : MdCpu) : MdCpu :=
  { md with
    peers := fun p => { md.peers p with
      bitmapUuid := 0
      flags := if p = 0 then flagIf md.flags MDF_CONNECTED_IND MDF_PEER_CONNECTED |||
        flagIf md.flags MDF_FULL_SYNC MDF_PEER_FULL_SYNC |||
        flagIf md.flags MDF_PEER_OUT_DATED MDF_PEER_OUTDATED else 0
      bitmapIndex := -1 }
    flags := md.flags &&& ~~~(MDF_CONNECTED_IND ||| MDF_FULL_SYNC ||| MDF_PEER_OUT_DATED)
    nodeId := -1
    magic := DRBD_MD_MAGIC_09 }

/-- The superblock `md_convert_09_to_08` lays out. -/
def to08 (md : MdCpu) : MdCpu :=
  { md with
    flags := md.flags ||| flagIf (md.peers 0).flags MDF_PEER_CONNECTED MDF_CONNECTED_IND |||
      flagIf (md.peers 0).flags MDF_PEER_FULL_SYNC MDF_FULL_SYNC |||
      flagIf (md.peers 0).flags MDF_PEER_OUTDATED MDF_PEER_OUT_DATED
    magic := DRBD_MD_MAGIC_08
    maxPeers := 1 }

/-- A program for v09 with the superblock it lays out. -/
def as09 (cfg : Format) : Format := { cfg with version := .v09, md := to09 cfg.md }

/-- A program for v08 with the superblock it lays out. -/
def as08 (cfg : Format) : Format := { cfg with version := .v08, md := to08 cfg.md }

theorem mdConvert08To09_eq (o : Options) (cfg : Format) :
    mdConvert08To09 o { cfg with version := .v09 } = finishConversion o .v09 (as09 cfg) := rfl

theorem mdConvert09To08_eq (o : Options) (cfg : Format) :
    mdConvert09To08 o { cfg with version := .v08 } = finishConversion o .v08 (as08 cfg) := rfl

theorem flagIf_twoPow (flags v : BitVec 32) (k : Nat) :
    flagIf flags (BitVec.twoPow 32 k) v = if flags.getLsbD k then v else 0 := by
  unfold flagIf
  rw [BitVec.and_twoPow]
  by_cases hk : flags.getLsbD k = true
  · rw [if_pos hk, if_pos hk, if_pos]
    intro hzero
    have hbit := congrArg (BitVec.getLsbD · k) hzero
    simp [BitVec.lt_of_getLsbD hk] at hbit
  · rw [if_neg hk, if_neg hk]
    exact if_neg (not_not.2 rfl)

/-- The flags move to the peer and back. -/
theorem flags_roundTrip (md : MdCpu) : (to08 (to09 md)).flags = md.flags := by
  have hc : MDF_CONNECTED_IND = BitVec.twoPow 32 2 := by decide
  have hf : MDF_FULL_SYNC = BitVec.twoPow 32 3 := by decide
  have ho : MDF_PEER_OUT_DATED = BitVec.twoPow 32 5 := by decide
  have hpeer : ((to09 md).peers 0).flags = flagIf md.flags MDF_CONNECTED_IND MDF_PEER_CONNECTED |||
      flagIf md.flags MDF_FULL_SYNC MDF_PEER_FULL_SYNC |||
      flagIf md.flags MDF_PEER_OUT_DATED MDF_PEER_OUTDATED := rfl
  show (md.flags &&& ~~~(MDF_CONNECTED_IND ||| MDF_FULL_SYNC ||| MDF_PEER_OUT_DATED)) ||| _ ||| _ |||
    _ = _
  rw [hpeer, hc, hf, ho, flagIf_twoPow, flagIf_twoPow, flagIf_twoPow]
  have hback : ∀ x2 x3 x5 : Bool,
      let p : BitVec 32 := (if x2 then MDF_PEER_CONNECTED else 0) |||
        (if x3 then MDF_PEER_FULL_SYNC else 0) ||| (if x5 then MDF_PEER_OUTDATED else 0)
      flagIf p MDF_PEER_CONNECTED (BitVec.twoPow 32 2) = (if x2 then BitVec.twoPow 32 2 else 0) ∧
      flagIf p MDF_PEER_FULL_SYNC (BitVec.twoPow 32 3) = (if x3 then BitVec.twoPow 32 3 else 0) ∧
      flagIf p MDF_PEER_OUTDATED (BitVec.twoPow 32 5) = (if x5 then BitVec.twoPow 32 5 else 0) := by
    decide
  obtain ⟨h2, h3, h5⟩ := hback (md.flags.getLsbD 2) (md.flags.getLsbD 3) (md.flags.getLsbD 5)
  rw [h2, h3, h5]
  have hbit : ∀ (k i : Nat), (if md.flags.getLsbD k then BitVec.twoPow 32 k else 0).getLsbD i =
      (md.flags.getLsbD k && (BitVec.twoPow 32 k).getLsbD i) := by
    intro k i
    cases md.flags.getLsbD k <;> simp
  apply BitVec.eq_of_getLsbD_eq
  intro i hi
  rw [BitVec.getLsbD_or, BitVec.getLsbD_or, BitVec.getLsbD_or, hbit, hbit, hbit, BitVec.getLsbD_and,
    BitVec.getLsbD_not, BitVec.getLsbD_or, BitVec.getLsbD_or, BitVec.getLsbD_twoPow,
    BitVec.getLsbD_twoPow, BitVec.getLsbD_twoPow, decide_eq_true hi]
  by_cases h2 : 2 = i <;> by_cases h3 : 3 = i <;> by_cases h5 : 5 = i <;> subst_vars <;> simp_all

/-! ## Laying out again -/

section Layout

variable {o : Options} {f : MdFormat} {cfg cfg' : Format}

theorem finishConversion_ok_iff : finishConversion o f cfg = .ok cfg' ↔
    reInitializeMdOffsets o cfg = .ok cfg' ∧
      isValidMd f cfg'.md cfg'.mdIndex cfg'.bdSize = .ok true := by
  refine except_bind_ok_iff.trans ⟨?_, ?_⟩
  · rintro ⟨cfg1, hre, h⟩
    obtain ⟨ok, hvalid, h⟩ := except_bind_ok_iff.1 h
    cases ok with
    | false => cases h
    | true =>
      cases h
      exact ⟨hre, hvalid⟩
  · rintro ⟨hre, hvalid⟩
    exact ⟨cfg', hre, except_bind_ok_iff.2 ⟨true, hvalid, rfl⟩⟩

/-- A superblock with another layout. -/
def withLayout (md : MdCpu) (mdSizeSect alOffset bmOffset : BitVec 32) : MdCpu :=
  { md with mdSizeSect := mdSizeSect, alOffset := alOffset, bmOffset := bmOffset }

/-- Only the layout of the superblock changes. -/
theorem reInitializeMdOffsets_md (h : reInitializeMdOffsets o cfg = .ok cfg') :
    ∃ mdSizeSect alOffset bmOffset, cfg'.md =
      withLayout (saneDefaults o cfg.md) mdSizeSect alOffset bmOffset := by
  obtain ⟨⟨md, bm⟩, hsect, h⟩ := except_bind_ok_iff.1 h
  obtain ⟨mu, -, h⟩ := except_bind_ok_iff.1 h
  obtain ⟨_, _, _, rfl⟩ := mdSectOffsets_fields hsect
  cases h
  exact ⟨_, _, _, rfl⟩

/-- A format that has no granularity of its own lays out nothing. -/
theorem externalGranularity_of_reInitialize (hidx : cfg.mdIndex.isExternal = true)
    (hg : cfg.md.bmBytesPerBit ≠ 0) (h : reInitializeMdOffsets o cfg = .ok cfg') :
    externalGranularity cfg := by
  by_contra hext
  obtain ⟨⟨md, bm⟩, hsect, h⟩ := except_bind_ok_iff.1 h
  obtain ⟨mu, hmu, -⟩ := except_bind_ok_iff.1 h
  obtain ⟨_, _, _, rfl⟩ := mdSectOffsets_fields hsect
  rw [@maxUsableSectors_refused { setByteOffsets cfg _ with bmBytes := bm } hidx] at hmu
  · cases hmu
  · intro hext'
    refine hext (hext'.imp id fun h4k => ?_)
    rw [← h4k]
    show cfg.md.bmBytesPerBit.toNat = (if cfg.md.bmBytesPerBit ≠ 0 then cfg.md.bmBytesPerBit
      else _).toNat
    rw [if_pos hg]

/-- An external layout is valid in every format. -/
theorem isValidMd_externalMd (hidx : cfg.mdIndex.isExternal = true) (hmagic : mdMagicOk f cfg.md.magic = true)
    (hids : mdIdsOk cfg.md = true) (llSize : Nat) :
    isValidMd f (externalMd cfg) cfg.mdIndex llSize = .ok true := by
  have hflex : cfg.mdIndex ≠ .flexInt := by
    intro h
    rw [h] at hidx
    cases hidx
  have hhead : (mdMagicOk f (externalMd cfg).magic && mdIdsOk (externalMd cfg)) = true := by
    rw [show mdIdsOk (externalMd cfg) = true from hids,
      show mdMagicOk f (externalMd cfg).magic = true from hmagic]
    rfl
  unfold isValidMd
  rw [hhead, if_neg (by decide), if_neg hflex, Except.ok.injEq, Bool.and_eq_true, decide_eq_true_eq,
    decide_eq_true_eq]
  exact ⟨rfl, rfl⟩

/-- An external layout of either format, with the granularity both have. -/
theorem finishConversion_external (hidx : cfg.mdIndex.isExternal = true)
    (h4k : cfg.md.bmBytesPerBit = BitVec.ofNat 32 BM_BLOCK_SIZE_4k)
    (hmagic : mdMagicOk f cfg.md.magic = true) (hids : mdIdsOk cfg.md = true) :
    finishConversion o f cfg = .ok (externalFormat cfg) := by
  have hg : GranularityAdmitted cfg.md := by
    refine ⟨?_, ?_, ?_⟩ <;> rw [h4k] <;> decide +kernel
  obtain ⟨h1, h2⟩ := mdIdsOk_peers hids
  refine finishConversion_ok_iff.2 ⟨(reInitializeMdOffsets_external hidx hg ⟨h1, h2⟩).1 (.inr ?_), ?_⟩
  · rw [h4k]
    rfl
  · exact isValidMd_externalMd hidx hmagic hids _

/-- A valid flexible layout is laid out as it is. -/
theorem FlexIntValid.relaid_md {bm : Nat} (h : FlexIntValid f cfg.md cfg.bdSize bm) :
    (flexIntFormat cfg bm).md = cfg.md := by
  have hsize : BitVec.ofInt 32 ((bm / 512 : Nat) + (8 + alSizeSect cfg.md)) = cfg.md.mdSizeSect := by
    rw [← h.mdSizeSect]
    simp
  have hbm : BitVec.ofInt 32 (-((bm / 512 : Nat) + (8 + alSizeSect cfg.md)) + 8) =
      cfg.md.bmOffset := by
    rw [show -((bm / 512 : Nat) + (8 + alSizeSect cfg.md) : Int) + 8 = cfg.md.bmOffset.toInt by
      rw [h.bmOffset]; omega]
    simp
  have hmd : (flexIntFormat cfg bm).md = { cfg.md with
      mdSizeSect := BitVec.ofInt 32 ((bm / 512 : Nat) + (8 + alSizeSect cfg.md))
      alOffset := BitVec.ofInt 32 (-alSizeSect cfg.md)
      bmOffset := BitVec.ofInt 32 (-((bm / 512 : Nat) + (8 + alSizeSect cfg.md)) + 8) } := rfl
  rw [hmd, hsize, hbm, ← h.alOffset]

theorem finishConversion_flexInt (hidx : cfg.mdIndex = .flexInt) (hf : f ≠ .v07) {bm : Nat}
    (h : FlexIntValid f cfg.md cfg.bdSize bm) : ∃ cfg', finishConversion o f cfg = .ok cfg' ∧
      cfg'.md = cfg.md ∧ cfg'.mdIndex = cfg.mdIndex ∧ cfg'.bdSize = cfg.bdSize := by
  obtain ⟨hmin, -, -⟩ := bmBytes_granularity h.bm_ok
  have hg : cfg.md.bmBytesPerBit ≠ 0 := by
    intro h0
    rw [h0] at hmin
    exact absurd hmin (by decide)
  have hp : cfg.md.maxPeers ≠ 0 := mdIdsOk_maxPeers_ne h.ids
  refine ⟨flexIntFormat cfg bm, finishConversion_ok_iff.2 ⟨?_, ?_⟩, h.relaid_md, rfl, rfl⟩
  · rw [reInitializeMdOffsets_flexInt hidx hg hp, h.bm_ok]
    rfl
  · rw [h.relaid_md]
    show isValidMd f cfg.md cfg.mdIndex cfg.bdSize = _
    rw [hidx, isValidMd_flexInt_iff hf]
    exact ⟨bm, h⟩

theorem isValidMd_internalMd (hidx : cfg.mdIndex = .internal)
    (hmagic : mdMagicOk f cfg.md.magic = true) (hids : mdIdsOk cfg.md = true) (llSize : Nat) :
    isValidMd f (internalMd cfg.md) cfg.mdIndex llSize = .ok true ↔
      BitVec.ofInt 32 (MD_AL_OFFSET_07 + alSizeSect cfg.md) = BitVec.ofInt 32 MD_BM_OFFSET_07 := by
  have hhead : (mdMagicOk f (internalMd cfg.md).magic && mdIdsOk (internalMd cfg.md)) = true := by
    rw [show mdIdsOk (internalMd cfg.md) = true from hids,
      show mdMagicOk f (internalMd cfg.md).magic = true from hmagic]
    rfl
  unfold isValidMd
  rw [hhead, if_neg (by decide), hidx, if_neg (by decide), Except.ok.injEq, Bool.and_eq_true,
    decide_eq_true_eq, decide_eq_true_eq,
    and_iff_right (show (internalMd cfg.md).alOffset = BitVec.ofNat 32 MD_AL_OFFSET_07 from rfl)]
  exact eq_comm

end Layout

/-! ## There and back -/

/-- What v08 can express of a superblock. -/
structure Keeps (md md' : MdCpu) : Prop where
  currentUuid : md'.currentUuid = md.currentUuid
  bitmapUuid : (md'.peers 0).bitmapUuid = (md.peers 0).bitmapUuid
  historyUuids : md'.historyUuids 0 = md.historyUuids 0 ∧ md'.historyUuids 1 = md.historyUuids 1
  flags : md'.flags = md.flags
  effectiveSize : md'.effectiveSize = md.effectiveSize
  deviceUuid : md'.deviceUuid = md.deviceUuid
  alStripes : md'.alStripes = md.alStripes
  alStripeSize4k : md'.alStripeSize4k = md.alStripeSize4k
  bmBytesPerBit : md'.bmBytesPerBit = md.bmBytesPerBit
  alOffset : md'.alOffset = md.alOffset
  bmOffset : md'.bmOffset = md.bmOffset

/-- `md_convert_08_to_09`, then `md_convert_09_to_08`, in a program for the one format and one for
    the other; neither exits. -/
def RoundTrips (o : Options) (cfg : Format) : Prop :=
  ∃ cfg1 cfg2, mdConvert08To09 o { cfg with version := .v09 } = .ok cfg1 ∧
    mdConvert09To08 o { cfg1 with version := .v08 } = .ok cfg2 ∧ Keeps cfg.md cfg2.md

/-- No bitmap uuid, and a layout both formats compute in the same way. -/
def RoundTripSafe (cfg : Format) : Prop :=
  (cfg.md.peers 0).bitmapUuid = 0 ∧ match cfg.mdIndex with
    | .fixed _ | .flexExt => cfg.md.bmBytesPerBit = BitVec.ofNat 32 BM_BLOCK_SIZE_4k
    | .internal => cfg.md.bmBytesPerBit ≠ 0 ∧
      BitVec.ofInt 32 (MD_AL_OFFSET_07 + alSizeSect cfg.md) = BitVec.ofInt 32 MD_BM_OFFSET_07
    | .flexInt => bmBytes { cfg.md with maxPeers := 1 } (cfg.bdSize / 512) =
      bmBytes cfg.md (cfg.bdSize / 512)

section RoundTrip

variable {o : Options} {cfg cfg1 cfg2 : Format}

theorem mdIdsOk_to09 {md : MdCpu} (h : mdIdsOk md = true) : mdIdsOk (to09 md) = true := by
  obtain ⟨h1, h2⟩ := mdIdsOk_peers h
  unfold mdIdsOk
  rw [show (to09 md).maxPeers = md.maxPeers from rfl, decide_eq_true h1,
    decide_eq_true (show md.maxPeers.toNat ≤ DRBD_PEERS_MAX - 1 from h2)]
  simp only [Bool.and_eq_true, decide_eq_true_eq, and_true, true_and]
  exact ⟨(by decide : idInBounds (-1) = true), fun n _ => (by decide : idInBounds (-1) = true)⟩

theorem mdIdsOk_to08 {md : MdCpu} (hnode : idInBounds md.nodeId = true)
    (hindex : idInBounds (md.peers 0).bitmapIndex = true) : mdIdsOk (to08 md) = true := by
  unfold mdIdsOk
  rw [show (to08 md).maxPeers = 1 from rfl, show (to08 md).nodeId = md.nodeId from rfl, hnode]
  simp only [Bool.and_eq_true, decide_eq_true_eq]
  refine ⟨⟨by decide, trivial⟩, fun n hn => ?_⟩
  have hzero : n = 0 := by
    apply Fin.ext
    exact Nat.lt_one_iff.1 hn
  rw [hzero]
  exact hindex

theorem saneDefaults_granularity (o : Options) (md : MdCpu) :
    (saneDefaults o md).bmBytesPerBit ≠ 0 := by
  unfold saneDefaults
  dsimp only
  split
  · assumption
  · split
    · assumption
    · decide

/-- What comes back, but for the layout. -/
theorem keeps_iff (h1 : mdConvert08To09 o { cfg with version := .v09 } = .ok cfg1)
    (h2 : mdConvert09To08 o { cfg1 with version := .v08 } = .ok cfg2) :
    Keeps cfg.md cfg2.md ↔ (cfg.md.peers 0).bitmapUuid = 0 ∧ cfg.md.bmBytesPerBit ≠ 0 ∧
      cfg2.md.alOffset = cfg.md.alOffset ∧ cfg2.md.bmOffset = cfg.md.bmOffset := by
  rw [mdConvert08To09_eq] at h1
  rw [mdConvert09To08_eq] at h2
  obtain ⟨s1, a1, b1, hmd1⟩ := reInitializeMdOffsets_md (finishConversion_ok_iff.1 h1).1
  obtain ⟨s2, a2, b2, hmd2⟩ := reInitializeMdOffsets_md (finishConversion_ok_iff.1 h2).1
  rw [as09] at hmd1
  rw [as08] at hmd2
  have hgran1 : cfg1.md.bmBytesPerBit = (saneDefaults o (to09 cfg.md)).bmBytesPerBit :=
    (congrArg MdCpu.bmBytesPerBit hmd1).trans rfl
  have hgran2 : cfg2.md.bmBytesPerBit = (saneDefaults o (to08 cfg1.md)).bmBytesPerBit :=
    (congrArg MdCpu.bmBytesPerBit hmd2).trans rfl
  have hflags : cfg2.md.flags = cfg.md.flags := by
    rw [← flags_roundTrip cfg.md, hmd2, hmd1]
    rfl
  constructor
  · intro h
    refine ⟨?_, ?_, h.alOffset, h.bmOffset⟩
    · rw [← h.bitmapUuid, hmd2, hmd1]
      rfl
    · rw [← h.bmBytesPerBit, hgran2]
      exact saneDefaults_granularity o _
  · rintro ⟨hbitmap, hg, hal, hbm⟩
    have hkept : cfg2.md.bmBytesPerBit = cfg.md.bmBytesPerBit := by
      have hsame : cfg1.md.bmBytesPerBit = cfg.md.bmBytesPerBit := hgran1.trans (if_pos hg)
      rw [← hsame, hgran2]
      exact if_pos (hsame.symm ▸ hg)
    refine ⟨?_, ?_, ?_, hflags, ?_, ?_, ?_, ?_, hkept, hal, hbm⟩
    · rw [hmd2, hmd1]
      rfl
    · rw [hbitmap, hmd2, hmd1]
      rfl
    · rw [hmd2, hmd1]
      exact ⟨rfl, rfl⟩
    all_goals
      rw [hmd2, hmd1]
      rfl

/-- Both conversions of a fixed or flexible external layout. -/
theorem roundTrips_external (hidx : cfg.mdIndex.isExternal = true) (hids : mdIdsOk cfg.md = true)
    (h4k : cfg.md.bmBytesPerBit = BitVec.ofNat 32 BM_BLOCK_SIZE_4k) :
    ∃ cfg1 cfg2, mdConvert08To09 o { cfg with version := .v09 } = .ok cfg1 ∧
      mdConvert09To08 o { cfg1 with version := .v08 } = .ok cfg2 ∧
      cfg2.md.alOffset = BitVec.ofNat 32 MD_AL_OFFSET_07 ∧
      cfg2.md.bmOffset = BitVec.ofInt 32 (MD_AL_OFFSET_07 + alSizeSect cfg.md) := by
  have h1 := @finishConversion_external o .v09 (as09 cfg) hidx h4k rfl
    (mdIdsOk_to09 hids)
  have hids2 : mdIdsOk (as08 (externalFormat (as09 cfg))).md = true :=
    mdIdsOk_to08 (by decide : idInBounds (-1) = true) (by decide : idInBounds (-1) = true)
  have h2 := @finishConversion_external o .v08
    (as08 (externalFormat (as09 cfg))) hidx h4k rfl hids2
  exact ⟨_, _, h1, h2, rfl, rfl⟩

/-- Both conversions of a flexible internal layout that one peer does not change. -/
theorem roundTrips_flexInt (hidx : cfg.mdIndex = .flexInt) {bm : Nat}
    (h : FlexIntValid .v08 cfg.md cfg.bdSize bm)
    (hbm : bmBytes { cfg.md with maxPeers := 1 } (cfg.bdSize / 512) = .ok bm) :
    ∃ cfg1 cfg2, mdConvert08To09 o { cfg with version := .v09 } = .ok cfg1 ∧
      mdConvert09To08 o { cfg1 with version := .v08 } = .ok cfg2 ∧
      cfg2.md.alOffset = cfg.md.alOffset ∧ cfg2.md.bmOffset = cfg.md.bmOffset := by
  have hvalid1 : FlexIntValid .v09 (as09 cfg).md (as09 cfg).bdSize bm :=
    ⟨rfl, mdIdsOk_to09 h.ids, h.bm_ok, h.alOffset, h.bmOffset, h.mdSizeSect⟩
  obtain ⟨cfg1, h1, hmd1, hidx1, hbd1⟩ := @finishConversion_flexInt o _ (as09 cfg) hidx
    (by decide) _ hvalid1
  have hids2 : mdIdsOk (to08 (to09 cfg.md)) = true :=
    mdIdsOk_to08 (by decide : idInBounds (-1) = true) (by decide : idInBounds (-1) = true)
  have hvalid2 : FlexIntValid .v08 (as08 cfg1).md (as08 cfg1).bdSize bm := by
    rw [show (as08 cfg1).md = to08 cfg1.md from rfl, show (as08 cfg1).bdSize = cfg1.bdSize from rfl,
      hmd1, hbd1]
    exact ⟨rfl, hids2, hbm, h.alOffset, h.bmOffset, h.mdSizeSect⟩
  obtain ⟨cfg2, h2, hmd2, -, -⟩ := @finishConversion_flexInt o _ (as08 cfg1) (hidx1.trans hidx)
    (by decide) _ hvalid2
  refine ⟨cfg1, cfg2, h1, h2, ?_, ?_⟩
  · rw [hmd2, show (as08 cfg1).md = to08 cfg1.md from rfl, hmd1]
    rfl
  · rw [hmd2, show (as08 cfg1).md = to08 cfg1.md from rfl, hmd1]
    rfl

/-- Both conversions of a fixed-size internal layout. -/
theorem roundTrips_internal (hidx : cfg.mdIndex = .internal) (hids : mdIdsOk cfg.md = true)
    (hg : cfg.md.bmBytesPerBit ≠ 0)
    (hal : BitVec.ofInt 32 (MD_AL_OFFSET_07 + alSizeSect cfg.md) = BitVec.ofInt 32 MD_BM_OFFSET_07) :
    ∃ cfg1 cfg2, mdConvert08To09 o { cfg with version := .v09 } = .ok cfg1 ∧
      mdConvert09To08 o { cfg1 with version := .v08 } = .ok cfg2 ∧
      cfg2.md.alOffset = BitVec.ofNat 32 MD_AL_OFFSET_07 ∧
      cfg2.md.bmOffset = BitVec.ofInt 32 MD_BM_OFFSET_07 := by
  have hids2 : mdIdsOk (to08 (internalMd (to09 cfg.md))) = true :=
    mdIdsOk_to08 (by decide : idInBounds (-1) = true) (by decide : idInBounds (-1) = true)
  have hp : cfg.md.maxPeers ≠ 0 := mdIdsOk_maxPeers_ne hids
  have h1 : finishConversion o .v09 (as09 cfg) = .ok (internalFormat (as09 cfg)) :=
    finishConversion_ok_iff.2 ⟨reInitializeMdOffsets_internal hidx hg hp,
      (@isValidMd_internalMd _ (as09 cfg) hidx rfl (mdIdsOk_to09 hids) _).2 hal⟩
  have h2 : finishConversion o .v08 (as08 (internalFormat (as09 cfg))) =
      .ok (internalFormat (as08 (internalFormat (as09 cfg)))) :=
    finishConversion_ok_iff.2 ⟨reInitializeMdOffsets_internal hidx hg (by
      show (1 : BitVec 32) ≠ 0
      decide), (@isValidMd_internalMd _ (as08 (internalFormat (as09 cfg))) hidx rfl hids2 _).2 hal⟩
  exact ⟨_, _, h1, h2, rfl, rfl⟩

/-- The offsets of a valid superblock that is not flexible internal. -/
theorem isValidMd_offsets {f : MdFormat} {md : MdCpu} {idx : MdIndex} {llSize : Nat}
    (hidx : idx ≠ .flexInt) (h : isValidMd f md idx llSize = .ok true) :
    md.alOffset = BitVec.ofNat 32 MD_AL_OFFSET_07 ∧
      md.bmOffset = BitVec.ofInt 32 (MD_AL_OFFSET_07 + alSizeSect md) := by
  unfold isValidMd at h
  split at h
  · cases h
  · rw [Except.ok.injEq, Bool.and_eq_true, decide_eq_true_eq, decide_eq_true_eq] at h
    exact h

/-- The offsets of a flexible internal layout tell the size of its bitmap. -/
theorem bitmap_of_bmOffset {md : MdCpu} {bm : Nat} (h : FlexIntValid .v08 md cfg.bdSize bm)
    (hidx : cfg1.mdIndex = .flexInt) (hmd : cfg1.md = to09 md) (hbd : cfg1.bdSize = cfg.bdSize)
    (h2 : finishConversion o .v08 (as08 cfg1) = .ok cfg2) (hbm : cfg2.md.bmOffset = md.bmOffset) :
    bmBytes { md with maxPeers := 1 } (cfg.bdSize / 512) = .ok bm := by
  obtain ⟨hmin, hmax, hpow⟩ := bmBytes_granularity h.bm_ok
  have hg : (as08 cfg1).md.bmBytesPerBit ≠ 0 := by
    show cfg1.md.bmBytesPerBit ≠ 0
    rw [hmd]
    intro h0
    rw [show md.bmBytesPerBit = 0 from h0] at hmin
    exact absurd hmin (by decide)
  obtain ⟨bm1, hbm1⟩ := @bmBytes_of_le { md with maxPeers := 1 } _ (bmBytes_ok h.bm_ok).1 hmin
    hmax hpow
  have hsame : bmBytes (as08 cfg1).md ((as08 cfg1).bdSize / 512) = .ok bm1 := by
    rw [← hbm1, show (as08 cfg1).bdSize = cfg1.bdSize from rfl, hbd]
    unfold bmBytes
    rw [show (as08 cfg1).md = to08 cfg1.md from rfl, hmd]
    rfl
  have hre := (finishConversion_ok_iff.1 h2).1
  rw [@reInitializeMdOffsets_flexInt _ (as08 cfg1) hidx hg (show (1 : BitVec 32) ≠ 0 by decide),
    hsame] at hre
  cases hre
  have hal : alSizeSect (as08 cfg1).md = alSizeSect md := by
    rw [show (as08 cfg1).md = to08 cfg1.md from rfl, hmd]
    rfl
  have hoff : BitVec.ofInt 32 (-((bm1 / 512 : Nat) + (8 + alSizeSect md)) + 8) =
      BitVec.ofInt 32 (-(bm / 512 : Nat) - alSizeSect md) := by
    rw [← h.bmOffset, BitVec.ofInt_toInt, ← hbm, ← hal]
    rfl
  have hpeers := mdIdsOk_peers h.ids
  have hle := Nat.le_trans (bmBytes_le_flex h.bm_ok) (Nat.mul_le_mul_left _ hpeers.2)
  have hle1 := bmBytes_le_flex hbm1
  rw [show ({ md with maxPeers := 1 } : MdCpu).maxPeers.toNat = 1 from rfl] at hle1
  simp only [MD_BM_MAX_BYTE_FLEX, Nat.reducePow, Nat.reduceDiv, Nat.reduceMul, Nat.reduceSub] at hle hle1
  have hnat := congrArg BitVec.toNat hoff
  rw [BitVec.toNat_ofInt, BitVec.toNat_ofInt] at hnat
  have hsect : bm1 / 512 = bm / 512 := by omega
  obtain ⟨c, rfl⟩ := bmBytes_dvd h.bm_ok
  obtain ⟨c1, rfl⟩ := bmBytes_dvd hbm1
  have hc : c1 = c := by omega
  rw [hbm1, hc]

theorem roundTrips_iff (hvalid : isValidMd .v08 cfg.md cfg.mdIndex cfg.bdSize = .ok true) :
    RoundTrips o cfg ↔ RoundTripSafe cfg := by
  have hids := isValidMd_ids hvalid
  have hsafe : ∀ {cfg1 cfg2}, mdConvert08To09 o { cfg with version := .v09 } = .ok cfg1 →
      mdConvert09To08 o { cfg1 with version := .v08 } = .ok cfg2 → Keeps cfg.md cfg2.md →
      RoundTripSafe cfg := by
    intro cfg1 cfg2 h1 h2 hkeeps
    obtain ⟨hbitmap, hg, hal, hbm⟩ := (keeps_iff h1 h2).1 hkeeps
    refine ⟨hbitmap, ?_⟩
    rw [mdConvert08To09_eq] at h1
    rw [mdConvert09To08_eq] at h2
    have hre1 := (finishConversion_ok_iff.1 h1).1
    have hrelaid := reInitializeMdOffsets_relaid hre1
    have hidx1 : cfg1.mdIndex = cfg.mdIndex := hrelaid.mdIndex
    have hexternal : cfg.mdIndex.isExternal = true →
        cfg.md.bmBytesPerBit = BitVec.ofNat 32 BM_BLOCK_SIZE_4k := by
      intro hidx
      obtain ⟨s1, a1, b1, hmd1⟩ := reInitializeMdOffsets_md hre1
      have hsame : cfg1.md.bmBytesPerBit = cfg.md.bmBytesPerBit := by
        rw [hmd1]
        exact if_pos hg
      have h4k := (@externalGranularity_of_reInitialize _ (as08 cfg1) _
        ((congrArg MdIndex.isExternal hidx1).trans hidx) (hsame.symm ▸ hg)
        (finishConversion_ok_iff.1 h2).1).resolve_left fun h =>
        absurd (show MdFormat.v08 = .v09 from h.1) (by decide)
      apply BitVec.eq_of_toNat_eq
      rw [← hsame]
      exact h4k
    cases hidx : cfg.mdIndex with
    | fixed i => exact hexternal (by rw [hidx]; rfl)
    | flexExt => exact hexternal (by rw [hidx]; rfl)
    | internal =>
      have hp : cfg.md.maxPeers ≠ 0 := mdIdsOk_maxPeers_ne hids
      have hvalid1 := (finishConversion_ok_iff.1 h1).2
      rw [@reInitializeMdOffsets_internal _ (as09 cfg) hidx hg hp] at hre1
      cases hre1
      exact ⟨hg, (@isValidMd_internalMd _ (as09 cfg) hidx rfl (mdIdsOk_to09 hids) _).1 hvalid1⟩
    | flexInt =>
      rw [hidx, isValidMd_flexInt_iff (by decide)] at hvalid
      obtain ⟨bm, hflex⟩ := hvalid
      have hflex1 : FlexIntValid .v09 (as09 cfg).md (as09 cfg).bdSize bm :=
        ⟨rfl, mdIdsOk_to09 hids, hflex.bm_ok, hflex.alOffset, hflex.bmOffset, hflex.mdSizeSect⟩
      obtain ⟨cfg1', h1', hmd1, -, hbd1⟩ := @finishConversion_flexInt o _ (as09 cfg) hidx
        (by decide) _ hflex1
      rw [h1] at h1'
      cases h1'
      dsimp only
      rw [hflex.bm_ok]
      exact bitmap_of_bmOffset hflex (hidx1.trans hidx) hmd1 hbd1 h2 hbm
  constructor
  · rintro ⟨cfg1, cfg2, h1, h2, hkeeps⟩
    exact hsafe h1 h2 hkeeps
  · rintro ⟨hbitmap, hlayout⟩
    have hexternal : cfg.mdIndex.isExternal = true →
        cfg.md.bmBytesPerBit = BitVec.ofNat 32 BM_BLOCK_SIZE_4k → RoundTrips o cfg := by
      intro hidx h4k
      obtain ⟨hal, hbm⟩ := isValidMd_offsets (fun h => by rw [h] at hidx; cases hidx) hvalid
      obtain ⟨cfg1, cfg2, h1, h2, hal2, hbm2⟩ := roundTrips_external (o := o) hidx hids h4k
      refine ⟨cfg1, cfg2, h1, h2, (keeps_iff h1 h2).2 ⟨hbitmap, ?_, hal2.trans hal.symm,
        hbm2.trans hbm.symm⟩⟩
      rw [h4k]
      decide
    cases hidx : cfg.mdIndex with
    | fixed i => exact hexternal (by rw [hidx]; rfl) (by rw [hidx] at hlayout; exact hlayout)
    | flexExt => exact hexternal (by rw [hidx]; rfl) (by rw [hidx] at hlayout; exact hlayout)
    | internal =>
      rw [hidx] at hlayout
      obtain ⟨hg, hlog⟩ := hlayout
      obtain ⟨hal, hbm⟩ := isValidMd_offsets (by rw [hidx]; decide) hvalid
      obtain ⟨cfg1, cfg2, h1, h2, hal2, hbm2⟩ := roundTrips_internal (o := o) hidx hids hg hlog
      exact ⟨cfg1, cfg2, h1, h2, (keeps_iff h1 h2).2 ⟨hbitmap, hg, hal2.trans hal.symm,
        hbm2.trans (hbm.trans hlog).symm⟩⟩
    | flexInt =>
      rw [hidx] at hlayout
      rw [hidx, isValidMd_flexInt_iff (by decide)] at hvalid
      obtain ⟨bm, hflex⟩ := hvalid
      obtain ⟨cfg1, cfg2, h1, h2, hal, hbm⟩ := roundTrips_flexInt (o := o) hidx hflex
        (hlayout.trans hflex.bm_ok)
      refine ⟨cfg1, cfg2, h1, h2, (keeps_iff h1 h2).2 ⟨hbitmap, ?_, hal, hbm⟩⟩
      intro h0
      have hmin := (bmBytes_granularity hflex.bm_ok).1
      rw [h0] at hmin
      exact absurd hmin (by decide)

end RoundTrip

/-- **Converting there and back.**  For valid v08 metadata on any device, the conversion to v09 and
    back succeeds and returns what v08 can express if and only if the peer has no bitmap uuid and the
    layout is one both formats compute in the same way.  A conversion to v08 that does not exit
    leaves valid v08 metadata. -/
theorem convert_roundTrip_iff (o : Options) :
    (∀ cfg, isValidMd .v08 cfg.md cfg.mdIndex cfg.bdSize = .ok true →
      (RoundTrips o cfg ↔ RoundTripSafe cfg)) ∧
    ∀ cfg cfg', mdConvert09To08 o cfg = .ok cfg' →
      isValidMd .v08 cfg'.md cfg'.mdIndex cfg'.bdSize = .ok true :=
  ⟨fun _ hvalid => roundTrips_iff hvalid, fun _ _ h => (finishConversion_ok_iff.1 h).2⟩

/-- Flexible internal v08 metadata on a 128 MiB device. -/
def sample08 (bitmapUuid : BitVec 64) : Format :=
  { sampleFormat 262064 8 1 with
    version := .v08
    md := { sampleMd 262064 8 1 with
      magic := DRBD_MD_MAGIC_08
      peers := fun _ => ⟨bitmapUuid, 0, 0, 0⟩ } }

theorem sample08_valid (bitmapUuid : BitVec 64) : isValidMd .v08 (sample08 bitmapUuid).md
    (sample08 bitmapUuid).mdIndex (sample08 bitmapUuid).bdSize = .ok true := by
  have hlayout : SameLayout (sample08 0).md (sample08 bitmapUuid).md :=
    ⟨rfl, rfl, rfl, rfl, rfl, rfl, rfl, rfl⟩
  rw [hlayout.isValidMd rfl]
  exact (by decide +kernel : isValidMd .v08 (sample08 0).md (sample08 0).mdIndex (sample08 0).bdSize =
    .ok true)

theorem convert_roundTrip_clean : RoundTrips {} (sample08 0) :=
  ((convert_roundTrip_iff {}).1 _ (sample08_valid 0)).2 ⟨rfl, rfl⟩

/-- A peer that has missed writes is forgotten. -/
theorem convert_loses_bitmapUuid : isValidMd .v08 (sample08 0x1234).md (sample08 0x1234).mdIndex
    (sample08 0x1234).bdSize = .ok true ∧ ¬RoundTrips {} (sample08 0x1234) := by
  refine ⟨sample08_valid _, fun h => ?_⟩
  have hzero := ((roundTrips_iff (sample08_valid _)).1 h).1
  exact absurd hzero (by decide)

end DrbdUtils.Meta
