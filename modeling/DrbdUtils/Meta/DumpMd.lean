import DrbdUtils.Meta.Commands
import DrbdUtils.Meta.DumpText

/-!
# What `dump-md` prints

The text of `meta_dump_md()`, below the verbosity at which it prints the activity log too: comments
with the layout, the fields of the superblock, and the bitmap of every slot.

* `metaDumpMdText_sections` — of valid metadata of the 9 format the text is complete, and every slot
  has its section.
-/

set_option autoImplicit false

namespace DrbdUtils.Meta

open BlockDevice Numerals

/-! ## Pieces of the text -/

/-- What `print_dump_header` finds out. -/
structure DumpHeader where
  timeStr : List Char
  hostname : List Char
  globalArgv : List (List Char)

/-- `print_dump_header`. -/
def printDumpHeader (header : DumpHeader) : List Char :=
  "# DRBD meta data dump\n# ".toList ++ header.timeStr ++ "\n# ".toList ++ header.hostname ++ ['>'] ++
    header.globalArgv.flatMap (' ' :: ·) ++ "\n#\n\n".toList

/-- The names of the flags of a peer. -/
def flagName : Nat → Option (List Char)
  | 0 => some "connected".toList
  | 1 => some "<=outdated".toList
  | 2 => some "fencing".toList
  | 3 => some "full-sync".toList
  | 4 => some "seen".toList
  | 16 => some "exists".toList
  | _ => none

/-- A flag without the separator. -/
def peerFlagText (i : Nat) : List Char :=
  (flagName i).getD ("0x".toList ++ Nat.toDigits 16 (2 ^ i) ++ "=?".toList)

/-- The loop of `pretty_peer_md_flags`, with `n` bytes left in the buffer. -/
def prettyFlagsLoop (flags : BitVec 32) (sep : List Char) : List Nat → Nat → List Char → List Char
  | [], _, _ => []
  | i :: is, n, curSep =>
    if flags.getLsbD i then
      let c := curSep ++ peerFlagText i
      if n ≤ c.length then c.take (n - 1) else c ++ prettyFlagsLoop flags sep is (n - c.length) sep
    else prettyFlagsLoop flags sep is n curSep

/-- `pretty_peer_md_flags`. -/
def prettyPeerMdFlags (bufSize : Nat) (flags : BitVec 32) (firstSep sep : List Char) : List Char :=
  prettyFlagsLoop flags sep (List.range 32) bufSize firstSep

/-- `0x%016lX`. -/
def uuidHex (uuid : BitVec 64) : List Char := "0x".toList ++ uuidText uuid

/-- `0x%08X`. -/
def flagsHex (flags : BitVec 32) : List Char := "0x".toList ++ hexText 8 flags.toNat

/-- A peer, behind its bitmap index. -/
def peerRest (peer : PeerMdCpu) : List Char :=
  "    bitmap-uuid ".toList ++ uuidHex peer.bitmapUuid ++ ";\n".toList ++
    "    bitmap-dagtag ".toList ++ uuidHex peer.bitmapDagtag ++ ";\n".toList ++
    ("    flags ".toList ++ flagsHex peer.flags ++ [';'] ++
      prettyPeerMdFlags 80 peer.flags " # ".toList " | ".toList ++ "\n\x7d\n".toList)

def peerText (md : MdCpu) (i : Fin DRBD_PEERS_MAX) : List Char :=
  "peer[".toList ++ decText i ++ "] \x7b\n".toList ++
    "    bitmap-index ".toList ++ intText (md.peers i).bitmapIndex.toInt ++ ";\n".toList ++
    peerRest (md.peers i)

def historyText (md : MdCpu) : List Char :=
  "history-uuids \x7b".toList ++ (List.finRange HISTORY_UUIDS).flatMap (fun i =>
    (if i.val % 4 = 0 then "\n        ".toList else [' ']) ++ uuidHex (md.historyUuids i) ++ [';']) ++
    "\n\x7d\n".toList

/-- The identifiers of the 9 format. -/
def idsText (md : MdCpu) : List Char :=
  "node-id ".toList ++ intText md.nodeId.toInt ++ ";\n".toList ++
    "current-uuid ".toList ++ uuidHex md.currentUuid ++ ";\n".toList ++
    "flags ".toList ++ flagsHex md.flags ++ ";\n".toList ++
    "members ".toList ++ uuidHex md.members ++ ";\n".toList

/-- The identifiers, by format. -/
def generationText (md : MdCpu) : MdFormat → List Char
  | .v07 => "gc \x7b\n   ".toList ++ (List.finRange GEN_CNT_SIZE).flatMap (fun i =>
      ' ' :: intText (md.gc i).toInt ++ [';']) ++ "\n\x7d\n".toList
  | .v08 => "uuid \x7b\n    ".toList ++ uuidHex md.currentUuid ++ "; ".toList ++
      uuidHex (md.peers 0).bitmapUuid ++ "; ".toList ++ uuidHex (md.historyUuids 0) ++ "; ".toList ++
      uuidHex (md.historyUuids 1) ++ ";\n    flags ".toList ++ flagsHex md.flags ++ ";\n\x7d\n".toList
  | .v09 => idsText md ++ (List.finRange DRBD_PEERS_MAX).flatMap (peerText md) ++ historyText md

/-- The fields between the granularity and the bitmap. -/
def deviceText (md : MdCpu) : List Char :=
  "device-uuid ".toList ++ uuidHex md.deviceUuid ++ ";\n".toList ++
    "la-peer-max-bio-size ".toList ++ intText md.laPeerMaxBioSize.toInt ++ ";\n".toList ++
    "al-stripes ".toList ++ decText md.alStripes.toNat ++ ";\n".toList ++
    "al-stripe-size-4k ".toList ++ decText md.alStripeSize4k.toNat ++ ";\n".toList

def granularityText (md : MdCpu) : List Char :=
  "bm-byte-per-bit ".toList ++ decText md.bmBytesPerBit.toNat ++ ";\n".toList

/-- The sizes in front of the bitmap. -/
def sizesText (cfg : Format) : List Char :=
  "# al-extents ".toList ++ decText cfg.md.alNrExtents.toNat ++ ";\n".toList ++
    "la-size-sect ".toList ++ decText cfg.md.effectiveSize.toNat ++ ";\n".toList ++
    (if cfg.version ≠ .v07 then granularityText cfg.md ++ deviceText cfg.md else []) ++
    "# bm-bytes ".toList ++ decText cfg.bmBytes ++ ";\n".toList

/-- `max_usable_sect` of the opened device cut the size in its superblock. -/
def clipText (superblock : MdCpu) (maxUsableSect : Nat) : List Char :=
  if maxUsableSect < superblock.effectiveSize.toNat then
    "# la-size-sect was too big (".toList ++ decText superblock.effectiveSize.toNat ++
      "), truncated (".toList ++ decText maxUsableSect ++ ")!\n".toList
  else []

/-- The byte offsets, behind comment signs. -/
def offsetsText (sign : List Char) (cfg : Format) : List Char :=
  sign ++ " md_offset ".toList ++ decText cfg.mdOffset ++ ['\n'] ++
    sign ++ " al_offset ".toList ++ decText cfg.alOffset ++ ['\n'] ++
    sign ++ " bm_offset ".toList ++ decText cfg.bmOffset ++ ['\n']

/-- The note on metadata that was found at the last known location. -/
def resizedText (mdDeviceName : List Char) (lkBdName : Option (List Char)) (cfg : Format) : List Char :=
  "#\n### Device seems to have been resized!\n".toList ++
    "### dumping meta data from the last known position\n".toList ++
    "### current size of ".toList ++ mdDeviceName ++ ": ".toList ++ decText cfg.bdSize ++
    " byte\n### expected position of meta data:\n".toList ++ offsetsText "##".toList cfg ++
    "### last known size of ".toList ++ lkBdName.getD "-?-".toList ++ ": ".toList ++
    decText cfg.lkBdSize ++ " byte\n### adjusted position of meta data:\n".toList

def versionName : MdFormat → List Char
  | .v07 => "v07".toList
  | .v08 => "v08".toList
  | .v09 => "v09".toList

def uncleanText (md : MdCpu) : List Char :=
  if alIsClean md then []
  else "This_is_an_unclean_meta_data_dump._Don't_trust_the_bitmap.\n".toList ++
    "# You should \"apply-al\" first, if you plan to restore this.\n\n".toList

/-- A section behind the number of its slot. -/
def sectionText (i : Nat) (text : List Char) : List Char :=
  "bitmap[".toList ++ decText i ++ "] ".toList ++ text

section Commands

variable (I : Invocation) (lkFile : LkFile) (cfg : Format)

/-- What is printed in front of the identifiers: of the device as it was opened, and as it is
    dumped. -/
def headText (header : DumpHeader) (rc : MdOpenRc) (superblock : MdCpu) (opened dumped : Format) :
    List Char :=
  (if rc = .validMdFound then clipText superblock opened.maxUsableSect else []) ++
    printDumpHeader header ++ "version \"".toList ++ versionName opened.version ++ "\";\n\n".toList ++
    uncleanText opened.md ++
    (if opened.version = .v09 then
      "max-peers ".toList ++ intText opened.md.maxPeers.toInt ++ ";\n".toList else []) ++
    "# md_size_sect ".toList ++ decText opened.md.mdSizeSect.toNat ++ ['\n'] ++
    (if rc = .validMdFoundAtLastKnownLocation then
      resizedText I.mdDeviceName ((lkBdevLoad lkFile).bind BdevInfo.bdName) opened else []) ++
    offsetsText ['#'] dumped ++ ['\n']

/-- `n` sections of `printf_bm` from `peerNr` on, and `bits_set` behind them. -/
def printfBmFromText : Nat → Nat → Nat → MetaRun (List Char × Nat)
  | 0, _, bitsSet => pure ([], bitsSet)
  | n + 1, peerNr, _ => do
    let (section_, bitsSet) ← fprintfBmText cfg peerNr I.fuel
    let (sections, bitsSet) ← printfBmFromText n (peerNr + 1) bitsSet
    pure (sectionText peerNr section_ ++ sections, bitsSet)

/-- `printf_bm`. -/
def printfBmText : MetaRun (List Char × Nat) :=
  if cfg.version = .v09 then printfBmFromText I cfg cfg.md.maxPeers.toNat 0 0
  else do
    let (section_, bitsSet) ← fprintfBmText cfg 0 I.fuel
    pure ("bm ".toList ++ section_, bitsSet)

/-- `meta_dump_md`: the text, or `none` when it gives up.  The buffer holds the superblock of a device
    that was opened where it should be. -/
def metaDumpMdText (header : DumpHeader) : MetaRun (Option (List Char)) := do
  let opened ← I.openMd lkFile cfg
  let buf ← Run.getBuf
  if opened.1 = .noValidMdFound then pure none
  else if !alIsClean opened.2.md && !I.options.force then pure none
  else do
    let dumped ← liftExcept (dumpedFormat opened.2 opened.1)
    let bitmap ← printfBmText I dumped
    let superblock := decodeMd I.onDisk9 cfg.version buf
    pure (some (headText I lkFile header opened.1 superblock opened.2 dumped ++
      generationText dumped.md dumped.version ++ sizesText dumped ++ bitmap.1 ++
      "# bits-set ".toList ++ decText bitmap.2 ++ ";\n".toList))

end Commands

/-! ## The sections -/

/-- A slot as `fprintf_bm()` prints it. -/
def IsSection (cfg : Format) (disk : Mem) (p : Nat) (text : List Char) : Prop :=
  ∃ s lines blank,
    Dumped p cfg.md.maxPeers.toNat (cfg.bmBytes / 4 % 2 ^ 32) (bitmapWord cfg disk) s ∧
    SectionText p (slotWordCount (cfg.bmBytes / 4 % 2 ^ 32) cfg.md.maxPeers.toNat p) s.out text lines blank

/-- The sections of some slots, one behind the other. -/
def sectionsText (slots : List Nat) (text : Nat → List Char) : List Char :=
  slots.flatMap fun i => sectionText i (text i)

/-- The bitmap of the dumped layout is on the device. -/
structure DumpedMd (cfg : Format) : Prop where
  version : cfg.version = .v09
  ids : mdIdsOk cfg.md = true
  bmBytes_ok : bmBytes cfg.md cfg.md.effectiveSize.toNat = .ok cfg.bmBytes
  device : cfg.bmOffset + cfg.bmBytes ≤ cfg.bdSize

theorem DumpedMd.maxPeers_le {cfg : Format} (h : DumpedMd cfg) :
    cfg.md.maxPeers.toNat ≤ DRBD_PEERS_MAX :=
  (mdIdsOk_peers h.ids).2.trans (by decide)

section Run

variable {I : Invocation} {lkFile : LkFile} {cfg₀ opened cfg : Format} {rc : MdOpenRc}

theorem printfBmFromText_sections (h : DumpedMd cfg) (hfuel : cfg.bmBytes + 3 ≤ I.fuel) :
    ∀ (n peerNr bitsSet : Nat) (w : World), peerNr + n ≤ cfg.md.maxPeers.toNat →
      ∃ text bitsSet' w', printfBmFromText I cfg n peerNr bitsSet w =
          (.ok (sectionsText (List.range' peerNr n) text, bitsSet'), w') ∧
        w'.disk = w.disk ∧ ∀ i, peerNr ≤ i → i < peerNr + n → IsSection cfg w.disk i (text i)
  | 0, peerNr, bitsSet, w, _ => ⟨fun _ => [], bitsSet, w, rfl, rfl, fun _ h1 h2 => by omega⟩
  | n + 1, peerNr, bitsSet, w, hn => by
    obtain ⟨s, first, bits, w₁, lines, blank, hrun, hd, hdumped, hsection⟩ :=
      fprintfBmText_lines (p := peerNr) (bmBytes_dvd h.bmBytes_ok) (by omega) h.maxPeers_le h.device
        hfuel w
    obtain ⟨text, bitsSet', w₂, hrest, hd', hsections⟩ :=
      printfBmFromText_sections h hfuel n (peerNr + 1) bits w₁ (by omega)
    refine ⟨Function.update text peerNr first, bitsSet', w₂, ?_, hd'.trans hd, ?_⟩
    · have hsame : sectionsText (List.range' (peerNr + 1) n) (Function.update text peerNr first) =
          sectionsText (List.range' (peerNr + 1) n) text := by
        refine List.flatMap_congr fun i hi => ?_
        have hne : i ≠ peerNr := by
          have := (List.mem_range'_1.1 hi).1
          omega
        rw [Function.update_of_ne hne]
      have hcons : sectionsText (List.range' peerNr (n + 1)) (Function.update text peerNr first) =
          sectionText peerNr first ++ sectionsText (List.range' (peerNr + 1) n) text := by
        rw [← hsame, List.range'_succ, sectionsText, List.flatMap_cons, Function.update_self]
        rfl
      rw [hcons, printfBmFromText, Run.bind_ok hrun]
      dsimp only
      rw [Run.bind_ok hrest]
      rfl
    · intro i h1 h2
      by_cases hi : i = peerNr
      · rw [hi, Function.update_self]
        exact ⟨s, lines, blank, hdumped, hsection⟩
      · rw [Function.update_of_ne hi, ← hd]
        exact hsections i (by omega) (by omega)

/-- Looking at the last known location keeps the format. -/
theorem of_v08CheckForResize_version {K : OnDisk9} {o : Options} {lk : Option (Nat × BitVec 64)}
    {w w' : World} (h : v08CheckForResize K o lk opened w = (.ok cfg, w')) :
    cfg.version = opened.version := by
  obtain ⟨_, w₁, -, h⟩ := Run.of_bind_ok h
  split at h
  · cases h
    rfl
  · match lk with
    | none =>
      cases h
      rfl
    | some (size, uuid) =>
      simp only at h
      split at h
      · cases h
        rfl
      · split at h
        · obtain ⟨_, w₂, -, h⟩ := Run.of_bind_ok h
          obtain ⟨_, w₃, -, h⟩ := Run.of_bind_ok h
          obtain ⟨_, w₄, -, h⟩ := Run.of_bind_ok h
          cases h
          split <;> rfl
        · cases h
          rfl

theorem of_openMd_version {w w' : World} (hver : cfg₀.version ≠ .v07)
    (hopen : I.openMd lkFile cfg₀ w = (.ok (rc, opened), w')) : opened.version = cfg₀.version := by
  rw [Invocation.openMd, mdOpen, if_neg hver] at hopen
  obtain ⟨⟨rc₁, cfg₁⟩, w₁, h₁, h⟩ := Run.of_bind_ok hopen
  split at h
  · next hfound =>
    cases h
    obtain rfl : rc = .validMdFound := hfound
    obtain ⟨mu, hs⟩ := (v07StyleMdOpen_found_iff.1 h₁).1.spec
    exact hs.offsets.1
  · next hfound =>
    obtain ⟨-, -, -, rfl⟩ := of_v07StyleMdOpen_notFound I.onDisk9 h₁ hfound
    obtain ⟨cfg₂, w₂, hcheck, h⟩ := Run.of_bind_ok h
    have hversion := of_v08CheckForResize_version hcheck
    split at h
    · cases h
      exact hversion
    · cases h
      exact hversion

theorem of_dumpedFormat_ok (h : dumpedFormat opened rc = .ok cfg) : cfg.md = opened.md ∧
    cfg.version = opened.version ∧ cfg.bdSize = opened.bdSize ∧
      (rc ≠ .validMdFoundAtLastKnownLocation → cfg = opened) ∧
      (rc = .validMdFoundAtLastKnownLocation →
        bmBytes cfg.md cfg.md.effectiveSize.toNat = .ok cfg.bmBytes) := by
  unfold dumpedFormat at h
  split at h
  · next hrc =>
    obtain ⟨bm, hbm, hcfg⟩ := except_bind_ok_iff.1 h
    cases hcfg
    exact ⟨rfl, rfl, rfl, fun hne => absurd hrc hne, fun _ => hbm⟩
  · next hrc =>
    cases h
    exact ⟨rfl, rfl, rfl, fun _ => rfl, fun h => absurd h hrc⟩

/-- **Metadata that was found** is what the dump needs, with its bitmap on the device. -/
theorem dumpedMd_of_openMd {w w' : World} (hver : cfg₀.version = .v09)
    (hopen : I.openMd lkFile cfg₀ w = (.ok (rc, opened), w')) (hrc : rc ≠ .noValidMdFound)
    (hdumped : dumpedFormat opened rc = .ok cfg) (hdevice : cfg.bmOffset + cfg.bmBytes ≤ cfg.bdSize) :
    DumpedMd cfg := by
  have hne : cfg₀.version ≠ .v07 := by rw [hver]; decide
  have hopened := (of_openMd_version hne hopen).trans hver
  obtain ⟨hmd, hversion, -, hsame, hmoved⟩ := of_dumpedFormat_ok hdumped
  cases rc with
  | validMdFound =>
    obtain ⟨h, -⟩ := (opened_iff hne).1 hopen
    obtain ⟨mu, hs⟩ := h.spec
    obtain rfl := hsame (by decide)
    have hids := isValidMd_ids h.valid
    refine ⟨hopened, ?_, hs.bmBytes_ok, hdevice⟩
    rw [hs.md]
    exact hids
  | noValidMdFound => exact absurd rfl hrc
  | validMdFoundAtLastKnownLocation =>
    rw [Invocation.openMd, mdOpen, if_neg hne] at hopen
    have h := v08MdOpen_lastKnown I.onDisk9 hopen
    refine ⟨hversion.trans hopened, ?_, hmoved rfl, hdevice⟩
    rw [hmd]
    exact isValidMd_ids h.valid

/-- A run of `dump-md` that finds metadata of the 9 format, with the bitmap it is to print on the
    device; `opened` is what was found, `cfg` the layout that is printed. -/
structure DumpsMd (I : Invocation) (lkFile : LkFile) (cfg₀ : Format) (w : World) (rc : MdOpenRc)
    (opened cfg : Format) : Prop where
  version : cfg₀.version = .v09
  opens : ∃ w₁, I.openMd lkFile cfg₀ w = (.ok (rc, opened), w₁)
  found : rc ≠ .noValidMdFound
  clean : alIsClean opened.md = true ∨ I.options.force = true
  layout : dumpedFormat opened rc = .ok cfg
  device : cfg.bmOffset + cfg.bmBytes ≤ cfg.bdSize
  fuel : cfg.bmBytes + 3 ≤ I.fuel

/-- **The text of valid metadata**: it is printed to its end, with a section for every slot. -/
theorem metaDumpMdText_sections {w : World} (h : DumpsMd I lkFile cfg₀ w rc opened cfg)
    (header : DumpHeader) : ∃ superblock text bitsSet w', metaDumpMdText I lkFile cfg₀ header w =
        (.ok (some (headText I lkFile header rc superblock opened cfg ++ generationText cfg.md .v09 ++
          sizesText cfg ++ sectionsText (List.range' 0 cfg.md.maxPeers.toNat) text ++
          "# bits-set ".toList ++ decText bitsSet ++ ";\n".toList)), w') ∧
      ∀ i < cfg.md.maxPeers.toNat, IsSection cfg w.disk i (text i) := by
  obtain ⟨w₁, hopen⟩ := h.opens
  have hmd := dumpedMd_of_openMd h.version hopen h.found h.layout h.device
  have hdisk : w₁.disk = w.disk := (mdOpen_silent cfg₀).disk_eq hopen
  have hgo : ¬(!alIsClean opened.md && !I.options.force) = true := by
    rcases h.clean with hc | hc <;> simp [hc]
  obtain ⟨text, bitsSet, w₂, hrun, -, hsections⟩ :=
    printfBmFromText_sections hmd h.fuel cfg.md.maxPeers.toNat 0 0 w₁ (by omega)
  have hbitmap : printfBmText I cfg w₁ = _ := (congrFun (if_pos hmd.version) w₁).trans hrun
  have hlift : liftExcept (dumpedFormat opened rc) w₁ = (.ok cfg, w₁) := by
    rw [h.layout]
    rfl
  refine ⟨decodeMd I.onDisk9 cfg₀.version w₁.buf, text, bitsSet, w₂, ?_,
    fun i hi => hdisk ▸ hsections i (Nat.zero_le i) (by omega)⟩
  rw [metaDumpMdText, Run.bind_ok hopen, Run.bind_ok (Run.getBuf_apply w₁)]
  dsimp only
  rw [if_neg h.found, if_neg hgo, Run.bind_ok hlift, Run.bind_ok hbitmap, hmd.version]
  rfl

end Run

end DrbdUtils.Meta
