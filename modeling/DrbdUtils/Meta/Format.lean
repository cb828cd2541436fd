import DrbdUtils.Lib.BlockDevice

/-!
# The data model of `drbdmeta` and its I/O helpers

The working structures of `user/shared/drbdmeta.h` (`struct md_cpu`, `struct format`), the
command line options the modelled code reads, and the I/O helpers every command goes through
(`pread_or_die`, `validate_offsets_or_die`, `pwrite_or_die`, `pwrite_with_limit_or_die`).

Fixed-width fields are `BitVec`s, signed ones read through `toInt`; byte offsets and sizes
(`uint64_t`, `off_t`, `size_t`) are `Nat`s with the wrap written where it can happen.

`DRBD_PEERS_MAX`, `DRBD_NODE_ID_MAX`, `HISTORY_UUIDS` and the bitmap block sizes come from the
kernel headers; the other constants are the ones of `drbdmeta.c`.
-/

set_option autoImplicit false

namespace DrbdUtils.Meta

open BlockDevice

/-! ## Constants -/

abbrev DRBD_PEERS_MAX : Nat := 32
def DRBD_NODE_ID_MAX : Nat := 32
abbrev HISTORY_UUIDS : Nat := 32
abbrev GEN_CNT_SIZE : Nat := 5
def HISTORY_UUIDS_V08 : Nat := 2

instance : NeZero DRBD_PEERS_MAX := ⟨by decide⟩
instance : NeZero GEN_CNT_SIZE := ⟨by decide⟩

def BM_BLOCK_SIZE_4k : Nat := 4096
def BM_BLOCK_SIZE_MIN : Nat := 4096
def BM_BLOCK_SIZE_MAX : Nat := 1024 * 1024
def DEFAULT_BM_BLOCK_SIZE : Nat := BM_BLOCK_SIZE_4k

def MD_AL_OFFSET_07 : Nat := 8
def MD_AL_MAX_SECT_07 : Nat := 64
def MD_BM_OFFSET_07 : Nat := MD_AL_OFFSET_07 + MD_AL_MAX_SECT_07
def MD_RESERVED_SECT_07 : Nat := 128 * 2 ^ 11
def MD_BM_MAX_BYTE_FLEX : Nat := 2 ^ (38 - 3)

/-- What `check_for_existing_data()` reads; smaller devices are refused. -/
def SO_MUCH : Nat := 68 * 1024

/-- Size of `on_disk_buffer`. -/
@[irreducible] def bufferSize : Nat := 32 * 1024 * 1024

def AL_EXTENTS_MAX : Nat := 65534
def AL_EXTENT_SHIFT : Nat := 22

def DRBD_MAGIC : BitVec 32 := 0x83740267
def DRBD_MD_MAGIC_07 : BitVec 32 := DRBD_MAGIC + 3
def DRBD_MD_MAGIC_08 : BitVec 32 := DRBD_MAGIC + 4
def DRBD_MD_MAGIC_84_UNCLEAN : BitVec 32 := DRBD_MAGIC + 5
def DRBD_MD_MAGIC_09 : BitVec 32 := DRBD_MAGIC + 6
def DRBD_AL_MAGIC : BitVec 32 := 0x69cb65a2

def MDF_PRIMARY_IND : BitVec 32 := 1 <<< 1
def MDF_AL_CLEAN : BitVec 32 := 1 <<< 7

def UUID_JUST_CREATED : BitVec 64 := 4

/-! ## Working structures -/

/-- `enum md_format`, for the formats with an activity log and a bitmap on the device. -/
inductive MdFormat where
  | v07
  | v08
  | v09
  deriving DecidableEq, Repr

/-- `md_index`: an index into fixed-size slots, or one of the negative constants. -/
inductive MdIndex where
  | fixed (idx : Nat)
  | internal
  | flexExt
  | flexInt
  deriving DecidableEq, Repr

/-- Logical block size of the metadata device.  Direct I/O and the whole layout rest on it
    dividing 4096 (see the comment in `init_bitmap_pwrite`). -/
structure HardSectSize where
  val : Nat
  pos : 0 < val
  dvd : val ∣ 4096
  deriving DecidableEq

structure PeerMdCpu where
  bitmapUuid : BitVec 64
  bitmapDagtag : BitVec 64
  flags : BitVec 32
  bitmapIndex : BitVec 32
  deriving DecidableEq

/-- `struct md_cpu`. -/
@[ext] structure MdCpu where
  gc : Fin GEN_CNT_SIZE → BitVec 32
  magic : BitVec 32
  effectiveSize : BitVec 64
  mdSizeSect : BitVec 32
  alOffset : BitVec 32
  alNrExtents : BitVec 32
  bmOffset : BitVec 32
  currentUuid : BitVec 64
  historyUuids : Fin HISTORY_UUIDS → BitVec 64
  flags : BitVec 32
  deviceUuid : BitVec 64
  bmBytesPerBit : BitVec 32
  laPeerMaxBioSize : BitVec 32
  maxPeers : BitVec 32
  nodeId : BitVec 32
  peers : Fin DRBD_PEERS_MAX → PeerMdCpu
  alStripes : BitVec 32
  alStripeSize4k : BitVec 32
  members : BitVec 64

/-- `struct format`: the opened metadata device.  The `*Offset` fields are byte offsets. -/
structure Format where
  version : MdFormat
  mdHardSectSize : HardSectSize
  mdIndex : MdIndex
  bmBytes : Nat
  md : MdCpu
  mdOffset : Nat
  alOffset : Nat
  bmOffset : Nat
  wipeFixed : Nat
  wipeFlex : Nat
  wipeResize : Nat
  bdSize : Nat
  maxUsableSect : Nat
  /-- Size and device uuid last known for the backing device; size zero when not known. -/
  lkBdSize : Nat
  lkBdUuid : BitVec 64

/-- `enum initialize_bitmap_mode`. -/
inductive InitializeBitmapMode where
  | zeroout
  | zerooutIoctlOnly
  | zerooutPwrite
  | setAll
  | skip
  deriving DecidableEq, Repr

/-- The global option variables the modelled functions read. -/
structure Options where
  force : Bool := false
  ignoreSanityChecks : Bool := false
  dryRun : Bool := false
  alStripes : BitVec 32 := 1
  alStripeSize4k : BitVec 32 := 8
  alStripesUsed : Bool := false
  bmBlockSize : BitVec 32 := 0
  initializeBitmapMode : InitializeBitmapMode := .zeroout

/-- How a run ends early: a failed `ASSERT`, `exit(code)`, or an access outside the static
    buffers, after which C gives no meaning to the rest of the run.  `outOfFuel` belongs to the
    model: a loop without an evident bound was cut. -/
inductive Stop where
  | abort
  | exit (code : Nat)
  | outOfBounds
  | outOfFuel
  deriving DecidableEq, Repr

abbrev MetaRun := Run Stop

/-- `ASSERT`. -/
def assert (p : Prop) [Decidable p] : MetaRun Unit :=
  if p then pure () else Run.stop .abort

theorem assert_pos {p : Prop} [Decidable p] (h : p) (w : World) : assert p w = (.ok (), w) := by
  rw [assert, if_pos h]; rfl

theorem assert_ok {p : Prop} [Decidable p] {w w' : World} {u : Unit}
    (h : assert p w = (.ok u, w')) : p ∧ w' = w := by
  by_cases hp : p
  · rw [assert_pos hp] at h
    exact ⟨hp, (congrArg Prod.snd h).symm⟩
  · rw [assert, if_neg hp] at h
    cases h

/-- Lift a pure computation that may stop. -/
def liftExcept {α : Type} (x : Except Stop α) : MetaRun α := fun w => (x, w)

theorem except_bind_ok_iff {α β : Type} {x : Except Stop α} {f : α → Except Stop β} {b : β} :
    (x >>= f) = .ok b ↔ ∃ a, x = .ok a ∧ f a = .ok b := by
  cases x <;> simp [bind, Except.bind]

theorem except_bind_error_iff {α β : Type} {x : Except Stop α} {f : α → Except Stop β} {e : Stop} :
    (x >>= f) = .error e ↔ x = .error e ∨ ∃ a, x = .ok a ∧ f a = .error e := by
  cases x <;> simp [bind, Except.bind]

/-! ## Integer helpers -/

/-- `ALIGN(x, a)` for the powers of two it is used with. -/
def align (x a : Nat) : Nat := (x + (a - 1)) / a * a

/-- `round_down`. -/
def roundDown (i g : Nat) : Nat := i / g * g

/-- `is_power_of_2`. -/
def isPowerOf2 (n : Nat) : Bool := n ≠ 0 && (n &&& (n - 1)) == 0

/-- Value of an `int64_t` expression stored in a `uint64_t`. -/
def toU64 (x : Int) : Nat := (x % 2 ^ 64).toNat

/-- Value of a `uint64_t` read as `off_t`. -/
def toS64 (x : Nat) : Int := (x : Int).bmod (2 ^ 64)

/-- `generic_hweight32`. -/
def genericHweight32 (w : BitVec 32) : Nat := (List.range 32).countP (w.getLsbD ·)

theorem align_ge (x : Nat) {a : Nat} (ha : 0 < a) : x ≤ align x a := by
  have h := Nat.div_add_mod (x + (a - 1)) a
  have hlt := Nat.mod_lt (x + (a - 1)) ha
  unfold align
  rw [Nat.mul_comm]
  omega

theorem align_lt (x : Nat) {a : Nat} (ha : 0 < a) : align x a < x + a := by
  have h := Nat.div_mul_le_self (x + (a - 1)) a
  unfold align
  omega

theorem dvd_align (x a : Nat) : a ∣ align x a := Dvd.intro_left _ rfl

theorem align_eq_of_dvd {x a : Nat} (ha : 0 < a) (h : a ∣ x) : align x a = x := by
  obtain ⟨k, rfl⟩ := h
  have : (a * k + (a - 1)) / a = k := by
    rw [Nat.mul_add_div ha, Nat.div_eq_of_lt (by omega), Nat.add_zero]
  rw [align, this, Nat.mul_comm]

theorem align_le_of_dvd {x y a : Nat} (ha : 0 < a) (hx : x ≤ y) (h : a ∣ y) : align x a ≤ y := by
  have hlt := align_lt x ha
  obtain ⟨k, rfl⟩ := h
  obtain ⟨j, hj⟩ := dvd_align x a
  rw [hj] at hlt ⊢
  have : j < k + 1 := by
    by_contra hc
    have := Nat.mul_le_mul_left a (show k + 1 ≤ j by omega)
    rw [Nat.mul_add] at this
    omega
  exact Nat.mul_le_mul_left a (by omega)

theorem roundDown_le (i g : Nat) : roundDown i g ≤ i := Nat.div_mul_le_self i g

theorem isPowerOf2_iff {n : Nat} : isPowerOf2 n = true ↔ n.isPowerOfTwo := by
  rw [← Nat.ne_zero_and_sub_one_eq_zero_iff_isPowerOfTwo]
  simp [isPowerOf2]

@[simp] theorem toU64_natCast {n : Nat} (h : n < 2 ^ 64) : toU64 (n : Int) = n := by
  unfold toU64; omega

theorem toS64_of_lt {n : Nat} (h : n < 2 ^ 63) : toS64 n = n := by
  unfold toS64
  rw [Int.bmod_def]
  simp only [Nat.reducePow]
  omega

/-! ## I/O helpers -/

/-- `pread_or_die`: reads past the end of the device come back short, which is fatal. -/
def preadOrDie (cfg : Format) (count offset : Nat) : MetaRun Unit :=
  if offset + count ≤ cfg.bdSize then Run.read count offset
  else Run.stop (.exit 10)

/-- The metadata area `validate_offsets_or_die` derives from the superblock: first byte and
    length. -/
def mdAreaStart (cfg : Format) : Nat :=
  min (min cfg.mdOffset (toU64 (cfg.mdOffset + cfg.md.alOffset.toInt * 512)))
    (toU64 (cfg.mdOffset + cfg.md.bmOffset.toInt * 512))

def mdAreaLen (cfg : Format) : Nat := cfg.md.mdSizeSect.toNat * 512

/-- The range check of `validate_offsets_or_die`: true when the write may go ahead. -/
def validateOffsets (o : Options) (cfg : Format) (count offset : Nat) : Bool :=
  (offset ≠ 0 && (offset = cfg.wipeFixed || offset = cfg.wipeFlex || offset = cfg.wipeResize)) ||
  (decide (toS64 (mdAreaStart cfg) ≤ offset ∧
    (offset + count : Int) ≤ toS64 (mdAreaStart cfg) + mdAreaLen cfg)) ||
  o.ignoreSanityChecks

/-- `pwrite_or_die`. -/
def pwriteOrDie (o : Options) (cfg : Format) (count offset : Nat) : MetaRun Unit :=
  if !validateOffsets o cfg count offset then Run.stop (.exit 10)
  else if o.dryRun then pure ()
  else if offset + count ≤ cfg.bdSize then Run.write count offset
  else Run.stop (.exit 10)

/-- `pwrite_with_limit_or_die`: returns the number of bytes written. -/
def pwriteWithLimitOrDie (o : Options) (cfg : Format) (count offset limit : Nat) : MetaRun Nat :=
  if limit ≤ offset then Run.stop (.exit 10)
  else do
    let count := if limit - offset < count then limit - offset else count
    pwriteOrDie o cfg count offset
    pure count

theorem preadOrDie_ok {cfg : Format} {count offset : Nat} (h : offset + count ≤ cfg.bdSize)
    (w : World) : preadOrDie cfg count offset w = (.ok (), w.read count offset) := by
  rw [preadOrDie, if_pos h, Run.read_apply]

theorem of_preadOrDie_ok {cfg : Format} {count offset : Nat} {w w' : World} {u : Unit}
    (h : preadOrDie cfg count offset w = (.ok u, w')) :
    offset + count ≤ cfg.bdSize ∧ w' = w.read count offset := by
  by_cases hle : offset + count ≤ cfg.bdSize
  · rw [preadOrDie_ok hle] at h
    exact ⟨hle, (congrArg Prod.snd h).symm⟩
  · rw [preadOrDie, if_neg hle] at h
    cases h

theorem pwriteOrDie_ok {o : Options} {cfg : Format} {count offset : Nat}
    (hv : validateOffsets o cfg count offset = true) (hd : o.dryRun = false)
    (hb : offset + count ≤ cfg.bdSize) (w : World) :
    pwriteOrDie o cfg count offset w = (.ok (), w.write count offset) := by
  simp [pwriteOrDie, hv, hd, hb, Run.write_apply]

theorem of_pwriteOrDie_ok {o : Options} {cfg : Format} {count offset : Nat} {w w' : World}
    {u : Unit} (hd : o.dryRun = false) (h : pwriteOrDie o cfg count offset w = (.ok u, w')) :
    validateOffsets o cfg count offset = true ∧ offset + count ≤ cfg.bdSize ∧
      w' = w.write count offset := by
  by_cases hv : validateOffsets o cfg count offset = true
  · by_cases hb : offset + count ≤ cfg.bdSize
    · rw [pwriteOrDie_ok hv hd hb] at h
      exact ⟨hv, hb, (congrArg Prod.snd h).symm⟩
    · simp [pwriteOrDie, hv, hd, hb, Run.stop_apply] at h
  · simp [pwriteOrDie, hv, Run.stop_apply] at h

theorem pwriteWithLimitOrDie_ok {o : Options} {cfg : Format} {count offset limit : Nat}
    (hlt : offset < limit) (hd : o.dryRun = false)
    (hv : validateOffsets o cfg (min count (limit - offset)) offset = true)
    (hb : offset + min count (limit - offset) ≤ cfg.bdSize) (w : World) :
    pwriteWithLimitOrDie o cfg count offset limit w =
      (.ok (min count (limit - offset)), w.write (min count (limit - offset)) offset) := by
  have hcount : (if limit - offset < count then limit - offset else count) =
      min count (limit - offset) := by
    split <;> omega
  rw [pwriteWithLimitOrDie, if_neg (by omega), hcount, Run.bind_ok (pwriteOrDie_ok hv hd hb w)]
  rfl

end DrbdUtils.Meta
