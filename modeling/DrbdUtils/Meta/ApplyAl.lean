import DrbdUtils.Meta.Layout

/-!
# `apply-al`: marking the extents of the activity log in the bitmap

`enr_to_bit_range()` and `apply_al()` of `drbdmeta.c`.  The bitmap holds, for every logical
bit number, one bit per peer slot; the slots are interleaved in 32-bit words.

* `applyAlLoop` — the batching loop: skip an extent that is "beyond end of bitmap", else read
  one chunk for as many following extents as fit, set their bits, write the chunk back.
* `applyAlLoop_bits` — when the loop returns, an on-disk bit is set exactly if it was set
  before or belongs to an extent the loop accepted.
* `applyAl_returns` — on a sorted array, with the bitmap area inside the metadata area, no
  `ASSERT` fails and every read and write succeeds.
-/

set_option autoImplicit false

namespace DrbdUtils.Meta

open BlockDevice

/-! ## Model -/

structure ExtentBitRange where
  /-- Logical bit numbers `[bitS, bitE)` within a slot. -/
  bitS : Nat
  bitE : Nat
  /-- First byte of the respective 32-bit word of slot 0, relative to the bitmap. -/
  onDiskWord32PosS : Nat
  /-- One past the last byte of the last 32-bit word of the last slot. -/
  onDiskWord32PosE : Nat
  aligned4kXMaxPeersOnDiskPos : Nat

/-- `enr_to_bit_range`. -/
def enrToBitRange (enr bitsPerExtent maxPeers : Nat) : ExtentBitRange :=
  let bitS := enr * bitsPerExtent
  let bitE := bitS + bitsPerExtent
  let posS := bitS / 32 * maxPeers * 4
  { bitS := bitS
    bitE := bitE
    onDiskWord32PosS := posS
    onDiskWord32PosE := (bitE + 31) / 32 * maxPeers * 4
    aligned4kXMaxPeersOnDiskPos := roundDown posS (4096 * maxPeers) }

/-- The unused slot value `~0U`. -/
def noExtent : Nat := 0xFFFFFFFF

/-- The `hot_extent` array: always `AL_EXTENTS_MAX` entries of 32 bits. -/
structure HotExtents where
  extents : List Nat
  length_eq : extents.length = AL_EXTENTS_MAX
  lt : ∀ e ∈ extents, e < 2 ^ 32

/-- The extents listed before the first unused entry. -/
def HotExtents.listed (hot : HotExtents) : List Nat := hot.extents.takeWhile (· ≠ noExtent)

/-- `mask`, for granularities where an extent is only a part of one 32-bit word. -/
def extentMask (bitS bitE : Nat) : BitVec 32 :=
  (BitVec.allOnes 32 <<< (bitS % 32)) &&& (BitVec.allOnes 32 >>> ((32 - bitE % 32) % 32))

/-- The loop over the slots: or `mask` into `n` words from word `i` on, counting new bits. -/
def orSlots (mask : BitVec 32) : Nat → Nat → Mem → Nat → Mem × Nat
  | 0, _, m, additionalBitsSet => (m, additionalBitsSet)
  | n + 1, i, m, additionalBitsSet =>
    let bitsSet := genericHweight32 (word32 m i)
    let word := word32 m i ||| mask
    orSlots mask n (i + 1) (setWord32 m i word)
      ((additionalBitsSet + (genericHweight32 word - bitsSet)) % 2 ^ 32)

/-- "change the bits": the extents of one chunk, in the buffer.  The two `ASSERT`s compare
    `size_t` differences, which wrap when the extent starts before the chunk. -/
def changeBits (bitsPerExtent maxPeers bmOnDiskPos chunk : Nat) : List Nat → Nat → MetaRun Nat
  | [], additionalBitsSet => pure additionalBitsSet
  | enr :: rest, additionalBitsSet => do
    let ex := enrToBitRange enr bitsPerExtent maxPeers
    assert (bmOnDiskPos ≤ ex.onDiskWord32PosS ∧ ex.onDiskWord32PosS - bmOnDiskPos < chunk)
    assert (bmOnDiskPos ≤ ex.onDiskWord32PosE ∧ ex.onDiskWord32PosE - bmOnDiskPos ≤ chunk)
    if 32 ≤ bitsPerExtent then do
      let numBytes := ex.onDiskWord32PosE - ex.onDiskWord32PosS
      Run.modifyBuf fun m => fill m (ex.onDiskWord32PosS - bmOnDiskPos) numBytes (BitVec.allOnes 8)
      changeBits bitsPerExtent maxPeers bmOnDiskPos chunk rest additionalBitsSet
    else do
      let m ← Run.getBuf
      let r := orSlots (extentMask ex.bitS ex.bitE) maxPeers
        ((ex.onDiskWord32PosS - bmOnDiskPos) / 4) m additionalBitsSet
      Run.modifyBuf fun _ => r.1
      changeBits bitsPerExtent maxPeers bmOnDiskPos chunk rest r.2

/-- May extent `e` join the chunk that starts at `first`? -/
def fitsChunk (bmBytes bitsPerExtent maxPeers : Nat) (first : ExtentBitRange) (e : Nat) : Bool :=
  let ex := enrToBitRange e bitsPerExtent maxPeers
  e ≠ noExtent && ex.onDiskWord32PosE < bmBytes &&
    ex.onDiskWord32PosE < first.aligned4kXMaxPeersOnDiskPos + bufferSize

/-- The main loop of `apply_al`, over the part of the array not looked at yet. -/
def applyAlLoop (o : Options) (cfg : Format) (bmBytes bitsPerExtent maxPeers : Nat) :
    List Nat → Nat → MetaRun Nat
  | [], additionalBitsSet => pure additionalBitsSet
  | enr :: rest, additionalBitsSet =>
    if enr = noExtent then pure additionalBitsSet
    else if bmBytes ≤ (enrToBitRange enr bitsPerExtent maxPeers).onDiskWord32PosE then
      -- "extent %u beyond end of bitmap!": skipped, the loop goes on
      applyAlLoop o cfg bmBytes bitsPerExtent maxPeers rest additionalBitsSet
    else do
      let firstEx := enrToBitRange enr bitsPerExtent maxPeers
      let batch := rest.takeWhile (fitsChunk bmBytes bitsPerExtent maxPeers firstEx)
      let lastEx := enrToBitRange ((enr :: batch).getLast (List.cons_ne_nil _ _))
        bitsPerExtent maxPeers
      let bmOnDiskPos := firstEx.aligned4kXMaxPeersOnDiskPos
      let chunk := align lastEx.onDiskWord32PosE 4096 - bmOnDiskPos
      assert (chunk ≤ bufferSize)
      preadOrDie cfg chunk (cfg.bmOffset + bmOnDiskPos)
      let additionalBitsSet ← changeBits bitsPerExtent maxPeers bmOnDiskPos chunk (enr :: batch)
        additionalBitsSet
      pwriteOrDie o cfg chunk (cfg.bmOffset + bmOnDiskPos)
      applyAlLoop o cfg bmBytes bitsPerExtent maxPeers
        (rest.dropWhile (fitsChunk bmBytes bitsPerExtent maxPeers firstEx)) additionalBitsSet
termination_by hot => hot.length
decreasing_by
  · simp
  · exact Nat.lt_succ_of_le (List.dropWhile_suffix _).length_le

/-- How many bits of one slot an activity log extent covers. -/
def bitsPerExtent (md : MdCpu) : Nat := 2 ^ (AL_EXTENT_SHIFT - md.bmBytesPerBit.toNat.log2)

/-- `apply_al`.  The result is what the final message reports: nothing to do, or the number of
    additional bits counted. -/
def applyAl (o : Options) (cfg : Format) (hot : HotExtents) : MetaRun (Option Nat) := do
  let bmBytes := align cfg.bmBytes cfg.mdHardSectSize.val
  let bitsPerExtent := bitsPerExtent cfg.md
  let maxPeers := cfg.md.maxPeers.toNat
  assert (4 ≤ bitsPerExtent ∧ bitsPerExtent ≤ 1024 ∧ isPowerOf2 bitsPerExtent)
  assert (1 ≤ maxPeers ∧ maxPeers ≤ DRBD_PEERS_MAX)
  let additionalBitsSet ← applyAlLoop o cfg bmBytes bitsPerExtent maxPeers hot.extents 0
  pure (if hot.listed = [] then none else some additionalBitsSet)

/-! ## Where the bits of an extent are -/

/-- Logical bit number of on-disk bit `n`, the slots of `m` peers being interleaved. -/
def slotBit (m n : Nat) : Nat := n / 32 / m * 32 + n % 32

/-- Whole-word extents: the bytes `[posS, posE)` hold exactly the bits of the extent. -/
theorem mem_word32_range_iff {e q m n : Nat} (hq : 0 < q) (hm : 0 < m) :
    ((enrToBitRange e (32 * q) m).onDiskWord32PosS ≤ n / 8 ∧
      n / 8 < (enrToBitRange e (32 * q) m).onDiskWord32PosE) ↔ slotBit m n / (32 * q) = e := by
  have hS : e * (32 * q) / 32 = e * q := by
    rw [show e * (32 * q) = 32 * (e * q) by ring]; exact Nat.mul_div_cancel_left _ (by omega)
  have hE : (e * (32 * q) + 32 * q + 31) / 32 = e * q + q := by
    rw [show e * (32 * q) + 32 * q + 31 = 31 + 32 * (e * q + q) by ring,
      Nat.add_mul_div_left _ _ (by omega)]
    omega
  have hslot : slotBit m n / (32 * q) = n / 32 / m / q := by
    rw [← Nat.div_div_eq_div_mul, slotBit]
    congr 1
    omega
  have hlo : e * q * m * 4 ≤ n / 8 ↔ e * q ≤ n / 32 / m := by
    rw [Nat.le_div_iff_mul_le hm]; omega
  have hhi : n / 8 < (e * q + q) * m * 4 ↔ n / 32 / m < e * q + q := by
    rw [Nat.div_lt_iff_lt_mul hm]; omega
  simp only [enrToBitRange, hS, hE, hslot]
  rw [hlo, hhi, Nat.div_eq_iff hq]
  omega

theorem extentMask_getLsbD {s t b : Nat} (hb : b < 32) :
    (extentMask s t).getLsbD b = decide (s % 32 ≤ b ∧ (t % 32 = 0 ∨ b < t % 32)) := by
  rw [extentMask, BitVec.getLsbD_and, BitVec.getLsbD_shiftLeft, BitVec.getLsbD_ushiftRight,
    BitVec.getLsbD_allOnes, BitVec.getLsbD_allOnes]
  have h1 : b - s % 32 < 32 := by omega
  have h2 : (32 - t % 32) % 32 + b < 32 ↔ t % 32 = 0 ∨ b < t % 32 := by omega
  simp only [hb, h1, h2, decide_true, Bool.true_and, Bool.and_true]
  by_cases h : b < s % 32
  · simp [h, show ¬ s % 32 ≤ b by omega]
  · simp [h, show s % 32 ≤ b by omega]

/-- Partial-word extents: one mask in the word of every slot holds exactly the bits of the
    extent. -/
theorem mem_mask_iff {e bpe m n : Nat} (hb : bpe = 4 ∨ bpe = 8 ∨ bpe = 16) (hm : 0 < m) :
    (e * bpe / 32 * m ≤ n / 32 ∧ n / 32 < e * bpe / 32 * m + m ∧
      (extentMask (e * bpe) (e * bpe + bpe)).getLsbD (n % 32) = true) ↔
      slotBit m n / bpe = e := by
  rw [extentMask_getLsbD (Nat.mod_lt _ (by omega)), decide_eq_true_eq]
  have hword : (e * bpe / 32 * m ≤ n / 32 ∧ n / 32 < e * bpe / 32 * m + m) ↔
      n / 32 / m = e * bpe / 32 := by
    rw [Nat.div_eq_iff hm]; omega
  rw [← and_assoc, hword, slotBit]
  generalize n / 32 / m = c
  rcases hb with rfl | rfl | rfl <;> omega

theorem bit_orSlots (mask : BitVec 32) : ∀ (k i : Nat) (m : Mem) (acc n : Nat),
    bit (orSlots mask k i m acc).1 n =
      (bit m n || (decide (i ≤ n / 32 ∧ n / 32 < i + k) && mask.getLsbD (n % 32)))
  | 0, i, m, acc, n => by
    simp [orSlots]
  | k + 1, i, m, acc, n => by
    rw [orSlots, bit_orSlots mask k (i + 1), bit_orWord32, Bool.or_assoc, ← Bool.and_or_distrib_right]
    congr 2
    rw [← Bool.decide_or]
    congr 1
    simp only [eq_iff_iff]
    omega

/-- An extent fits the granularity: whole words, or a mask inside one word. -/
theorem granularity_cases {bpe : Nat} (h4 : 4 ≤ bpe) (h1024 : bpe ≤ 1024)
    (hp : isPowerOf2 bpe = true) :
    (∃ q, 0 < q ∧ bpe = 32 * q) ∨ (bpe = 4 ∨ bpe = 8 ∨ bpe = 16) := by
  rw [isPowerOf2_iff] at hp
  obtain ⟨k, rfl⟩ := hp
  by_cases hk : 5 ≤ k
  · left
    refine ⟨2 ^ (k - 5), Nat.two_pow_pos _, ?_⟩
    rw [show 32 = 2 ^ 5 by rfl, ← Nat.pow_add]
    congr 1
    omega
  · right
    have : k = 0 ∨ k = 1 ∨ k = 2 ∨ k = 3 ∨ k = 4 := by omega
    rcases this with rfl | rfl | rfl | rfl | rfl <;> omega

theorem word32Pos_le (e bpe m : Nat) :
    (enrToBitRange e bpe m).onDiskWord32PosS ≤ (enrToBitRange e bpe m).onDiskWord32PosE := by
  simp only [enrToBitRange]
  gcongr
  omega

theorem bit_fill_extent {e q m pos : Nat} {buf : Mem} (hq : 0 < q) (hm : 0 < m)
    (hpos : pos ≤ (enrToBitRange e (32 * q) m).onDiskWord32PosS) (n : Nat) :
    bit (fill buf ((enrToBitRange e (32 * q) m).onDiskWord32PosS - pos)
        ((enrToBitRange e (32 * q) m).onDiskWord32PosE -
          (enrToBitRange e (32 * q) m).onDiskWord32PosS) (BitVec.allOnes 8)) n =
      (bit buf n || decide (slotBit m (n + 8 * pos) / (32 * q) = e)) := by
  rw [bit_fill_ones]
  congr 1
  rw [decide_eq_decide, ← mem_word32_range_iff hq hm]
  have := word32Pos_le e (32 * q) m
  omega

theorem bit_orSlots_extent {e bpe m pos : Nat} {buf : Mem} (hb : bpe = 4 ∨ bpe = 8 ∨ bpe = 16)
    (hm : 0 < m) (h4 : 4 ∣ pos) (hpos : pos ≤ (enrToBitRange e bpe m).onDiskWord32PosS)
    (acc n : Nat) :
    bit (orSlots (extentMask (enrToBitRange e bpe m).bitS (enrToBitRange e bpe m).bitE) m
        (((enrToBitRange e bpe m).onDiskWord32PosS - pos) / 4) buf acc).1 n =
      (bit buf n || decide (slotBit m (n + 8 * pos) / bpe = e)) := by
  rw [bit_orSlots]
  congr 1
  obtain ⟨p, rfl⟩ := h4
  have hmod : (n + 8 * (4 * p)) % 32 = n % 32 := by omega
  have hiff := mem_mask_iff (e := e) (n := n + 8 * (4 * p)) hb hm
  rw [hmod] at hiff
  rw [Bool.eq_iff_iff, Bool.and_eq_true, decide_eq_true_eq, decide_eq_true_eq, ← hiff, and_assoc]
  simp only [enrToBitRange] at hpos ⊢
  generalize e * bpe / 32 * m = x at hpos ⊢
  generalize (extentMask (e * bpe) (e * bpe + bpe)).getLsbD (n % 32) = y
  constructor <;> rintro ⟨h1, h2, h3⟩ <;> refine ⟨?_, ?_, h3⟩ <;> omega

/-! ## One chunk -/

/-- Granularity and peer count as `apply_al` has them once its own checks passed. -/
structure BitmapParams (bpe m : Nat) : Prop where
  gran : (∃ q, 0 < q ∧ bpe = 32 * q) ∨ (bpe = 4 ∨ bpe = 8 ∨ bpe = 16)
  peers : 0 < m

/-- The bits of an extent lie between its two word positions. -/
theorem BitmapParams.mem_range {bpe m e n : Nat} (hp : BitmapParams bpe m)
    (h : slotBit m n / bpe = e) :
    (enrToBitRange e bpe m).onDiskWord32PosS ≤ n / 8 ∧
      n / 8 < (enrToBitRange e bpe m).onDiskWord32PosE := by
  rcases hp.gran with ⟨q, hq, rfl⟩ | hb
  · exact (mem_word32_range_iff hq hp.peers).2 h
  · obtain ⟨h1, h2, _⟩ := (mem_mask_iff hb hp.peers).2 h
    have hle : e * bpe / 32 * m + m ≤ (e * bpe + bpe + 31) / 32 * m := by
      rw [← Nat.succ_mul]
      exact Nat.mul_le_mul_right _ (by omega)
    simp only [enrToBitRange]
    omega

/-- **What one chunk sets**: exactly the bits of its extents, in the buffer only. -/
theorem changeBits_bits {bpe m pos chunk : Nat} (hp : BitmapParams bpe m) (hpos : 4 ∣ pos) :
    ∀ (es : List Nat) (acc r : Nat) (w w' : World),
      changeBits bpe m pos chunk es acc w = (.ok r, w') →
      w'.log = w.log ∧ w'.base = w.base ∧
        (∀ e ∈ es, pos ≤ (enrToBitRange e bpe m).onDiskWord32PosS ∧
          (enrToBitRange e bpe m).onDiskWord32PosE ≤ pos + chunk) ∧
        ∀ n, bit w'.buf n = (bit w.buf n || decide (slotBit m (n + 8 * pos) / bpe ∈ es))
  | [], acc, r, w, w', h => by
    rw [changeBits, Run.pure_apply, Prod.mk.injEq] at h
    obtain ⟨_, rfl⟩ := h
    simp
  | e :: es, acc, r, w, w', h => by
    rw [changeBits] at h
    obtain ⟨_, w1, hs1, h1⟩ := Run.of_bind_ok h
    obtain ⟨hposS, rfl⟩ := assert_ok hs1
    obtain ⟨_, w2, hs2, h2⟩ := Run.of_bind_ok h1
    obtain ⟨hposE, rfl⟩ := assert_ok hs2
    have hin : pos ≤ (enrToBitRange e bpe m).onDiskWord32PosS ∧
        (enrToBitRange e bpe m).onDiskWord32PosE ≤ pos + chunk := by omega
    split at h2
    · rename_i h32
      obtain ⟨_, w3, hs3, h3⟩ := Run.of_bind_ok h2
      rw [Run.modifyBuf_apply, Prod.mk.injEq] at hs3
      obtain ⟨_, rfl⟩ := hs3
      obtain ⟨hl, hb, hr, hbits⟩ := changeBits_bits hp hpos es _ _ _ _ h3
      refine ⟨hl, hb, List.forall_mem_cons.2 ⟨hin, hr⟩, fun n => ?_⟩
      obtain ⟨q, hq, rfl⟩ : ∃ q, 0 < q ∧ bpe = 32 * q := by
        rcases hp.gran with hq | hq
        · exact hq
        · omega
      rw [hbits n, World.mapBuf_buf, bit_fill_extent hq hp.peers hposS.1, Bool.or_assoc,
        ← Bool.decide_or]
      simp only [List.mem_cons]
    · rename_i h32
      obtain ⟨buf, w3, hs3, h3⟩ := Run.of_bind_ok h2
      rw [Run.getBuf_apply, Prod.mk.injEq, Except.ok.injEq] at hs3
      obtain ⟨rfl, rfl⟩ := hs3
      obtain ⟨_, w4, hs4, h4⟩ := Run.of_bind_ok h3
      rw [Run.modifyBuf_apply, Prod.mk.injEq] at hs4
      obtain ⟨_, rfl⟩ := hs4
      obtain ⟨hl, hb, hr, hbits⟩ := changeBits_bits hp hpos es _ _ _ _ h4
      refine ⟨hl, hb, List.forall_mem_cons.2 ⟨hin, hr⟩, fun n => ?_⟩
      have hsmall : bpe = 4 ∨ bpe = 8 ∨ bpe = 16 := by
        rcases hp.gran with ⟨q, hq, rfl⟩ | hq
        · omega
        · exact hq
      rw [hbits n, World.mapBuf_buf, bit_orSlots_extent hsmall hp.peers hpos hposS.1,
        Bool.or_assoc, ← Bool.decide_or]
      simp only [List.mem_cons]

/-- No `ASSERT` of the chunk fails when its extents lie inside it. -/
theorem changeBits_returns {bpe m pos chunk : Nat} :
    ∀ (es : List Nat) (acc : Nat) (w : World),
      (∀ e ∈ es, pos ≤ (enrToBitRange e bpe m).onDiskWord32PosS ∧
        (enrToBitRange e bpe m).onDiskWord32PosS - pos < chunk ∧
        (enrToBitRange e bpe m).onDiskWord32PosE - pos ≤ chunk) →
      ∃ r w', changeBits bpe m pos chunk es acc w = (.ok r, w')
  | [], acc, w, _ => ⟨acc, w, rfl⟩
  | e :: es, acc, w, h => by
    obtain ⟨h1, h2, h3⟩ := h e (List.mem_cons_self ..)
    have hrest := fun x hx => h x (List.mem_cons_of_mem _ hx)
    have hle := word32Pos_le e bpe m
    rw [changeBits, Run.bind_ok (assert_pos ⟨h1, h2⟩ w), Run.bind_ok (assert_pos ⟨by omega, h3⟩ w)]
    split
    · rw [Run.bind_ok (Run.modifyBuf_apply _ w)]
      exact changeBits_returns es _ _ hrest
    · rw [Run.bind_ok (Run.getBuf_apply w), Run.bind_ok (Run.modifyBuf_apply _ w)]
      exact changeBits_returns es _ _ hrest

/-! ## The whole array -/

/-- The extents the loop accepts: listed, and ending before `bmBytes`. -/
def acceptedExtents (bmBytes bpe m : Nat) (hot : List Nat) : List Nat :=
  (hot.takeWhile (· ≠ noExtent)).filter
    fun e => (enrToBitRange e bpe m).onDiskWord32PosE < bmBytes

/-- A chunk that was read, extended and written back sets the bits of its extents. -/
theorem bit_bitmapArea_write {cfg : Format} {bpe m pos chunk : Nat} {es : List Nat} {w w' : World}
    (hp : BitmapParams bpe m)
    (hdisk : w'.disk = w.disk)
    (hin : ∀ e ∈ es, pos ≤ (enrToBitRange e bpe m).onDiskWord32PosS ∧
      (enrToBitRange e bpe m).onDiskWord32PosE ≤ pos + chunk)
    (hbits : ∀ n, bit w'.buf n =
      (bit (w.read chunk (cfg.bmOffset + pos)).buf n || decide (slotBit m (n + 8 * pos) / bpe ∈ es)))
    (n : Nat) :
    bit (bitmapArea cfg (w'.write chunk (cfg.bmOffset + pos)).disk) n =
      (bit (bitmapArea cfg w.disk) n || decide (slotBit m n / bpe ∈ es)) := by
  by_cases h : pos ≤ n / 8 ∧ n / 8 < pos + chunk
  · have hb := hbits (n - 8 * pos)
    have hread : bit (w.read chunk (cfg.bmOffset + pos)).buf (n - 8 * pos) =
        bit (bitmapArea cfg w.disk) n := by
      rw [bit, bit, World.read_buf, blit_in (by omega) (by omega)]
      simp only [bitmapArea]
      rw [show (n - 8 * pos) % 8 = n % 8 by omega,
        show cfg.bmOffset + pos + ((n - 8 * pos) / 8 - 0) = cfg.bmOffset + n / 8 by omega]
    rw [hread, show n - 8 * pos + 8 * pos = n by omega] at hb
    rw [← hb, bit, bit, World.write_disk]
    simp only [bitmapArea]
    rw [blit_in (by omega) (by omega), show (n - 8 * pos) % 8 = n % 8 by omega]
    congr 2
    omega
  · have hout : slotBit m n / bpe ∉ es := by
      intro hmem
      obtain ⟨h1, h2⟩ := hin _ hmem
      obtain ⟨h3, h4⟩ := hp.mem_range (n := n) rfl
      omega
    rw [bit, World.write_disk, hdisk]
    simp only [bitmapArea, hout, decide_false, Bool.or_false]
    rw [blit_out (by omega)]
    rfl

theorem acceptedExtents_append {bmBytes bpe m : Nat} (t : List Nat) :
    ∀ l : List Nat, (∀ x ∈ l, x ≠ noExtent ∧
      (enrToBitRange x bpe m).onDiskWord32PosE < bmBytes) →
      acceptedExtents bmBytes bpe m (l ++ t) = l ++ acceptedExtents bmBytes bpe m t
  | [], _ => rfl
  | x :: l, h => by
    obtain ⟨h1, h2⟩ := h x (List.mem_cons_self ..)
    have ih := acceptedExtents_append t l fun y hy => h y (List.mem_cons_of_mem _ hy)
    unfold acceptedExtents at ih ⊢
    rw [List.cons_append, List.takeWhile_cons_of_pos (by simpa using h1),
      List.filter_cons_of_pos (by simpa using h2), ih, List.cons_append]

/-- One round of the loop consumes a batch; the accepted extents split accordingly. -/
theorem acceptedExtents_batch {bmBytes bpe m enr : Nat} {rest : List Nat} (first : ExtentBitRange)
    (hne : enr ≠ noExtent) (hlt : (enrToBitRange enr bpe m).onDiskWord32PosE < bmBytes) :
    acceptedExtents bmBytes bpe m (enr :: rest) =
      (enr :: rest.takeWhile (fitsChunk bmBytes bpe m first)) ++
        acceptedExtents bmBytes bpe m (rest.dropWhile (fitsChunk bmBytes bpe m first)) := by
  have hall : ∀ x ∈ rest.takeWhile (fitsChunk bmBytes bpe m first),
      x ≠ noExtent ∧ (enrToBitRange x bpe m).onDiskWord32PosE < bmBytes := by
    intro x hx
    have := List.all_eq_true.1 (List.all_takeWhile (p := fitsChunk bmBytes bpe m first) (l := rest)) x hx
    simp only [fitsChunk, Bool.and_eq_true, decide_eq_true_eq] at this
    exact this.1
  rw [← acceptedExtents_append _ _ (List.forall_mem_cons.2 ⟨⟨hne, hlt⟩, hall⟩), List.cons_append,
    List.takeWhile_append_dropWhile]

theorem aligned_dvd (e bpe m : Nat) :
    4096 ∣ (enrToBitRange e bpe m).aligned4kXMaxPeersOnDiskPos := by
  simp only [enrToBitRange, roundDown]
  exact Dvd.dvd.mul_left (Dvd.intro _ rfl) _

/-- **The loop sets exactly the bits of the accepted extents**, and nothing before the bitmap. -/
theorem applyAlLoop_bits {o : Options} {cfg : Format} {bmBytes bpe m : Nat}
    (hd : o.dryRun = false) (hp : BitmapParams bpe m) :
    ∀ (hot : List Nat) (acc r : Nat) (w w' : World),
      applyAlLoop o cfg bmBytes bpe m hot acc w = (.ok r, w') →
      (∀ a < cfg.bmOffset, w'.disk a = w.disk a) ∧
        ∀ n, bit (bitmapArea cfg w'.disk) n = (bit (bitmapArea cfg w.disk) n ||
          decide (slotBit m n / bpe ∈ acceptedExtents bmBytes bpe m hot))
  | [], acc, r, w, w', h => by
    rw [applyAlLoop, Run.pure_apply, Prod.mk.injEq] at h
    obtain ⟨_, rfl⟩ := h
    simp [acceptedExtents]
  | enr :: rest, acc, r, w, w', h => by
    rw [applyAlLoop] at h
    by_cases hne : enr = noExtent
    · rw [if_pos hne, Run.pure_apply, Prod.mk.injEq] at h
      obtain ⟨_, rfl⟩ := h
      simp [acceptedExtents, hne]
    rw [if_neg hne] at h
    by_cases hlt : bmBytes ≤ (enrToBitRange enr bpe m).onDiskWord32PosE
    · rw [if_pos hlt] at h
      have hacc : acceptedExtents bmBytes bpe m (enr :: rest) =
          acceptedExtents bmBytes bpe m rest := by
        simp [acceptedExtents, hne, hlt]
      rw [hacc]
      exact applyAlLoop_bits hd hp rest _ _ _ _ h
    · rw [if_neg hlt] at h
      obtain ⟨_, w1, hs1, h1⟩ := Run.of_bind_ok h
      obtain ⟨_, rfl⟩ := assert_ok hs1
      obtain ⟨_, w2, hs2, h2⟩ := Run.of_bind_ok h1
      obtain ⟨_, rfl⟩ := of_preadOrDie_ok hs2
      obtain ⟨acc', w3, hs3, h3⟩ := Run.of_bind_ok h2
      obtain ⟨_, w4, hs4, h4⟩ := Run.of_bind_ok h3
      obtain ⟨_, _, rfl⟩ := of_pwriteOrDie_ok hd hs4
      have hpos : 4 ∣ (enrToBitRange enr bpe m).aligned4kXMaxPeersOnDiskPos :=
        Dvd.dvd.trans (by decide) (aligned_dvd enr bpe m)
      obtain ⟨hlog, hbase, hin, hbits⟩ := changeBits_bits hp hpos _ _ _ _ _ hs3
      obtain ⟨hbelow, hrest⟩ := applyAlLoop_bits hd hp _ _ _ _ _ h4
      have hdisk : w3.disk = w1.disk := by
        unfold World.disk; rw [hlog, hbase]; rfl
      refine ⟨fun a ha => ?_, fun n => ?_⟩
      · rw [hbelow a ha, World.write_disk, blit_out (by omega), hdisk]
      · rw [hrest n, bit_bitmapArea_write hp hdisk hin hbits,
          acceptedExtents_batch (enrToBitRange enr bpe m) hne (by omega), Bool.or_assoc, ← Bool.decide_or]
        simp only [List.mem_append]
termination_by hot => hot.length
decreasing_by
  · simp
  · exact Nat.lt_succ_of_le (List.dropWhile_suffix _).length_le

/-! ## What a run does, however it ends -/

/-- Whether the `ASSERT`s of a chunk hold is decided by its extents alone. -/
theorem changeBits_outcome {bpe m pos chunk : Nat} : ∀ es : List Nat,
    (∀ (acc : Nat) (w : World), ∃ r w', changeBits bpe m pos chunk es acc w = (.ok r, w')) ∨
      ∀ (acc : Nat) (w : World), ∃ e w', changeBits bpe m pos chunk es acc w = (.error e, w') ∧
        w'.log = w.log ∧ w'.base = w.base
  | [] => .inl fun acc w => ⟨acc, w, rfl⟩
  | e :: es => by
    by_cases h1 : pos ≤ (enrToBitRange e bpe m).onDiskWord32PosS ∧
        (enrToBitRange e bpe m).onDiskWord32PosS - pos < chunk
    · by_cases h2 : pos ≤ (enrToBitRange e bpe m).onDiskWord32PosE ∧
          (enrToBitRange e bpe m).onDiskWord32PosE - pos ≤ chunk
      · refine (@changeBits_outcome bpe m pos chunk es).imp
          (fun h acc w => ?_) (fun h acc w => ?_)
        all_goals
          rw [changeBits, Run.bind_ok (assert_pos h1 w), Run.bind_ok (assert_pos h2 w)]
          split
          · rw [Run.bind_ok (Run.modifyBuf_apply _ w)]
            exact h _ _
          · rw [Run.bind_ok (Run.getBuf_apply w), Run.bind_ok (Run.modifyBuf_apply _ w)]
            exact h _ _
      · refine .inr fun acc w => ⟨.abort, w, ?_, rfl, rfl⟩
        rw [changeBits, Run.bind_ok (assert_pos h1 w)]
        exact Run.bind_error (by rw [assert, if_neg h2]; rfl)
    · refine .inr fun acc w => ⟨.abort, w, ?_, rfl, rfl⟩
      rw [changeBits]
      exact Run.bind_error (by rw [assert, if_neg h1]; rfl)

theorem bit_bitmapArea (cfg : Format) (disk : Mem) (n : Nat) :
    bit (bitmapArea cfg disk) n = bit disk (8 * cfg.bmOffset + n) := by
  rw [bit, bit, bitmapArea, show (8 * cfg.bmOffset + n) / 8 = cfg.bmOffset + n / 8 by omega,
    show (8 * cfg.bmOffset + n) % 8 = n % 8 by omega]

/-- Between `w` and `w'` the bits of the extents `done` were added to the bitmap, by writes that
    stay in it and clear nothing. -/
def AddsExtents (cfg : Format) (bmBytes bpe m : Nat) (done : List Nat) (w w' : World) : Prop :=
  ∃ l, w.Extends w' l ∧ Grows cfg.bmOffset (cfg.bmOffset + bmBytes) w.disk l ∧
    ∀ n, bit (bitmapArea cfg w'.disk) n =
      (bit (bitmapArea cfg w.disk) n || decide (slotBit m n / bpe ∈ done))

theorem AddsExtents.nothing {cfg : Format} {bmBytes bpe m : Nat} {w w' : World}
    (h : w.Extends w' []) : AddsExtents cfg bmBytes bpe m [] w w' :=
  ⟨[], h, trivial, fun n => by simp [h.disk]⟩

theorem AddsExtents.trans {cfg : Format} {bmBytes bpe m : Nat} {done done' : List Nat}
    {w w' w'' : World} (h : AddsExtents cfg bmBytes bpe m done w w')
    (h' : AddsExtents cfg bmBytes bpe m done' w' w'') :
    AddsExtents cfg bmBytes bpe m (done ++ done') w w'' := by
  obtain ⟨l, he, hg, hb⟩ := h
  obtain ⟨l', he', hg', hb'⟩ := h'
  refine ⟨l ++ l', he.trans he', hg.append (by rwa [← he.disk]), fun n => ?_⟩
  rw [hb', hb, Bool.or_assoc, ← Bool.decide_or]
  simp only [List.mem_append]

/-- One chunk that was read, changed and written back. -/
theorem addsExtents_chunk {cfg : Format} {bmBytes bpe m pos chunk acc r : Nat} {es : List Nat}
    {w w' : World} (hp : BitmapParams bpe m) (hpos : 4 ∣ pos) (hin : pos + chunk ≤ bmBytes)
    (h : changeBits bpe m pos chunk es acc (w.read chunk (cfg.bmOffset + pos)) = (.ok r, w')) :
    AddsExtents cfg bmBytes bpe m es w (w'.write chunk (cfg.bmOffset + pos)) := by
  obtain ⟨hlog, hbase, hes, hbits⟩ := changeBits_bits hp hpos _ _ _ _ _ h
  have hdisk : w'.disk = w.disk := by unfold World.disk; rw [hlog, hbase]; rfl
  have harea := bit_bitmapArea_write hp hdisk hes hbits
  refine ⟨[⟨cfg.bmOffset + pos, chunk, w'.buf⟩], ⟨?_, hbase⟩, ⟨⟨?_, ?_, fun n hn => ?_⟩, trivial⟩,
    harea⟩
  · rw [World.write_log, hlog]
    rfl
  · exact Nat.le_add_right _ _
  · show cfg.bmOffset + pos + chunk ≤ _
    omega
  · show bit (blit w'.buf 0 w.disk (cfg.bmOffset + pos) chunk) n = true
    by_cases hlt : n < 8 * cfg.bmOffset
    · rw [bit, blit_out (by omega)]
      exact hn
    · have := harea (n - 8 * cfg.bmOffset)
      rw [bit_bitmapArea, bit_bitmapArea, show 8 * cfg.bmOffset + (n - 8 * cfg.bmOffset) = n by omega,
        World.write_disk, hdisk, hn, Bool.true_or] at this
      exact this

/-- The bits a run of the loop adds are decided by the array and the layout, not by what is on
    the device, whether the run returns or stops. -/
theorem applyAlLoop_adds {o : Options} {cfg : Format} {bmBytes bpe m : Nat}
    (hd : o.dryRun = false) (hp : BitmapParams bpe m) (hbm : 4096 ∣ bmBytes) :
    ∀ hot : List Nat, ∃ done : List Nat, ∀ (acc : Nat) (w : World),
      AddsExtents cfg bmBytes bpe m done w (applyAlLoop o cfg bmBytes bpe m hot acc w).2
  | [] => ⟨[], fun acc w => by rw [applyAlLoop]; exact .nothing (.refl w)⟩
  | enr :: rest => by
    by_cases hne : enr = noExtent
    · refine ⟨[], fun acc w => ?_⟩
      rw [applyAlLoop, if_pos hne]
      exact .nothing (.refl w)
    by_cases hlt : bmBytes ≤ (enrToBitRange enr bpe m).onDiskWord32PosE
    · obtain ⟨done, hdone⟩ := applyAlLoop_adds (o := o) hd hp hbm rest
      refine ⟨done, fun acc w => ?_⟩
      rw [applyAlLoop, if_neg hne, if_pos hlt]
      exact hdone acc w
    generalize hbatch : rest.takeWhile (fitsChunk bmBytes bpe m (enrToBitRange enr bpe m)) = batch
    generalize hlast : (enr :: batch).getLast (List.cons_ne_nil _ _) = last
    generalize hp0 : (enrToBitRange enr bpe m).aligned4kXMaxPeersOnDiskPos = pos
    generalize hchunk : align (enrToBitRange last bpe m).onDiskWord32PosE 4096 - pos = chunk
    have hrun : ∀ acc, applyAlLoop o cfg bmBytes bpe m (enr :: rest) acc = (do
        assert (chunk ≤ bufferSize)
        preadOrDie cfg chunk (cfg.bmOffset + pos)
        let acc' ← changeBits bpe m pos chunk (enr :: batch) acc
        pwriteOrDie o cfg chunk (cfg.bmOffset + pos)
        applyAlLoop o cfg bmBytes bpe m
          (rest.dropWhile (fitsChunk bmBytes bpe m (enrToBitRange enr bpe m))) acc') := by
      intro acc
      rw [applyAlLoop, if_neg hne, if_neg hlt]
      subst hchunk hp0 hlast hbatch
      rfl
    -- whichever check fails, it fails on every device
    by_cases hbuf : chunk ≤ bufferSize
    swap
    · refine ⟨[], fun acc w => ?_⟩
      rw [hrun, Run.bind_error (s := .abort) (by rw [assert, if_neg hbuf]; rfl)]
      exact .nothing (.refl w)
    by_cases hread : cfg.bmOffset + pos + chunk ≤ cfg.bdSize
    swap
    · refine ⟨[], fun acc w => ?_⟩
      rw [hrun, Run.bind_ok (assert_pos hbuf w), Run.bind_error (s := .exit 10)
        (by rw [preadOrDie, if_neg hread]; rfl)]
      exact .nothing (.refl w)
    rcases changeBits_outcome (m := m) (enr :: batch)
      with hok | herr
    swap
    · refine ⟨[], fun acc w => ?_⟩
      obtain ⟨e, w', hw, hlog, hbase⟩ := herr acc (w.read chunk (cfg.bmOffset + pos))
      rw [hrun, Run.bind_ok (assert_pos hbuf w), Run.bind_ok (preadOrDie_ok hread w),
        Run.bind_error hw]
      exact .nothing ⟨by rw [hlog, List.append_nil]; rfl, hbase⟩
    by_cases hval : validateOffsets o cfg chunk (cfg.bmOffset + pos) = true
    swap
    · refine ⟨[], fun acc w => ?_⟩
      obtain ⟨r, w', hw⟩ := hok acc (w.read chunk (cfg.bmOffset + pos))
      obtain ⟨hlog, hbase, _⟩ := changeBits_bits hp (hp0 ▸ Dvd.dvd.trans (by decide)
        (aligned_dvd enr bpe m)) _ _ _ _ _ hw
      have hstop : pwriteOrDie o cfg chunk (cfg.bmOffset + pos) w' = (.error (.exit 10), w') := by
        simp [pwriteOrDie, hval, Run.stop_apply]
      rw [hrun, Run.bind_ok (assert_pos hbuf w), Run.bind_ok (preadOrDie_ok hread w),
        Run.bind_ok hw, Run.bind_error hstop]
      exact .nothing ⟨by rw [hlog, List.append_nil]; rfl, hbase⟩
    obtain ⟨done, hdone⟩ := applyAlLoop_adds (o := o) hd hp hbm
      (rest.dropWhile (fitsChunk bmBytes bpe m (enrToBitRange enr bpe m)))
    refine ⟨(enr :: batch) ++ done, fun acc w => ?_⟩
    obtain ⟨r, w', hw⟩ := hok acc (w.read chunk (cfg.bmOffset + pos))
    have hpos : 4096 ∣ pos := hp0 ▸ aligned_dvd enr bpe m
    have hend : pos + chunk ≤ bmBytes := by
      have hfit : ∀ e ∈ enr :: batch, (enrToBitRange e bpe m).onDiskWord32PosE < bmBytes := by
        intro e he
        rcases List.mem_cons.1 he with rfl | h'
        · omega
        · subst hbatch
          have := List.all_eq_true.1 List.all_takeWhile e h'
          simp only [fitsChunk, Bool.and_eq_true, decide_eq_true_eq] at this
          omega
      have hlastE := align_le_of_dvd (by omega) (hfit last (hlast ▸ List.getLast_mem _)).le hbm
      have hposS : pos ≤ (enrToBitRange enr bpe m).onDiskWord32PosS := hp0 ▸ roundDown_le _ _
      have hle := word32Pos_le enr bpe m
      omega
    rw [hrun, Run.bind_ok (assert_pos hbuf w), Run.bind_ok (preadOrDie_ok hread w), Run.bind_ok hw,
      Run.bind_ok (pwriteOrDie_ok hval hd hread w')]
    exact (addsExtents_chunk hp (Dvd.dvd.trans (by decide) hpos) hend hw).trans (hdone r _)
termination_by hot => hot.length
decreasing_by
  · simp
  · exact Nat.lt_succ_of_le (List.dropWhile_suffix _).length_le

/-! ## The loop returns -/

theorem word32PosS_mono {e e' bpe m : Nat} (h : e ≤ e') :
    (enrToBitRange e bpe m).onDiskWord32PosS ≤ (enrToBitRange e' bpe m).onDiskWord32PosS := by
  simp only [enrToBitRange]; gcongr

theorem word32PosE_mono {e e' bpe m : Nat} (h : e ≤ e') :
    (enrToBitRange e bpe m).onDiskWord32PosE ≤ (enrToBitRange e' bpe m).onDiskWord32PosE := by
  simp only [enrToBitRange]; gcongr

theorem word32PosS_lt {e bpe m : Nat} (hb : 0 < bpe) (hm : 0 < m) :
    (enrToBitRange e bpe m).onDiskWord32PosS < (enrToBitRange e bpe m).onDiskWord32PosE := by
  simp only [enrToBitRange]
  have hlt : e * bpe / 32 < (e * bpe + bpe + 31) / 32 := by omega
  have := (Nat.mul_lt_mul_right hm).2 hlt
  omega

/-- A single extent always fits the buffer. -/
theorem single_extent_chunk {e bpe m : Nat} (hb : bpe ≤ 1024) (hm : 0 < m)
    (hm32 : m ≤ DRBD_PEERS_MAX) :
    (enrToBitRange e bpe m).onDiskWord32PosE ≤
      (enrToBitRange e bpe m).aligned4kXMaxPeersOnDiskPos + bufferSize := by
  simp only [enrToBitRange, roundDown, bufferSize]
  have hE : (e * bpe + bpe + 31) / 32 ≤ e * bpe / 32 + 33 := by omega
  have hmul := Nat.mul_le_mul_right m hE
  rw [Nat.add_mul] at hmul
  have hdiv := Nat.div_add_mod (e * bpe / 32 * m * 4) (4096 * m)
  have hmod := Nat.mod_lt (e * bpe / 32 * m * 4) (show 0 < 4096 * m by omega)
  have hm' : m ≤ 32 := hm32
  rw [Nat.mul_comm (4096 * m)] at hdiv
  omega

/-- **No `ASSERT` fails and no read or write is refused**: on a sorted array, with the bitmap
    inside the metadata area, the loop runs to its end. -/
theorem applyAlLoop_returns {o : Options} {cfg : Format} {bmBytes bpe m : Nat}
    (hd : o.dryRun = false) (hb0 : 0 < bpe) (hb : bpe ≤ 1024) (hm : 0 < m)
    (hm32 : m ≤ DRBD_PEERS_MAX) (hbm : 4096 ∣ bmBytes) (harea : BitmapInside cfg bmBytes) :
    ∀ (hot : List Nat) (acc : Nat) (w : World), hot.Pairwise (· ≤ ·) →
      ∃ r w', applyAlLoop o cfg bmBytes bpe m hot acc w = (.ok r, w')
  | [], acc, w, _ => ⟨acc, w, by rw [applyAlLoop]; rfl⟩
  | enr :: rest, acc, w, hs => by
    rw [applyAlLoop]
    obtain ⟨hle, hs'⟩ := List.pairwise_cons.1 hs
    by_cases hne : enr = noExtent
    · exact ⟨acc, w, by rw [if_pos hne]; rfl⟩
    rw [if_neg hne]
    by_cases hlt : bmBytes ≤ (enrToBitRange enr bpe m).onDiskWord32PosE
    · rw [if_pos hlt]
      exact applyAlLoop_returns hd hb0 hb hm hm32 hbm harea rest acc w hs'
    rw [if_neg hlt]
    generalize hfirst : enrToBitRange enr bpe m = first
    generalize hbatch : rest.takeWhile (fitsChunk bmBytes bpe m first) = batch
    generalize hlast : (enr :: batch).getLast (List.cons_ne_nil _ _) = last
    have hpos : 4096 ∣ first.aligned4kXMaxPeersOnDiskPos := hfirst ▸ aligned_dvd enr bpe m
    have hposS : first.aligned4kXMaxPeersOnDiskPos ≤ first.onDiskWord32PosS := by
      subst hfirst; exact roundDown_le _ _
    -- the batch is a sorted prefix of what follows, and `last` is its largest element
    have hsub : (enr :: batch).Sublist (enr :: rest) := by
      subst hbatch; exact (List.takeWhile_sublist _).cons_cons _
    have hmem : ∀ e ∈ enr :: batch, enr ≤ e ∧ e ≤ last := by
      intro e he
      refine ⟨?_, ?_⟩
      · rcases List.mem_cons.1 (hsub.subset he) with rfl | h'
        · exact Nat.le_refl _
        · exact hle e h'
      · subst hlast
        exact List.Pairwise.rel_getLast (hs.sublist hsub) he
    have hfit : ∀ e ∈ enr :: batch, (enrToBitRange e bpe m).onDiskWord32PosE < bmBytes ∧
        (enrToBitRange e bpe m).onDiskWord32PosE ≤
          first.aligned4kXMaxPeersOnDiskPos + bufferSize := by
      intro e he
      rcases List.mem_cons.1 he with rfl | h'
      · subst hfirst
        exact ⟨by omega, single_extent_chunk hb hm hm32⟩
      · subst hbatch
        have := List.all_eq_true.1 List.all_takeWhile e h'
        simp only [fitsChunk, Bool.and_eq_true, decide_eq_true_eq] at this
        omega
    have hlastmem : last ∈ enr :: batch := hlast ▸ List.getLast_mem _
    obtain ⟨hlastBm, hlastBuf⟩ := hfit last hlastmem
    have hend : align (enrToBitRange last bpe m).onDiskWord32PosE 4096 ≤ bmBytes :=
      align_le_of_dvd (by omega) hlastBm.le hbm
    have hendBuf : align (enrToBitRange last bpe m).onDiskWord32PosE 4096 ≤
        first.aligned4kXMaxPeersOnDiskPos + bufferSize :=
      align_le_of_dvd (by omega) hlastBuf (Nat.dvd_add hpos (by unfold bufferSize; decide))
    have hge := align_ge (enrToBitRange last bpe m).onDiskWord32PosE (show 0 < 4096 by omega)
    have hlastS := word32PosS_lt (e := last) hb0 hm
    have hfirstLast := @word32PosS_mono _ _ bpe m (hmem last hlastmem).1
    rw [hfirst] at hfirstLast
    have hdev := harea.device
    rw [Run.bind_ok (assert_pos (by omega) w), Run.bind_ok (preadOrDie_ok (by omega) w)]
    obtain ⟨acc', w1, h1⟩ := @changeBits_returns bpe m
      first.aligned4kXMaxPeersOnDiskPos
      (align (enrToBitRange last bpe m).onDiskWord32PosE 4096 -
        first.aligned4kXMaxPeersOnDiskPos) (enr :: batch) acc
      (w.read (align (enrToBitRange last bpe m).onDiskWord32PosE 4096 -
        first.aligned4kXMaxPeersOnDiskPos) (cfg.bmOffset + first.aligned4kXMaxPeersOnDiskPos))
      (fun e he => by
        have hS := @word32PosS_mono _ _ bpe m (hmem e he).1
        have hE := @word32PosE_mono _ _ bpe m (hmem e he).2
        have hlt := word32PosS_lt (e := e) hb0 hm
        rw [hfirst] at hS
        omega)
    rw [Run.bind_ok h1, Run.bind_ok (pwriteOrDie_ok
      (harea.validate o (by omega) (by omega)) hd (by omega) w1)]
    exact applyAlLoop_returns hd hb0 hb hm hm32 hbm harea _ _ _
      (hs'.sublist (List.dropWhile_suffix _).sublist)
termination_by hot => hot.length
decreasing_by
  · simp
  · exact Nat.lt_succ_of_le (List.dropWhile_suffix _).length_le

/-! ## The command as a whole -/

/-- Where bit `bit` of peer slot `slotIndex` is ("bitmap layout"). -/
def onDiskBit (maxPeers bit slotIndex : Nat) : Nat :=
  (bit - bit % 32) * maxPeers + slotIndex * 32 + bit % 32

/-- Bit `b` stands for a block of the device that lies in a listed 4 MiB extent. -/
def IsHot (md : MdCpu) (hot : HotExtents) (b : Nat) : Prop :=
  b < deviceBits md md.effectiveSize.toNat ∧
    b * md.bmBytesPerBit.toNat / 2 ^ AL_EXTENT_SHIFT ∈ hot.listed

/-- Every hot bit of every peer slot is set. -/
def AllHotMarked (cfg : Format) (hot : HotExtents) (disk : Mem) : Prop :=
  ∀ slot < cfg.md.maxPeers.toNat, ∀ b, IsHot cfg.md hot b →
    bit (bitmapArea cfg disk) (onDiskBit cfg.md.maxPeers.toNat b slot) = true

/-- Every hot bit of every peer slot belongs to an extent whose exclusive end lies strictly
    before the end of the bitmap, or is set already. -/
def HotExtentsInside (cfg : Format) (hot : HotExtents) (disk : Mem) : Prop :=
  ∀ slot < cfg.md.maxPeers.toNat, ∀ b, IsHot cfg.md hot b →
    (enrToBitRange (b * cfg.md.bmBytesPerBit.toNat / 2 ^ AL_EXTENT_SHIFT)
        (bitsPerExtent cfg.md) cfg.md.maxPeers.toNat).onDiskWord32PosE < cfg.bmBytes ∨
      bit (bitmapArea cfg disk) (onDiskBit cfg.md.maxPeers.toNat b slot) = true

theorem slotBit_onDiskBit {m b slot : Nat} (hslot : slot < m) :
    slotBit m (onDiskBit m b slot) = b := by
  have hword : onDiskBit m b slot = 32 * (b / 32 * m + slot) + b % 32 := by
    rw [onDiskBit, show b - b % 32 = 32 * (b / 32) by omega]
    ring
  have hdiv : onDiskBit m b slot / 32 = b / 32 * m + slot := by omega
  have hmod : onDiskBit m b slot % 32 = b % 32 := by omega
  have hcol : (b / 32 * m + slot) / m = b / 32 := by
    rw [Nat.div_eq_iff (by omega)]
    omega
  rw [slotBit, hdiv, hmod, hcol]
  omega

/-- Bits per extent, for a granularity that `bm_bytes()` admits. -/
theorem bitsPerExtent_eq {md : MdCpu} {k : Nat} (h : md.bmBytesPerBit.toNat = 2 ^ (12 + k)) :
    bitsPerExtent md = 2 ^ (10 - k) := by
  rw [bitsPerExtent, h, Nat.log2_two_pow, AL_EXTENT_SHIFT]
  congr 1
  omega

/-- The extent of a bit: by its byte offset on the device, or by its number. -/
theorem extent_of_bit {md : MdCpu} {k : Nat} (hk : k ≤ 8)
    (h : md.bmBytesPerBit.toNat = 2 ^ (12 + k)) (b : Nat) :
    b * md.bmBytesPerBit.toNat / 2 ^ AL_EXTENT_SHIFT = b / bitsPerExtent md := by
  rw [bitsPerExtent_eq h, h, AL_EXTENT_SHIFT,
    show 2 ^ 22 = 2 ^ (10 - k) * 2 ^ (12 + k) by rw [← Nat.pow_add]; congr 1; omega]
  exact Nat.mul_div_mul_right _ _ (Nat.two_pow_pos _)

/-- The checks at the top of `apply_al` pass for every admitted granularity. -/
theorem bitsPerExtent_admitted {md : MdCpu} {k : Nat} (hk : k ≤ 8)
    (h : md.bmBytesPerBit.toNat = 2 ^ (12 + k)) :
    4 ≤ bitsPerExtent md ∧ bitsPerExtent md ≤ 1024 ∧ isPowerOf2 (bitsPerExtent md) = true := by
  rw [bitsPerExtent_eq h]
  refine ⟨?_, ?_, isPowerOf2_iff.2 ⟨_, rfl⟩⟩
  · exact Nat.pow_le_pow_right (n := 2) (by omega) (show 2 ≤ 10 - k by omega)
  · exact Nat.pow_le_pow_right (n := 2) (by omega) (show 10 - k ≤ 10 by omega)

/-- `bm_bytes()` is a multiple of 4k, so aligning it to the sector size changes nothing. -/
theorem align_bmBytes {md : MdCpu} {sectors bm : Nat} (h : bmBytes md sectors = .ok bm)
    (hs : HardSectSize) : align bm hs.val = bm :=
  align_eq_of_dvd hs.pos (hs.dvd.trans (bmBytes_dvd h))

/-- What `apply_al` adds to the bitmap is decided by the array and the layout alone. -/
theorem applyAl_adds {o : Options} {cfg : Format} (hd : o.dryRun = false)
    (hbm : bmBytes cfg.md cfg.md.effectiveSize.toNat = .ok cfg.bmBytes) (hot : HotExtents) :
    ∃ done : List Nat, ∀ w : World, AddsExtents cfg cfg.bmBytes (bitsPerExtent cfg.md)
      cfg.md.maxPeers.toNat done w (applyAl o cfg hot w).2 := by
  obtain ⟨_, ⟨k, hk, hgran⟩, _⟩ := bmBytes_ok hbm
  obtain ⟨h4, h1024, hpow⟩ := bitsPerExtent_admitted hk hgran
  by_cases hm : 1 ≤ cfg.md.maxPeers.toNat ∧ cfg.md.maxPeers.toNat ≤ DRBD_PEERS_MAX
  · obtain ⟨done, hdone⟩ := applyAlLoop_adds (o := o) hd
      ⟨granularity_cases h4 h1024 hpow, hm.1⟩ (bmBytes_dvd hbm) hot.extents
    refine ⟨done, fun w => ?_⟩
    have hrun := hdone 0 w
    rw [applyAl, Run.bind_ok (assert_pos ⟨h4, h1024, hpow⟩ w), Run.bind_ok (assert_pos hm w),
      align_bmBytes hbm]
    generalize hres : applyAlLoop o cfg cfg.bmBytes (bitsPerExtent cfg.md) cfg.md.maxPeers.toNat
      hot.extents 0 w = res at hrun
    obtain ⟨res, w'⟩ := res
    cases res with
    | ok n => rw [Run.bind_ok hres]; exact hrun
    | error e => rw [Run.bind_error hres]; exact hrun
  · refine ⟨[], fun w => ?_⟩
    rw [applyAl, Run.bind_ok (assert_pos ⟨h4, h1024, hpow⟩ w),
      Run.bind_error (s := .abort) (by rw [assert, if_neg hm]; rfl)]
    exact .nothing (.refl w)

/-- `apply_al` is its loop once the checks at its top passed. -/
theorem applyAl_ok {o : Options} {cfg : Format} {hot : HotExtents} {w w' : World}
    {r : Option Nat} (h : applyAl o cfg hot w = (.ok r, w')) :
    BitmapParams (bitsPerExtent cfg.md) cfg.md.maxPeers.toNat ∧
      ∃ n, applyAlLoop o cfg (align cfg.bmBytes cfg.mdHardSectSize.val) (bitsPerExtent cfg.md)
        cfg.md.maxPeers.toNat hot.extents 0 w = (.ok n, w') := by
  unfold applyAl at h
  obtain ⟨_, w1, hs1, h1⟩ := Run.of_bind_ok h
  obtain ⟨⟨h4, h1024, hpow⟩, rfl⟩ := assert_ok hs1
  obtain ⟨_, w2, hs2, h2⟩ := Run.of_bind_ok h1
  obtain ⟨⟨hm, _⟩, rfl⟩ := assert_ok hs2
  obtain ⟨n, w3, hs3, h3⟩ := Run.of_bind_ok h2
  rw [Run.pure_apply, Prod.mk.injEq] at h3
  obtain ⟨_, rfl⟩ := h3
  exact ⟨⟨granularity_cases h4 h1024 hpow, hm⟩, n, hs3⟩

/-- On a sorted array, with the bitmap inside the metadata area, `apply_al` returns. -/
theorem applyAl_returns {o : Options} {cfg : Format} {hot : HotExtents}
    (hd : o.dryRun = false)
    (hbm : bmBytes cfg.md cfg.md.effectiveSize.toNat = .ok cfg.bmBytes)
    (hm : 1 ≤ cfg.md.maxPeers.toNat ∧ cfg.md.maxPeers.toNat ≤ DRBD_PEERS_MAX)
    (hsorted : hot.extents.Pairwise (· ≤ ·)) (harea : BitmapInside cfg cfg.bmBytes) (w : World) :
    ∃ r w', applyAl o cfg hot w = (.ok r, w') := by
  obtain ⟨_, ⟨k, hk, hgran⟩, _⟩ := bmBytes_ok hbm
  have hadm := bitsPerExtent_admitted hk hgran
  obtain ⟨n, w', hloop⟩ := applyAlLoop_returns hd (by omega) hadm.2.1 hm.1 hm.2 (bmBytes_dvd hbm)
    harea hot.extents 0 w hsorted
  refine ⟨if hot.listed = [] then none else some n, w', ?_⟩
  rw [applyAl, Run.bind_ok (assert_pos hadm w), Run.bind_ok (assert_pos hm w)]
  rw [← align_bmBytes hbm cfg.mdHardSectSize] at hloop
  rw [Run.bind_ok hloop, Run.pure_apply]

/-- What a returned `apply_al` has marked. -/
theorem allHotMarked_iff {o : Options} {cfg : Format} {hot : HotExtents} {w w' : World}
    {r : Option Nat} (hd : o.dryRun = false)
    (hbm : bmBytes cfg.md cfg.md.effectiveSize.toNat = .ok cfg.bmBytes)
    (hrun : applyAl o cfg hot w = (.ok r, w')) :
    AllHotMarked cfg hot w'.disk ↔ HotExtentsInside cfg hot w.disk := by
  obtain ⟨hparams, n, hloop⟩ := applyAl_ok hrun
  obtain ⟨_, hbits⟩ := applyAlLoop_bits hd hparams _ _ _ _ _ hloop
  obtain ⟨_, ⟨k, hk, hgran⟩, _⟩ := bmBytes_ok hbm
  unfold AllHotMarked HotExtentsInside
  refine forall_congr' fun slot => forall_congr' fun hslot => forall_congr' fun b =>
    forall_congr' fun hb => ?_
  rw [hbits, slotBit_onDiskBit hslot, align_bmBytes hbm, Bool.or_eq_true, decide_eq_true_eq,
    or_comm, extent_of_bit hk hgran]
  have hlisted : b / bitsPerExtent cfg.md ∈ hot.listed := extent_of_bit hk hgran b ▸ hb.2
  refine or_congr ?_ Iff.rfl
  rw [acceptedExtents, List.mem_filter, decide_eq_true_eq]
  exact ⟨And.right, fun h => ⟨hlisted, h⟩⟩

/-- **What `apply-al` marks.**  On a sorted array the command returns, and the hot bits of all
    slots are set exactly if none of them lay in an extent that ends at or after the end of
    the bitmap: the end of an extent is exclusive, but the "beyond end of bitmap" test also
    skips the extent whose end is the end of the bitmap, and the one that crosses it. -/
theorem applyAl_marks_iff {o : Options} {cfg : Format} {hot : HotExtents}
    (hd : o.dryRun = false)
    (hbm : bmBytes cfg.md cfg.md.effectiveSize.toNat = .ok cfg.bmBytes)
    (hm : 1 ≤ cfg.md.maxPeers.toNat ∧ cfg.md.maxPeers.toNat ≤ DRBD_PEERS_MAX)
    (hsorted : hot.extents.Pairwise (· ≤ ·)) (w : World) :
    (BitmapInside cfg cfg.bmBytes → ∃ r w', applyAl o cfg hot w = (.ok r, w')) ∧
      ∀ r w', applyAl o cfg hot w = (.ok r, w') →
        (AllHotMarked cfg hot w'.disk ↔ HotExtentsInside cfg hot w.disk) :=
  ⟨fun harea => applyAl_returns hd hbm hm hsorted harea w,
    fun _ _ hrun => allHotMarked_iff hd hbm hrun⟩

/-! ### A 128 MiB device -/

/-- The array with the single extent `e`. -/
def HotExtents.single (e : Nat) (h : e < 2 ^ 32) : HotExtents where
  extents := e :: List.replicate 65533 noExtent
  length_eq := by rw [List.length_cons, List.length_replicate]; rfl
  lt := by
    intro x hx
    rcases List.mem_cons.1 hx with rfl | hx
    · exact h
    · rw [List.eq_of_mem_replicate hx]; decide

theorem HotExtents.single_sorted {e : Nat} (h : e < 2 ^ 32) :
    (HotExtents.single e h).extents.Pairwise (· ≤ ·) := by
  refine List.pairwise_cons.2 ⟨fun x hx => ?_, List.pairwise_replicate.2 (.inr (Nat.le_refl _))⟩
  rw [List.eq_of_mem_replicate hx, noExtent]
  omega

theorem HotExtents.single_listed {e : Nat} (h : e < 2 ^ 32) (hne : e ≠ noExtent) :
    (HotExtents.single e h).listed = [e] := by
  rw [HotExtents.listed, HotExtents.single, List.takeWhile_cons_of_pos (by simpa using hne),
    show 65533 = 65532 + 1 by rfl, List.replicate_succ, List.takeWhile_cons_of_neg (by simp)]

/-- The last extent of the device, number 31, is skipped: its bits end where the bitmap ends. -/
theorem applyAl_skips_last_extent :
    ∃ r w', applyAl {} format128M (.single 31 (by decide)) (.init (fun _ => 0) (fun _ => 0)) =
        (.ok r, w') ∧ ¬ AllHotMarked format128M (.single 31 (by decide)) w'.disk := by
  obtain ⟨r, w', hrun⟩ := applyAl_returns (o := {}) rfl format128M_bmBytes (by decide)
    (HotExtents.single_sorted (e := 31) (by decide)) format128M_inside
    (.init (fun _ => 0) (fun _ => 0))
  refine ⟨r, w', hrun, ?_⟩
  rw [allHotMarked_iff rfl format128M_bmBytes hrun]
  intro h
  have hhot : IsHot format128M.md (.single 31 (by decide)) 31744 := by
    refine ⟨by decide, ?_⟩
    rw [HotExtents.single_listed _ (by decide)]
    decide
  rcases h 0 (by decide) 31744 hhot with hlt | hset
  · exact absurd hlt (by decide)
  · exact absurd hset (by decide)

theorem applyAl_marks_iff_extent_three :
    ∃ r w', applyAl {} format128M (.single 3 (by decide)) (.init (fun _ => 0) (fun _ => 0)) =
        (.ok r, w') ∧ AllHotMarked format128M (.single 3 (by decide)) w'.disk := by
  obtain ⟨hret, hiff⟩ := applyAl_marks_iff (o := {}) rfl format128M_bmBytes (by decide)
    (HotExtents.single_sorted _) (.init (fun _ => 0) (fun _ => 0))
  obtain ⟨r, w', hrun⟩ := hret format128M_inside
  refine ⟨r, w', hrun, (hiff r w' hrun).2 fun slot _ b hb => .inl ?_⟩
  have hmem := hb.2
  rw [HotExtents.single_listed _ (by decide), List.mem_singleton] at hmem
  rw [hmem]
  decide

end DrbdUtils.Meta
