import DrbdUtils.Verify.OosBitmap
import Mathlib.Data.List.Nodup
import Mathlib.Data.Set.Defs

/-!
# Out-of-sync blocks by partition

`map_oos_to_partitions()` of `drbd-verify.py` lists every bit of the bitmap under a partition of the
snapshot, so that the files of this partition can be looked at.

* `mem_mapOosToPartitions` — what is listed: every bit once, under the first partition it overlaps.
* `mapOosToPartitions_covers_iff` — no affected partition is missed exactly if no bit overlaps two.
-/

set_option autoImplicit false

namespace DrbdUtils.Verify

open LittleEndian

/-! ## The program -/

/-- A partition that `kpartx` has mapped; no mapping is empty. -/
structure Partition where
  startSector : Nat
  lengthSectors : Nat
  fstype : Option String := none
  length_pos : 0 < lengthSectors := by decide

/-- `KpartxMappings`, inside of its context.  A mapping is named after the device, with the number of
the partition at the end. -/
structure KpartxMappings where
  partitions : List (String × Partition)
  nodup : (partitions.map Prod.fst).Nodup
  numbered : ∀ e ∈ partitions, ∃ c, e.1.toList.getLast? = some c ∧ c.isDigit = true

/-- `get_partition_for_offset`. -/
def KpartxMappings.getPartitionForOffset (kpartx : KpartxMappings) (byteOffset blockSize : Nat) :
    Option String :=
  let blockStartSector := byteOffset / 512
  let blockEndSector := (byteOffset + blockSize - 1) / 512
  (kpartx.partitions.find? fun e =>
    let partStart := e.2.startSector
    let partEnd := partStart + e.2.lengthSectors - 1
    decide (blockStartSector ≤ partEnd) && decide (partStart ≤ blockEndSector)).map Prod.fst

/-- A value of the dictionary. -/
structure PartitionOos where
  oosKib : Nat := 0
  fstype : Option String := none
  blocks : List Nat := []
  deriving DecidableEq

/-- The entry that a bit is added to; an empty name would be no partition. -/
def KpartxMappings.entryFor (kpartx : KpartxMappings) (bmBytePerBit bitNumber : Nat) : String :=
  match kpartx.getPartitionForOffset (bitNumber * bmBytePerBit) bmBytePerBit with
  | some partition => if partition = "" then "unpartitioned" else partition
  | none => "unpartitioned"

/-- `result[name]['oos_kib'] += ...` and `result[name]['blocks'].append(...)`. -/
def addBlock (bmBytePerBit : Nat) (result : List (String × PartitionOos)) (name : String)
    (bitNumber : Nat) : List (String × PartitionOos) :=
  result.map fun e =>
    if e.1 = name then
      (e.1, { e.2 with
        oosKib := e.2.oosKib + bmBytePerBit / 1024
        blocks := e.2.blocks ++ [bitNumber] })
    else e

/-- The dictionary before the loop. -/
def KpartxMappings.entries (kpartx : KpartxMappings) : List (String × PartitionOos) :=
  ("unpartitioned", {}) :: kpartx.partitions.map fun e => (e.1, { fstype := e.2.fstype })

/-- `map_oos_to_partitions`. -/
def mapOosToPartitions (bmBytePerBit : Nat) (bitmapData : List (BitVec 8))
    (kpartx : KpartxMappings) : List (String × PartitionOos) :=
  let result := kpartx.entries
  let result := (iterateOosOffsets bitmapData).foldl (fun result bitNumber =>
    addBlock bmBytePerBit result (kpartx.entryFor bmBytePerBit bitNumber) bitNumber) result
  result.filter fun e => 0 < e.2.oosKib

/-! ## The specification -/

/-- What `drbdmeta` takes as the bytes of a bit. -/
structure ValidGranularity (bmBytePerBit : Nat) : Prop where
  isPowerOf2 : ∃ n, bmBytePerBit = 2 ^ n
  min : 4096 ≤ bmBytePerBit
  max : bmBytePerBit ≤ 1048576

/-- The bytes of a partition. -/
def Partition.Has (p : Partition) (byte : Nat) : Prop :=
  p.startSector * 512 ≤ byte ∧ byte < (p.startSector + p.lengthSectors) * 512

/-- The bytes of a bit. -/
def InBlock (bmBytePerBit bitNumber byte : Nat) : Prop :=
  bitNumber * bmBytePerBit ≤ byte ∧ byte < (bitNumber + 1) * bmBytePerBit

/-- A bit and a partition have a byte in common. -/
def Partition.Overlaps (p : Partition) (bmBytePerBit bitNumber : Nat) : Prop :=
  ∃ byte, p.Has byte ∧ InBlock bmBytePerBit bitNumber byte

/-- No two partitions have a sector in common. -/
def KpartxMappings.Disjoint (kpartx : KpartxMappings) : Prop :=
  kpartx.partitions.Pairwise fun e e' => ∀ byte, e.2.Has byte → ¬e'.2.Has byte

/-- A bit is listed under a name. -/
def Listed (result : List (String × PartitionOos)) (name : String) (bitNumber : Nat) : Prop :=
  ∃ info, (name, info) ∈ result ∧ bitNumber ∈ info.blocks

/-- Every bit is listed where it belongs. -/
structure Covers (bmBytePerBit : Nat) (bitmapData : List (BitVec 8)) (kpartx : KpartxMappings)
    (result : List (String × PartitionOos)) : Prop where
  partition : ∀ e ∈ kpartx.partitions, ∀ bitNumber, Listed result e.1 bitNumber ↔
    bit bitmapData bitNumber = true ∧ e.2.Overlaps bmBytePerBit bitNumber
  unpartitioned : ∀ bitNumber, Listed result "unpartitioned" bitNumber ↔
    bit bitmapData bitNumber = true ∧ ∀ e ∈ kpartx.partitions, ¬e.2.Overlaps bmBytePerBit bitNumber
  oosKib : ∀ e ∈ result, e.2.oosKib * 1024 = e.2.blocks.length * bmBytePerBit
  extents : ∀ e ∈ kpartx.partitions, ∀ extent : Set Nat, (∀ byte ∈ extent, e.2.Has byte) →
    ∀ bitNumber, bit bitmapData bitNumber = true →
      (∃ byte ∈ extent, InBlock bmBytePerBit bitNumber byte) → Listed result e.1 bitNumber

/-! ## Names and ranges -/

section Entry

variable {kpartx : KpartxMappings} {bmBytePerBit bitNumber : Nat} {name : String}

theorem ValidGranularity.dvd (h : ValidGranularity bmBytePerBit) : 1024 ∣ bmBytePerBit := by
  obtain ⟨n, rfl⟩ := h.isPowerOf2
  have hn : 10 ≤ n := by
    by_contra hlt
    have hpow : 2 ^ n ≤ 2 ^ 10 := Nat.pow_le_pow_right (by decide) (by omega)
    have := h.min
    omega
  exact pow_dvd_pow 2 hn

theorem KpartxMappings.name_ne (kpartx : KpartxMappings) {e : String × Partition}
    (he : e ∈ kpartx.partitions) : e.1 ≠ "" ∧ e.1 ≠ "unpartitioned" := by
  obtain ⟨c, hlast, hdigit⟩ := kpartx.numbered e he
  constructor
  · intro hname
    rw [hname] at hlast
    cases hlast
  · intro hname
    rw [hname] at hlast
    obtain rfl : 'd' = c := Option.some.inj hlast
    exact absurd hdigit (by decide)

/-- The overlap of ranges, by their sectors. -/
theorem Partition.overlaps_iff (p : Partition) (hpos : 0 < bmBytePerBit) :
    p.Overlaps bmBytePerBit bitNumber ↔
      bitNumber * bmBytePerBit / 512 ≤ p.startSector + p.lengthSectors - 1 ∧
        p.startSector ≤ (bitNumber * bmBytePerBit + bmBytePerBit - 1) / 512 := by
  have hlength := p.length_pos
  have hend : (bitNumber + 1) * bmBytePerBit = bitNumber * bmBytePerBit + bmBytePerBit :=
    Nat.succ_mul _ _
  constructor
  · rintro ⟨byte, ⟨hstart, hlt⟩, hfrom, hto⟩
    rw [hend] at hto
    omega
  · rintro ⟨hle, hge⟩
    refine ⟨max (p.startSector * 512) (bitNumber * bmBytePerBit), ⟨le_max_left _ _, ?_⟩,
      le_max_right _ _, ?_⟩
    · exact max_lt (by omega) (by omega)
    · rw [hend]
      exact max_lt (by omega) (by omega)

/-- A bit goes to the first partition that it overlaps. -/
theorem KpartxMappings.entryFor_eq (kpartx : KpartxMappings) (hpos : 0 < bmBytePerBit)
    (bitNumber : Nat) :
    (kpartx.entryFor bmBytePerBit bitNumber = "unpartitioned" ∧
      ∀ e ∈ kpartx.partitions, ¬e.2.Overlaps bmBytePerBit bitNumber) ∨
    ∃ e ∈ kpartx.partitions, kpartx.entryFor bmBytePerBit bitNumber = e.1 ∧
      e.2.Overlaps bmBytePerBit bitNumber := by
  unfold entryFor getPartitionForOffset
  simp only
  cases hfind : kpartx.partitions.find? _ with
  | none =>
    refine .inl ⟨rfl, fun e he hover => ?_⟩
    have hnot := List.find?_eq_none.1 hfind e he
    rw [e.2.overlaps_iff hpos] at hover
    rw [decide_eq_true hover.1, decide_eq_true hover.2] at hnot
    exact hnot rfl
  | some e =>
    have he := List.mem_of_find?_eq_some hfind
    have hover := List.find?_some hfind
    rw [Bool.and_eq_true, decide_eq_true_iff, decide_eq_true_iff, ← e.2.overlaps_iff hpos] at hover
    exact .inr ⟨e, he, if_neg (kpartx.name_ne he).1, hover⟩

theorem KpartxMappings.entryFor_eq_unpartitioned_iff (hpos : 0 < bmBytePerBit) :
    kpartx.entryFor bmBytePerBit bitNumber = "unpartitioned" ↔
      ∀ e ∈ kpartx.partitions, ¬e.2.Overlaps bmBytePerBit bitNumber := by
  rcases kpartx.entryFor_eq hpos bitNumber with ⟨heq, hnone⟩ | ⟨e, he, heq, hover⟩
  · exact ⟨fun _ => hnone, fun _ => heq⟩
  · constructor
    · intro hun
      exact absurd (heq.symm.trans hun) (kpartx.name_ne he).2
    · intro hnone
      exact absurd hover (hnone e he)

end Entry

/-! ## The loop -/

section Loop

variable {kpartx : KpartxMappings} {bmBytePerBit bitNumber : Nat} {name : String}
  {bitmapData : List (BitVec 8)}

/-- An entry once the bits that belong to it are added. -/
def PartitionOos.withBlocks (bmBytePerBit : Nat) (info : PartitionOos) (blocks : List Nat) :
    PartitionOos :=
  { info with
    oosKib := info.oosKib + blocks.length * (bmBytePerBit / 1024)
    blocks := info.blocks ++ blocks }

/-- Every bit is added to its entry, in order. -/
theorem foldl_addBlock (place : Nat → String) (bits : List Nat)
    (result : List (String × PartitionOos)) :
    bits.foldl (fun result bitNumber => addBlock bmBytePerBit result (place bitNumber) bitNumber)
        result =
      result.map fun e => (e.1, e.2.withBlocks bmBytePerBit (bits.filter (place · = e.1))) := by
  induction bits generalizing result with
  | nil => simp [PartitionOos.withBlocks]
  | cons bitNumber bits ih =>
    rw [List.foldl_cons, ih, addBlock, List.map_map]
    refine List.map_congr_left fun e _ => ?_
    rw [Function.comp_apply, List.filter_cons]
    by_cases hplace : place bitNumber = e.1
    · simp [hplace, PartitionOos.withBlocks, Nat.add_mul, Nat.add_assoc, Nat.add_comm]
    · simp only [Ne.symm hplace, hplace, if_false, decide_false, Bool.false_eq_true]

/-- The bits that belong to an entry. -/
def KpartxMappings.blocksOf (kpartx : KpartxMappings) (bmBytePerBit : Nat)
    (bitmapData : List (BitVec 8)) (name : String) : List Nat :=
  (iterateOosOffsets bitmapData).filter (kpartx.entryFor bmBytePerBit · = name)

/-- **The result**: the entries with their bits, without those that have none. -/
theorem mem_mapOosToPartitions {e : String × PartitionOos} :
    e ∈ mapOosToPartitions bmBytePerBit bitmapData kpartx ↔
      (∃ e₀ ∈ kpartx.entries, e = (e₀.1, e₀.2.withBlocks bmBytePerBit
        (kpartx.blocksOf bmBytePerBit bitmapData e₀.1))) ∧ 0 < e.2.oosKib := by
  unfold mapOosToPartitions KpartxMappings.blocksOf
  simp only [foldl_addBlock, List.mem_filter, decide_eq_true_eq, List.mem_map, eq_comm (b := e)]

theorem KpartxMappings.new_of_mem_entries {e : String × PartitionOos} (he : e ∈ kpartx.entries) :
    e.2.oosKib = 0 ∧ e.2.blocks = [] := by
  rcases List.mem_cons.1 he with rfl | he
  · exact ⟨rfl, rfl⟩
  · obtain ⟨x, -, rfl⟩ := List.mem_map.1 he
    exact ⟨rfl, rfl⟩

/-- A bit is listed under the name that it goes to, and under no other. -/
theorem listed_iff (h : ValidGranularity bmBytePerBit) (hname : ∃ info, (name, info) ∈ kpartx.entries) :
    Listed (mapOosToPartitions bmBytePerBit bitmapData kpartx) name bitNumber ↔
      bit bitmapData bitNumber = true ∧ kpartx.entryFor bmBytePerBit bitNumber = name := by
  have hmem : bitNumber ∈ kpartx.blocksOf bmBytePerBit bitmapData name ↔
      bit bitmapData bitNumber = true ∧ kpartx.entryFor bmBytePerBit bitNumber = name := by
    rw [KpartxMappings.blocksOf, List.mem_filter, mem_iterateOosOffsets, decide_eq_true_iff]
  rw [← hmem]
  constructor
  · rintro ⟨info, he, hblock⟩
    obtain ⟨⟨e₀, he₀, heq⟩, -⟩ := mem_mapOosToPartitions.1 he
    obtain ⟨rfl, rfl⟩ := Prod.ext_iff.1 heq
    rwa [PartitionOos.withBlocks, (KpartxMappings.new_of_mem_entries he₀).2, List.nil_append]
      at hblock
  · intro hblock
    obtain ⟨info, he₀⟩ := hname
    have hkib : 0 < bmBytePerBit / 1024 := by
      have := h.min
      omega
    refine ⟨_, mem_mapOosToPartitions.2 ⟨⟨_, he₀, rfl⟩, ?_⟩, ?_⟩
    · exact Nat.add_pos_right _ (Nat.mul_pos (List.length_pos_of_mem hblock) hkib)
    · exact List.mem_append_right _ hblock

theorem listed_partition_iff (h : ValidGranularity bmBytePerBit) {e : String × Partition}
    (he : e ∈ kpartx.partitions) :
    Listed (mapOosToPartitions bmBytePerBit bitmapData kpartx) e.1 bitNumber ↔
      bit bitmapData bitNumber = true ∧ kpartx.entryFor bmBytePerBit bitNumber = e.1 :=
  listed_iff h ⟨_, List.mem_cons_of_mem _ (List.mem_map_of_mem he)⟩

/-- Each amount is the number of bits times the bytes of a bit. -/
theorem mapOosToPartitions_oosKib (h : ValidGranularity bmBytePerBit) {e : String × PartitionOos}
    (he : e ∈ mapOosToPartitions bmBytePerBit bitmapData kpartx) :
    e.2.oosKib * 1024 = e.2.blocks.length * bmBytePerBit := by
  obtain ⟨⟨e₀, he₀, rfl⟩, -⟩ := mem_mapOosToPartitions.1 he
  obtain ⟨hkib, hblocks⟩ := KpartxMappings.new_of_mem_entries he₀
  simp only [PartitionOos.withBlocks, hkib, hblocks, Nat.zero_add, List.nil_append]
  rw [Nat.mul_assoc, Nat.div_mul_cancel h.dvd]

end Loop

/-! ## The result -/

section Result

variable {kpartx : KpartxMappings} {bmBytePerBit : Nat} {bitmapData : List (BitVec 8)}

/-- **No affected partition is missed** exactly if no bit that is set overlaps two of them. -/
theorem mapOosToPartitions_covers_iff (h : ValidGranularity bmBytePerBit) :
    Covers bmBytePerBit bitmapData kpartx (mapOosToPartitions bmBytePerBit bitmapData kpartx) ↔
      ∀ bitNumber, bit bitmapData bitNumber = true → ∀ e ∈ kpartx.partitions,
        ∀ e' ∈ kpartx.partitions, e.2.Overlaps bmBytePerBit bitNumber →
          e'.2.Overlaps bmBytePerBit bitNumber → e.1 = e'.1 := by
  have hpos : 0 < bmBytePerBit := by
    have := h.min
    omega
  constructor
  · intro hcovers bitNumber hbit e he e' he' hover hover'
    have hlisted := (hcovers.partition e he bitNumber).2 ⟨hbit, hover⟩
    have hlisted' := (hcovers.partition e' he' bitNumber).2 ⟨hbit, hover'⟩
    rw [← ((listed_partition_iff h he).1 hlisted).2, ((listed_partition_iff h he').1 hlisted').2]
  · intro hone
    have hpartition : ∀ e ∈ kpartx.partitions, ∀ bitNumber,
        Listed (mapOosToPartitions bmBytePerBit bitmapData kpartx) e.1 bitNumber ↔
          bit bitmapData bitNumber = true ∧ e.2.Overlaps bmBytePerBit bitNumber := by
      intro e he bitNumber
      rw [listed_partition_iff h he]
      refine and_congr_right fun hbit => ?_
      rcases kpartx.entryFor_eq hpos bitNumber with ⟨heq, hnone⟩ | ⟨e', he', heq, hover⟩
      · rw [heq]
        exact ⟨fun hname => absurd hname.symm (kpartx.name_ne he).2,
          fun hover => absurd hover (hnone e he)⟩
      · rw [heq]
        refine ⟨fun hname => ?_, fun hover' => hone bitNumber hbit e' he' e he hover hover'⟩
        obtain rfl : e' = e := List.inj_on_of_nodup_map kpartx.nodup he' he hname
        exact hover
    refine ⟨hpartition, fun bitNumber => ?_, fun e he => mapOosToPartitions_oosKib h he, ?_⟩
    · rw [listed_iff h ⟨_, List.mem_cons_self⟩, kpartx.entryFor_eq_unpartitioned_iff hpos]
    · rintro e he extent hextent bitNumber hbit ⟨byte, hbyte, hblock⟩
      exact (hpartition e he bitNumber).2 ⟨hbit, byte, hextent byte hbyte, hblock⟩

/-- Two partitions that meet behind sector `n`. -/
def twoPartitions (n : Nat) : KpartxMappings where
  partitions := [("vg-snap1", { startSector := 0, lengthSectors := n + 1, length_pos := n.succ_pos }),
    ("vg-snap2", { startSector := n + 1, lengthSectors := 8 })]
  nodup := by simp
  numbered := by
    intro e he
    simp only [List.mem_cons, List.not_mem_nil, or_false] at he
    rcases he with rfl | rfl
    · exact ⟨'1', show "vg-snap1".toList.getLast? = some '1' by decide, by decide⟩
    · exact ⟨'2', show "vg-snap2".toList.getLast? = some '2' by decide, by decide⟩

theorem twoPartitions_disjoint (n : Nat) : (twoPartitions n).Disjoint := by
  refine List.pairwise_pair.2 fun byte h h' => ?_
  have hlt := h.2
  have hle := h'.1
  simp only at hlt hle
  omega

/-- A bit that is on both sides of the boundary is listed on the first. -/
theorem mapOosToPartitions_straddled : (twoPartitions 8).Disjoint ∧
    ¬Covers 4096 [2] (twoPartitions 8) (mapOosToPartitions 4096 [2] (twoPartitions 8)) := by
  refine ⟨twoPartitions_disjoint 8, fun hcovers => ?_⟩
  have hsecond := (hcovers.partition ("vg-snap2", { startSector := 9, lengthSectors := 8 })
    (List.mem_cons_of_mem _ List.mem_cons_self) 1).2
      ⟨by decide, 4608, ⟨by decide, by decide⟩, by decide, by decide⟩
  obtain ⟨info, hmem, -⟩ := hsecond
  have hresult : mapOosToPartitions 4096 [2] (twoPartitions 8) =
      [("vg-snap1", { oosKib := 4, blocks := [1] })] := by decide +kernel
  rw [hresult] at hmem
  simp at hmem

/-- Partitions that meet where two bits do. -/
theorem mapOosToPartitions_covers_aligned :
    Covers 4096 [3] (twoPartitions 7) (mapOosToPartitions 4096 [3] (twoPartitions 7)) := by
  refine (mapOosToPartitions_covers_iff ⟨⟨12, rfl⟩, by decide, by decide⟩).2 ?_
  have hends : ∀ e ∈ (twoPartitions 7).partitions, ∀ bitNumber, e.2.Overlaps 4096 bitNumber →
      (e.1 = "vg-snap1" ↔ bitNumber = 0) := by
    intro e he bitNumber ⟨byte, hhas, hblock⟩
    simp only [twoPartitions, List.mem_cons, List.not_mem_nil, or_false] at he
    rcases he with rfl | rfl
    · have hlt : byte < (0 + 8) * 512 := hhas.2
      have hle : bitNumber * 4096 ≤ byte := hblock.1
      exact ⟨fun _ => by omega, fun _ => rfl⟩
    · have hle : 8 * 512 ≤ byte := hhas.1
      have hlt : byte < (bitNumber + 1) * 4096 := hblock.2
      exact ⟨fun h => absurd h (by decide), fun h => by omega⟩
  intro bitNumber _ e he e' he' hover hover'
  have hiff := (hends e he bitNumber hover).trans (hends e' he' bitNumber hover').symm
  simp only [twoPartitions, List.mem_cons, List.not_mem_nil, or_false] at he he'
  rcases he with rfl | rfl <;> rcases he' with rfl | rfl
  · rfl
  · exact absurd (hiff.1 rfl) (by decide)
  · exact absurd (hiff.2 rfl) (by decide)
  · rfl

end Result

end DrbdUtils.Verify
