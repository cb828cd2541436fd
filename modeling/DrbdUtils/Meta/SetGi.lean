import DrbdUtils.Lib.Strtoul
import DrbdUtils.Meta.CreateMd

/-!
# get-gi and set-gi

`m_get_gc()`, `m_get_uuid()`, `m_get_v9_uuid()` with the functions that print their line, and
`m_set_gc()`, `m_set_uuid()`, `m_set_v9_uuid()` with `m_strsep_u32()`, `m_strsep_u64()` and
`m_strsep_bit()`, that read one.  A line has no newline and no NUL; `unsigned long` has 64 bits.

* `setGi_ok_iff` — a line that is accepted changes what it gives and nothing else.
* `setGi_getGi_iff` — when the line of get-gi is accepted and changes nothing.
-/

set_option autoImplicit false

namespace DrbdUtils.Meta

open Numerals

/-! ## The fields -/

def MDF_CRASHED_PRIMARY : BitVec 32 := 1 <<< 6
def MDF_AL_DISABLED : BitVec 32 := 1 <<< 8
def MDF_PRIMARY_LOST_QUORUM : BitVec 32 := 1 <<< 9
def MDF_PEER_FENCING : BitVec 32 := 1 <<< 2

/-- `enum MetaDataIndex`. -/
def Flags : Fin GEN_CNT_SIZE := 0
def HumanCnt : Fin GEN_CNT_SIZE := 1
def TimeoutCnt : Fin GEN_CNT_SIZE := 2
def ConnectedCnt : Fin GEN_CNT_SIZE := 3
def ArbitraryCnt : Fin GEN_CNT_SIZE := 4

/-- What a call of `m_strsep_*` points to. -/
inductive GiField where
  | gc (i : Fin GEN_CNT_SIZE)
  | gcFlag (mask : BitVec 32)
  | currentUuid
  | bitmapUuid
  | historyUuid (i : Fin HISTORY_UUIDS)
  | flag (mask : BitVec 32)
  | peerFlag (mask : BitVec 32)
  deriving DecidableEq

/-! ## get-gi -/

/-- `%d` of a flag. -/
def flagText (flags mask : BitVec 32) : List Char := if flags &&& mask ≠ 0 then ['1'] else ['0']

/-- `%d` of a counter, an `unsigned int`. -/
def cntText (cnt : BitVec 32) : List Char :=
  if cnt.toInt < 0 then '-' :: decText cnt.toInt.natAbs else decText cnt.toInt.natAbs

/-- `X64(016)`. -/
def uuidText (uuid : BitVec 64) : List Char := hexText 16 uuid.toNat

/-- The indexes of `uuids[]`. -/
inductive UiIndex where
  | current
  | bitmap
  | historyStart
  | historyEnd

def dtPrintGc (genCnt : Fin GEN_CNT_SIZE → BitVec 32) : List Char :=
  [':'].intercalate
    [flagText (genCnt Flags) MDF_CONSISTENT, cntText (genCnt HumanCnt), cntText (genCnt TimeoutCnt),
      cntText (genCnt ConnectedCnt), cntText (genCnt ArbitraryCnt),
      flagText (genCnt Flags) MDF_PRIMARY_IND, flagText (genCnt Flags) MDF_CONNECTED_IND,
      flagText (genCnt Flags) MDF_FULL_SYNC]

def dtPrintUuids (uuid : UiIndex → BitVec 64) (flags : BitVec 32) : List Char :=
  [':'].intercalate
    [uuidText (uuid .current), uuidText (uuid .bitmap), uuidText (uuid .historyStart),
      uuidText (uuid .historyEnd), flagText flags MDF_CONSISTENT, flagText flags MDF_WAS_UP_TO_DATE,
      flagText flags MDF_PRIMARY_IND, flagText flags MDF_CONNECTED_IND, flagText flags MDF_FULL_SYNC,
      flagText flags MDF_PEER_OUT_DATED, flagText flags MDF_CRASHED_PRIMARY]

def dtPrintV9Uuids (uuid : UiIndex → BitVec 64) (mdfFlags mdfPeerFlags : BitVec 32) : List Char :=
  [':'].intercalate
    [uuidText (uuid .current), uuidText (uuid .bitmap), uuidText (uuid .historyStart),
      uuidText (uuid .historyEnd), flagText mdfFlags MDF_CONSISTENT,
      flagText mdfFlags MDF_WAS_UP_TO_DATE, flagText mdfFlags MDF_PRIMARY_IND,
      flagText mdfFlags MDF_CRASHED_PRIMARY, flagText mdfFlags MDF_AL_CLEAN,
      flagText mdfFlags MDF_AL_DISABLED, flagText mdfFlags MDF_PRIMARY_LOST_QUORUM,
      flagText mdfPeerFlags MDF_PEER_CONNECTED, flagText mdfPeerFlags MDF_PEER_OUTDATED,
      flagText mdfPeerFlags MDF_PEER_FENCING, flagText mdfPeerFlags MDF_PEER_FULL_SYNC,
      flagText mdfPeerFlags MDF_PEER_DEVICE_SEEN]

def uuidsOf (md : MdCpu) (nodeId : Fin DRBD_PEERS_MAX) : UiIndex → BitVec 64
  | .current => md.currentUuid
  | .bitmap => (md.peers nodeId).bitmapUuid
  | .historyStart => md.historyUuids 0
  | .historyEnd => md.historyUuids 1

/-- The line of get-gi, by the version's `get_gi`. -/
def getGi : MdFormat → Fin DRBD_PEERS_MAX → MdCpu → List Char
  | .v07, _, md => dtPrintGc md.gc
  | .v08, nodeId, md => dtPrintUuids (uuidsOf md nodeId) md.flags
  | .v09, nodeId, md => dtPrintV9Uuids (uuidsOf md nodeId) md.flags (md.peers nodeId).flags

/-! ## set-gi -/

/-- `strsep(s, ":")`. -/
def strsep : Option (List Char) → Option (List Char × Option (List Char))
  | none => none
  | some s => some (s.takeWhile (· ≠ ':'), (s.dropWhile (· ≠ ':')).tail?)

def mStrsepU32 (s : Option (List Char)) (val : BitVec 32) :
    Except Stop (Bool × Option (List Char) × BitVec 32) :=
  match strsep s with
  | none => .ok (false, none, val)
  | some (t, s) =>
    if t = [] then .ok (true, s, val)
    else
      let (v, e, errno) := strtoul 0 t
      if e ≠ [] then .error (.exit 10)
      else if errno then .error (.exit 10)
      else if 0xFFffFFff < v then .error (.exit 10)
      else .ok (true, s, BitVec.ofNat 32 v)

def mStrsepU64 (s : Option (List Char)) (val : BitVec 64) :
    Except Stop (Bool × Option (List Char) × BitVec 64) :=
  match strsep s with
  | none => .ok (false, none, val)
  | some (t, s) =>
    if t = [] then .ok (true, s, val)
    else
      let (v, e, errno) := strtoul 16 t
      if e ≠ [] then .error (.exit 10)
      else if errno then .error (.exit 10)
      else .ok (true, s, BitVec.ofNat 64 v)

def mStrsepBit (s : Option (List Char)) (val mask : BitVec 32) :
    Except Stop (Bool × Option (List Char) × BitVec 32) := do
  let (rv, s, d) ← mStrsepU32 s (if val &&& mask ≠ 0 then 1 else 0)
  if 1 < d then .error (.exit 10)
  else .ok (rv, s, if d ≠ 0 then val ||| mask else val &&& ~~~mask)

section Fields

variable (nodeId : Fin DRBD_PEERS_MAX)

def MdCpu.setGc (md : MdCpu) (i : Fin GEN_CNT_SIZE) (val : BitVec 32) : MdCpu :=
  { md with gc := Function.update md.gc i val }

def MdCpu.setPeer (md : MdCpu) (peer : PeerMdCpu) : MdCpu :=
  { md with peers := Function.update md.peers nodeId peer }

/-- A call of `m_strsep_*` on the metadata. -/
def GiField.strsep (s : Option (List Char)) (md : MdCpu) :
    GiField → Except Stop (Bool × Option (List Char) × MdCpu)
  | .gc i => do
    let (rv, s, val) ← mStrsepU32 s (md.gc i)
    .ok (rv, s, md.setGc i val)
  | .gcFlag mask => do
    let (rv, s, val) ← mStrsepBit s (md.gc Flags) mask
    .ok (rv, s, md.setGc Flags val)
  | .currentUuid => do
    let (rv, s, val) ← mStrsepU64 s md.currentUuid
    .ok (rv, s, { md with currentUuid := val })
  | .bitmapUuid => do
    let (rv, s, val) ← mStrsepU64 s (md.peers nodeId).bitmapUuid
    .ok (rv, s, md.setPeer nodeId { md.peers nodeId with bitmapUuid := val })
  | .historyUuid i => do
    let (rv, s, val) ← mStrsepU64 s (md.historyUuids i)
    .ok (rv, s, { md with historyUuids := Function.update md.historyUuids i val })
  | .flag mask => do
    let (rv, s, val) ← mStrsepBit s md.flags mask
    .ok (rv, s, { md with flags := val })
  | .peerFlag mask => do
    let (rv, s, val) ← mStrsepBit s (md.peers nodeId).flags mask
    .ok (rv, s, md.setPeer nodeId { md.peers nodeId with flags := val })

/-- The calls, until one finds no field. -/
def strsepFields : List GiField → Option (List Char) → MdCpu → Except Stop MdCpu
  | [], _, md => .ok md
  | d :: ds, s, md => do
    let (rv, s, md) ← d.strsep nodeId s md
    if rv then strsepFields ds s md else .ok md

end Fields

/-- The fields of `m_set_gc`. -/
def gcFields : List GiField :=
  [.gcFlag MDF_CONSISTENT, .gc HumanCnt, .gc TimeoutCnt, .gc ConnectedCnt, .gc ArbitraryCnt,
    .gcFlag MDF_PRIMARY_IND, .gcFlag MDF_CONNECTED_IND, .gcFlag MDF_FULL_SYNC]

/-- The fields of `m_set_uuid`. -/
def uuidFields : List GiField :=
  [.currentUuid, .bitmapUuid, .historyUuid 0, .historyUuid 1, .flag MDF_CONSISTENT,
    .flag MDF_WAS_UP_TO_DATE, .flag MDF_PRIMARY_IND, .flag MDF_CONNECTED_IND, .flag MDF_FULL_SYNC,
    .flag MDF_PEER_OUT_DATED, .flag MDF_CRASHED_PRIMARY]

/-- The fields of `m_set_v9_uuid`. -/
def v9UuidFields : List GiField :=
  [.currentUuid, .bitmapUuid, .historyUuid 0, .historyUuid 1, .flag MDF_CONSISTENT,
    .flag MDF_WAS_UP_TO_DATE, .flag MDF_PRIMARY_IND, .flag MDF_CRASHED_PRIMARY, .flag MDF_AL_CLEAN,
    .flag MDF_AL_DISABLED, .flag MDF_PRIMARY_LOST_QUORUM, .peerFlag MDF_PEER_CONNECTED,
    .peerFlag MDF_PEER_OUTDATED, .peerFlag MDF_PEER_FENCING, .peerFlag MDF_PEER_FULL_SYNC,
    .peerFlag MDF_PEER_DEVICE_SEEN]

def giFields : MdFormat → List GiField
  | .v07 => gcFields
  | .v08 => uuidFields
  | .v09 => v9UuidFields

/-- set-gi on a line, by the version's `set_gi`. -/
def setGi (f : MdFormat) (nodeId : Fin DRBD_PEERS_MAX) (line : List Char) (md : MdCpu) :
    Except Stop MdCpu :=
  strsepFields nodeId (giFields f) (some line) md

/-! ## What a line says -/

section Meaning

variable (nodeId : Fin DRBD_PEERS_MAX)

def getFlag (flags mask : BitVec 32) : BitVec 64 := if flags &&& mask ≠ 0 then 1 else 0

def setFlag (flags mask : BitVec 32) (val : BitVec 64) : BitVec 32 :=
  if val ≠ 0 then flags ||| mask else flags &&& ~~~mask

/-- The value of a field. -/
def GiField.read (md : MdCpu) : GiField → BitVec 64
  | .gc i => (md.gc i).setWidth 64
  | .gcFlag mask => getFlag (md.gc Flags) mask
  | .currentUuid => md.currentUuid
  | .bitmapUuid => (md.peers nodeId).bitmapUuid
  | .historyUuid i => md.historyUuids i
  | .flag mask => getFlag md.flags mask
  | .peerFlag mask => getFlag (md.peers nodeId).flags mask

/-- The metadata with another value of a field. -/
def GiField.write (md : MdCpu) (val : BitVec 64) : GiField → MdCpu
  | .gc i => md.setGc i (val.setWidth 32)
  | .gcFlag mask => md.setGc Flags (setFlag (md.gc Flags) mask val)
  | .currentUuid => { md with currentUuid := val }
  | .bitmapUuid => md.setPeer nodeId { md.peers nodeId with bitmapUuid := val }
  | .historyUuid i => { md with historyUuids := Function.update md.historyUuids i val }
  | .flag mask => { md with flags := setFlag md.flags mask val }
  | .peerFlag mask =>
    md.setPeer nodeId { md.peers nodeId with flags := setFlag (md.peers nodeId).flags mask val }

/-- The largest value of a field, and the base of its number. -/
def GiField.limit : GiField → Nat × Nat
  | .gc _ => (0xFFffFFff, 0)
  | .gcFlag _ | .flag _ | .peerFlag _ => (1, 0)
  | .currentUuid | .bitmapUuid | .historyUuid _ => (ULONG_MAX, 16)

/-- The number that a text is, if it is not too large. -/
def parseNumber (max base : Nat) (t : List Char) : Option (BitVec 64) :=
  if (strtoul base t).2.1 = [] ∧ (strtoul base t).2.2 = false ∧ (strtoul base t).1 ≤ max then
    some (BitVec.ofNat 64 (strtoul base t).1)
  else none

/-- The value that a text gives a field. -/
def GiField.parse (d : GiField) (t : List Char) : Option (BitVec 64) :=
  parseNumber d.limit.1 d.limit.2 t

/-- The fields that a line gives, with their values. -/
def given (ds : List GiField) (texts : List (List Char)) : Option (List (GiField × BitVec 64)) :=
  ((ds.zip texts).filter (·.2 ≠ [])).mapM fun x => (x.1.parse x.2).map (Prod.mk x.1)

def writeFields (vs : List (GiField × BitVec 64)) (md : MdCpu) : MdCpu :=
  vs.foldl (fun md x => x.1.write nodeId md x.2) md

end Meaning

/-! ## Reading and writing one field -/

section OneField

variable {nodeId : Fin DRBD_PEERS_MAX}

/-- A value that the field can have. -/
def GiField.Fits (d : GiField) (val : BitVec 64) : Prop := val.toNat ≤ d.limit.1

/-- Fields that do not share a bit. -/
def GiField.apart : GiField → GiField → Bool
  | .gc i, .gc j => i ≠ j
  | .gc i, .gcFlag _ | .gcFlag _, .gc i => i ≠ Flags
  | .gcFlag mask, .gcFlag mask' | .flag mask, .flag mask' | .peerFlag mask, .peerFlag mask' =>
    mask &&& mask' = 0
  | d, d' => d ≠ d'

/-- A flag is a bit. -/
def GiField.proper : GiField → Bool
  | .gcFlag mask | .flag mask | .peerFlag mask =>
    (List.range 32).any fun k => mask = BitVec.twoPow 32 k
  | _ => true

theorem giFields_pairwise (f : MdFormat) :
    (giFields f).Pairwise fun d d' => d.apart d' = true := by
  cases f <;> decide

theorem giFields_proper (f : MdFormat) : ∀ d ∈ giFields f, d.proper = true := by
  cases f <;> decide

theorem or_and_self (flags mask : BitVec 32) : (flags ||| mask) &&& mask = mask := by
  ext i hi
  cases hf : flags[i] <;> simp [hf]

theorem andNot_and_self (flags mask : BitVec 32) : flags &&& ~~~mask &&& mask = 0 := by
  ext i hi
  cases hf : mask[i] <;> simp [hf]

theorem andNot_of_and_eq_zero {flags mask : BitVec 32} (h : flags &&& mask = 0) :
    flags &&& ~~~mask = flags := by
  ext i hi
  have hi' : (flags[i] && mask[i]) = false := by rw [← BitVec.getElem_and, h]; simp
  cases hf : flags[i] with
  | false => simp [hf]
  | true =>
    rw [hf, Bool.true_and] at hi'
    simp [hf, hi']

theorem getFlag_setFlag {flags mask : BitVec 32} {val : BitVec 64} (hmask : mask ≠ 0)
    (hval : val.toNat ≤ 1) :
    getFlag (setFlag flags mask val) mask = val := by
  unfold getFlag setFlag
  by_cases h0 : val = 0
  · rw [if_neg (not_not.2 h0), andNot_and_self, if_neg (not_not.2 rfl), h0]
  · have h1 : val = 1 := by
      apply BitVec.eq_of_toNat_eq
      have : val.toNat ≠ 0 := fun h => h0 (BitVec.eq_of_toNat_eq h)
      show val.toNat = 1
      omega
    rw [if_pos h0, or_and_self, if_pos hmask, h1]

theorem getFlag_setFlag_apart {flags mask mask' : BitVec 32} {val : BitVec 64}
    (h : mask &&& mask' = 0) : getFlag (setFlag flags mask val) mask' = getFlag flags mask' := by
  have hbit (i : Nat) (hi : i < 32) : mask[i] = false ∨ mask'[i] = false := by
    have hi' : (mask[i] && mask'[i]) = false := by rw [← BitVec.getElem_and, h]; simp
    exact Bool.and_eq_false_iff.1 hi'
  have hand : setFlag flags mask val &&& mask' = flags &&& mask' := by
    unfold setFlag
    split
    all_goals
      ext i hi
      rcases hbit i hi with hi | hi <;> simp [hi]
  rw [getFlag, hand, getFlag]

theorem setFlag_getFlag {flags mask : BitVec 32} {k : Nat} (hmask : mask = BitVec.twoPow 32 k) :
    setFlag flags mask (getFlag flags mask) = flags := by
  unfold setFlag getFlag
  by_cases h : flags &&& mask = 0
  · rw [if_neg (not_not.2 h), if_neg (not_not.2 rfl), andNot_of_and_eq_zero h]
  · rw [if_pos h, if_pos (by decide)]
    rw [hmask, BitVec.and_twoPow] at h
    split at h
    · rename_i hk
      ext i hi
      rw [hmask, BitVec.getElem_or, BitVec.getElem_twoPow]
      by_cases hik : i = k
      · subst hik
        rw [BitVec.getLsbD_eq_getElem hi] at hk
        simp [hk]
      · simp [hik]
    · exact absurd rfl h

theorem proper_ne_zero {mask : BitVec 32}
    (h : ((List.range 32).any fun k => mask = BitVec.twoPow 32 k) = true) :
    ∃ k, k < 32 ∧ mask = BitVec.twoPow 32 k ∧ mask ≠ 0 := by
  obtain ⟨k, hk, hmask⟩ := List.any_eq_true.1 h
  have hk := List.mem_range.1 hk
  have hmask := of_decide_eq_true hmask
  refine ⟨k, hk, hmask, fun h0 => ?_⟩
  have : (BitVec.twoPow 32 k)[k] = false := by simp [← hmask, h0]
  simp at this

/-- What was written is read. -/
theorem GiField.read_write {d : GiField} (hd : d.proper = true) {val : BitVec 64}
    (hval : d.Fits val) (md : MdCpu) : d.read nodeId (d.write nodeId md val) = val := by
  cases d with
  | gc i =>
    simp only [read, write, MdCpu.setGc, Function.update_self]
    apply BitVec.eq_of_toNat_eq
    have : val.toNat ≤ 0xFFffFFff := hval
    simp
    omega
  | gcFlag mask =>
    obtain ⟨k, -, -, hne⟩ := proper_ne_zero hd
    simp only [read, write, MdCpu.setGc, Function.update_self]
    exact getFlag_setFlag hne hval
  | currentUuid => rfl
  | bitmapUuid => simp [read, write, MdCpu.setPeer]
  | historyUuid i => simp [read, write]
  | flag mask =>
    obtain ⟨k, -, -, hne⟩ := proper_ne_zero hd
    exact getFlag_setFlag hne hval
  | peerFlag mask =>
    obtain ⟨k, -, -, hne⟩ := proper_ne_zero hd
    simp only [read, write, MdCpu.setPeer, Function.update_self]
    exact getFlag_setFlag hne hval

/-- Writing what is there changes nothing. -/
theorem GiField.write_read {d : GiField} (hd : d.proper = true) (md : MdCpu) :
    d.write nodeId md (d.read nodeId md) = md := by
  cases d with
  | gc i => simp [read, write, MdCpu.setGc]
  | gcFlag mask =>
    obtain ⟨k, -, hk, -⟩ := proper_ne_zero hd
    simp [read, write, MdCpu.setGc, setFlag_getFlag hk]
  | currentUuid => rfl
  | bitmapUuid => simp [read, write, MdCpu.setPeer]
  | historyUuid i => simp [read, write]
  | flag mask =>
    obtain ⟨k, -, hk, -⟩ := proper_ne_zero hd
    simp only [read, write, setFlag_getFlag hk]
  | peerFlag mask =>
    obtain ⟨k, -, hk, -⟩ := proper_ne_zero hd
    simp only [read, write, MdCpu.setPeer, setFlag_getFlag hk, Function.update_eq_self]

/-- The other fields keep their values. -/
theorem GiField.read_write_apart {d d' : GiField} (h : d.apart d' = true) (val : BitVec 64)
    (md : MdCpu) : d'.read nodeId (d.write nodeId md val) = d'.read nodeId md := by
  cases d <;> cases d' <;>
    simp_all [GiField.apart, read, write, MdCpu.setGc, MdCpu.setPeer, Function.update_of_ne,
      getFlag_setFlag_apart, Ne.symm]

end OneField

/-! ## One call -/

/-- The texts that are left. -/
def restTexts : Option (List Char) → List (List Char)
  | none => []
  | some s => s.splitOn ':'

theorem strsep_eq_none {s : Option (List Char)} (h : strsep s = none) : restTexts s = [] := by
  cases s with
  | none => rfl
  | some s => cases h

theorem strsep_eq_some {s s' : Option (List Char)} {t : List Char}
    (h : strsep s = some (t, s')) : restTexts s = t :: restTexts s' := by
  cases s with
  | none => cases h
  | some line =>
    simp only [strsep, Option.some.injEq, Prod.mk.injEq] at h
    obtain ⟨rfl, rfl⟩ := h
    by_cases hmem : ':' ∈ line
    · obtain ⟨t, rest, rfl, hnot⟩ := List.eq_append_cons_of_mem hmem
      have hall : ∀ c ∈ t, decide (c ≠ ':') = true := fun c hc =>
        decide_eq_true fun h => hnot (h ▸ hc)
      rw [List.takeWhile_append_of_pos hall, List.dropWhile_append_of_pos hall]
      simp [restTexts, List.splitOn_append_cons_self_of_not_mem hnot]
    · have hall : ∀ c ∈ line, decide (c ≠ ':') = true := fun c hc =>
        decide_eq_true fun h => hmem (h ▸ hc)
      rw [List.takeWhile_eq_self_iff.2 hall, List.dropWhile_eq_nil_iff.2 hall]
      simp [restTexts, List.splitOn_eq_singleton hmem]

section OneCall

variable {nodeId : Fin DRBD_PEERS_MAX}

/-- A value read from a text is one that the field can have. -/
theorem GiField.fits_of_parse {d : GiField} {t : List Char} {val : BitVec 64}
    (h : d.parse t = some val) : d.Fits val := by
  unfold GiField.parse parseNumber at h
  split at h
  · rename_i hok
    cases h
    unfold GiField.Fits
    rw [BitVec.toNat_ofNat]
    exact (Nat.mod_le _ _).trans hok.2.2
  · cases h

/-- What a call does: nothing without a text, and else it takes the number for the new value. -/
def callResult {α : Type} (s : Option (List Char)) (val : α) (limit : Nat × Nat)
    (new : BitVec 64 → α) : Except Stop (Bool × Option (List Char) × α) :=
  match strsep s with
  | none => .ok (false, none, val)
  | some (t, s') =>
    if t = [] then .ok (true, s', val)
    else match parseNumber limit.1 limit.2 t with
      | none => .error (.exit 10)
      | some v => .ok (true, s', new v)

theorem callResult_bind {α β : Type} (s : Option (List Char)) (val : α) (limit : Nat × Nat)
    (new : BitVec 64 → α) (set : α → β) :
    (do
      let (rv, s, val) ← callResult s val limit new
      .ok (rv, s, set val) : Except Stop (Bool × Option (List Char) × β)) =
      callResult s (set val) limit fun v => set (new v) := by
  unfold callResult
  rcases strsep s with _ | ⟨t, s'⟩
  · rfl
  by_cases ht : t = []
  · simp only [if_pos ht]
    rfl
  · simp only [if_neg ht]
    cases parseNumber limit.1 limit.2 t <;> rfl

theorem mStrsepU32_eq (s : Option (List Char)) (val : BitVec 32) :
    mStrsepU32 s val = callResult s val (0xFFffFFff, 0) fun v => v.setWidth 32 := by
  unfold mStrsepU32 callResult
  rcases strsep s with _ | ⟨t, s'⟩
  · rfl
  by_cases ht : t = []
  · simp only [if_pos ht]
  simp only [if_neg ht, parseNumber]
  by_cases he : (strtoul 0 t).2.1 = [] ∧ (strtoul 0 t).2.2 = false ∧
      (strtoul 0 t).1 ≤ 0xFFffFFff
  · have hwidth : (BitVec.ofNat 64 (strtoul 0 t).1).setWidth 32 =
        BitVec.ofNat 32 (strtoul 0 t).1 := by
      apply BitVec.eq_of_toNat_eq
      simp
    rw [if_pos he]
    simp [he.1, he.2.1, Nat.not_lt.2 he.2.2, hwidth]
  · rw [if_neg he]
    split_ifs <;> simp_all

theorem mStrsepU64_eq (s : Option (List Char)) (val : BitVec 64) :
    mStrsepU64 s val = callResult s val (ULONG_MAX, 16) id := by
  unfold mStrsepU64 callResult
  rcases strsep s with _ | ⟨t, s'⟩
  · rfl
  by_cases ht : t = []
  · simp only [if_pos ht]
  have hle := strtoul_le 16 t
  simp only [if_neg ht, parseNumber, hle, and_true]
  by_cases he : (strtoul 16 t).2.1 = [] ∧ (strtoul 16 t).2.2 = false
  · simp [he.1, he.2]
  · split_ifs <;> simp_all

/-- A flag is a number of 32 bits that is 0 or 1. -/
theorem mStrsepBit_eq (s : Option (List Char)) {val mask : BitVec 32} {k : Nat}
    (hmask : mask = BitVec.twoPow 32 k) :
    mStrsepBit s val mask = callResult s val (1, 0) (setFlag val mask) := by
  have hkeep : (if (if val &&& mask ≠ 0 then (1 : BitVec 32) else 0) ≠ 0 then val ||| mask
      else val &&& ~~~mask) = val := by
    have hself := @setFlag_getFlag val mask k hmask
    unfold setFlag getFlag at hself
    split_ifs at hself ⊢ <;> simp_all
  have hone : ¬1 < (if val &&& mask ≠ 0 then (1 : BitVec 32) else 0) := by
    split_ifs <;> decide
  unfold mStrsepBit
  rw [mStrsepU32_eq]
  unfold callResult
  rcases strsep s with _ | ⟨t, s'⟩
  · simp only [bind, Except.bind, if_neg hone, hkeep]
  by_cases ht : t = []
  · simp only [if_pos ht, bind, Except.bind, if_neg hone, hkeep]
  simp only [if_neg ht, parseNumber]
  by_cases he : (strtoul 0 t).2.1 = [] ∧ (strtoul 0 t).2.2 = false
  · by_cases hv : (strtoul 0 t).1 ≤ 1
    · have hv' : (strtoul 0 t).1 ≤ 0xFFffFFff := by omega
      rw [if_pos ⟨he.1, he.2, hv'⟩, if_pos ⟨he.1, he.2, hv⟩]
      simp only [bind, Except.bind, setFlag]
      rcases Nat.le_one_iff_eq_zero_or_eq_one.1 hv with h | h <;> rw [h] <;> rfl
    · by_cases hv' : (strtoul 0 t).1 ≤ 0xFFffFFff
      · have hlt : 1 < (BitVec.ofNat 64 (strtoul 0 t).1).setWidth 32 := by
          rw [BitVec.lt_def]
          simp
          omega
        rw [if_pos ⟨he.1, he.2, hv'⟩, if_neg fun h => hv h.2.2]
        simp only [bind, Except.bind, if_pos hlt]
      · rw [if_neg fun h => hv' h.2.2, if_neg fun h => hv h.2.2]
        rfl
  · rw [if_neg fun h => he ⟨h.1, h.2.1⟩, if_neg fun h => he ⟨h.1, h.2.1⟩]
    rfl

/-- A call reads a value and writes it. -/
theorem GiField.strsep_eq {d : GiField} (hd : d.proper = true) (s : Option (List Char))
    (md : MdCpu) :
    d.strsep nodeId s md = callResult s md d.limit (d.write nodeId md) := by
  cases d with
  | gc i =>
    have hkeep : md.setGc i (md.gc i) = md := by simp [MdCpu.setGc]
    have h := callResult_bind s (md.gc i) (0xFFffFFff, 0) (fun v => v.setWidth 32) (md.setGc i)
    rw [← mStrsepU32_eq, hkeep] at h
    exact h
  | gcFlag mask =>
    obtain ⟨k, -, hk, -⟩ := proper_ne_zero hd
    have hkeep : md.setGc Flags (md.gc Flags) = md := by simp [MdCpu.setGc]
    have h := callResult_bind s (md.gc Flags) (1, 0) (setFlag (md.gc Flags) mask) (md.setGc Flags)
    rw [← mStrsepBit_eq s hk, hkeep] at h
    exact h
  | currentUuid =>
    have h := callResult_bind s md.currentUuid (ULONG_MAX, 16) id
      fun v => { md with currentUuid := v }
    rw [← mStrsepU64_eq] at h
    exact h
  | bitmapUuid =>
    have hkeep : md.setPeer nodeId { md.peers nodeId with
        bitmapUuid := (md.peers nodeId).bitmapUuid } = md := by simp [MdCpu.setPeer]
    have h := callResult_bind s (md.peers nodeId).bitmapUuid (ULONG_MAX, 16) id
      fun v => md.setPeer nodeId { md.peers nodeId with bitmapUuid := v }
    rw [← mStrsepU64_eq, hkeep] at h
    exact h
  | historyUuid i =>
    have hkeep : { md with historyUuids := Function.update md.historyUuids i (md.historyUuids i) } =
        md := by simp
    have h := callResult_bind s (md.historyUuids i) (ULONG_MAX, 16) id
      fun v => { md with historyUuids := Function.update md.historyUuids i v }
    rw [← mStrsepU64_eq, hkeep] at h
    exact h
  | flag mask =>
    obtain ⟨k, -, hk, -⟩ := proper_ne_zero hd
    have h := callResult_bind s md.flags (1, 0) (setFlag md.flags mask)
      fun v => { md with flags := v }
    rw [← mStrsepBit_eq s hk] at h
    exact h
  | peerFlag mask =>
    obtain ⟨k, -, hk, -⟩ := proper_ne_zero hd
    have hkeep : md.setPeer nodeId { md.peers nodeId with flags := (md.peers nodeId).flags } =
        md := by simp [MdCpu.setPeer]
    have h := callResult_bind s (md.peers nodeId).flags (1, 0) (setFlag (md.peers nodeId).flags mask)
      fun v => md.setPeer nodeId { md.peers nodeId with flags := v }
    rw [← mStrsepBit_eq s hk, hkeep] at h
    exact h

@[simp] theorem given_cons_nil (d : GiField) (ds : List GiField) (ts : List (List Char)) :
    given (d :: ds) ([] :: ts) = given ds ts := by
  simp [given]

theorem given_cons {d : GiField} {ds : List GiField} {t : List Char} {ts : List (List Char)}
    (ht : t ≠ []) : given (d :: ds) (t :: ts) =
      (d.parse t).bind fun v => (given ds ts).map ((d, v) :: ·) := by
  unfold given
  rw [List.zip_cons_cons, List.filter_cons_of_pos (by simpa using ht), List.mapM_cons]
  cases d.parse t with
  | none => rfl
  | some v =>
    cases List.mapM (fun x : GiField × List Char => (x.1.parse x.2).map (Prod.mk x.1))
      ((ds.zip ts).filter (·.2 ≠ [])) <;> rfl

/-- The calls one after the other. -/
theorem strsepFields_ok_iff {ds : List GiField} (hds : ∀ d ∈ ds, d.proper = true)
    (s : Option (List Char)) (md md' : MdCpu) :
    strsepFields nodeId ds s md = .ok md' ↔
      ∃ vs, given ds (restTexts s) = some vs ∧ md' = writeFields nodeId vs md := by
  induction ds generalizing s md with
  | nil => simp [strsepFields, given, writeFields, eq_comm]
  | cons d ds ih =>
    have ih := ih fun d' hd' => hds d' (List.mem_cons_of_mem _ hd')
    rw [strsepFields, GiField.strsep_eq (hds d (List.mem_cons_self ..))]
    rcases hsep : Meta.strsep s with _ | ⟨t, s'⟩
    · rw [strsep_eq_none hsep]
      simp [callResult, hsep, bind, Except.bind, given, writeFields, eq_comm]
    · rw [strsep_eq_some hsep]
      simp only [callResult, hsep]
      by_cases ht : t = []
      · simp [ht, bind, Except.bind, ih, given]
      · simp only [if_neg ht]
        rw [given_cons ht, show parseNumber d.limit.1 d.limit.2 t = d.parse t from rfl]
        cases d.parse t with
        | none => simp [bind, Except.bind]
        | some v =>
          simp only [bind, Except.bind, if_true, ih, Option.bind_some, Option.map_eq_some_iff]
          constructor
          · rintro ⟨vs, hvs, rfl⟩
            exact ⟨_, ⟨vs, hvs, rfl⟩, rfl⟩
          · rintro ⟨_, ⟨vs, hvs, rfl⟩, rfl⟩
            exact ⟨vs, hvs, rfl⟩

end OneCall

/-! ## A whole line -/

section Line

variable {nodeId : Fin DRBD_PEERS_MAX}

theorem GiField.apart_comm (d d' : GiField) : d.apart d' = d'.apart d := by
  cases d <;> cases d' <;> simp [GiField.apart, BitVec.and_comm, eq_comm]

theorem read_writeFields_apart {vs : List (GiField × BitVec 64)} {d : GiField}
    (h : ∀ x ∈ vs, x.1.apart d = true) (md : MdCpu) :
    d.read nodeId (writeFields nodeId vs md) = d.read nodeId md := by
  induction vs generalizing md with
  | nil => rfl
  | cons x vs ih =>
    refine (ih (fun y hy => h y (List.mem_cons_of_mem _ hy)) _).trans ?_
    exact GiField.read_write_apart (h x (List.mem_cons_self ..)) _ _

theorem read_writeFields {vs : List (GiField × BitVec 64)}
    (hapart : vs.Pairwise fun x y => x.1.apart y.1 = true)
    (hvs : ∀ x ∈ vs, x.1.proper = true ∧ x.1.Fits x.2) {d : GiField} {v : BitVec 64}
    (hmem : (d, v) ∈ vs) (md : MdCpu) : d.read nodeId (writeFields nodeId vs md) = v := by
  induction vs generalizing md with
  | nil => cases hmem
  | cons x vs ih =>
    obtain ⟨hhead, htail⟩ := List.pairwise_cons.1 hapart
    rcases List.mem_cons.1 hmem with rfl | hmem
    · obtain ⟨hproper, hfits⟩ := hvs _ (List.mem_cons_self ..)
      have hothers : ∀ y ∈ vs, y.1.apart d = true := fun y hy => by
        rw [GiField.apart_comm]
        exact hhead y hy
      show d.read nodeId (writeFields nodeId vs (d.write nodeId md v)) = v
      rw [read_writeFields_apart hothers, GiField.read_write hproper hfits]
    · exact ih htail (fun y hy => hvs y (List.mem_cons_of_mem _ hy)) hmem _

/-- What a line gives is given to the fields of the version. -/
theorem given_fields {ds : List GiField} {texts : List (List Char)}
    {vs : List (GiField × BitVec 64)} (h : given ds texts = some vs) :
    (vs.map Prod.fst).Sublist ds ∧ ∀ x ∈ vs, x.1.Fits x.2 := by
  induction ds generalizing texts vs with
  | nil =>
    cases h
    simp
  | cons d ds ih =>
    cases texts with
    | nil =>
      cases h
      simp
    | cons t ts =>
      by_cases ht : t = []
      · subst ht
        rw [given_cons_nil] at h
        exact ⟨(ih h).1.cons _, (ih h).2⟩
      · rw [given_cons ht] at h
        obtain ⟨v, hv, hmap⟩ := Option.bind_eq_some_iff.1 h
        obtain ⟨vs', hvs', rfl⟩ := Option.map_eq_some_iff.1 hmap
        refine ⟨(ih hvs').1.cons_cons _, fun x hx => ?_⟩
        rcases List.mem_cons.1 hx with rfl | hx
        · exact GiField.fits_of_parse hv
        · exact (ih hvs').2 x hx

/-- A line that is accepted changes what it gives and nothing else. -/
structure OnlyGiven (nodeId : Fin DRBD_PEERS_MAX) (f : MdFormat) (line : List Char)
    (md md' : MdCpu) (vs : List (GiField × BitVec 64)) : Prop where
  given : given (giFields f) (line.splitOn ':') = some vs
  written : md' = writeFields nodeId vs md
  changed : ∀ d v, (d, v) ∈ vs → d.read nodeId md' = v
  kept : ∀ d ∈ giFields f, d ∉ vs.map Prod.fst → d.read nodeId md' = d.read nodeId md

theorem setGi_ok_iff (f : MdFormat) (line : List Char) (md md' : MdCpu) :
    setGi f nodeId line md = .ok md' ↔ ∃ vs, OnlyGiven nodeId f line md md' vs := by
  unfold setGi
  rw [strsepFields_ok_iff (giFields_proper f)]
  constructor
  · rintro ⟨vs, hgiven, rfl⟩
    obtain ⟨hsub, hfits⟩ := given_fields hgiven
    have hproper : ∀ x ∈ vs, x.1.proper = true ∧ x.1.Fits x.2 := fun x hx =>
      ⟨giFields_proper f _ (hsub.subset (List.mem_map_of_mem hx)), hfits x hx⟩
    have hpairs : vs.Pairwise fun x y => x.1.apart y.1 = true :=
      List.pairwise_map.1 ((giFields_pairwise f).sublist hsub)
    refine ⟨vs, hgiven, rfl, fun d v hmem => read_writeFields hpairs hproper hmem md,
      fun d hd hnot => read_writeFields_apart (fun x hx => ?_) md⟩
    have hx' := hsub.subset (List.mem_map_of_mem hx)
    have hne : x.1 ≠ d := fun h => hnot (h ▸ List.mem_map_of_mem hx)
    have : Std.Symm fun d d' : GiField => d.apart d' = true :=
      ⟨fun d d' h => by rwa [GiField.apart_comm]⟩
    exact (giFields_pairwise f).forall hx' hd hne
  · rintro ⟨vs, h⟩
    exact ⟨vs, h.given, h.written⟩

/-! ## The line of get-gi -/

/-- The text of a field. -/
def GiField.text (nodeId : Fin DRBD_PEERS_MAX) (md : MdCpu) : GiField → List Char
  | .gc i => cntText (md.gc i)
  | .gcFlag mask => flagText (md.gc Flags) mask
  | .currentUuid => uuidText md.currentUuid
  | .bitmapUuid => uuidText (md.peers nodeId).bitmapUuid
  | .historyUuid i => uuidText (md.historyUuids i)
  | .flag mask => flagText md.flags mask
  | .peerFlag mask => flagText (md.peers nodeId).flags mask

/-- The two orders agree. -/
theorem getGi_eq (f : MdFormat) (nodeId : Fin DRBD_PEERS_MAX) (md : MdCpu) :
    getGi f nodeId md = [':'].intercalate ((giFields f).map (GiField.text nodeId md)) := by
  cases f <;> rfl

/-- Counters are printed with a sign. -/
def GiField.Unsigned (md : MdCpu) : GiField → Prop
  | .gc i => (md.gc i).toNat < 2 ^ 31
  | _ => True

theorem flagText_parse (flags mask : BitVec 32) :
    parseNumber 1 0 (flagText flags mask) = some (getFlag flags mask) := by
  unfold flagText getFlag
  split <;> decide

theorem uuidText_parse (uuid : BitVec 64) :
    parseNumber ULONG_MAX 16 (uuidText uuid) = some uuid := by
  unfold parseNumber uuidText
  rw [strtoul_hexText uuid.isLt]
  have : uuid.toNat ≤ ULONG_MAX := by unfold ULONG_MAX; omega
  simp [this]

theorem cntText_parse {cnt : BitVec 32} (h : cnt.toNat < 2 ^ 31) :
    parseNumber 0xFFffFFff 0 (cntText cnt) = some (cnt.setWidth 64) := by
  have hint : cnt.toInt = cnt.toNat := BitVec.toInt_eq_toNat_of_lt (by omega)
  have htext : cntText cnt = decText cnt.toNat := by
    unfold cntText
    rw [hint, if_neg (by omega), Int.natAbs_natCast]
  have hval : BitVec.ofNat 64 cnt.toNat = cnt.setWidth 64 := by simp
  unfold parseNumber
  rw [htext, strtoul_decText (by omega), if_pos ⟨rfl, rfl, by omega⟩, hval]

/-- A counter with the highest bit set. -/
theorem cntText_parse_none {cnt : BitVec 32} (h : 2 ^ 31 ≤ cnt.toNat) :
    parseNumber 0xFFffFFff 0 (cntText cnt) = none := by
  have hlt := cnt.isLt
  have hint : cnt.toInt = cnt.toNat - 2 ^ 32 := by
    rw [BitVec.toInt_eq_toNat_cond, if_neg (by omega)]
    norm_cast
  have htext : cntText cnt = '-' :: decText (2 ^ 32 - cnt.toNat) := by
    unfold cntText
    rw [hint, if_pos (by omega)]
    congr 2
    omega
  unfold parseNumber
  rw [htext, strtoul_neg_decText (by omega) (by omega), if_neg]
  rintro ⟨-, -, hle⟩
  omega

theorem GiField.parse_text {d : GiField} {md : MdCpu} (h : d.Unsigned md) :
    d.parse (d.text nodeId md) = some (d.read nodeId md) := by
  cases d with
  | gc i => exact cntText_parse h
  | gcFlag mask => exact flagText_parse _ _
  | currentUuid => exact uuidText_parse _
  | bitmapUuid => exact uuidText_parse _
  | historyUuid i => exact uuidText_parse _
  | flag mask => exact flagText_parse _ _
  | peerFlag mask => exact flagText_parse _ _

theorem GiField.parse_text_none {d : GiField} {md : MdCpu} (h : ¬d.Unsigned md) :
    d.parse (d.text nodeId md) = none := by
  cases d with
  | gc i => exact cntText_parse_none (Nat.le_of_not_lt h)
  | gcFlag mask | currentUuid | bitmapUuid | historyUuid i | flag mask | peerFlag mask =>
    exact absurd trivial h

/-- Every text is there and has no colon. -/
theorem GiField.text_plain (d : GiField) (md : MdCpu) :
    d.text nodeId md ≠ [] ∧ ':' ∉ d.text nodeId md := by
  have hcnt (cnt : BitVec 32) : cntText cnt ≠ [] ∧ ':' ∉ cntText cnt := by
    have hplain := plain_decText cnt.toInt.natAbs
    have hnot : ':' ∉ decText cnt.toInt.natAbs := hplain.not_mem (by decide)
    unfold cntText
    split
    · simpa using hnot
    · exact ⟨hplain.ne_nil, hnot⟩
  have huuid (uuid : BitVec 64) : uuidText uuid ≠ [] ∧ ':' ∉ uuidText uuid := by
    have hplain := plain_hexText (by decide : (16 : Nat) ≠ 0) uuid.toNat
    exact ⟨hplain.ne_nil, hplain.not_mem (by decide)⟩
  have hflag (flags mask : BitVec 32) : flagText flags mask ≠ [] ∧ ':' ∉ flagText flags mask := by
    unfold flagText
    split <;> decide
  cases d with
  | gc i => exact hcnt _
  | gcFlag mask => exact hflag _ _
  | currentUuid => exact huuid _
  | bitmapUuid => exact huuid _
  | historyUuid i => exact huuid _
  | flag mask => exact hflag _ _
  | peerFlag mask => exact hflag _ _

/-- The line of get-gi gives all fields their values. -/
theorem given_texts {ds : List GiField} {md : MdCpu} (h : ∀ d ∈ ds, d.Unsigned md) :
    given ds (ds.map (GiField.text nodeId md)) = some (ds.map fun d => (d, d.read nodeId md)) := by
  induction ds with
  | nil => rfl
  | cons d ds ih =>
    rw [List.map_cons, given_cons (GiField.text_plain d md).1,
      GiField.parse_text (h d (List.mem_cons_self ..)),
      ih fun d' hd' => h d' (List.mem_cons_of_mem _ hd')]
    rfl

theorem given_texts_none {ds : List GiField} {md : MdCpu} {d : GiField} (hd : d ∈ ds)
    (h : ¬d.Unsigned md) : given ds (ds.map (GiField.text nodeId md)) = none := by
  induction ds with
  | nil => cases hd
  | cons d' ds ih =>
    rw [List.map_cons, given_cons (GiField.text_plain d' md).1]
    rcases List.mem_cons.1 hd with rfl | hd
    · rw [GiField.parse_text_none h]
      rfl
    · rw [ih hd]
      cases d'.parse (d'.text nodeId md) <;> rfl

theorem writeFields_read {ds : List GiField} (h : ∀ d ∈ ds, d.proper = true) (md : MdCpu) :
    writeFields nodeId (ds.map fun d => (d, d.read nodeId md)) md = md := by
  induction ds with
  | nil => rfl
  | cons d ds ih =>
    show writeFields nodeId _ (d.write nodeId md (d.read nodeId md)) = md
    rw [GiField.write_read (h d (List.mem_cons_self ..))]
    exact ih fun d' hd' => h d' (List.mem_cons_of_mem _ hd')

/-- The texts of the line of get-gi. -/
theorem splitOn_getGi (f : MdFormat) (nodeId : Fin DRBD_PEERS_MAX) (md : MdCpu) :
    (getGi f nodeId md).splitOn ':' = (giFields f).map (GiField.text nodeId md) := by
  rw [getGi_eq]
  refine List.splitOn_intercalate ':' (fun t ht => ?_)
    (by cases f <;> simp [giFields, gcFields, uuidFields, v9UuidFields])
  obtain ⟨d, -, rfl⟩ := List.mem_map.1 ht
  exact (GiField.text_plain d md).2

theorem unsigned_giFields_iff (f : MdFormat) (md : MdCpu) :
    (∀ d ∈ giFields f, d.Unsigned md) ↔
      (f = .v07 → ∀ i, i ≠ Flags → (md.gc i).toNat < 2 ^ 31) := by
  cases f with
  | v07 =>
    simp [giFields, gcFields, GiField.Unsigned, Fin.forall_fin_succ, Flags, HumanCnt, TimeoutCnt,
      ConnectedCnt, ArbitraryCnt]
  | v08 => simp [giFields, uuidFields, GiField.Unsigned]
  | v09 => simp [giFields, v9UuidFields, GiField.Unsigned]

end Line

/-- **get-gi and set-gi.**  For every version, node id and metadata: the line of get-gi is accepted
    and changes nothing, and of any line that is accepted only the fields that it gives change, if
    and only if no counter of version 07 has its highest bit set. -/
theorem setGi_getGi_iff (f : MdFormat) (nodeId : Fin DRBD_PEERS_MAX) (md : MdCpu) :
    (setGi f nodeId (getGi f nodeId md) md = .ok md ∧
      ∀ line md', setGi f nodeId line md = .ok md' → ∃ vs, OnlyGiven nodeId f line md md' vs) ↔
    (f = .v07 → ∀ i, i ≠ Flags → (md.gc i).toNat < 2 ^ 31) := by
  rw [← unsigned_giFields_iff]
  constructor
  · rintro ⟨hok, -⟩ d hd
    by_contra hsigned
    obtain ⟨vs, h⟩ := (setGi_ok_iff f _ md md).1 hok
    have hgiven := h.given
    rw [splitOn_getGi, given_texts_none hd hsigned] at hgiven
    cases hgiven
  · intro h
    refine ⟨(strsepFields_ok_iff (giFields_proper f) _ md md).2
      ⟨(giFields f).map fun d => (d, d.read nodeId md), ?_, ?_⟩,
      fun line md' hok => (setGi_ok_iff f line md md').1 hok⟩
    · exact (congrArg _ (splitOn_getGi f nodeId md)).trans (given_texts h)
    · exact (writeFields_read (giFields_proper f) md).symm

/-- Metadata of version 07 with one counter at the highest bit. -/
def highCounter : MdCpu :=
  { zeroMd with gc := fun i => if i = HumanCnt then 1 <<< 31 else 0 }

/-- "0:-2147483648:0:0:0:0:0:0" is refused. -/
theorem highCounter_refused :
    setGi .v07 0 (getGi .v07 0 highCounter) highCounter = .error (.exit 10) := by
  rfl

end DrbdUtils.Meta
