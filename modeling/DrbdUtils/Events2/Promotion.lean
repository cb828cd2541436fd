import DrbdUtils.Events2.Objects
import Mathlib.Data.Prod.Lex
import Mathlib.Data.List.Perm.Basic
import Mathlib.Data.List.Forall2

/-!
# Promotion info

`compute_promotion_info()` of `drbdsetup_events2.c`: may this node be promoted, and how good a choice
would it be.  The counters are natural numbers, the minimum is an integer with its sentinel `-1`.

* `computePromotionInfo_eq` — the loop with its early exits, in closed form.
* `promotion_sound` — order independence, the meaning of `may_promote`, the order of the scores,
  and monotonicity.
-/

set_option autoImplicit false

namespace DrbdUtils.Events2

/-! ## The program -/

/-- `UUID_FLAG_STABLE`. -/
def UUID_FLAG_STABLE : BitVec 64 := 32

def countUpToDateReplicas (r : Resource) (device : Device) : Nat :=
  let start := if device.info.devDiskState = .upToDate then 1 else 0
  r.connections.foldl (fun n c => c.peerDevices.foldl (fun n p =>
    if p.ctx.ctxVolume = device.ctx.ctxVolume ∧ p.info.peerDiskState = .upToDate then n + 1
    else n) n) start

/-- The test of `have_stable_up_to_date_replicas`. -/
def PeerDevice.isStableUpToDate (device : Device) (p : PeerDevice) : Bool :=
  p.ctx.ctxVolume = device.ctx.ctxVolume && p.info.peerDiskState = .upToDate &&
    p.statistics.peerDevUuidFlags &&& UUID_FLAG_STABLE ≠ 0

def haveStableUpToDateReplicas (r : Resource) (device : Device) : Bool :=
  device.info.devDiskState = .upToDate ||
    r.connections.any fun c => c.peerDevices.any (·.isStableUpToDate device)

def havePrimary (r : Resource) : Bool :=
  r.info.resRole = .primary || r.connections.any (·.info.connRole = .primary)

structure PromotionInfo where
  mayPromote : Bool := false
  promotionScore : Nat := 0
  deriving DecidableEq, Repr

/-- The local variables of the loop. -/
structure PromotionAcc where
  upToDateDevices : Nat := 0
  allDevicesHaveDisk : Bool := true
  minUpToDateReplicas : Int := -1
  allDevicesStableUpToDate : Bool := true

/-- `min_up_to_date_replicas` after a device. -/
def minReplicas (m : Int) (n : Nat) : Int := if m = -1 ∨ n < m then n else m

/-- One round of the loop, for a device with quorum. -/
def PromotionAcc.add (r : Resource) (a : PromotionAcc) (device : Device) : PromotionAcc where
  upToDateDevices := if device.info.devDiskState = .upToDate then a.upToDateDevices + 1
    else a.upToDateDevices
  allDevicesHaveDisk := if device.info.devDiskState = .upToDate then a.allDevicesHaveDisk
    else if device.info.devDiskState ≠ .consistent ∧ device.info.devDiskState ≠ .inconsistent then
      false
    else a.allDevicesHaveDisk
  minUpToDateReplicas := minReplicas a.minUpToDateReplicas (countUpToDateReplicas r device)
  allDevicesStableUpToDate := if haveStableUpToDateReplicas r device then a.allDevicesStableUpToDate
    else false

/-- The loop; `none` when a device without quorum ends the function. -/
def promotionLoop (r : Resource) : List Device → PromotionAcc → Option PromotionAcc
  | [], a => some a
  | device :: devices, a =>
    if device.info.devHasQuorum = 0 then none else promotionLoop r devices (a.add r device)

def computePromotionInfo (r : Resource) : PromotionInfo :=
  if r.devices = [] then {}
  else if r.info.resFailIo ≠ 0 then {}
  else match promotionLoop r r.devices {} with
    | none => {}
    | some a =>
      if a.minUpToDateReplicas = -1 ∨ a.minUpToDateReplicas = 0 then {}
      else
        { mayPromote := !havePrimary r && a.allDevicesStableUpToDate
          promotionScore := (if a.allDevicesHaveDisk then 1 else 0) * 10000 +
            min a.upToDateDevices 99 * 100 + min a.minUpToDateReplicas.toNat 99 }

/-! ## What the score is made of -/

def Device.isUpToDate (d : Device) : Bool := d.info.devDiskState = .upToDate

/-- The disk states that count as present. -/
def Device.hasDisk (d : Device) : Bool :=
  d.info.devDiskState = .upToDate || d.info.devDiskState = .consistent ||
    d.info.devDiskState = .inconsistent

def PeerDevice.isUpToDate (device : Device) (p : PeerDevice) : Bool :=
  p.ctx.ctxVolume = device.ctx.ctxVolume && p.info.peerDiskState = .upToDate

def Resource.peerDevices (r : Resource) : List PeerDevice := r.connections.flatMap (·.peerDevices)

/-- The least number of UpToDate replicas over the devices. -/
def leastReplicas (r : Resource) : Nat :=
  ((r.devices.map (countUpToDateReplicas r)).min?).getD 0

/-- All disks present, local UpToDate devices, UpToDate replicas; lexicographically. -/
def promotionRank (r : Resource) : Nat ×ₗ Nat ×ₗ Nat :=
  toLex ((r.devices.all Device.hasDisk).toNat, toLex (min 99 (r.devices.countP Device.isUpToDate),
    min 99 (leastReplicas r)))

/-- No early exit: the resource has devices, IO does not fail, and every device has quorum and an
    UpToDate replica. -/
structure Scored (r : Resource) : Prop where
  devices : r.devices ≠ []
  failIo : r.info.resFailIo = 0
  quorum : ∀ d ∈ r.devices, d.info.devHasQuorum ≠ 0
  replicas : ∀ d ∈ r.devices, 0 < countUpToDateReplicas r d

theorem countUpToDateReplicas_eq (r : Resource) (d : Device) :
    countUpToDateReplicas r d = d.isUpToDate.toNat + r.peerDevices.countP (·.isUpToDate d) := by
  have hinner : ∀ (ps : List PeerDevice) (n : Nat), ps.foldl (fun n p =>
      if p.ctx.ctxVolume = d.ctx.ctxVolume ∧ p.info.peerDiskState = .upToDate then n + 1 else n) n =
      n + ps.countP (·.isUpToDate d) := by
    intro ps
    induction ps with
    | nil => exact fun n => rfl
    | cons p ps ih =>
      intro n
      rw [List.foldl_cons, ih, List.countP_cons]
      by_cases hp : p.ctx.ctxVolume = d.ctx.ctxVolume ∧ p.info.peerDiskState = .upToDate
      · rw [if_pos hp, if_pos (by simpa [PeerDevice.isUpToDate] using hp)]
        omega
      · rw [if_neg hp, if_neg (by simpa [PeerDevice.isUpToDate] using hp)]
        omega
  have houter : ∀ (cs : List Connection) (n : Nat), cs.foldl (fun n c => c.peerDevices.foldl
      (fun n p => if p.ctx.ctxVolume = d.ctx.ctxVolume ∧ p.info.peerDiskState = .upToDate then n + 1
        else n) n) n = n + (cs.flatMap (·.peerDevices)).countP (·.isUpToDate d) := by
    intro cs
    induction cs with
    | nil => exact fun n => rfl
    | cons c cs ih =>
      intro n
      rw [List.foldl_cons, ih, hinner, List.flatMap_cons, List.countP_append]
      omega
  rw [countUpToDateReplicas, houter, Resource.peerDevices]
  by_cases hd : d.info.devDiskState = .upToDate <;> simp [hd, Device.isUpToDate]

theorem haveStable_eq (r : Resource) (d : Device) : haveStableUpToDateReplicas r d =
    (d.isUpToDate || r.peerDevices.any (·.isStableUpToDate d)) := by
  rw [haveStableUpToDateReplicas, Resource.peerDevices, List.any_flatMap]
  rfl

/-- A stable UpToDate replica is an UpToDate replica. -/
theorem replicas_of_stable {r : Resource} {d : Device} (h : haveStableUpToDateReplicas r d = true) :
    0 < countUpToDateReplicas r d := by
  rw [haveStable_eq, Bool.or_eq_true, List.any_eq_true] at h
  rw [countUpToDateReplicas_eq]
  rcases h with hlocal | ⟨p, hp, hstable⟩
  · rw [hlocal]
    exact Nat.lt_of_lt_of_le Nat.one_pos (Nat.le_add_right ..)
  · have hup : p.isUpToDate d = true := by
      unfold PeerDevice.isStableUpToDate at hstable
      rw [Bool.and_eq_true] at hstable
      exact hstable.1
    exact Nat.lt_of_lt_of_le (List.countP_pos_iff.2 ⟨p, hp, hup⟩) (Nat.le_add_left ..)

/-! ## The loop -/

theorem minReplicas_natCast (m n : Nat) : minReplicas m n = (min m n : Nat) := by
  unfold minReplicas
  split <;> omega

theorem foldl_minReplicas (l : List Nat) :
    l.foldl minReplicas (-1) = (l.min?.map Nat.cast).getD (-1 : Int) := by
  cases l with
  | nil => rfl
  | cons n l =>
    have hrest : ∀ (l : List Nat) (m : Nat), l.foldl minReplicas m = (l.foldl min m : Nat) := by
      intro l
      induction l with
      | nil => exact fun m => rfl
      | cons n l ih =>
        intro m
        rw [List.foldl_cons, minReplicas_natCast, ih]
        rfl
    rw [List.foldl_cons, minReplicas, if_pos (.inl rfl), hrest]
    rfl

theorem promotionLoop_eq (r : Resource) (ds : List Device) (a : PromotionAcc) :
    promotionLoop r ds a = if ∀ d ∈ ds, d.info.devHasQuorum ≠ 0 then some
      { upToDateDevices := a.upToDateDevices + ds.countP Device.isUpToDate
        allDevicesHaveDisk := a.allDevicesHaveDisk && ds.all Device.hasDisk
        minUpToDateReplicas := (ds.map (countUpToDateReplicas r)).foldl minReplicas
          a.minUpToDateReplicas
        allDevicesStableUpToDate := a.allDevicesStableUpToDate &&
          ds.all (haveStableUpToDateReplicas r) } else none := by
  induction ds generalizing a with
  | nil => simp [promotionLoop]
  | cons d ds ih =>
    rw [promotionLoop]
    by_cases hq : d.info.devHasQuorum = 0
    · rw [if_pos hq, if_neg]
      exact fun h => h d (List.mem_cons_self ..) hq
    · rw [if_neg hq, ih]
      have hall : (∀ x ∈ d :: ds, x.info.devHasQuorum ≠ 0) ↔ ∀ x ∈ ds, x.info.devHasQuorum ≠ 0 := by
        rw [List.forall_mem_cons]
        exact and_iff_right hq
      rw [if_congr hall rfl rfl]
      split
      · have hutd : (a.add r d).upToDateDevices + ds.countP Device.isUpToDate =
            a.upToDateDevices + (d :: ds).countP Device.isUpToDate := by
          rw [List.countP_cons]
          unfold PromotionAcc.add Device.isUpToDate
          by_cases hd : d.info.devDiskState = .upToDate <;> (simp [hd]; try omega)
        have hdisk : ((a.add r d).allDevicesHaveDisk && ds.all Device.hasDisk) =
            (a.allDevicesHaveDisk && (d :: ds).all Device.hasDisk) := by
          rw [List.all_cons]
          unfold PromotionAcc.add
          cases hd : d.info.devDiskState <;> simp [Device.hasDisk, hd]
        have hstable : ((a.add r d).allDevicesStableUpToDate &&
            ds.all (haveStableUpToDateReplicas r)) =
            (a.allDevicesStableUpToDate && (d :: ds).all (haveStableUpToDateReplicas r)) := by
          rw [List.all_cons]
          unfold PromotionAcc.add
          cases hd : haveStableUpToDateReplicas r d <;> simp
        rw [hutd, hdisk, hstable]
        rfl
      · rfl

theorem leastReplicas_spec {r : Resource} (h : r.devices ≠ []) :
    (r.devices.map (countUpToDateReplicas r)).min? = some (leastReplicas r) ∧
      (∃ d ∈ r.devices, countUpToDateReplicas r d = leastReplicas r) ∧
      ∀ d ∈ r.devices, leastReplicas r ≤ countUpToDateReplicas r d := by
  have hne : r.devices.map (countUpToDateReplicas r) ≠ [] := by simpa using h
  obtain ⟨m, hm⟩ := Option.isSome_iff_exists.1 (List.isSome_min?_of_ne_nil hne)
  have hleast : leastReplicas r = m := by rw [leastReplicas, hm, Option.getD_some]
  obtain ⟨hmem, hle⟩ := List.min?_eq_some_iff.1 hm
  rw [hleast]
  exact ⟨hm, List.mem_map.1 hmem, fun d hd => hle _ (List.mem_map_of_mem hd)⟩

theorem leastReplicas_pos_iff {r : Resource} (h : r.devices ≠ []) :
    0 < leastReplicas r ↔ ∀ d ∈ r.devices, 0 < countUpToDateReplicas r d := by
  obtain ⟨-, ⟨d, hd, heq⟩, hle⟩ := leastReplicas_spec h
  constructor
  · exact fun hpos d hd => Nat.lt_of_lt_of_le hpos (hle d hd)
  · intro hall
    rw [← heq]
    exact hall d hd

/-- The score of a resource without an early exit. -/
def scoreOf (r : Resource) : Nat :=
  (r.devices.all Device.hasDisk).toNat * 10000 + min (r.devices.countP Device.isUpToDate) 99 * 100 +
    min (leastReplicas r) 99

theorem computePromotionInfo_eq (r : Resource) :
    (Scored r → computePromotionInfo r =
      { mayPromote := !havePrimary r && r.devices.all (haveStableUpToDateReplicas r)
        promotionScore := scoreOf r }) ∧
    (¬Scored r → computePromotionInfo r = {}) := by
  unfold computePromotionInfo
  rw [promotionLoop_eq, foldl_minReplicas]
  by_cases hdev : r.devices = []
  · rw [if_pos hdev]
    exact ⟨fun h => absurd hdev h.devices, fun _ => rfl⟩
  rw [if_neg hdev]
  by_cases hfail : r.info.resFailIo = 0
  swap
  · rw [if_pos hfail]
    exact ⟨fun h => absurd h.failIo hfail, fun _ => rfl⟩
  rw [if_neg (not_not.2 hfail)]
  by_cases hq : ∀ d ∈ r.devices, d.info.devHasQuorum ≠ 0
  swap
  · rw [if_neg hq]
    exact ⟨fun h => absurd h.quorum hq, fun _ => rfl⟩
  rw [if_pos hq]
  obtain ⟨hmin, -, -⟩ := leastReplicas_spec hdev
  rw [hmin]
  simp only [Option.map_some, Option.getD_some, Int.toNat_natCast]
  by_cases hpos : 0 < leastReplicas r
  · rw [if_neg (by omega)]
    refine ⟨fun _ => ?_, fun h => absurd ⟨hdev, hfail, hq, (leastReplicas_pos_iff hdev).1 hpos⟩ h⟩
    unfold scoreOf
    cases r.devices.all Device.hasDisk <;> simp
  · rw [if_pos (by omega)]
    exact ⟨fun h => absurd ((leastReplicas_pos_iff hdev).2 h.replicas) hpos, fun _ => rfl⟩

/-! ## Order -/

/-- The same resource with its lists in another order. -/
structure Reordered (r r' : Resource) : Prop where
  info : r'.info = r.info
  devices : r.devices.Perm r'.devices
  connections : ∃ cs, r.connections.Perm cs ∧ List.Forall₂ (fun c c' =>
    c'.info = c.info ∧ c.peerDevices.Perm c'.peerDevices) cs r'.connections

theorem flatMap_perm {cs cs' : List Connection} (h : List.Forall₂ (fun c c' : Connection =>
    c'.info = c.info ∧ c.peerDevices.Perm c'.peerDevices) cs cs') :
    (cs.flatMap (·.peerDevices)).Perm (cs'.flatMap (·.peerDevices)) ∧
      cs.any (·.info.connRole = .primary) = cs'.any (·.info.connRole = .primary) := by
  induction h with
  | nil => exact ⟨List.Perm.refl _, rfl⟩
  | cons hc _ ih =>
    rw [List.flatMap_cons, List.flatMap_cons, List.any_cons, List.any_cons, hc.1, ih.2]
    exact ⟨hc.2.append ih.1, rfl⟩

section Order

variable {r r' : Resource} (h : Reordered r r')

include h

theorem Reordered.peerDevices : r.peerDevices.Perm r'.peerDevices := by
  obtain ⟨cs, hperm, hcs⟩ := h.connections
  exact (hperm.flatMap_right _).trans (flatMap_perm hcs).1

theorem Reordered.replicas (d : Device) : countUpToDateReplicas r' d = countUpToDateReplicas r d := by
  rw [countUpToDateReplicas_eq, countUpToDateReplicas_eq, h.peerDevices.countP_eq]

theorem Reordered.stable (d : Device) :
    haveStableUpToDateReplicas r' d = haveStableUpToDateReplicas r d := by
  rw [haveStable_eq, haveStable_eq, h.peerDevices.any_eq]

theorem Reordered.primary : havePrimary r' = havePrimary r := by
  obtain ⟨cs, hperm, hcs⟩ := h.connections
  rw [havePrimary, havePrimary, h.info, ← (flatMap_perm hcs).2, hperm.any_eq]

theorem Reordered.scored : Scored r ↔ Scored r' := by
  have hdev : r.devices ≠ [] ↔ r'.devices ≠ [] := by
    rw [Ne, Ne, ← List.length_eq_zero_iff, ← List.length_eq_zero_iff, h.devices.length_eq]
  constructor
  · intro hs
    refine ⟨hdev.1 hs.devices, h.info ▸ hs.failIo, fun d hd => ?_, fun d hd => ?_⟩
    · exact hs.quorum d (h.devices.mem_iff.2 hd)
    · rw [h.replicas]
      exact hs.replicas d (h.devices.mem_iff.2 hd)
  · intro hs
    refine ⟨hdev.2 hs.devices, h.info ▸ hs.failIo, fun d hd => ?_, fun d hd => ?_⟩
    · exact hs.quorum d (h.devices.mem_iff.1 hd)
    · rw [← h.replicas]
      exact hs.replicas d (h.devices.mem_iff.1 hd)

theorem Reordered.least (hne : r.devices ≠ []) (hne' : r'.devices ≠ []) :
    leastReplicas r' = leastReplicas r := by
  obtain ⟨-, ⟨d, hd, heq⟩, hle⟩ := leastReplicas_spec hne
  obtain ⟨-, ⟨d', hd', heq'⟩, hle'⟩ := leastReplicas_spec hne'
  refine Nat.le_antisymm ?_ ?_
  · rw [← heq, ← h.replicas]
    exact hle' d (h.devices.mem_iff.1 hd)
  · rw [← heq', h.replicas]
    exact hle d' (h.devices.mem_iff.2 hd')

theorem Reordered.promotionInfo : computePromotionInfo r' = computePromotionInfo r := by
  by_cases hs : Scored r
  · have hs' := h.scored.1 hs
    rw [(computePromotionInfo_eq r).1 hs, (computePromotionInfo_eq r').1 hs', scoreOf, scoreOf,
      h.least hs.devices hs'.devices, h.primary, funext h.stable, h.devices.all_eq,
      h.devices.all_eq, h.devices.countP_eq]
  · rw [(computePromotionInfo_eq r).2 hs, (computePromotionInfo_eq r').2 fun hs' =>
      hs (h.scored.2 hs')]

end Order

/-! ## Monotonicity -/

/-- Any number of local and peer disks turn to UpToDate. -/
structure Raises (r r' : Resource) : Prop where
  info : r'.info = r.info
  devices : List.Forall₂ (fun d d' : Device => d' = d ∨
    d' = { d with info := { d.info with devDiskState := .upToDate } }) r.devices r'.devices
  connections : List.Forall₂ (fun c c' : Connection => c'.info = c.info ∧
    List.Forall₂ (fun p p' : PeerDevice => p' = p ∨
      p' = { p with info := { p.info with peerDiskState := .upToDate } })
      c.peerDevices c'.peerDevices) r.connections r'.connections

section Raises

variable {r r' : Resource} (h : Raises r r')

include h

theorem Raises.peerDevices : List.Forall₂ (fun p p' : PeerDevice => p' = p ∨
    p' = { p with info := { p.info with peerDiskState := .upToDate } })
    r.peerDevices r'.peerDevices := by
  unfold Resource.peerDevices
  have hconns := h.connections
  generalize r.connections = cs, r'.connections = cs' at hconns
  induction hconns with
  | nil => exact .nil
  | cons hc _ ih =>
    rw [List.flatMap_cons, List.flatMap_cons]
    exact List.rel_append hc.2 ih

theorem Raises.primary : havePrimary r' = havePrimary r := by
  have hany : r'.connections.any (·.info.connRole = .primary) =
      r.connections.any (·.info.connRole = .primary) := by
    have hconns := h.connections
    generalize r.connections = cs, r'.connections = cs' at hconns
    induction hconns with
    | nil => rfl
    | cons hc _ ih => rw [List.any_cons, List.any_cons, hc.1, ih]
  rw [havePrimary, havePrimary, h.info, hany]

end Raises

/-- A test that a turn to UpToDate does not clear holds of no fewer elements. -/
theorem countP_mono_of_forall₂ {α : Type} {R : α → α → Prop} {p : α → Bool}
    (hp : ∀ a b, R a b → p a = true → p b = true) {l l' : List α} (h : List.Forall₂ R l l') :
    l.countP p ≤ l'.countP p := by
  induction h with
  | nil => exact Nat.le_refl _
  | @cons a b l l' hab _ ih =>
    rw [List.countP_cons, List.countP_cons]
    by_cases ha : p a = true
    · rw [if_pos ha, if_pos (hp a b hab ha)]
      omega
    · rw [if_neg ha]
      omega

/-- Every element of the second list comes from one of the first. -/
theorem exists_of_forall₂ {α : Type} {R : α → α → Prop} {l l' : List α} (h : List.Forall₂ R l l') :
    ∀ b ∈ l', ∃ a ∈ l, R a b := by
  induction h with
  | nil => exact fun b hb => by cases hb
  | @cons a b l l' hab _ ih =>
    intro x hx
    rcases List.mem_cons.1 hx with rfl | hx
    · exact ⟨a, List.mem_cons_self .., hab⟩
    · obtain ⟨y, hy, hxy⟩ := ih x hx
      exact ⟨y, List.mem_cons_of_mem _ hy, hxy⟩

section Raises

variable {r r' : Resource} (h : Raises r r')

include h

/-- A device has no fewer replicas, and a stable one if it had one. -/
theorem Raises.device {d d' : Device} (hd : d' = d ∨
    d' = { d with info := { d.info with devDiskState := .upToDate } }) :
    countUpToDateReplicas r d ≤ countUpToDateReplicas r' d' ∧
      (haveStableUpToDateReplicas r d = true → haveStableUpToDateReplicas r' d' = true) := by
  have hvol : d'.ctx = d.ctx := by rcases hd with rfl | rfl <;> rfl
  have hlocal : d.isUpToDate = true → d'.isUpToDate = true := by
    rcases hd with rfl | rfl
    · exact id
    · exact fun _ => by simp [Device.isUpToDate]
  have hcount : r.peerDevices.countP (·.isUpToDate d) ≤ r'.peerDevices.countP (·.isUpToDate d') := by
    have heq : (fun p : PeerDevice => p.isUpToDate d') = (·.isUpToDate d) := by
      funext p
      rw [PeerDevice.isUpToDate, PeerDevice.isUpToDate, hvol]
    rw [heq]
    refine countP_mono_of_forall₂ ?_ h.peerDevices
    rintro p p' (rfl | rfl) hp
    · exact hp
    · simp_all [PeerDevice.isUpToDate]
  constructor
  · rw [countUpToDateReplicas_eq, countUpToDateReplicas_eq]
    have hnat : d.isUpToDate.toNat ≤ d'.isUpToDate.toNat := by
      cases hb : d.isUpToDate
      · exact Nat.zero_le _
      · rw [hlocal hb]
    exact Nat.add_le_add hnat hcount
  · rw [haveStable_eq, haveStable_eq, Bool.or_eq_true, Bool.or_eq_true]
    refine Or.imp hlocal fun hany => ?_
    rw [List.any_eq_true, ← List.countP_pos_iff] at hany ⊢
    refine Nat.lt_of_lt_of_le hany ?_
    have heq : PeerDevice.isStableUpToDate d' = PeerDevice.isStableUpToDate d := by
      funext p
      rw [PeerDevice.isStableUpToDate, PeerDevice.isStableUpToDate, hvol]
    rw [heq]
    refine countP_mono_of_forall₂ ?_ h.peerDevices
    rintro p p' (rfl | rfl) hp
    · exact hp
    · simp_all [PeerDevice.isStableUpToDate]

theorem Raises.scored (hs : Scored r) : Scored r' := by
  have hdev := h.devices
  refine ⟨fun hnil => ?_, h.info ▸ hs.failIo, fun d' hd' => ?_, fun d' hd' => ?_⟩
  · rw [hnil] at hdev
    exact hs.devices (List.forall₂_nil_right_iff.1 hdev)
  · obtain ⟨d, hd, hdd⟩ := exists_of_forall₂ hdev d' hd'
    have hquorum : d'.info.devHasQuorum = d.info.devHasQuorum := by rcases hdd with rfl | rfl <;> rfl
    rw [hquorum]
    exact hs.quorum d hd
  · obtain ⟨d, hd, hdd⟩ := exists_of_forall₂ hdev d' hd'
    exact Nat.lt_of_lt_of_le (hs.replicas d hd) (h.device hdd).1

theorem Raises.score (hs : Scored r) : scoreOf r ≤ scoreOf r' := by
  have hdisk : (r.devices.all Device.hasDisk).toNat ≤ (r'.devices.all Device.hasDisk).toNat := by
    cases hall : r.devices.all Device.hasDisk
    · exact Nat.zero_le _
    · have hall' : r'.devices.all Device.hasDisk = true := by
        rw [List.all_eq_true] at hall ⊢
        intro d' hd'
        obtain ⟨d, hd, hdd⟩ := exists_of_forall₂ h.devices d' hd'
        rcases hdd with rfl | rfl
        · exact hall _ hd
        · simp [Device.hasDisk]
      rw [hall']
  have hcount : r.devices.countP Device.isUpToDate ≤ r'.devices.countP Device.isUpToDate := by
    refine countP_mono_of_forall₂ ?_ h.devices
    rintro d d' (rfl | rfl) hd
    · exact hd
    · simp [Device.isUpToDate]
  have hleast : leastReplicas r ≤ leastReplicas r' := by
    obtain ⟨-, ⟨d', hd', heq⟩, -⟩ := leastReplicas_spec (h.scored hs).devices
    obtain ⟨d, hd, hdd⟩ := exists_of_forall₂ h.devices d' hd'
    rw [← heq]
    exact Nat.le_trans ((leastReplicas_spec hs.devices).2.2 d hd) (h.device hdd).1
  unfold scoreOf
  omega

theorem Raises.promotionInfo :
    (computePromotionInfo r).promotionScore ≤ (computePromotionInfo r').promotionScore ∧
      ((computePromotionInfo r).mayPromote = true → (computePromotionInfo r').mayPromote = true) := by
  by_cases hs : Scored r
  swap
  · rw [(computePromotionInfo_eq r).2 hs]
    exact ⟨Nat.zero_le _, fun hmay => by cases hmay⟩
  rw [(computePromotionInfo_eq r).1 hs, (computePromotionInfo_eq r').1 (h.scored hs)]
  refine ⟨h.score hs, fun hmay => ?_⟩
  simp only [Bool.and_eq_true] at hmay ⊢
  rw [h.primary]
  refine ⟨hmay.1, List.all_eq_true.2 fun d' hd' => ?_⟩
  obtain ⟨d, hd, hdd⟩ := exists_of_forall₂ h.devices d' hd'
  exact (h.device hdd).2 (List.all_eq_true.1 hmay.2 d hd)

end Raises

/-! ## Results -/

/-- A resource that may be promoted. -/
structure Promotable (r : Resource) : Prop where
  devices : r.devices ≠ []
  failIo : r.info.resFailIo = 0
  quorum : ∀ d ∈ r.devices, d.info.devHasQuorum ≠ 0
  upToDate : ∀ d ∈ r.devices, d.info.devDiskState = .upToDate ∨
    ∃ c ∈ r.connections, ∃ p ∈ c.peerDevices, p.ctx.ctxVolume = d.ctx.ctxVolume ∧
      p.info.peerDiskState = .upToDate ∧ p.statistics.peerDevUuidFlags &&& UUID_FLAG_STABLE ≠ 0
  secondary : r.info.resRole ≠ .primary ∧ ∀ c ∈ r.connections, c.info.connRole ≠ .primary

theorem haveStable_iff (r : Resource) (d : Device) : haveStableUpToDateReplicas r d = true ↔
    d.info.devDiskState = .upToDate ∨ ∃ c ∈ r.connections, ∃ p ∈ c.peerDevices,
      p.ctx.ctxVolume = d.ctx.ctxVolume ∧ p.info.peerDiskState = .upToDate ∧
        p.statistics.peerDevUuidFlags &&& UUID_FLAG_STABLE ≠ 0 := by
  simp [haveStableUpToDateReplicas, PeerDevice.isStableUpToDate, and_assoc]

theorem havePrimary_iff (r : Resource) : havePrimary r = false ↔
    r.info.resRole ≠ .primary ∧ ∀ c ∈ r.connections, c.info.connRole ≠ .primary := by
  simp [havePrimary]

theorem mayPromote_iff (r : Resource) :
    (computePromotionInfo r).mayPromote = true ↔ Promotable r := by
  by_cases hs : Scored r
  · rw [(computePromotionInfo_eq r).1 hs, Bool.and_eq_true, Bool.not_eq_true', havePrimary_iff,
      List.all_eq_true]
    constructor
    · rintro ⟨hprimary, hstable⟩
      exact ⟨hs.devices, hs.failIo, hs.quorum, fun d hd => (haveStable_iff r d).1 (hstable d hd),
        hprimary⟩
    · exact fun h => ⟨h.secondary, fun d hd => (haveStable_iff r d).2 (h.upToDate d hd)⟩
  · rw [(computePromotionInfo_eq r).2 hs]
    refine iff_of_false Bool.false_ne_true fun h => hs ?_
    exact ⟨h.devices, h.failIo, h.quorum,
      fun d hd => replicas_of_stable ((haveStable_iff r d).2 (h.upToDate d hd))⟩

theorem score_pos_iff (r : Resource) : 0 < (computePromotionInfo r).promotionScore ↔ Scored r := by
  by_cases hs : Scored r
  · rw [(computePromotionInfo_eq r).1 hs]
    have hpos := (leastReplicas_pos_iff hs.devices).2 hs.replicas
    refine iff_of_true ?_ hs
    show 0 < scoreOf r
    unfold scoreOf
    omega
  · rw [(computePromotionInfo_eq r).2 hs]
    exact iff_of_false (Nat.lt_irrefl 0) hs

theorem score_lt_iff {r r' : Resource} (hs : Scored r) (hs' : Scored r') :
    (computePromotionInfo r).promotionScore < (computePromotionInfo r').promotionScore ↔
      promotionRank r < promotionRank r' := by
  rw [(computePromotionInfo_eq r).1 hs, (computePromotionInfo_eq r').1 hs', promotionRank,
    promotionRank, Prod.Lex.toLex_lt_toLex, Prod.Lex.toLex_lt_toLex]
  have hone : (r.devices.all Device.hasDisk).toNat ≤ 1 := Bool.toNat_le _
  have hone' : (r'.devices.all Device.hasDisk).toNat ≤ 1 := Bool.toNat_le _
  show scoreOf r < scoreOf r' ↔ _
  unfold scoreOf
  omega

/-- **Promotion info.**  It does not depend on the order of any list; `may_promote` means
    `Promotable` and implies a positive score; exactly the resources without an early exit have a
    positive score, and among them the score is the lexicographic order; disks that turn to
    UpToDate neither lower the score nor clear `may_promote`. -/
theorem promotion_sound :
    (∀ r r', Reordered r r' → computePromotionInfo r' = computePromotionInfo r) ∧
    (∀ r, (computePromotionInfo r).mayPromote = true ↔ Promotable r) ∧
    (∀ r, (computePromotionInfo r).mayPromote = true → 0 < (computePromotionInfo r).promotionScore) ∧
    (∀ r, 0 < (computePromotionInfo r).promotionScore ↔ Scored r) ∧
    (∀ r r', Scored r → Scored r' →
      ((computePromotionInfo r).promotionScore < (computePromotionInfo r').promotionScore ↔
        promotionRank r < promotionRank r')) ∧
    ∀ r r', Raises r r' →
      (computePromotionInfo r).promotionScore ≤ (computePromotionInfo r').promotionScore ∧
      ((computePromotionInfo r).mayPromote = true →
        (computePromotionInfo r').mayPromote = true) := by
  refine ⟨fun r r' h => h.promotionInfo, mayPromote_iff, fun r hmay => ?_, score_pos_iff,
    fun r r' hs hs' => score_lt_iff hs hs', fun r r' h => h.promotionInfo⟩
  by_contra hzero
  rw [score_pos_iff] at hzero
  rw [(computePromotionInfo_eq r).2 hzero] at hmay
  cases hmay

/-- One UpToDate and one inconsistent volume without a replica. -/
def unreplicated : Resource where
  name := "r"
  devices := [⟨0, { ctxVolume := 0 }, { devDiskState := .upToDate, devHasQuorum := 1 }, {}⟩,
    ⟨1, { ctxVolume := 1 }, { devDiskState := .inconsistent, devHasQuorum := 1 }, {}⟩]

/-- A diskless volume with an UpToDate peer. -/
def disklessReplicated : Resource where
  name := "r"
  devices := [⟨0, { ctxVolume := 0 }, { devHasQuorum := 1 }, {}⟩]
  connections := [⟨{ ctxConnName := "peer" }, {}, {},
    [⟨{ ctxConnName := "peer", ctxVolume := 0 }, { peerDiskState := .upToDate }, {}⟩], []⟩]

/-- The score is zero where a volume has no UpToDate replica, whatever the disks. -/
theorem promotion_score_not_lex :
    promotionRank disklessReplicated < promotionRank unreplicated ∧
      ¬(computePromotionInfo disklessReplicated).promotionScore <
        (computePromotionInfo unreplicated).promotionScore := by
  refine ⟨?_, by decide⟩
  rw [promotionRank, promotionRank, Prod.Lex.toLex_lt_toLex]
  exact .inl (by decide)

end DrbdUtils.Events2
