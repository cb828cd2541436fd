import Mathlib.Data.Nat.Basic
import Mathlib.Data.List.Forall2
import DrbdUtils.Lib.OrderedPairs

/-!
# The volumes of a stacked resource

`set_stacked_disk_in_res()` gives every volume of a stacked resource the device of the lower volume
with its number as backing disk.  `check_volume_sets_equal()` has a look at the two volume lists
first, in a merge of its own; the two merges do not treat lower volumes without a counterpart alike.

* `mapDisks_of_checked` — volumes that pass the check are mapped without the failing assertion.
* `setStackedDiskInRes_spec` — what the configuration and the disks are after the call.
* `mapped_or_rejected_iff` — the call accepts exactly the covered resources if and only if the
  covered ones have no additional volumes on a lower host that is not this node.
* `matching_iff_of_unique` — what that says where no number occurs twice.
-/

set_option autoImplicit false

namespace DrbdUtils.Adm.StackedVolumes

open DrbdUtils.Lib.OrderedPairs

/-! ## The configuration -/

/-- `struct d_volume`, as far as stacking uses it. -/
structure Volume where
  vnr : Nat
  implicit : Bool
  device : Option String
  deviceMinor : Nat
  disk : Option String
  metaDisk : Option String
  metaIndex : Option String
  deriving DecidableEq, Repr

/-- The resource below a host section; `me` is the position of its host section for this node. -/
structure LowerResource where
  allHosts : List (List Volume)
  me : Option Nat
  deriving DecidableEq, Repr

structure HostInfo where
  volumes : List Volume
  lower : Option LowerResource
  deriving DecidableEq, Repr

structure Resource where
  ignore : Bool
  allHosts : List HostInfo
  deriving DecidableEq, Repr

/-! ## The check -/

/-- The messages of `check_volume_sets_equal()`, with the volume they name. -/
inductive Finding where
  | notDefined (vnr : Nat)
  | missing (vnr : Nat)
  | implicitDiffers (vnr : Nat)
  deriving DecidableEq, Repr

/-- Whether `config_valid` is cleared along with the message. -/
def Finding.clears (compareStacked : Bool) : Finding → Bool
  | notDefined _ => true
  | missing _ => !compareStacked
  | implicitDiffers _ => true

/-- Whether the message is shown. -/
def Finding.shown (compareStacked noTty : Bool) : Finding → Bool
  | notDefined _ => true
  | missing _ => !(compareStacked && noTty)
  | implicitDiffers _ => true

/-- `check_volume_sets_equal()` for two different hosts. -/
def checkVolumeSetsEqual : List Volume → List Volume → List Finding
  | [], [] => []
  | a :: as, [] => .notDefined a.vnr :: checkVolumeSetsEqual as []
  | [], b :: bs => .missing b.vnr :: checkVolumeSetsEqual [] bs
  | a :: as, b :: bs =>
    if a.vnr < b.vnr then
      .notDefined a.vnr :: checkVolumeSetsEqual as (b :: bs)
    else if b.vnr < a.vnr then
      .missing b.vnr :: checkVolumeSetsEqual (a :: as) bs
    else if a.implicit = b.implicit then
      checkVolumeSetsEqual as bs
    else
      .implicitDiffers a.vnr :: checkVolumeSetsEqual as bs
termination_by as bs => as.length + bs.length

/-- Whether the check leaves `config_valid` as it is. -/
def volumesValid (compareStacked : Bool) (as bs : List Volume) : Bool :=
  (checkVolumeSetsEqual as bs).all fun f => !f.clears compareStacked

/-! ## The mapping -/

def Volume.devicePath (v : Volume) : String := v.device.getD ("/dev/drbd" ++ toString v.deviceMinor)

/-- The assignments to the upper volume `a` when `b` has its number. -/
def Volume.stackOn (a b : Volume) : Volume :=
  { a with
    disk := some b.devicePath
    metaDisk := some (a.metaDisk.getD "internal")
    metaIndex := some (a.metaIndex.getD "internal") }

/-- The loop over the upper volumes; `none` where it runs into `assert(0)`. -/
def mapDisks : List Volume → List Volume → Option (List Volume)
  | [], _ => some []
  | a :: as, bs =>
    match bs.dropWhile (·.vnr < a.vnr) with
    | [] => none
    | b :: bs => if a.vnr = b.vnr then (mapDisks as bs).map (a.stackOn b :: ·) else none

/-- One turn of the loop over the lower hosts; the state is `config_valid` and the upper volumes. -/
def stackOnHost (state : Bool × List Volume) (lowerHost : Bool × List Volume) :
    Option (Bool × List Volume) :=
  if state.1 && volumesValid lowerHost.1 state.2 lowerHost.2 then
    (mapDisks state.2 lowerHost.2).map (true, ·)
  else
    some (false, state.2)

/-- The lower hosts, each with `compare_stacked`. -/
def LowerResource.compared (lower : LowerResource) : List (Bool × List Volume) :=
  lower.allHosts.zipIdx.map fun h => (decide (lower.me = some h.2), h.1)

/-- The loop over the host sections of the stacked resource. -/
def stackHosts (configValid : Bool) : List HostInfo → Option (Bool × List HostInfo)
  | [] => some (configValid, [])
  | host :: hosts =>
    match host.lower with
    | none => (stackHosts configValid hosts).map fun r => (r.1, host :: r.2)
    | some lower => do
      let (configValid, volumes) ← lower.compared.foldlM stackOnHost (configValid, host.volumes)
      let (configValid, hosts) ← stackHosts configValid hosts
      return (configValid, { host with volumes := volumes } :: hosts)

/-- `set_stacked_disk_in_res()`; `none` where it runs into `assert(0)`. -/
def setStackedDiskInRes (configValid : Bool) (res : Resource) : Option (Bool × Resource) :=
  if res.ignore then
    some (configValid, res)
  else
    (stackHosts configValid res.allHosts).map fun r => (r.1, { res with allHosts := r.2 })

/-- An ignored resource is left alone. -/
theorem setStackedDiskInRes_ignored {res : Resource} (h : res.ignore = true) (configValid : Bool) :
    setStackedDiskInRes configValid res = some (configValid, res) := by
  simp [setStackedDiskInRes, h]

/-! ## What the check finds -/

/-- The number of a volume, and whether the volume is implicit. -/
def Volume.key (v : Volume) : Nat × Bool := (v.vnr, v.implicit)

def keys (l : List Volume) : List (Nat × Bool) := l.map Volume.key

@[simp]
theorem Volume.key_stackOn (a b : Volume) : (a.stackOn b).key = a.key := rfl

@[simp]
theorem keys_nil : keys [] = [] := rfl

@[simp]
theorem keys_cons (v : Volume) (l : List Volume) : keys (v :: l) = v.key :: keys l := rfl

/-- **The check**: each number occurs in `bs` as in `as`, and with `compareStacked` also with volumes
after those of `as`. -/
theorem volumesValid_iff (compareStacked : Bool) (as bs : List Volume) (has : Ordered (keys as))
    (hbs : Ordered (keys bs)) :
    volumesValid compareStacked as bs = true ↔ Covers (!compareStacked) (keys as) (keys bs) := by
  induction as, bs using checkVolumeSetsEqual.induct with
  | case1 => simp [volumesValid, checkVolumeSetsEqual]
  | case2 a as ih =>
    have hnot := not_covers_cons_nil (!compareStacked) a.key (keys as)
    simp [volumesValid, checkVolumeSetsEqual, Finding.clears, hnot]
  | case3 b bs ih =>
    rw [keys_cons, keys_nil, covers_nil_cons]
    cases compareStacked with
    | false => simp [volumesValid, checkVolumeSetsEqual, Finding.clears]
    | true =>
      have hcov : Covers false (keys []) (keys bs) := by
        intro k
        simp
      have hrest := (ih .nil hbs.tail).2 hcov
      simpa [volumesValid, checkVolumeSetsEqual, Finding.clears] using hrest
  | case4 a as b bs hlt ih =>
    have hnot : ¬ Covers (!compareStacked) (a.key :: keys as) (b.key :: keys bs) :=
      not_covers_cons_lt hbs hlt
    simp [volumesValid, checkVolumeSetsEqual, hlt, Finding.clears, hnot]
  | case5 a as b bs hlt hgt ih =>
    have hkey : b.key.1 < a.key.1 := hgt
    have has' : Ordered (a.key :: keys as) := has
    rw [keys_cons b, keys_cons a, covers_cons_gt has' hkey, ← keys_cons a, ← ih has hbs.tail]
    simp [volumesValid, checkVolumeSetsEqual, hlt, hgt, Finding.clears]
  | case6 a as b bs hlt hgt himp ih =>
    have heq : a.key.1 = b.key.1 := by
      show a.vnr = b.vnr
      omega
    rw [keys_cons b, keys_cons a, covers_cons_eq heq, ← ih has.tail hbs.tail]
    simp [volumesValid, checkVolumeSetsEqual, hlt, hgt, himp, Volume.key]
  | case7 a as b bs hlt hgt himp ih =>
    have heq : a.key.1 = b.key.1 := by
      show a.vnr = b.vnr
      omega
    rw [keys_cons b, keys_cons a, covers_cons_eq heq]
    simp [volumesValid, checkVolumeSetsEqual, hlt, hgt, himp, Volume.key, Finding.clears]

/-! ## What the mapping makes of checked volumes -/

theorem mapDisks_cons_of_lt {a b : Volume} (h : b.vnr < a.vnr) (as bs : List Volume) :
    mapDisks (a :: as) (b :: bs) = mapDisks (a :: as) bs := by
  simp [mapDisks, h]

theorem mapDisks_cons_of_eq {a b : Volume} (h : a.vnr = b.vnr) (as bs : List Volume) :
    mapDisks (a :: as) (b :: bs) = (mapDisks as bs).map (a.stackOn b :: ·) := by
  simp [mapDisks, h]

/-- **No assertion fails** on volumes that passed the check. -/
theorem mapDisks_of_checked (compareStacked : Bool) (as bs : List Volume)
    (h : volumesValid compareStacked as bs = true) : ∃ out, mapDisks as bs = some out := by
  induction as, bs using checkVolumeSetsEqual.induct with
  | case1 => exact ⟨[], rfl⟩
  | case2 a as ih => simp [volumesValid, checkVolumeSetsEqual, Finding.clears] at h
  | case3 b bs ih => exact ⟨[], rfl⟩
  | case4 a as b bs hlt ih => simp [volumesValid, checkVolumeSetsEqual, hlt, Finding.clears] at h
  | case5 a as b bs hlt hgt ih =>
    rw [mapDisks_cons_of_lt hgt]
    apply ih
    simp only [volumesValid, checkVolumeSetsEqual, hlt, hgt, if_false, if_true, List.all_cons,
      Bool.and_eq_true] at h
    exact h.2
  | case6 a as b bs hlt hgt himp ih =>
    have hrest : volumesValid compareStacked as bs = true := by
      simpa [volumesValid, checkVolumeSetsEqual, hlt, hgt, himp] using h
    obtain ⟨out, hout⟩ := ih hrest
    refine ⟨a.stackOn b :: out, ?_⟩
    rw [mapDisks_cons_of_eq (by omega), hout]
    rfl
  | case7 a as b bs hlt hgt himp ih =>
    simp [volumesValid, checkVolumeSetsEqual, hlt, hgt, himp, Finding.clears] at h

/-- Every upper volume is put on a lower one with its number. -/
def StackedOn (bs : List Volume) (a a' : Volume) : Prop :=
  ∃ b ∈ bs, b.vnr = a.vnr ∧ a' = a.stackOn b

theorem mapDisks_stacked {as bs out : List Volume} (h : mapDisks as bs = some out) :
    List.Forall₂ (StackedOn bs) as out := by
  induction as generalizing bs out with
  | nil =>
    simp only [mapDisks, Option.some.injEq] at h
    subst h
    exact .nil
  | cons a as ih =>
    rw [mapDisks] at h
    split at h
    · cases h
    · rename_i b bs' hdrop
      have hsub : (b :: bs').Sublist bs := hdrop ▸ List.dropWhile_sublist _
      split at h
      · rename_i hvnr
        obtain ⟨out', hout', rfl⟩ := Option.map_eq_some_iff.1 h
        refine .cons ⟨b, hsub.subset (List.mem_cons_self ..), hvnr.symm, rfl⟩ ?_
        apply (ih hout').imp
        rintro x x' ⟨y, hy, hxy⟩
        exact ⟨y, hsub.subset (List.mem_cons_of_mem _ hy), hxy⟩
      · cases h

theorem mapDisks_keys {as bs out : List Volume} (h : mapDisks as bs = some out) :
    keys out = keys as := by
  have hstacked := mapDisks_stacked h
  clear h
  induction hstacked with
  | nil => rfl
  | cons hab _ ih =>
    obtain ⟨b, -, -, rfl⟩ := hab
    simp [ih]

/-! ## All lower hosts -/

/-- Only the last volume that another one is put on counts. -/
@[simp]
theorem Volume.stackOn_stackOn (a b c : Volume) : (a.stackOn b).stackOn c = a.stackOn c := by
  simp [Volume.stackOn]

theorem stackedOn_trans {bs cs as as' as'' : List Volume}
    (h : List.Forall₂ (StackedOn bs) as as') (h' : List.Forall₂ (StackedOn cs) as' as'') :
    List.Forall₂ (StackedOn cs) as as'' := by
  induction h generalizing as'' with
  | nil =>
    cases h'
    exact .nil
  | cons hab _ ih =>
    obtain ⟨b, -, -, rfl⟩ := hab
    cases h' with
    | cons hcd h' =>
      obtain ⟨c, hc, hvnr, rfl⟩ := hcd
      exact .cons ⟨c, hc, hvnr, Volume.stackOn_stackOn ..⟩ (ih h')

/-- The check looks at numbers and implicitness only. -/
theorem volumesValid_congr {compareStacked : Bool} {as as' bs : List Volume}
    (has : Ordered (keys as)) (hbs : Ordered (keys bs)) (h : keys as' = keys as) :
    volumesValid compareStacked as' bs = volumesValid compareStacked as bs := by
  rw [Bool.eq_iff_iff, volumesValid_iff _ _ _ (h ▸ has) hbs, volumesValid_iff _ _ _ has hbs, h]

/-- **The loop over the lower hosts**: it succeeds, clears `config_valid` unless every lower host
passes the check, and otherwise leaves the devices of the last lower host in the volumes. -/
theorem foldlM_stackOnHost (lowerHosts : List (Bool × List Volume)) (configValid : Bool)
    (as : List Volume) (has : Ordered (keys as)) (hbs : ∀ h ∈ lowerHosts, Ordered (keys h.2)) :
    ∃ out, lowerHosts.foldlM stackOnHost (configValid, as) =
        some (configValid && lowerHosts.all fun h => volumesValid h.1 as h.2, out) ∧
      keys out = keys as ∧
      ((configValid && lowerHosts.all fun h => volumesValid h.1 as h.2) = true →
        ∀ h ∈ lowerHosts.getLast?, List.Forall₂ (StackedOn h.2) as out) := by
  induction lowerHosts generalizing configValid as with
  | nil => exact ⟨as, by simp, rfl, by simp⟩
  | cons h hs ih =>
    have hhs : ∀ h ∈ hs, Ordered (keys h.2) := fun x hx => hbs x (List.mem_cons_of_mem _ hx)
    by_cases hok : (configValid && volumesValid h.1 as h.2) = true
    · -- this host passes: its devices stay unless another host follows
      obtain ⟨hv, hvol⟩ := Bool.and_eq_true_iff.1 hok
      obtain ⟨out₁, hout₁⟩ := mapDisks_of_checked h.1 as h.2 hvol
      have hkeys := mapDisks_keys hout₁
      obtain ⟨out, hrun, hout, hlast⟩ := ih true out₁ (hkeys ▸ has) hhs
      have hall : (hs.all fun h => volumesValid h.1 out₁ h.2) =
          hs.all fun h => volumesValid h.1 as h.2 := by
        rw [Bool.eq_iff_iff, List.all_eq_true, List.all_eq_true]
        exact forall₂_congr fun x hx => by rw [volumesValid_congr has (hhs x hx) hkeys]
      rw [hall] at hrun hlast
      refine ⟨out, ?_, hout.trans hkeys, ?_⟩
      · simp only [List.foldlM_cons, stackOnHost, hok, if_true, hout₁]
        simpa [hv, hvol] using hrun
      · intro hacc x hx
        cases hs with
        | nil =>
          obtain rfl : h = x := by simpa using hx
          obtain rfl : out₁ = out := by simpa using hrun
          exact mapDisks_stacked hout₁
        | cons h' hs =>
          have hrest := hlast (by simpa [hv, hvol] using hacc) x (by simpa using hx)
          exact stackedOn_trans (mapDisks_stacked hout₁) hrest
    · obtain ⟨out, hrun, hout, -⟩ := ih false as has hhs
      have hfalse : (configValid && volumesValid h.1 as h.2) = false := by simpa using hok
      refine ⟨out, ?_, hout, ?_⟩
      · simp only [List.foldlM_cons, stackOnHost, hfalse]
        rw [List.all_cons, ← Bool.and_assoc, hfalse]
        simpa using hrun
      · rw [List.all_cons, ← Bool.and_assoc, hfalse]
        simp

/-! ## All hosts of the stacked resource -/

/-- The volume lists are sorted. -/
def HostInfo.Sorted (host : HostInfo) : Prop :=
  Ordered (keys host.volumes) ∧
    ∀ lower ∈ host.lower, ∀ bs ∈ lower.allHosts, Ordered (keys bs)

def Resource.Sorted (res : Resource) : Prop := ∀ host ∈ res.allHosts, host.Sorted

/-- On every lower host each number occurs as in the host section, and with more volumes only on the
host that is this node. -/
def HostInfo.Matching (host : HostInfo) : Prop :=
  ∀ lower ∈ host.lower, ∀ h ∈ lower.compared, Covers (!h.1) (keys host.volumes) (keys h.2)

def Resource.Matching (res : Resource) : Prop := ∀ host ∈ res.allHosts, host.Matching

/-- The volumes of the section have the devices of the last lower host. -/
def HostInfo.Mapped (host host' : HostInfo) : Prop :=
  host'.lower = host.lower ∧
    (host.lower = none → host' = host) ∧
    ∀ lower ∈ host.lower, ∀ bs ∈ lower.allHosts.getLast?,
      List.Forall₂ (StackedOn bs) host.volumes host'.volumes

theorem LowerResource.mem_allHosts_of_compared {lower : LowerResource} {h : Bool × List Volume}
    (hh : h ∈ lower.compared) : h.2 ∈ lower.allHosts := by
  obtain ⟨x, hx, rfl⟩ := List.mem_map.1 hh
  exact List.fst_mem_of_mem_zipIdx hx

theorem LowerResource.exists_compared {lower : LowerResource} {bs : List Volume}
    (h : bs ∈ lower.allHosts) : ∃ compareStacked, (compareStacked, bs) ∈ lower.compared := by
  obtain ⟨i, hi, rfl⟩ := List.getElem_of_mem h
  refine ⟨decide (lower.me = some i), List.mem_map.2 ⟨(lower.allHosts[i], i), ?_, rfl⟩⟩
  exact List.mk_mem_zipIdx_iff_getElem?.2 (List.getElem?_eq_getElem hi)

theorem LowerResource.getLast?_compared {lower : LowerResource} {bs : List Volume}
    (h : bs ∈ lower.allHosts.getLast?) : ∃ x ∈ lower.compared.getLast?, x.2 = bs := by
  have hlast : lower.compared.getLast?.map (·.2) = lower.allHosts.getLast? := by
    rw [← List.getLast?_map, LowerResource.compared, List.map_map]
    congr 1
    exact List.zipIdx_map_fst ..
  rw [← hlast] at h
  exact Option.map_eq_some_iff.1 h

/-- **The loop over the host sections.** -/
theorem stackHosts_spec (hosts : List HostInfo) (configValid : Bool)
    (hsorted : ∀ host ∈ hosts, host.Sorted) :
    ∃ valid out, stackHosts configValid hosts = some (valid, out) ∧
      (valid = true ↔ configValid = true ∧ ∀ host ∈ hosts, host.Matching) ∧
      (valid = true → List.Forall₂ HostInfo.Mapped hosts out) := by
  induction hosts generalizing configValid with
  | nil => exact ⟨configValid, [], rfl, by simp, fun _ => .nil⟩
  | cons host hosts ih =>
    have hrest : ∀ h ∈ hosts, h.Sorted := fun x hx => hsorted x (List.mem_cons_of_mem _ hx)
    obtain ⟨has, hlow⟩ := hsorted host (List.mem_cons_self ..)
    cases hlower : host.lower with
    | none =>
      obtain ⟨valid, out, hrun, hvalid, hmapped⟩ := ih configValid hrest
      have hmatch : host.Matching := by
        intro lower hl
        simp [hlower] at hl
      refine ⟨valid, host :: out, by simp [stackHosts, hlower, hrun], ?_, fun h => ?_⟩
      · rw [hvalid, List.forall_mem_cons]
        simp [hmatch]
      · exact .cons ⟨rfl, fun _ => rfl, by simp [hlower]⟩ (hmapped h)
    | some lower =>
      have hbs : ∀ h ∈ lower.compared, Ordered (keys h.2) := fun h hh =>
        hlow lower (by simp [hlower]) h.2 (LowerResource.mem_allHosts_of_compared hh)
      obtain ⟨as', hfold, -, hlast⟩ := foldlM_stackOnHost lower.compared configValid host.volumes has hbs
      generalize hokdef :
        (configValid && lower.compared.all fun h => volumesValid h.1 host.volumes h.2) = ok at hfold hlast
      have hok : ok = true ↔ configValid = true ∧ host.Matching := by
        rw [← hokdef, Bool.and_eq_true, List.all_eq_true]
        apply and_congr_right
        intro _
        constructor
        · intro hall lower' hl h hh
          obtain rfl : lower = lower' := by simpa [hlower] using hl
          exact (volumesValid_iff _ _ _ has (hbs h hh)).1 (hall h hh)
        · intro hm h hh
          exact (volumesValid_iff _ _ _ has (hbs h hh)).2 (hm lower (by simp [hlower]) h hh)
      obtain ⟨valid, out, hrun, hvalid, hmapped⟩ := ih ok hrest
      refine ⟨valid, { host with volumes := as' } :: out, ?_, ?_, ?_⟩
      · simp [stackHosts, hlower, hfold, hrun]
      · rw [hvalid, hok, List.forall_mem_cons, and_assoc]
      · intro h
        refine .cons ⟨rfl, by simp [hlower], ?_⟩ (hmapped h)
        intro lower' hl bs hbs'
        obtain rfl : lower = lower' := by simpa [hlower] using hl
        obtain ⟨x, hx, rfl⟩ := LowerResource.getLast?_compared hbs'
        exact hlast (hvalid.1 h).1 x hx

/-- **The whole call** on a stacked resource with sorted volumes. -/
theorem setStackedDiskInRes_spec (res : Resource) (hignore : res.ignore = false)
    (hsorted : res.Sorted) (configValid : Bool) :
    ∃ valid out, setStackedDiskInRes configValid res = some (valid, out) ∧
      (valid = true ↔ configValid = true ∧ res.Matching) ∧
      (valid = true → List.Forall₂ HostInfo.Mapped res.allHosts out.allHosts) := by
  obtain ⟨valid, out, hrun, hvalid, hmapped⟩ := stackHosts_spec res.allHosts configValid hsorted
  exact ⟨valid, { res with allHosts := out }, by simp [setStackedDiskInRes, hignore, hrun], hvalid,
    hmapped⟩

/-! ## Covered resources -/

/-- Every volume of the stacked resource is defined on every lower host, implicit on both or on
neither. -/
def Resource.Covered (res : Resource) : Prop :=
  ∀ host ∈ res.allHosts, ∀ lower ∈ host.lower, ∀ bs ∈ lower.allHosts,
    ∀ a ∈ host.volumes, ∃ b ∈ bs, b.vnr = a.vnr ∧ b.implicit = a.implicit

/-- A covered resource is accepted, with the devices of the lower volumes; another one is rejected. -/
def MappedOrRejected (res : Resource) : Prop :=
  ∃ valid out, setStackedDiskInRes true res = some (valid, out) ∧
    (valid = true ↔ res.Covered) ∧
    (valid = true → List.Forall₂ HostInfo.Mapped res.allHosts out.allHosts)

theorem Resource.Matching.covered {res : Resource} (h : res.Matching) : res.Covered := by
  intro host hhost lower hlower bs hbs a ha
  obtain ⟨compareStacked, hmem⟩ := LowerResource.exists_compared hbs
  have hkey := (h host hhost lower hlower _ hmem).mem (List.mem_map_of_mem ha)
  obtain ⟨b, hb, heq⟩ := List.mem_map.1 hkey
  simp only [Volume.key, Prod.mk.injEq] at heq
  exact ⟨b, hb, heq⟩

/-- **When stacked volumes are mapped or rejected**: the two agree unless a covered resource has, on
a lower host that is not this node, more volumes than the stacked one. -/
theorem mapped_or_rejected_iff (res : Resource) (hignore : res.ignore = false)
    (hsorted : res.Sorted) : MappedOrRejected res ↔ (res.Covered → res.Matching) := by
  obtain ⟨valid, out, hrun, hvalid, hmapped⟩ := setStackedDiskInRes_spec res hignore hsorted true
  have hvalid' : valid = true ↔ res.Matching := by simpa using hvalid
  constructor
  · rintro ⟨valid', out', hrun', hcov, -⟩ hc
    rw [hrun, Option.some.injEq, Prod.mk.injEq] at hrun'
    obtain ⟨rfl, -⟩ := hrun'
    exact hvalid'.1 (hcov.2 hc)
  · intro h
    exact ⟨valid, out, hrun, ⟨fun hv => (hvalid'.1 hv).covered, fun hc => hvalid'.2 (h hc)⟩, hmapped⟩

/-- No host section has two volumes with one number. -/
def Resource.Unique (res : Resource) : Prop :=
  ∀ host ∈ res.allHosts, (host.volumes.map (·.vnr)).Nodup ∧
    ∀ lower ∈ host.lower, ∀ bs ∈ lower.allHosts, (bs.map (·.vnr)).Nodup

theorem keys_map_fst (l : List Volume) : (keys l).map (·.1) = l.map (·.vnr) := by
  simp [keys, Volume.key]

/-- **With unique numbers** a covered resource passes if and only if all lower hosts but the one that
is this node have no other volumes than the stacked host section. -/
theorem matching_iff_of_unique {res : Resource} (hunique : res.Unique) (hcov : res.Covered) :
    res.Matching ↔ ∀ host ∈ res.allHosts, ∀ lower ∈ host.lower, ∀ h ∈ lower.compared,
      h.1 = false → ∀ b ∈ h.2, ∃ a ∈ host.volumes, a.vnr = b.vnr := by
  refine forall₂_congr fun host hhost => forall₂_congr fun lower hlower => forall₂_congr fun h hh => ?_
  have hmem := LowerResource.mem_allHosts_of_compared hh
  obtain ⟨has, hbs⟩ := hunique host hhost
  rw [covers_iff_of_nodup (keys_map_fst host.volumes ▸ has)
    (keys_map_fst h.2 ▸ hbs lower hlower h.2 hmem), keys_map_fst]
  have hsub : ∀ p ∈ keys host.volumes, p ∈ keys h.2 := by
    intro p hp
    obtain ⟨a, ha, rfl⟩ := List.mem_map.1 hp
    obtain ⟨b, hb, hvnr, himp⟩ := hcov host hhost lower hlower h.2 hmem a ha
    exact List.mem_map.2 ⟨b, hb, by simp [Volume.key, hvnr, himp]⟩
  have hkeys : (∀ q ∈ keys h.2, q.1 ∈ host.volumes.map (·.vnr)) ↔
      ∀ b ∈ h.2, ∃ a ∈ host.volumes, a.vnr = b.vnr := by
    simp [keys, Volume.key]
  rw [hkeys, Bool.not_eq_true']
  exact and_iff_right hsub

/-- A volume with its number and device minor only. -/
def plainVolume (vnr minor : Nat) : Volume := ⟨vnr, false, none, minor, none, none, none⟩

/-- A section with volume 0 on a lower resource whose hosts have the volumes given. -/
def stackedOver (lowerHosts : List (List Volume)) : Resource :=
  { ignore := false
    allHosts := [{ volumes := [plainVolume 0 10], lower := some ⟨lowerHosts, some 0⟩ }] }

theorem mapped_or_rejected_missing :
    MappedOrRejected (stackedOver [[plainVolume 0 1], [plainVolume 1 2]]) := by
  apply (mapped_or_rejected_iff _ rfl ?_).2
  · intro hcov
    have hvol := hcov _ (List.mem_cons_self ..) _ rfl [plainVolume 1 2] (by simp)
      (plainVolume 0 10) (by simp)
    simp [plainVolume] at hvol
  · simp [Resource.Sorted, HostInfo.Sorted, stackedOver, Ordered]

/-- The second lower host has a volume 1 as well: the configuration is rejected. -/
theorem additional_rejected :
    ¬ MappedOrRejected (stackedOver [[plainVolume 0 1], [plainVolume 0 1, plainVolume 1 2]]) := by
  rintro ⟨valid, out, hrun, hcov, -⟩
  have hcovered : (stackedOver [[plainVolume 0 1], [plainVolume 0 1, plainVolume 1 2]]).Covered := by
    simp [Resource.Covered, stackedOver, plainVolume]
  have hvalid : valid = true := hcov.2 hcovered
  simp [setStackedDiskInRes, stackHosts, stackedOver, LowerResource.compared, stackOnHost,
    volumesValid, checkVolumeSetsEqual, Finding.clears, mapDisks, plainVolume, Volume.stackOn] at hrun
  simp [hvalid] at hrun

end DrbdUtils.Adm.StackedVolumes
