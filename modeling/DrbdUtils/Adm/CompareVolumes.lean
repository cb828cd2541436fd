import DrbdUtils.Adm.AdjustVolumes

/-!
# The merge of the volume lists

The loop of `compare_volumes()` of `drbdadm_adjust.c` as it is written, one volume at a time, with
its `ASSERT`s.

* `compareVolumesRun_eq` — it computes what `compareVolumes` of `Adm.Adjust` does.
* `insertVolume_sorted` — `insert_volume()` keeps a list ordered.
* `compareVolumes_exactMerge` — the merged list.
-/

set_option autoImplicit false

namespace DrbdUtils.Adm

/-! ## The loop -/

/-- The `while` loop of `compare_volumes`: the configured volumes with their flags, and
    `to_be_deleted`; `none` for an `ASSERT` that fails. -/
def compareVolumesLoop (cmp : Compare) :
    List Volume → List Volume → List AdjVolume → Option (List AdjVolume × List AdjVolume)
  | [], [], toBeDeleted => some ([], toBeDeleted)
  | [], kern :: kerns, toBeDeleted =>
    compareVolumesLoop cmp [] kerns
      (insertVolume toBeDeleted (newToBeDeletedMinorFromTemplate kern))
  | conf :: confs, [], toBeDeleted => do
    let (merged, toBeDeleted) ← compareVolumesLoop cmp confs [] toBeDeleted
    pure (newVolume conf :: merged, toBeDeleted)
  | conf :: confs, kern :: kerns, toBeDeleted =>
    if kern.vnr < conf.vnr then
      compareVolumesLoop cmp (conf :: confs) kerns
        (insertVolume toBeDeleted (newToBeDeletedMinorFromTemplate kern))
    else if kern.vnr > conf.vnr then do
      let (merged, toBeDeleted) ← compareVolumesLoop cmp confs (kern :: kerns) toBeDeleted
      pure (newVolume conf :: merged, toBeDeleted)
    else if conf.vnr = kern.vnr then do
      let (merged, toBeDeleted) ← compareVolumesLoop cmp confs kerns toBeDeleted
      pure (compareVolume cmp conf kern :: merged, toBeDeleted)
    else none
termination_by confs kerns => confs.length + kerns.length

/-- `compare_volumes`, with the list it leaves. -/
def compareVolumesRun (cmp : Compare) (conf kern : List Volume) : Option (List AdjVolume) := do
  let (merged, toBeDeleted) ← compareVolumesLoop cmp conf kern []
  pure (toBeDeleted.foldl insertVolume merged)

section Loop

variable {cmp : Compare} {conf kern : List Volume}

/-- A running volume in front of the next configured one. -/
theorem compareLoop_gone {c k : Volume} (hlt : k.vnr < c.vnr) (conf kern : List Volume) :
    compareLoop cmp (c :: conf) (k :: kern) =
      ((compareLoop cmp (c :: conf) kern).1, k :: (compareLoop cmp (c :: conf) kern).2) := by
  have htake : (k :: kern).takeWhile (·.vnr < c.vnr) = k :: kern.takeWhile (·.vnr < c.vnr) :=
    List.takeWhile_cons_of_pos (by simpa using hlt)
  have hdrop : (k :: kern).dropWhile (·.vnr < c.vnr) = kern.dropWhile (·.vnr < c.vnr) :=
    List.dropWhile_cons_of_pos (by simpa using hlt)
  unfold compareLoop
  rw [htake, hdrop]
  dsimp only
  split
  · rfl
  · split <;> rfl

theorem front_nil {c k : Volume} (hge : c.vnr ≤ k.vnr) (kern : List Volume) :
    (k :: kern).takeWhile (·.vnr < c.vnr) = [] ∧
      (k :: kern).dropWhile (·.vnr < c.vnr) = k :: kern :=
  ⟨List.takeWhile_cons_of_neg (by simpa using hge), List.dropWhile_cons_of_neg (by simpa using hge)⟩

/-- A configured volume in front of the next running one. -/
theorem compareLoop_new {c k : Volume} (hgt : k.vnr > c.vnr) (conf kern : List Volume) :
    compareLoop cmp (c :: conf) (k :: kern) =
      (newVolume c :: (compareLoop cmp conf (k :: kern)).1, (compareLoop cmp conf (k :: kern)).2) := by
  obtain ⟨htake, hdrop⟩ := front_nil (Nat.le_of_lt hgt) kern
  rw [compareLoop, htake, hdrop]
  dsimp only
  rw [if_pos hgt]
  rfl

theorem compareLoop_common {c k : Volume} (heq : c.vnr = k.vnr) (conf kern : List Volume) :
    compareLoop cmp (c :: conf) (k :: kern) =
      (compareVolume cmp c k :: (compareLoop cmp conf kern).1, (compareLoop cmp conf kern).2) := by
  obtain ⟨htake, hdrop⟩ := front_nil (Nat.le_of_eq heq) kern
  rw [compareLoop, htake, hdrop]
  dsimp only
  rw [if_neg (by omega)]
  rfl

/-- No `ASSERT` fails, whatever the order of the lists is. -/
theorem compareVolumesLoop_eq (cmp : Compare) (conf kern : List Volume) (toBeDeleted : List AdjVolume) :
    compareVolumesLoop cmp conf kern toBeDeleted = some ((compareLoop cmp conf kern).1,
      ((compareLoop cmp conf kern).2.map newToBeDeletedMinorFromTemplate).foldl insertVolume
        toBeDeleted) := by
  induction conf, kern, toBeDeleted using compareVolumesLoop.induct with
  | case1 toBeDeleted => simp [compareVolumesLoop, compareLoop]
  | case2 toBeDeleted k kern ih =>
    rw [compareVolumesLoop, ih]
    simp [compareLoop]
  | case3 toBeDeleted c conf ih =>
    rw [compareVolumesLoop, ih]
    simp [compareLoop]
  | case4 toBeDeleted c conf k kern hlt ih =>
    rw [compareVolumesLoop, if_pos hlt, ih, compareLoop_gone hlt, List.map_cons, List.foldl_cons]
  | case5 toBeDeleted c conf k kern hlt hgt ih =>
    rw [compareVolumesLoop, if_neg hlt, if_pos hgt, ih, compareLoop_new hgt]
    rfl
  | case6 toBeDeleted c conf k kern hlt hgt heq ih =>
    rw [compareVolumesLoop, if_neg hlt, if_neg hgt, if_pos heq, ih, compareLoop_common heq]
    rfl
  | case7 toBeDeleted c conf k kern hlt hgt hne => omega

theorem compareVolumesRun_eq (cmp : Compare) (conf kern : List Volume) :
    compareVolumesRun cmp conf kern = some (compareVolumes cmp conf kern) := by
  rw [compareVolumesRun, compareVolumesLoop_eq]
  rfl

end Loop

/-! ## Insertion -/

theorem insertVolume_sorted {l : List AdjVolume} (h : l.Pairwise (·.vnr ≤ ·.vnr)) (e : AdjVolume) :
    (insertVolume l e).Pairwise (·.vnr ≤ ·.vnr) := by
  unfold insertVolume
  split
  · exact List.pairwise_singleton _ _
  · rename_i t hlast
    split
    · -- not before the last one
      rename_i hle
      rw [List.pairwise_append]
      refine ⟨h, List.pairwise_singleton _ _, fun a ha b hb => ?_⟩
      rw [List.mem_singleton.1 hb]
      obtain ⟨l', rfl⟩ := List.getLast?_eq_some_iff.1 hlast
      rcases List.mem_append.1 ha with ha | ha
      · exact ((List.pairwise_append.1 h).2.2 a ha t (List.mem_singleton.2 rfl)).trans hle
      · rw [List.mem_singleton.1 ha]
        exact hle
    · have hbefore : ∀ a ∈ l.takeWhile (·.vnr ≤ e.vnr), a.vnr ≤ e.vnr := fun a ha =>
        of_decide_eq_true (List.all_eq_true.1 List.all_takeWhile a ha)
      have hbehind : ∀ b ∈ l.dropWhile (·.vnr ≤ e.vnr), e.vnr ≤ b.vnr := by
        have hsorted := h.sublist (List.dropWhile_sublist (·.vnr ≤ e.vnr))
        have hhead := List.head?_dropWhile_not (fun v : AdjVolume => decide (v.vnr ≤ e.vnr)) l
        intro b hb
        cases hd : l.dropWhile (·.vnr ≤ e.vnr) with
        | nil =>
          rw [hd] at hb
          cases hb
        | cons d rest =>
          rw [hd] at hb hsorted hhead
          have hed : e.vnr < d.vnr := by simpa using hhead
          rcases List.mem_cons.1 hb with rfl | hb
          · exact hed.le
          · exact hed.le.trans ((List.pairwise_cons.1 hsorted).1 b hb)
      rw [List.pairwise_append]
      refine ⟨h.sublist (List.takeWhile_sublist _), List.pairwise_cons.2 ⟨hbehind,
        h.sublist (List.dropWhile_sublist _)⟩, fun a ha b hb => ?_⟩
      rcases List.mem_cons.1 hb with rfl | hb
      · exact hbefore a ha
      · exact (hbefore a ha).trans (hbehind b hb)

theorem foldl_insertVolume_sorted (es : List AdjVolume) {l : List AdjVolume}
    (h : l.Pairwise (·.vnr ≤ ·.vnr)) : (es.foldl insertVolume l).Pairwise (·.vnr ≤ ·.vnr) := by
  induction es generalizing l with
  | nil => exact h
  | cons e es ih => exact ih (insertVolume_sorted h e)

/-! ## The merged list -/

/-- A running volume that is not configured. -/
structure Deleted (k : Volume) (v : AdjVolume) : Prop where
  minor : v.deviceMinor = k.deviceMinor
  disks : k.hasDisk = true → v.disk = k.disk ∧ v.metaDisk = k.metaDisk
  delMinor : v.adjDelMinor = true
  detach : v.adjDetach = k.hasDisk
  others : v.adjNewMinor = false ∧ v.adjAttach = false ∧ v.adjResize = false ∧ v.adjDiskOpts = false

/-- A configured volume that is not running.  A disk is a pointer that is set; `expand_common()` has
    replaced `none`. -/
structure Created (c : Volume) (v : AdjVolume) : Prop where
  volume : v.toVolume = c
  newMinor : v.adjNewMinor = true
  attach : v.adjAttach = c.disk.isSome
  others : v.adjDelMinor = false ∧ v.adjDetach = false ∧ v.adjResize = false ∧ v.adjDiskOpts = false

/-- The disk stays attached as it is. -/
def diskStays (c k : Volume) : Bool :=
  !(volumeChanges c k && c.hasDisk) && !(volumeChanges c k && k.hasDisk) && c.disk.isSome

/-- A configured volume that is running. -/
structure Compared (cmp : Compare) (c k : Volume) (v : AdjVolume) : Prop where
  volume : v.deviceMinor = c.deviceMinor ∧ v.disk = c.disk ∧ v.metaDisk = c.metaDisk
  newMinor : v.adjNewMinor = decide (c.deviceMinor ≠ k.deviceMinor)
  delMinor : v.adjDelMinor = decide (c.deviceMinor ≠ k.deviceMinor)
  attach : v.adjAttach = (volumeChanges c k && c.hasDisk)
  detach : v.adjDetach = (volumeChanges c k && k.hasDisk)
  resize : v.adjResize = (diskStays c k && (compareSize cmp c k).1)
  diskOpts : v.adjDiskOpts = (diskStays c k &&
    !(optsEqual cmp .disk (compareSize cmp c k).2.1 (compareSize cmp c k).2.2).1)

/-- The union of both lists, each volume with its flags. -/
structure ExactMerge (cmp : Compare) (conf kern : List Volume) (merged : List AdjVolume) : Prop where
  sorted : merged.Pairwise (·.vnr < ·.vnr)
  union : ∀ n, (∃ v ∈ merged, v.vnr = n) ↔ (∃ c ∈ conf, c.vnr = n) ∨ ∃ k ∈ kern, k.vnr = n
  deleted : ∀ v ∈ merged, ∀ k ∈ kern, v.vnr = k.vnr → (∀ c ∈ conf, c.vnr ≠ k.vnr) → Deleted k v
  created : ∀ v ∈ merged, ∀ c ∈ conf, v.vnr = c.vnr → (∀ k ∈ kern, k.vnr ≠ c.vnr) → Created c v
  compared : ∀ v ∈ merged, ∀ c ∈ conf, ∀ k ∈ kern, v.vnr = c.vnr → k.vnr = c.vnr →
    Compared cmp c k v

theorem newVolume_created (c : Volume) : Created c (newVolume c) :=
  ⟨rfl, rfl, rfl, rfl, rfl, rfl, rfl⟩

theorem template_deleted (k : Volume) : Deleted k (newToBeDeletedMinorFromTemplate k) :=
  ⟨rfl, fun h => ⟨if_pos h, rfl⟩, rfl, rfl, rfl, rfl, rfl, rfl⟩

theorem compareVolume_compared (cmp : Compare) (c k : Volume) :
    Compared cmp c k (compareVolume cmp c k) := by
  obtain ⟨⟨-, hminor, hdisk⟩, hnew, hdel, hattach, hdetach⟩ := compareVolume_spec cmp c k
  have hmeta : (compareVolume cmp c k).metaDisk = c.metaDisk := by
    unfold compareVolume
    dsimp only
    split <;> rfl
  have hstays : (compareVolume cmp c k).adjResize = (diskStays c k && (compareSize cmp c k).1) ∧
      (compareVolume cmp c k).adjDiskOpts = (diskStays c k &&
        !(optsEqual cmp .disk (compareSize cmp c k).2.1 (compareSize cmp c k).2.2).1) := by
    unfold compareVolume
    dsimp only
    split
    · rename_i h
      have hs : diskStays c k = true := h
      rw [hs, Bool.true_and, Bool.true_and]
      exact ⟨rfl, rfl⟩
    · rename_i h
      have hs : diskStays c k = false := Bool.eq_false_iff.2 h
      rw [hs, Bool.false_and, Bool.false_and]
      exact ⟨rfl, rfl⟩
  exact ⟨⟨hminor, hdisk, hmeta⟩, hnew, hdel, hattach, hdetach, hstays.1, hstays.2⟩

section Merge

variable {conf kern : List Volume} (cmp : Compare)

theorem annotate_vnr (kern : List Volume) (c : Volume) : (annotate cmp kern c).vnr = c.vnr := by
  unfold annotate
  split
  · exact (compareVolume_spec cmp c _).1.1
  · rfl

theorem annotate_of_mem (hk : kern.Pairwise (·.vnr < ·.vnr)) {c k : Volume} (hmem : k ∈ kern)
    (hvnr : k.vnr = c.vnr) : annotate cmp kern c = compareVolume cmp c k := by
  unfold annotate
  rw [matchingVolume_eq_some hk hmem hvnr]

theorem annotate_of_not_mem {c : Volume} (h : ∀ k ∈ kern, k.vnr ≠ c.vnr) :
    annotate cmp kern c = newVolume c := by
  unfold annotate
  rw [matchingVolume_eq_none h]

theorem mem_compareVolumes_iff (hc : conf.Pairwise (·.vnr < ·.vnr)) (hk : kern.Pairwise (·.vnr < ·.vnr))
    {v : AdjVolume} : v ∈ compareVolumes cmp conf kern ↔ (∃ c ∈ conf, annotate cmp kern c = v) ∨
      ∃ k ∈ goneVolumes conf kern, newToBeDeletedMinorFromTemplate k = v := by
  rw [(compareVolumes_perm cmp hc hk).mem_iff, List.mem_append, List.mem_map, List.mem_map]

theorem compareVolumes_sorted (hc : conf.Pairwise (·.vnr < ·.vnr))
    (hk : kern.Pairwise (·.vnr < ·.vnr)) : (compareVolumes cmp conf kern).Pairwise (·.vnr < ·.vnr) := by
  have hconf : (conf.map (annotate cmp kern)).Pairwise (·.vnr < ·.vnr) := by
    rw [List.pairwise_map]
    refine hc.imp fun {a b} hlt => ?_
    rw [annotate_vnr, annotate_vnr]
    exact hlt
  have hle : (compareVolumes cmp conf kern).Pairwise (·.vnr ≤ ·.vnr) := by
    unfold compareVolumes
    rw [compareLoop_eq cmp hc hk]
    exact foldl_insertVolume_sorted _ (hconf.imp Nat.le_of_lt)
  have hne : (compareVolumes cmp conf kern).Pairwise (·.vnr ≠ ·.vnr) := by
    have hsymm : Std.Symm fun a b : AdjVolume => a.vnr ≠ b.vnr := ⟨fun _ _ h => h.symm⟩
    rw [(compareVolumes_perm cmp hc hk).pairwise_iff fun {_ _} h => h.symm, List.pairwise_append]
    refine ⟨hconf.imp Nat.ne_of_lt, ?_, ?_⟩
    · rw [List.pairwise_map]
      exact (hk.sublist List.filter_sublist).imp Nat.ne_of_lt
    · intro a ha b hb
      obtain ⟨c, hcm, rfl⟩ := List.mem_map.1 ha
      obtain ⟨k, hkm, rfl⟩ := List.mem_map.1 hb
      rw [annotate_vnr]
      exact (mem_goneVolumes.1 hkm).2 c hcm
  exact hle.imp₂ (fun _ _ hab hne => Nat.lt_of_le_of_ne hab hne) hne

theorem compareVolumes_merged (hc : conf.Pairwise (·.vnr < ·.vnr))
    (hk : kern.Pairwise (·.vnr < ·.vnr)) : ExactMerge cmp conf kern (compareVolumes cmp conf kern) := by
  have hmem {v : AdjVolume} := @mem_compareVolumes_iff _ _ cmp hc hk v
  refine ⟨compareVolumes_sorted cmp hc hk, fun n => ?_, fun v hv k hkm hvk hgone => ?_,
    fun v hv c hcm hvc hnew => ?_, fun v hv c hcm k hkm hvc hkc => ?_⟩
  · constructor
    · rintro ⟨v, hv, rfl⟩
      rcases hmem.1 hv with ⟨c, hcm, rfl⟩ | ⟨k, hkm, rfl⟩
      · exact Or.inl ⟨c, hcm, (annotate_vnr cmp kern c).symm⟩
      · exact Or.inr ⟨k, (mem_goneVolumes.1 hkm).1, rfl⟩
    · rintro (⟨c, hcm, rfl⟩ | ⟨k, hkm, rfl⟩)
      · exact ⟨_, hmem.2 (Or.inl ⟨c, hcm, rfl⟩), annotate_vnr cmp kern c⟩
      · by_cases hex : ∃ c ∈ conf, c.vnr = k.vnr
        · obtain ⟨c, hcm, hck⟩ := hex
          exact ⟨_, hmem.2 (Or.inl ⟨c, hcm, rfl⟩), (annotate_vnr cmp kern c).trans hck⟩
        · exact ⟨_, hmem.2 (Or.inr ⟨k, mem_goneVolumes.2 ⟨hkm, fun c hcm hck => hex ⟨c, hcm, hck⟩⟩,
            rfl⟩), rfl⟩
  · rcases hmem.1 hv with ⟨c, hcm, rfl⟩ | ⟨k', hk', rfl⟩
    · exact absurd ((annotate_vnr cmp kern c).symm.trans hvk) (hgone c hcm)
    · rw [eq_of_sorted_vnr hk (mem_goneVolumes.1 hk').1 hkm hvk]
      exact template_deleted k
  · rcases hmem.1 hv with ⟨c', hc', rfl⟩ | ⟨k, hkm, rfl⟩
    · rw [annotate_vnr] at hvc
      rw [eq_of_sorted_vnr hc hc' hcm hvc, annotate_of_not_mem cmp hnew]
      exact newVolume_created c
    · exact absurd hvc (hnew k (mem_goneVolumes.1 hkm).1)
  · rcases hmem.1 hv with ⟨c', hc', rfl⟩ | ⟨k', hk', rfl⟩
    · rw [annotate_vnr] at hvc
      rw [eq_of_sorted_vnr hc hc' hcm hvc, annotate_of_mem cmp hk hkm hkc]
      exact compareVolume_compared cmp c k
    · exact absurd hvc.symm ((mem_goneVolumes.1 hk').2 c hcm)

/-- **The comparison is an exact merge of ordered lists**, and `insert_volume()` keeps any list
    ordered and its elements. -/
theorem compareVolumes_exactMerge (hc : conf.Pairwise (·.vnr < ·.vnr))
    (hk : kern.Pairwise (·.vnr < ·.vnr)) :
    (∃ merged, compareVolumesRun cmp conf kern = some merged ∧ ExactMerge cmp conf kern merged) ∧
    ∀ (l : List AdjVolume) (e : AdjVolume), (insertVolume l e).Perm (e :: l) ∧
      (l.Pairwise (·.vnr ≤ ·.vnr) → (insertVolume l e).Pairwise (·.vnr ≤ ·.vnr)) :=
  ⟨⟨_, compareVolumesRun_eq cmp conf kern, compareVolumes_merged cmp hc hk⟩,
    fun l e => ⟨insertVolume_perm l e, fun h => insertVolume_sorted h e⟩⟩

end Merge

/-- A volume on each side, and one on both. -/
theorem compareVolumes_exactMerge_three :
    ∃ merged, compareVolumesRun compareAsStrings
        [⟨0, 10, some "/dev/sda", "internal", []⟩, ⟨1, 11, none, "internal", []⟩]
        [⟨1, 11, none, "internal", []⟩, ⟨2, 12, some "/dev/sdc", "internal", []⟩] = some merged ∧
      ExactMerge compareAsStrings
        [⟨0, 10, some "/dev/sda", "internal", []⟩, ⟨1, 11, none, "internal", []⟩]
        [⟨1, 11, none, "internal", []⟩, ⟨2, 12, some "/dev/sdc", "internal", []⟩] merged :=
  (compareVolumes_exactMerge compareAsStrings (by decide) (by decide)).1

end DrbdUtils.Adm
