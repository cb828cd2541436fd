import DrbdUtils.Verify.ResyncSuggestions
import Mathlib.Data.Set.Pairwise.List

/-!
# The datasets of drbd-verify

`determine_datasets()` of `drbd-verify.py` puts nodes together that have no difference, and raises
an error if two pairs between the same two datasets differ by different amounts.

* `determineDatasets_eq_none_iff` — when it raises the error.
* `determineDatasets_spec` — what holds of every partition it returns.
* `determineDatasets_agrees_iff` — when the partition agrees with all that was measured.  A pair that
  differs can end up within one dataset, by a way around it, and no one looks at these pairs.
-/

set_option autoImplicit false

namespace DrbdUtils.Verify

/-! ## The specification -/

/-- A map from pairs of nodes, which need not have them all. -/
structure IsPairMap (oos : OosDict) (nodes : Finset Host) : Prop where
  nodup : oos.keys.Nodup
  keys : ∀ key ∈ oos.keys, key ∈ pairs nodes

/-- Nodes that a chain of pairs without differences joins. -/
def Joined (oos : OosDict) : Host → Host → Prop :=
  Relation.EqvGen fun a b => oos.lookup {a, b} = some 0

/-- Sets of nodes are a partition that agrees with all that was measured. -/
structure Agrees (oos : OosDict) (nodes : Finset Host) (datasets : List (Finset Host)) : Prop where
  nonempty : ∀ s ∈ datasets, s.Nonempty
  cover : ∀ n, n ∈ nodes ↔ ∃ s ∈ datasets, n ∈ s
  disjoint : datasets.Pairwise Disjoint
  joined : ∀ s ∈ datasets, ∀ a ∈ s, ∀ b, Joined oos a b → b ∈ s
  within : ∀ s ∈ datasets, ∀ a ∈ s, ∀ b ∈ s, ∀ v, oos.lookup {a, b} = some v → v = 0
  between : ∀ s ∈ datasets, ∀ t ∈ datasets, s ≠ t → ∀ a ∈ s, ∀ b ∈ t, oos.lookup {a, b} ≠ some 0
  equal : ∀ s ∈ datasets, ∀ t ∈ datasets, s ≠ t → ∀ a ∈ s, ∀ a' ∈ s, ∀ b ∈ t, ∀ b' ∈ t, ∀ v v',
    oos.lookup {a, b} = some v → oos.lookup {a', b'} = some v' → v = v'

/-- What is returned agrees with what was measured, and does not depend on the order. -/
structure DatasetsAgree (oos : OosDict) (nodes : Finset Host) : Prop where
  agrees : ∀ datasets, determineDatasets oos nodes = some datasets → Agrees oos nodes datasets
  perm : ∀ oos' : OosDict, oos'.Perm oos → determineDatasets oos' nodes = determineDatasets oos nodes

/-- Two pairs between the same two datasets differ by different amounts. -/
def Violated (oos : OosDict) : Prop :=
  ∃ a b a' b' v v', Joined oos a a' ∧ Joined oos b b' ∧ ¬Joined oos a b ∧
    oos.lookup {a, b} = some v ∧ oos.lookup {a', b'} = some v' ∧ v ≠ v'

/-! ## The classes -/

section Joined

variable {oos oos' : OosDict} {nodes : Finset Host} {a b : Host}

theorem joined_equivalence (oos : OosDict) : Equivalence (Joined oos) :=
  Relation.EqvGen.is_equivalence _

theorem lookup_eq_some_iff (hnodup : oos.keys.Nodup) {key : Finset Host} {v : Nat} :
    oos.lookup key = some v ↔ (key, v) ∈ oos := by
  constructor
  · intro h
    obtain ⟨l₁, l₂, rfl, -⟩ := List.lookup_eq_some_iff.1 h
    simp
  · intro h
    obtain ⟨l₁, l₂, rfl⟩ := List.append_of_mem h
    refine List.lookup_eq_some_iff.2 ⟨l₁, l₂, rfl, fun e he => ?_⟩
    rw [OosDict.keys, List.map_append, List.map_cons, List.nodup_append] at hnodup
    have hne := hnodup.2.2 e.1 (List.mem_map_of_mem he) key List.mem_cons_self
    simpa using hne.symm

theorem lookup_perm (hnodup : oos.keys.Nodup) (hperm : oos'.Perm oos) (key : Finset Host) :
    oos'.lookup key = oos.lookup key := by
  have hnodup' : oos'.keys.Nodup := (hperm.map Prod.fst).nodup_iff.2 hnodup
  ext v
  rw [lookup_eq_some_iff hnodup', lookup_eq_some_iff hnodup, hperm.mem_iff]

theorem IsPairMap.perm (h : IsPairMap oos nodes) (hperm : oos'.Perm oos) :
    IsPairMap oos' nodes where
  nodup := (hperm.map Prod.fst).nodup_iff.2 h.nodup
  keys key hkey := h.keys key ((hperm.map Prod.fst).mem_iff.1 hkey)

/-- The two ends of what was measured. -/
theorem IsPairMap.ends (h : IsPairMap oos nodes) {v : Nat} (hv : oos.lookup {a, b} = some v) :
    a ≠ b ∧ a ∈ nodes ∧ b ∈ nodes := by
  have he := (lookup_eq_some_iff h.nodup).1 hv
  have hpair := h.keys {a, b} (List.mem_map_of_mem he)
  rw [pairs, Finset.mem_powersetCard, Finset.card_eq_two] at hpair
  obtain ⟨hsub, x, y, hxy, hkey⟩ := hpair
  refine ⟨?_, hsub (by simp), hsub (by simp)⟩
  rintro rfl
  have hcard := congrArg Finset.card hkey
  rw [Finset.card_pair hxy] at hcard
  simp at hcard

/-- The sets of the program are what chains of pairs join. -/
theorem mem_sameDataset_iff (h : IsPairMap oos nodes) : b ∈ sameDataset oos a ↔ Joined oos a b := by
  rw [sameDataset_eq, Classes.mem_mergeAll_iff]
  constructor
  · intro hab
    refine Relation.EqvGen.mono (fun x y hxy => ?_) a b hab
    exact (lookup_eq_some_iff h.nodup).2 (mem_zeroPairs.1 hxy).2
  · intro hab
    induction hab with
    | refl x => exact .refl x
    | symm x y _ ih => exact ih.symm
    | trans x y z _ _ ih ih' => exact ih.trans _ _ _ ih'
    | rel x y hxy =>
      have he := (lookup_eq_some_iff h.nodup).1 hxy
      rcases lt_trichotomy x y with hlt | rfl | hlt
      · exact .rel _ _ (mem_zeroPairs.2 ⟨hlt, he⟩)
      · exact .refl x
      · rw [Finset.pair_comm] at he
        exact (Relation.EqvGen.rel _ _ (mem_zeroPairs.2 ⟨hlt, he⟩)).symm

theorem sameDataset_eq_iff (h : IsPairMap oos nodes) :
    sameDataset oos a = sameDataset oos b ↔ Joined oos a b := by
  have hequiv := joined_equivalence oos
  constructor
  · intro heq
    have hb : b ∈ sameDataset oos b := (mem_sameDataset_iff h).2 (hequiv.refl b)
    rw [← heq] at hb
    exact (mem_sameDataset_iff h).1 hb
  · intro hab
    ext c
    rw [mem_sameDataset_iff h, mem_sameDataset_iff h]
    exact ⟨hequiv.trans (hequiv.symm hab), hequiv.trans hab⟩

/-- No chain leaves the nodes. -/
theorem IsPairMap.joined_mem (h : IsPairMap oos nodes) (hab : Joined oos a b) :
    a ∈ nodes ↔ b ∈ nodes := by
  induction hab with
  | refl x => rfl
  | symm x y _ ih => exact ih.symm
  | trans x y z _ _ ih ih' => exact ih.trans ih'
  | rel x y hxy =>
    obtain ⟨-, hx, hy⟩ := h.ends hxy
    exact ⟨fun _ => hy, fun _ => hx⟩

end Joined

/-! ## The comparison -/

section Compare

variable {oos oos' : OosDict} {nodes : Finset Host} {s t : Finset Host} {datasets : List (Finset Host)}

theorem allEqual_iff {l : List Nat} : allEqual l = true ↔ ∀ x ∈ l, ∀ y ∈ l, x = y := by
  constructor
  · intro h
    cases l with
    | nil => intro x hx; cases hx
    | cons v l =>
      have hv : ∀ x ∈ v :: l, x = v := by
        simpa [allEqual] using h
      intro x hx y hy
      rw [hv x hx, hv y hy]
  · intro h
    cases l with
    | nil => rfl
    | cons v l =>
      exact allEqual_of_const fun x hx => h x hx v List.mem_cons_self

theorem mem_oosBetween {v : Nat} :
    v ∈ oosBetween oos s t ↔ ∃ a ∈ s, ∃ b ∈ t, oos.lookup {a, b} = some v := by
  simp only [oosBetween, List.mem_filterMap, Prod.exists]
  constructor
  · rintro ⟨a, b, hab, hv⟩
    obtain ⟨ha, hb⟩ := List.pair_mem_product.1 hab
    exact ⟨a, (Finset.mem_sort _).1 ha, b, (Finset.mem_sort _).1 hb, hv⟩
  · rintro ⟨a, ha, b, hb, hv⟩
    exact ⟨a, b, List.pair_mem_product.2 ⟨(Finset.mem_sort _).2 ha, (Finset.mem_sort _).2 hb⟩, hv⟩

/-- All measured pairs between two sets differ by one amount. -/
def EqualBetween (oos : OosDict) (s t : Finset Host) : Prop := allEqual (oosBetween oos s t) = true

theorem equalBetween_iff : EqualBetween oos s t ↔
    ∀ a ∈ s, ∀ a' ∈ s, ∀ b ∈ t, ∀ b' ∈ t, ∀ v v', oos.lookup {a, b} = some v →
      oos.lookup {a', b'} = some v' → v = v' := by
  rw [EqualBetween, allEqual_iff]
  constructor
  · intro h a ha a' ha' b hb b' hb' v v' hv hv'
    exact h v (mem_oosBetween.2 ⟨a, ha, b, hb, hv⟩) v' (mem_oosBetween.2 ⟨a', ha', b', hb', hv'⟩)
  · intro h v hv v' hv'
    obtain ⟨a, ha, b, hb, hv⟩ := mem_oosBetween.1 hv
    obtain ⟨a', ha', b', hb', hv'⟩ := mem_oosBetween.1 hv'
    exact h a ha a' ha' b hb b' hb' v v' hv hv'

instance : Std.Symm (EqualBetween oos) where
  symm s t h := by
    rw [equalBetween_iff] at h ⊢
    intro b hb b' hb' a ha a' ha' v v' hv hv'
    rw [Finset.pair_comm] at hv hv'
    exact h a ha a' ha' b hb b' hb' v v' hv hv'

/-- The sets that are compared. -/
theorem mem_datasets : s ∈ ((nodes.sort (· ≤ ·)).map (sameDataset oos)).dedup ↔
    ∃ a ∈ nodes, s = sameDataset oos a := by
  rw [List.mem_dedup, List.mem_map]
  simp only [Finset.mem_sort, eq_comm]

theorem determineDatasets_eq_some_iff : determineDatasets oos nodes = some datasets ↔
    datasets = ((nodes.sort (· ≤ ·)).map (sameDataset oos)).dedup ∧
      ∀ s ∈ datasets, ∀ t ∈ datasets, s ≠ t → EqualBetween oos s t := by
  have hpairwise : ((nodes.sort (· ≤ ·)).map (sameDataset oos)).dedup.Pairwise (EqualBetween oos) ↔
      ∀ s ∈ ((nodes.sort (· ≤ ·)).map (sameDataset oos)).dedup,
        ∀ t ∈ ((nodes.sort (· ≤ ·)).map (sameDataset oos)).dedup, s ≠ t → EqualBetween oos s t :=
    (List.Nodup.pairwise_coe (List.nodup_dedup _)).symm
  unfold determineDatasets
  simp only
  split
  · next hp =>
    rw [Option.some.injEq]
    constructor
    · rintro rfl
      exact ⟨rfl, hpairwise.1 hp⟩
    · exact fun h => h.1.symm
  · next hp =>
    refine ⟨nofun, ?_⟩
    rintro ⟨rfl, hall⟩
    exact absurd (hpairwise.2 hall) hp

/-- **The error** is raised exactly for two pairs of the same two datasets. -/
theorem determineDatasets_eq_none_iff (h : IsPairMap oos nodes) :
    determineDatasets oos nodes = none ↔ Violated oos := by
  have hequiv := joined_equivalence oos
  constructor
  · intro hnone
    by_contra hok
    suffices hall : ∀ s ∈ ((nodes.sort (· ≤ ·)).map (sameDataset oos)).dedup,
        ∀ t ∈ ((nodes.sort (· ≤ ·)).map (sameDataset oos)).dedup, s ≠ t → EqualBetween oos s t by
      rw [determineDatasets_eq_some_iff.2 ⟨rfl, hall⟩] at hnone
      cases hnone
    intro s hs t ht hst
    obtain ⟨x, -, rfl⟩ := mem_datasets.1 hs
    obtain ⟨y, -, rfl⟩ := mem_datasets.1 ht
    refine equalBetween_iff.2 fun a ha a' ha' b hb b' hb' v v' hv hv' => ?_
    rw [mem_sameDataset_iff h] at ha ha' hb hb'
    by_contra hne
    refine hok ⟨a, b, a', b', v, v', hequiv.trans (hequiv.symm ha) ha',
      hequiv.trans (hequiv.symm hb) hb', fun hab => hst ?_, hv, hv', hne⟩
    exact (sameDataset_eq_iff h).2 (hequiv.trans ha (hequiv.trans hab (hequiv.symm hb)))
  · rintro ⟨a, b, a', b', v, v', ha, hb, hab, hv, hv', hne⟩
    cases hsome : determineDatasets oos nodes with
    | none => rfl
    | some datasets =>
      obtain ⟨rfl, hall⟩ := determineDatasets_eq_some_iff.1 hsome
      obtain ⟨-, hamem, hbmem⟩ := h.ends hv
      refine absurd ?_ hne
      refine equalBetween_iff.1 (hall _ (mem_datasets.2 ⟨a, hamem, rfl⟩) _
        (mem_datasets.2 ⟨b, hbmem, rfl⟩) fun hc => hab ((sameDataset_eq_iff h).1 hc))
        a ?_ a' ?_ b ?_ b' ?_ v v' hv hv'
      · exact (mem_sameDataset_iff h).2 (hequiv.refl a)
      · exact (mem_sameDataset_iff h).2 ha
      · exact (mem_sameDataset_iff h).2 (hequiv.refl b)
      · exact (mem_sameDataset_iff h).2 hb

/-- **What is returned is a partition**, which agrees with the pairs between its sets. -/
theorem determineDatasets_spec (h : IsPairMap oos nodes)
    (hsome : determineDatasets oos nodes = some datasets)
    (hwithin : ∀ s ∈ datasets, ∀ a ∈ s, ∀ b ∈ s, ∀ v, oos.lookup {a, b} = some v → v = 0) :
    Agrees oos nodes datasets := by
  have hequiv := joined_equivalence oos
  obtain ⟨rfl, hall⟩ := determineDatasets_eq_some_iff.1 hsome
  have hmem := @mem_datasets oos nodes
  constructor
  case nonempty =>
    intro s hs
    obtain ⟨a, -, rfl⟩ := hmem.1 hs
    exact ⟨a, (mem_sameDataset_iff h).2 (hequiv.refl a)⟩
  case cover =>
    intro n
    constructor
    · intro hn
      exact ⟨_, hmem.2 ⟨n, hn, rfl⟩, (mem_sameDataset_iff h).2 (hequiv.refl n)⟩
    · rintro ⟨s, hs, hn⟩
      obtain ⟨a, ha, rfl⟩ := hmem.1 hs
      exact (h.joined_mem ((mem_sameDataset_iff h).1 hn)).1 ha
  case disjoint =>
    refine (List.nodup_dedup _).imp_of_mem fun {s t} hs ht hst => ?_
    obtain ⟨a, -, rfl⟩ := hmem.1 hs
    obtain ⟨b, -, rfl⟩ := hmem.1 ht
    refine Finset.disjoint_left.2 fun n ha hb => hst ?_
    rw [mem_sameDataset_iff h] at ha hb
    exact (sameDataset_eq_iff h).2 (hequiv.trans ha (hequiv.symm hb))
  case joined =>
    intro s hs a ha b hab
    obtain ⟨n, -, rfl⟩ := hmem.1 hs
    rw [mem_sameDataset_iff h] at ha ⊢
    exact hequiv.trans ha hab
  case within => exact hwithin
  case between =>
    intro s hs t ht hst a ha b hb hzero
    obtain ⟨x, -, rfl⟩ := hmem.1 hs
    obtain ⟨y, -, rfl⟩ := hmem.1 ht
    rw [mem_sameDataset_iff h] at ha hb
    refine hst ((sameDataset_eq_iff h).2 (hequiv.trans ha (hequiv.trans ?_ (hequiv.symm hb))))
    exact .rel a b hzero
  case equal =>
    intro s hs t ht hst
    exact equalBetween_iff.1 (hall s hs t ht hst)

/-- The order of the pairs does not matter. -/
theorem determineDatasets_perm (h : IsPairMap oos nodes) (hperm : oos'.Perm oos) :
    determineDatasets oos' nodes = determineDatasets oos nodes := by
  have hlookup := lookup_perm h.nodup hperm
  have hjoined : Joined oos' = Joined oos := by
    unfold Joined
    simp only [hlookup]
  have hsame : sameDataset oos' = sameDataset oos := by
    funext n
    ext m
    rw [mem_sameDataset_iff (h.perm hperm), mem_sameDataset_iff h, hjoined]
  have hequal : EqualBetween oos' = EqualBetween oos := by
    funext s t
    rw [eq_iff_iff, equalBetween_iff, equalBetween_iff]
    simp only [hlookup]
  ext datasets
  rw [determineDatasets_eq_some_iff, determineDatasets_eq_some_iff, hsame, hequal]

end Compare

/-! ## The result -/

section Result

variable {oos : OosDict} {nodes : Finset Host}

/-- **What is returned agrees with all that was measured** exactly if no pair that differs has its
nodes joined by other pairs, or an error is raised for two other pairs. -/
theorem determineDatasets_agrees_iff (h : IsPairMap oos nodes) : DatasetsAgree oos nodes ↔
    (∀ a b v, Joined oos a b → oos.lookup {a, b} = some v → v = 0) ∨ Violated oos := by
  constructor
  · intro hagree
    cases hsome : determineDatasets oos nodes with
    | none => exact .inr ((determineDatasets_eq_none_iff h).1 hsome)
    | some datasets =>
      have hagrees := hagree.agrees datasets hsome
      refine .inl fun a b v hab hv => ?_
      obtain ⟨s, hs, ha⟩ := (hagrees.cover a).1 (h.ends hv).2.1
      exact hagrees.within s hs a ha b (hagrees.joined s hs a ha b hab) v hv
  · intro hcond
    refine ⟨fun datasets hsome => determineDatasets_spec h hsome ?_, fun oos' hperm =>
      determineDatasets_perm h hperm⟩
    intro s hs a ha b hb v hv
    rcases hcond with hzero | hviolated
    · obtain ⟨rfl, -⟩ := determineDatasets_eq_some_iff.1 hsome
      obtain ⟨n, -, rfl⟩ := mem_datasets.1 hs
      rw [mem_sameDataset_iff h] at ha hb
      have hequiv := joined_equivalence oos
      exact hzero a b v (hequiv.trans (hequiv.symm ha) hb) hv
    · rw [(determineDatasets_eq_none_iff h).2 hviolated] at hsome
      cases hsome

/-- Two nodes without a difference, and a third that differs from both by the same amount. -/
theorem determineDatasets_agrees_two : DatasetsAgree
    [({"a", "b"}, 0), ({"a", "c"}, 8), ({"b", "c"}, 8)] {"a", "b", "c"} := by
  have hmap : IsPairMap [({"a", "b"}, 0), ({"a", "c"}, 8), ({"b", "c"}, 8)] {"a", "b", "c"} :=
    ⟨by decide, by decide⟩
  have hmem : ∀ key v, List.lookup key [(({"a", "b"} : Finset Host), 0), ({"a", "c"}, 8),
      ({"b", "c"}, 8)] = some v →
      v = 0 ∧ "c" ∉ key ∨ v = 8 ∧ ("a" ∈ key ∨ "b" ∈ key) ∧ "c" ∈ key := by
    intro key v hv
    have he := (lookup_eq_some_iff hmap.nodup).1 hv
    simp only [List.mem_cons, Prod.mk.injEq, List.not_mem_nil, or_false] at he
    rcases he with ⟨rfl, rfl⟩ | ⟨rfl, rfl⟩ | ⟨rfl, rfl⟩ <;> simp
  -- no chain leads to the third node
  have hthird : ∀ a b, Joined [({"a", "b"}, 0), ({"a", "c"}, 8), ({"b", "c"}, 8)] a b →
      (a = "c" ↔ b = "c") := by
    intro a b hab
    induction hab with
    | refl x => rfl
    | symm x y _ ih => exact ih.symm
    | trans x y z _ _ ih ih' => exact ih.trans ih'
    | rel x y hxy =>
      obtain ⟨-, hnot⟩ := (hmem _ 0 hxy).resolve_right fun h => by cases h.1
      rw [Finset.mem_insert, Finset.mem_singleton, not_or] at hnot
      exact ⟨fun h => absurd h.symm hnot.1, fun h => absurd h.symm hnot.2⟩
  refine (determineDatasets_agrees_iff hmap).2 (.inl fun a b v hab hv => ?_)
  rcases hmem _ v hv with ⟨rfl, -⟩ | ⟨-, hother, hc⟩
  · rfl
  · have hiff := hthird a b hab
    simp only [Finset.mem_insert, Finset.mem_singleton] at hother hc
    have hboth : a = "c" ∧ b = "c" := by
      rcases hc with rfl | rfl
      · exact ⟨rfl, hiff.1 rfl⟩
      · exact ⟨hiff.2 rfl, rfl⟩
    obtain ⟨rfl, rfl⟩ := hboth
    simp at hother

/-- The third node is joined to the first by the second, and differs from it. -/
theorem determineDatasets_joined_differ : ¬DatasetsAgree
    [({"a", "b"}, 0), ({"b", "c"}, 0), ({"a", "c"}, 5)] {"a", "b", "c"} := by
  have hmap : IsPairMap [({"a", "b"}, 0), ({"b", "c"}, 0), ({"a", "c"}, 5)] {"a", "b", "c"} :=
    ⟨by decide, by decide⟩
  have hab : Joined [({"a", "b"}, 0), ({"b", "c"}, 0), ({"a", "c"}, 5)] "a" "b" :=
    .rel _ _ (by decide)
  have hbc : Joined [({"a", "b"}, 0), ({"b", "c"}, 0), ({"a", "c"}, 5)] "b" "c" :=
    .rel _ _ (by decide)
  have hac := (joined_equivalence _).trans hab hbc
  intro h
  cases hsome : determineDatasets [({"a", "b"}, 0), ({"b", "c"}, 0), ({"a", "c"}, 5)]
      {"a", "b", "c"} with
  | some datasets =>
    have hagrees := h.agrees datasets hsome
    obtain ⟨s, hs, ha⟩ := (hagrees.cover "a").1 (by simp)
    have hzero := hagrees.within s hs "a" ha "c" (hagrees.joined s hs "a" ha "c" hac) 5 (by decide)
    cases hzero
  | none =>
    obtain ⟨x, y, -, -, v, -, -, -, hxy, hv, -⟩ := (determineDatasets_eq_none_iff hmap).1 hsome
    obtain ⟨-, hx, hy⟩ := hmap.ends hv
    have hfrom : ∀ n ∈ ({"a", "b", "c"} : Finset Host), Joined [({"a", "b"}, 0), ({"b", "c"}, 0),
        ({"a", "c"}, 5)] "a" n := by
      simp only [Finset.mem_insert, Finset.mem_singleton]
      rintro n (rfl | rfl | rfl)
      · exact (joined_equivalence _).refl _
      · exact hab
      · exact hac
    exact hxy ((joined_equivalence _).trans ((joined_equivalence _).symm (hfrom x hx)) (hfrom y hy))

end Result

end DrbdUtils.Verify
