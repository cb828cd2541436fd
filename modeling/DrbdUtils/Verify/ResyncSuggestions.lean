import DrbdUtils.Lib.Classes
import DrbdUtils.Lib.Tournament
import DrbdUtils.Verify.VerifyRes

/-!
# Which way drbd-verify suggests to resync

`process_res()` of `drbd-verify.py` suggests a direction for every pair of nodes that is out of
sync: from the node that has the higher entropy in more of the blocks that differ.  Each pair is
decided alone.  At a tie the first of the two nodes is the source, which is this host for a pair of
this host, and else the one whose name comes first.

Snapshots, file systems and the texts of the commands are left out: they do not change a direction.

* `mem_resyncSuggestions` — the suggestions, for nodes with given blocks.
* `processRes_sound_iff` — when they do not contradict each other.
-/

set_option autoImplicit false

namespace DrbdUtils.Verify

/-! ## The program -/

/-- An entry of `result_json['oos']`; `higher` are the keys `'<node> higher'`. -/
structure OosInfo where
  valueKiB : Nat
  higher : List (Host × Nat) := []

/-- `oos_info.get(f'{node} higher', 0)`. -/
def OosInfo.getHigher (info : OosInfo) (node : Host) : Nat := (info.higher.lookup node).getD 0

/-- `determine_resync_direction`: source and target. -/
def determineResyncDirection (info : OosInfo) (node1 node2 : Host) : Host × Host :=
  if info.getHigher node2 ≤ info.getHigher node1 then (node1, node2) else (node2, node1)

section Datasets

/-- The sets of nodes that share a dataset, by node. -/
def sameDataset (oos : OosDict) : Host → Finset Host :=
  oos.foldl (fun same e =>
    match e.2, e.1.sort (· ≤ ·) with
    | 0, [node1, node2] =>
      let combined := same node1 ∪ same node2
      fun n => if n ∈ combined then combined else same n
    | _, _ => same) fun n => {n}

/-- The counts of the pairs between two datasets. -/
def oosBetween (oos : OosDict) (a b : Finset Host) : List Nat :=
  ((a.sort (· ≤ ·)).product (b.sort (· ≤ ·))).filterMap fun p => oos.lookup {p.1, p.2}

/-- "OOS must be the same value". -/
def allEqual : List Nat → Bool
  | [] => true
  | expected :: values => values.all (· = expected)

/-- `determine_datasets`; `none` is a `DatasetTransitivityError`. -/
def determineDatasets (oos : OosDict) (allNodes : Finset Host) : Option (List (Finset Host)) :=
  let datasets := ((allNodes.sort (· ≤ ·)).map (sameDataset oos)).dedup
  if datasets.Pairwise fun a b => allEqual (oosBetween oos a b) = true then some datasets else none

end Datasets

/-- What the nodes have on their backing devices. -/
structure Disks (C E : Type) where
  bits : Nat
  block : Host → Nat → C
  entropy : C → E
  kbytePerBit : Nat
  kbytePerBit_pos : 0 < kbytePerBit

section Program

variable {C E : Type} [DecidableEq C] [LinearOrder E]

/-- The blocks of two nodes that differ. -/
def Disks.oosBits (D : Disks C E) (a b : Host) : List Nat :=
  (List.range D.bits).filter fun i => D.block a i ≠ D.block b i

/-- `value_KiB` of a pair. -/
def Disks.valueKiB (D : Disks C E) (a b : Host) : Nat := (D.oosBits a b).length * D.kbytePerBit

/-- `get_oos_blocks_entropy` on a node, and `fetch_peer_entropy` from it. -/
def Disks.oosBlocksEntropy (D : Disks C E) (node peer : Host) : List (Nat × E) :=
  (D.oosBits node peer).map fun i => (i, D.entropy (D.block node i))

/-- The loop that counts in how many blocks the one or the other has the higher entropy. -/
def countHigher (entropy1 entropy2 : List (Nat × E)) : Nat × Nat :=
  entropy1.foldl (fun n x =>
    match entropy2.lookup x.1 with
    | none => n
    | some e2 =>
      if e2 < x.2 then (n.1 + 1, n.2) else if x.2 < e2 then (n.1, n.2 + 1) else n) (0, 0)

/-- `compare_peer_peer_entropy`, and the same for this host and a peer. -/
def compareEntropy (D : Disks C E) (node1 node2 : Host) (valueKiB : Nat) : OosInfo :=
  let n := countHigher (D.oosBlocksEntropy node1 node2) (D.oosBlocksEntropy node2 node1)
  { valueKiB, higher := [(node1, n.1), (node2, n.2)] }

/-- The suggestion for a connection of this host. -/
def localSuggestion (D : Disks C E) (hostName : Host) (e : Finset Host × Nat) :
    Option (Host × Host) :=
  match (e.1.erase hostName).sort (· ≤ ·) with
  | [peerName] =>
    some (determineResyncDirection (compareEntropy D hostName peerName e.2) hostName peerName)
  | _ => none

/-- `append_remote_resync_suggestion`. -/
def remoteSuggestion (D : Disks C E) (e : Finset Host × Nat) : Option (Host × Host) :=
  match e.1.sort (· ≤ ·) with
  | [node1, node2] =>
    some (determineResyncDirection (compareEntropy D node1 node2 e.2) node1 node2)
  | _ => none

/-- `resync_suggestions`, behind `verify_res()`. -/
def resyncSuggestions (D : Disks C E) (hostName : Host) (oos : OosDict) : List (Host × Host) :=
  let allNodes := oos.foldl (fun s e => s ∪ e.1) ∅
  let hasLocalOos := oos.any fun e => 0 < e.2 && hostName ∈ e.1
  if (determineDatasets oos allNodes).isNone then []
  else if !hasLocalOos then (oos.filter fun e => 0 < e.2).filterMap (remoteSuggestion D)
  else
    (oos.filter fun e => 0 < e.2 && hostName ∈ e.1).filterMap (localSuggestion D hostName) ++
      (oos.filter fun e => 0 < e.2 && hostName ∉ e.1).filterMap (remoteSuggestion D)

/-- `process_res`. -/
def processRes (D : Disks C E) (status : Host → ResJson) (fuel : Nat) (hostName : Host)
    (peers : List Host) : Option (List (Host × Host)) :=
  (verifyRes status D.valueKiB fuel hostName peers).map fun run =>
    resyncSuggestions D hostName run.oos

end Program

/-! ## Counting -/

section Counts

variable {C E : Type} {D : Disks C E} {a b a' b' : Host}

/-- Two nodes have the same dataset. -/
def Disks.Same (D : Disks C E) (a b : Host) : Prop := ∀ i < D.bits, D.block a i = D.block b i

theorem Disks.same_equivalence (D : Disks C E) : Equivalence D.Same where
  refl _ _ _ := rfl
  symm h i hi := (h i hi).symm
  trans h h' i hi := (h i hi).trans (h' i hi)

variable [DecidableEq C]

theorem mem_oosBits {i : Nat} : i ∈ D.oosBits a b ↔ i < D.bits ∧ D.block a i ≠ D.block b i := by
  rw [Disks.oosBits, List.mem_filter, List.mem_range, decide_eq_true_iff]

theorem oosBits_comm (D : Disks C E) (a b : Host) : D.oosBits a b = D.oosBits b a := by
  unfold Disks.oosBits
  refine List.filter_congr fun i _ => ?_
  rw [decide_eq_decide]
  exact ne_comm

theorem valueKiB_comm (D : Disks C E) (a b : Host) : D.valueKiB a b = D.valueKiB b a := by
  rw [Disks.valueKiB, oosBits_comm, Disks.valueKiB]

/-- Counts are zero exactly within a dataset. -/
theorem valueKiB_pos_iff : 0 < D.valueKiB a b ↔ ¬D.Same a b := by
  have hlen : 0 < D.valueKiB a b ↔ D.oosBits a b ≠ [] := by
    rw [Disks.valueKiB, Nat.mul_pos_iff_of_pos_right D.kbytePerBit_pos, List.length_pos_iff]
  rw [hlen, Ne, not_iff_not, Disks.oosBits, List.filter_eq_nil_iff]
  simp only [List.mem_range, decide_eq_true_eq, not_not, Disks.Same]

theorem oosBits_congr (ha : D.Same a a') (hb : D.Same b b') : D.oosBits a b = D.oosBits a' b' := by
  unfold Disks.oosBits
  refine List.filter_congr fun i hi => ?_
  rw [List.mem_range] at hi
  rw [ha i hi, hb i hi]

theorem valueKiB_congr (ha : D.Same a a') (hb : D.Same b b') :
    D.valueKiB a b = D.valueKiB a' b' := by
  rw [Disks.valueKiB, oosBits_congr ha hb, Disks.valueKiB]

variable [LinearOrder E]

/-- In how many of the blocks that differ a node has the higher entropy. -/
def Disks.lead (D : Disks C E) (a b : Host) : Nat :=
  ((D.oosBits a b).filter fun i => D.entropy (D.block b i) < D.entropy (D.block a i)).length

theorem lead_congr (ha : D.Same a a') (hb : D.Same b b') : D.lead a b = D.lead a' b' := by
  unfold Disks.lead
  rw [oosBits_congr ha hb]
  congr 1
  refine List.filter_congr fun i hi => ?_
  have hi := (mem_oosBits.1 hi).1
  rw [ha i hi, hb i hi]

theorem lookup_map_pair {β : Type} (l : List Nat) (f : Nat → β) {i : Nat} (hi : i ∈ l) :
    (l.map fun i => (i, f i)).lookup i = some (f i) := by
  induction l with
  | nil => cases hi
  | cons j l ih =>
    rw [List.map_cons, List.lookup_cons]
    by_cases hj : i = j
    · rw [hj, beq_self_eq_true]
    · rw [beq_false_of_ne hj]
      exact ih ((List.mem_cons.1 hi).resolve_left hj)

/-- The loop counts the blocks in which either has the lead. -/
theorem countHigher_eq (D : Disks C E) (a b : Host) :
    countHigher (D.oosBlocksEntropy a b) (D.oosBlocksEntropy b a) = (D.lead a b, D.lead b a) := by
  have key : ∀ (l : List Nat) (n : Nat × Nat), (∀ i ∈ l, i ∈ D.oosBits b a) →
      (l.map fun i => (i, D.entropy (D.block a i))).foldl (fun n x =>
        match (D.oosBlocksEntropy b a).lookup x.1 with
        | none => n
        | some e2 =>
          if e2 < x.2 then (n.1 + 1, n.2) else if x.2 < e2 then (n.1, n.2 + 1) else n) n =
      (n.1 + (l.filter fun i => D.entropy (D.block b i) < D.entropy (D.block a i)).length,
        n.2 + (l.filter fun i => D.entropy (D.block a i) < D.entropy (D.block b i)).length) := by
    intro l
    induction l with
    | nil => exact fun _ _ => rfl
    | cons i l ih =>
      intro n hl
      rw [List.map_cons, List.foldl_cons, ih _ fun j hj => hl j (List.mem_cons_of_mem i hj),
        Disks.oosBlocksEntropy, lookup_map_pair _ _ (hl i List.mem_cons_self)]
      rcases lt_trichotomy (D.entropy (D.block a i)) (D.entropy (D.block b i)) with h | h | h
      · simp only [h, not_lt_of_gt h, if_true, if_false, List.filter_cons, decide_true,
          decide_false, List.length_cons, Bool.false_eq_true]
        rw [Nat.add_right_comm n.2 1]
        rfl
      · simp [h]
      · simp only [h, not_lt_of_gt h, if_true, if_false, List.filter_cons, decide_true,
          decide_false, List.length_cons, Bool.false_eq_true]
        rw [Nat.add_right_comm n.1 1]
        rfl
  refine (key (D.oosBits a b) (0, 0) fun i hi => by rwa [oosBits_comm]).trans ?_
  rw [Nat.zero_add, Nat.zero_add, Disks.lead, Disks.lead, oosBits_comm D b a]

/-- The direction of a pair: the first node is the source unless the second has the lead. -/
theorem direction_eq (D : Disks C E) {node1 node2 : Host} (hne : node1 ≠ node2) (value : Nat) :
    determineResyncDirection (compareEntropy D node1 node2 value) node1 node2 =
      if D.lead node2 node1 ≤ D.lead node1 node2 then (node1, node2) else (node2, node1) := by
  have h1 : (compareEntropy D node1 node2 value).getHigher node1 = D.lead node1 node2 := by
    simp [OosInfo.getHigher, compareEntropy, countHigher_eq]
  have h2 : (compareEntropy D node1 node2 value).getHigher node2 = D.lead node2 node1 := by
    simp [OosInfo.getHigher, compareEntropy, countHigher_eq, List.lookup_cons,
      beq_false_of_ne hne.symm]
  rw [determineResyncDirection, h1, h2]

end Counts

/-! ## The pairs -/

section Pairs

/-- The entries of a dictionary are counts of pairs of nodes. -/
def Valued (value : Host → Host → Nat) (hosts : Finset Host) (oos : OosDict) : Prop :=
  ∀ e ∈ oos, ∃ a ∈ hosts, ∃ b ∈ hosts, a ≠ b ∧ e = ({a, b}, value a b)

variable {value : Host → Host → Nat} {hosts : Finset Host} {d d' : OosDict} {host : Host}

theorem Valued.set (h : Valued value hosts d) {a b : Host} (ha : a ∈ hosts) (hb : b ∈ hosts)
    (hab : a ≠ b) : Valued value hosts (d.set {a, b} (value a b)) := by
  intro e he
  unfold OosDict.set at he
  split at he
  · obtain ⟨x, hx, rfl⟩ := List.mem_map.1 he
    split
    · exact ⟨a, ha, b, hb, hab, rfl⟩
    · exact h x hx
  · rcases List.mem_append.1 he with he | he
    · exact h e he
    · rw [List.mem_singleton] at he
      exact ⟨a, ha, b, hb, hab, he⟩

theorem Valued.update (h : Valued value hosts d) (h' : Valued value hosts d') :
    Valued value hosts (d.update d') := by
  unfold OosDict.update
  induction d' generalizing d with
  | nil => exact h
  | cons e d' ih =>
    obtain ⟨a, ha, b, hb, hab, rfl⟩ := h' e List.mem_cons_self
    exact ih (h.set ha hb hab) fun e he => h' e (List.mem_cons_of_mem _ he)

theorem Valued.viaJson (h : Valued value hosts d) (hcomma : ∀ host ∈ hosts, ',' ∉ host.toList) :
    d.viaJson = d := by
  refine OosDict.viaJson_eq fun k hk => ?_
  obtain ⟨e, he, rfl⟩ := List.mem_map.1 hk
  obtain ⟨a, ha, b, hb, -, rfl⟩ := h e he
  refine ⟨⟨a, by simp⟩, fun host hhost => hcomma host ?_⟩
  rcases Finset.mem_insert.1 hhost with rfl | hhost
  · exact ha
  · rw [Finset.mem_singleton.1 hhost]
    exact hb

theorem verifyLocal_valued (hhost : host ∈ hosts) {diskful : List Host}
    (hdisk : ∀ peer ∈ diskful, peer ∈ hosts ∧ peer ≠ host) :
    Valued value hosts (verifyLocal value host diskful).oos := by
  have key : ∀ (l : List Host) (d : OosDict), (∀ peer ∈ l, peer ∈ hosts ∧ peer ≠ host) →
      Valued value hosts d →
      Valued value hosts (l.foldl (fun d peer => d.set {host, peer} (value host peer)) d) := by
    intro l
    induction l with
    | nil => exact fun _ _ hd => hd
    | cons peer l ih =>
      intro d hl hd
      obtain ⟨hmem, hne⟩ := hl peer List.mem_cons_self
      exact ih _ (fun p hp => hl p (List.mem_cons_of_mem _ hp)) (hd.set hhost hmem hne.symm)
  exact key diskful [] hdisk fun _ he => by cases he

theorem verifyRemotes_valued {remote : Host → List Host → Option Run}
    (hcomma : ∀ host ∈ hosts, ',' ∉ host.toList) {diskful : List Host}
    (hremote : ∀ peer peers run, peers ≠ [] → peer :: peers <:+ diskful →
      remote peer peers = some run → Valued value hosts run.oos)
    {run run' : Run} (hrun : Valued value hosts run.oos)
    (h : verifyRemotes remote diskful run = some run') : Valued value hosts run'.oos := by
  induction diskful generalizing run with
  | nil =>
    cases h
    exact hrun
  | cons peer peers ih =>
    cases peers with
    | nil =>
      cases h
      exact hrun
    | cons next rest =>
      unfold verifyRemotes at h
      obtain ⟨result, hresult, h⟩ := Option.bind_eq_some_iff.1 h
      have hval := hremote peer (next :: rest) result (by simp) (List.suffix_refl _) hresult
      have hboth : Valued value hosts (run.oos.update result.oos.viaJson) := by
        rw [hval.viaJson hcomma]
        exact hrun.update hval
      exact @ih (fun p ps r hne hs => hremote p ps r hne (hs.trans (List.suffix_cons peer _)))
        { verifies := run.verifies ++ result.verifies
          oos := run.oos.update result.oos.viaJson } hboth h

/-- The counts that a run collects are those of its pairs. -/
theorem verifyRes_valued {status : Host → ResJson} (hmesh : Mesh status hosts) {fuel : Nat}
    {peers : List Host} {run : Run} (hhost : host ∈ hosts)
    (hdisk : ∀ peer ∈ diskfulPeers status host peers, peer ∈ hosts)
    (h : verifyRes status value fuel host peers = some run) : Valued value hosts run.oos := by
  induction fuel generalizing host peers run with
  | zero => cases h
  | succ fuel ih =>
    unfold verifyRes at h
    rw [if_neg (hmesh.diskful host hhost)] at h
    have hother : ∀ peer ∈ diskfulPeers status host peers, peer ≠ host := by
      intro name hname
      obtain ⟨peer, hpeer, -, -, -, rfl⟩ := mem_diskfulPeers.1 hname
      exact hmesh.other host hhost peer hpeer
    refine verifyRemotes_valued hmesh.comma (fun peer ps r hne hs hr => ?_)
      (verifyLocal_valued hhost fun peer hpeer => ⟨hdisk peer hpeer, hother peer hpeer⟩) h
    have hmem : ∀ name ∈ peer :: ps, name ∈ hosts := fun name hname => hdisk name (hs.subset hname)
    split at hr
    · refine ih (hmem peer List.mem_cons_self) (fun name hname => ?_) hr
      obtain ⟨p, -, hp | hp, -, -, rfl⟩ := mem_diskfulPeers.1 hname
      · exact absurd hp hne
      · exact hmem _ (List.mem_cons_of_mem _ hp)
    · cases hr

end Pairs

/-! ## Datasets -/

section Determine

variable {C E : Type} [DecidableEq C] {D : Disks C E} {hosts : Finset Host} {oos : OosDict}

theorem sort_pair {a b : Host} (hab : a < b) :
    (({a, b} : Finset Host).sort (· ≤ ·)) = [a, b] := by
  have hle : ∀ x ∈ ({b} : Finset Host), a ≤ x := fun x hx => by
    rw [Finset.mem_singleton.1 hx]
    exact hab.le
  have hnot : a ∉ ({b} : Finset Host) := by
    rw [Finset.mem_singleton]
    exact hab.ne
  rw [Finset.sort_insert (· ≤ ·) hle hnot, Finset.sort_singleton]

/-- The two ends of an entry, in order. -/
theorem Valued.ends {value : Host → Host → Nat} (hcomm : ∀ a b, value a b = value b a)
    (h : Valued value hosts oos) {e : Finset Host × Nat} (he : e ∈ oos) :
    ∃ a ∈ hosts, ∃ b ∈ hosts, a < b ∧ e = ({a, b}, value a b) := by
  obtain ⟨a, ha, b, hb, hab, rfl⟩ := h e he
  rcases lt_or_gt_of_ne hab with hlt | hlt
  · exact ⟨a, ha, b, hb, hlt, rfl⟩
  · exact ⟨b, hb, a, ha, hlt, by rw [Finset.pair_comm, hcomm]⟩

/-- An entry has the count of its pair. -/
theorem Valued.value (h : Valued D.valueKiB hosts oos) {a b : Host} {v : Nat}
    (hv : ({a, b}, v) ∈ oos) : v = D.valueKiB a b := by
  obtain ⟨x, -, y, -, hxy, he⟩ := h ({a, b}, v) hv
  obtain ⟨hkey, rfl⟩ := Prod.ext_iff.1 he
  simp only at hkey
  have hmem : ∀ z ∈ ({x, y} : Finset Host), z = a ∨ z = b := by
    intro z hz
    rw [← hkey] at hz
    simpa using hz
  rcases hmem x (by simp) with rfl | rfl <;> rcases hmem y (by simp) with rfl | rfl
  · exact absurd rfl hxy
  · rfl
  · exact valueKiB_comm D _ _
  · exact absurd rfl hxy

/-- The pairs without differences, each in order. -/
def zeroPairs (oos : OosDict) : List (Host × Host) :=
  oos.filterMap fun e =>
    match e.2, e.1.sort (· ≤ ·) with
    | 0, [node1, node2] => some (node1, node2)
    | _, _ => none

theorem mem_zeroPairs {a b : Host} :
    (a, b) ∈ zeroPairs oos ↔ a < b ∧ (({a, b}, 0) : Finset Host × Nat) ∈ oos := by
  rw [zeroPairs, List.mem_filterMap]
  constructor
  · rintro ⟨⟨key, value⟩, he, hpair⟩
    simp only at hpair
    split at hpair
    · next node1 node2 hsort =>
      obtain ⟨rfl, rfl⟩ := Prod.ext_iff.1 (Option.some.inj hpair)
      have hlt : node1 < node2 := by
        have := Finset.sortedLT_sort key
        rw [hsort] at this
        simpa using this.pairwise
      have hkey : key = {node1, node2} := by
        rw [← Finset.sort_toFinset key (· ≤ ·), hsort]
        simp
      exact ⟨hlt, hkey ▸ he⟩
    · cases hpair
  · rintro ⟨hlt, he⟩
    exact ⟨_, he, by simp only [sort_pair hlt]⟩

/-- The sets are the classes of these pairs. -/
theorem sameDataset_eq (oos : OosDict) : sameDataset oos = Classes.mergeAll (zeroPairs oos) := by
  unfold sameDataset Classes.mergeAll zeroPairs
  rw [List.foldl_filterMap]
  congr 1
  funext same e
  split <;> rfl

/-- Nodes that are put together have the same dataset. -/
theorem sameDataset_same (h : Valued D.valueKiB hosts oos) {n n' : Host}
    (hn : n' ∈ sameDataset oos n) : D.Same n n' := by
  rw [sameDataset_eq] at hn
  refine Classes.mergeAll_within D.same_equivalence (fun p hp => ?_) hn
  obtain ⟨-, he⟩ := mem_zeroPairs.1 hp
  by_contra hsame
  have hpos := valueKiB_pos_iff.2 hsame
  rw [← h.value he] at hpos
  exact absurd hpos (lt_irrefl 0)

theorem allEqual_of_const {l : List Nat} {v : Nat} (h : ∀ x ∈ l, x = v) : allEqual l = true := by
  cases l with
  | nil => rfl
  | cons x l =>
    rw [allEqual, List.all_eq_true]
    intro y hy
    rw [decide_eq_true_iff, h y (List.mem_cons_of_mem x hy), h x List.mem_cons_self]

/-- The counts between two datasets are equal, so that the analysis goes on. -/
theorem determineDatasets_some (h : Valued D.valueKiB hosts oos) (allNodes : Finset Host) :
    (determineDatasets oos allNodes).isNone = false := by
  have hset : ∀ s ∈ ((allNodes.sort (· ≤ ·)).map (sameDataset oos)).dedup,
      ∃ n, ∀ n' ∈ s, D.Same n n' := by
    intro s hs
    obtain ⟨n, -, rfl⟩ := List.mem_map.1 (List.mem_dedup.1 hs)
    exact ⟨n, fun n' hn' => sameDataset_same h hn'⟩
  unfold determineDatasets
  simp only
  rw [if_pos]
  · rfl
  · refine List.Pairwise.imp_of_mem (R := fun _ _ => True) (fun {s t} hs ht _ => ?_)
      (List.pairwise_of_forall fun _ _ => trivial)
    obtain ⟨n, hn⟩ := hset s hs
    obtain ⟨m, hm⟩ := hset t ht
    refine @allEqual_of_const _ (D.valueKiB n m) fun v hv => ?_
    obtain ⟨⟨a, b⟩, hab, hlook⟩ := List.mem_filterMap.1 hv
    obtain ⟨ha, hb⟩ := List.pair_mem_product.1 hab
    rw [Finset.mem_sort] at ha hb
    obtain ⟨l₁, l₂, hsplit, -⟩ := List.lookup_eq_some_iff.1 hlook
    have hentry : (({a, b}, v) : Finset Host × Nat) ∈ oos := by
      rw [hsplit]
      simp
    rw [h.value hentry]
    exact (valueKiB_congr (hn a ha) (hm b hb)).symm

end Determine

/-! ## The suggestions -/

section Suggestions

variable {C E : Type} [DecidableEq C] [LinearOrder E] {D : Disks C E} {hosts : Finset Host}
  {oos : OosDict} {hostName : Host}

/-- The node that is given first: this host, or else the one whose name comes first. -/
def Before (hostName a b : Host) : Prop := a = hostName ∨ b ≠ hostName ∧ a < b

instance (hostName a b : Host) : Decidable (Before hostName a b) :=
  inferInstanceAs (Decidable (_ ∨ _))

theorem before_or {a b : Host} (hab : a ≠ b) : Before hostName a b ∨ Before hostName b a := by
  unfold Before
  by_cases ha : a = hostName
  · exact .inl (.inl ha)
  by_cases hb : b = hostName
  · exact .inr (.inl hb)
  rcases lt_or_gt_of_ne hab with hlt | hlt
  · exact .inl (.inr ⟨hb, hlt⟩)
  · exact .inr (.inr ⟨ha, hlt⟩)

theorem not_before {a b : Host} (hab : a ≠ b) (h : Before hostName a b) :
    ¬Before hostName b a := by
  rintro (rfl | ⟨ha, hlt⟩)
  · rcases h with rfl | ⟨hb, -⟩
    · exact hab rfl
    · exact hb rfl
  · rcases h with rfl | ⟨-, hlt'⟩
    · exact ha rfl
    · exact lt_asymm hlt hlt'

/-- A node prevails over another: it has the lead, or at a tie it is given first. -/
def Disks.Over (D : Disks C E) (hostName a b : Host) : Prop :=
  D.lead b a < D.lead a b ∨ D.lead a b = D.lead b a ∧ Before hostName a b

/-- The suggestion of an entry. -/
theorem suggestion_eq {a b : Host} (hab : a ≠ b) (h : Before hostName a b) (v : Nat) :
    (if hostName ∈ ({a, b} : Finset Host) then localSuggestion D hostName ({a, b}, v)
      else remoteSuggestion D ({a, b}, v)) =
      some (if D.lead b a ≤ D.lead a b then (a, b) else (b, a)) := by
  by_cases ha : a = hostName
  · subst ha
    have herase : (({a, b} : Finset Host).erase a).sort (· ≤ ·) = [b] := by
      rw [Finset.erase_insert (by rw [Finset.mem_singleton]; exact hab), Finset.sort_singleton]
    rw [if_pos (Finset.mem_insert_self a _), localSuggestion]
    simp only [herase, direction_eq D hab]
  · obtain ⟨hb, hlt⟩ := h.resolve_left ha
    have hnot : hostName ∉ ({a, b} : Finset Host) := by
      rw [Finset.mem_insert, Finset.mem_singleton]
      rintro (hc | hc)
      · exact ha hc.symm
      · exact hb hc.symm
    rw [if_neg hnot, remoteSuggestion]
    simp only [sort_pair hlt, direction_eq D hab]

/-- Whichever way the pairs are gone through, each one that is out of sync is decided once. -/
theorem mem_resyncSuggestions_iff (h : Valued D.valueKiB hosts oos) {x : Host × Host} :
    x ∈ resyncSuggestions D hostName oos ↔ ∃ e ∈ oos, 0 < e.2 ∧
      (if hostName ∈ e.1 then localSuggestion D hostName e else remoteSuggestion D e) = some x := by
  unfold resyncSuggestions
  simp only [determineDatasets_some h, Bool.false_eq_true, if_false]
  split
  · rename_i hlocal
    have hnot : ∀ e ∈ oos, 0 < e.2 → hostName ∉ e.1 := by
      intro e he hpos hmem
      rw [Bool.not_eq_true', List.any_eq_false] at hlocal
      exact hlocal e he (by simp [hpos, hmem])
    rw [List.mem_filterMap]
    constructor
    · rintro ⟨e, he, hx⟩
      obtain ⟨he, hpos⟩ := List.mem_filter.1 he
      rw [decide_eq_true_iff] at hpos
      exact ⟨e, he, hpos, by rwa [if_neg (hnot e he hpos)]⟩
    · rintro ⟨e, he, hpos, hx⟩
      rw [if_neg (hnot e he hpos)] at hx
      exact ⟨e, List.mem_filter.2 ⟨he, by simpa using hpos⟩, hx⟩
  · rw [List.mem_append, List.mem_filterMap, List.mem_filterMap]
    constructor
    · rintro (⟨e, he, hx⟩ | ⟨e, he, hx⟩)
      · obtain ⟨he, hcond⟩ := List.mem_filter.1 he
        rw [Bool.and_eq_true, decide_eq_true_iff, decide_eq_true_iff] at hcond
        exact ⟨e, he, hcond.1, by rwa [if_pos hcond.2]⟩
      · obtain ⟨he, hcond⟩ := List.mem_filter.1 he
        rw [Bool.and_eq_true, decide_eq_true_iff, decide_eq_true_iff] at hcond
        exact ⟨e, he, hcond.1, by rwa [if_neg hcond.2]⟩
    · rintro ⟨e, he, hpos, hx⟩
      by_cases hmem : hostName ∈ e.1
      · rw [if_pos hmem] at hx
        exact .inl ⟨e, List.mem_filter.2 ⟨he, by simp [hpos, hmem]⟩, hx⟩
      · rw [if_neg hmem] at hx
        exact .inr ⟨e, List.mem_filter.2 ⟨he, by simp [hpos, hmem]⟩, hx⟩

/-- **The suggestions**: each pair of nodes with different datasets, from the one that prevails to
    the other. -/
theorem mem_resyncSuggestions (h : Valued D.valueKiB hosts oos)
    (hkeys : oos.keys.toFinset = pairs hosts) {a b : Host} :
    (a, b) ∈ resyncSuggestions D hostName oos ↔
      (a ∈ hosts ∧ b ∈ hosts) ∧ ¬D.Same a b ∧ D.Over hostName a b := by
  rw [mem_resyncSuggestions_iff h]
  constructor
  · rintro ⟨e, he, hpos, hx⟩
    obtain ⟨c, hc, d, hd, hcd, rfl⟩ : ∃ c ∈ hosts, ∃ d ∈ hosts, (c ≠ d ∧ Before hostName c d) ∧
        e = ({c, d}, D.valueKiB c d) := by
      obtain ⟨c, hc, d, hd, hcd, rfl⟩ := h e he
      rcases @before_or hostName _ _ hcd with hb | hb
      · exact ⟨c, hc, d, hd, ⟨hcd, hb⟩, rfl⟩
      · exact ⟨d, hd, c, hc, ⟨hcd.symm, hb⟩, by rw [Finset.pair_comm, valueKiB_comm]⟩
    rw [suggestion_eq hcd.1 hcd.2, Option.some.injEq] at hx
    have hsame := valueKiB_pos_iff.1 hpos
    split at hx
    · rename_i hle
      obtain ⟨rfl, rfl⟩ := Prod.ext_iff.1 hx
      refine ⟨⟨hc, hd⟩, hsame, ?_⟩
      rcases Nat.lt_or_eq_of_le hle with hlt | heq
      · exact .inl hlt
      · exact .inr ⟨heq.symm, hcd.2⟩
    · rename_i hlt
      obtain ⟨rfl, rfl⟩ := Prod.ext_iff.1 hx
      exact ⟨⟨hd, hc⟩, fun hs => hsame (D.same_equivalence.symm hs), .inl (by simp only; omega)⟩
  · rintro ⟨⟨ha, hb⟩, hsame, hover⟩
    have hab : a ≠ b := fun hc => hsame (hc ▸ D.same_equivalence.refl a)
    have hentry : (({a, b}, D.valueKiB a b) : Finset Host × Nat) ∈ oos := by
      have hkey : ({a, b} : Finset Host) ∈ oos.keys := by
        rw [← List.mem_toFinset, hkeys, pairs, Finset.mem_powersetCard]
        exact ⟨by simp [Finset.insert_subset_iff, ha, hb], Finset.card_pair hab⟩
      obtain ⟨⟨k, v⟩, he, rfl⟩ := List.mem_map.1 hkey
      rwa [← h.value he]
    rcases @before_or hostName _ _ hab with hb | hb
    · refine ⟨_, hentry, valueKiB_pos_iff.2 hsame, ?_⟩
      rw [suggestion_eq hab hb, if_pos]
      rcases hover with hlt | ⟨heq, -⟩
      · exact hlt.le
      · exact heq.symm.le
    · refine ⟨_, hentry, valueKiB_pos_iff.2 hsame, ?_⟩
      have hlt : D.lead b a < D.lead a b :=
        hover.resolve_right fun htie => not_before hab.symm hb htie.2
      rw [Finset.pair_comm, suggestion_eq hab.symm hb, if_neg (by omega)]

end Suggestions

/-! ## Contradictions -/

section Sound

variable {C E : Type} [DecidableEq C] [LinearOrder E]

/-- The suggestions do not contradict each other: no circle of steps, and one direction between two
    datasets. -/
structure SoundSuggestions (D : Disks C E) (suggestions : List (Host × Host)) : Prop where
  acyclic : Tournament.Acyclic fun a b => (a, b) ∈ suggestions
  oneWay : Tournament.OneWay D.Same fun a b => (a, b) ∈ suggestions

/-- When they do not: no three nodes with different datasets prevail over one another in a circle,
    and of two datasets that are tied, one has all its nodes given first. -/
structure Ranked (D : Disks C E) (hostName : Host) (hosts : Finset Host) : Prop where
  noTriangle : ∀ a ∈ hosts, ∀ b ∈ hosts, ∀ c ∈ hosts, ¬D.Same a b → ¬D.Same b c → ¬D.Same c a →
    ¬(D.Over hostName a b ∧ D.Over hostName b c ∧ D.Over hostName c a)
  ties : ∀ a ∈ hosts, ∀ b ∈ hosts, ∀ a' ∈ hosts, ∀ b' ∈ hosts, D.Same a a' → D.Same b b' →
    ¬D.Same a b → D.lead a b = D.lead b a → Before hostName a b → Before hostName a' b'

theorem over_asymm {D : Disks C E} {hostName a b : Host} (hab : a ≠ b)
    (h : D.Over hostName a b) : ¬D.Over hostName b a := by
  rintro (hlt | ⟨heq, hb⟩)
  · rcases h with hlt' | ⟨heq', -⟩ <;> omega
  · rcases h with hlt' | ⟨-, hb'⟩
    · omega
    · exact not_before hab hb' hb

theorem over_total {D : Disks C E} {hostName a b : Host} (hab : a ≠ b) :
    D.Over hostName a b ∨ D.Over hostName b a := by
  rcases lt_trichotomy (D.lead a b) (D.lead b a) with hlt | heq | hlt
  · exact .inr (.inl hlt)
  · rcases @before_or hostName _ _ hab with hb | hb
    · exact .inl (.inr ⟨heq, hb⟩)
    · exact .inr (.inr ⟨heq.symm, hb⟩)
  · exact .inl (.inl hlt)

theorem soundSuggestions_iff {D : Disks C E} {hosts : Finset Host} {oos : OosDict}
    {hostName : Host} (h : Valued D.valueKiB hosts oos) (hkeys : oos.keys.toFinset = pairs hosts) :
    SoundSuggestions D (resyncSuggestions D hostName oos) ↔ Ranked D hostName hosts := by
  have hsym := D.same_equivalence
  have hmem : ∀ {a b}, (a, b) ∈ resyncSuggestions D hostName oos ↔
      (a ∈ hosts ∧ b ∈ hosts) ∧ ¬D.Same a b ∧ D.Over hostName a b := mem_resyncSuggestions h hkeys
  have hne : ∀ {a b}, ¬D.Same a b → a ≠ b := fun hs hc => hs (hc ▸ hsym.refl _)
  have hbetween : Tournament.Between (· ∈ hosts) D.Same
      fun a b => (a, b) ∈ resyncSuggestions D hostName oos :=
    { equivalence := hsym
      on_dom := fun hab => (hmem.1 hab).1
      not_same := fun hab => (hmem.1 hab).2.1
      asymm := fun hab hba => over_asymm (hne (hmem.1 hab).2.1) (hmem.1 hab).2.2 (hmem.1 hba).2.2
      total := fun ha hb hs => (over_total (hne hs)).imp (fun ho => hmem.2 ⟨⟨ha, hb⟩, hs, ho⟩)
        fun ho => hmem.2 ⟨⟨hb, ha⟩, fun hc => hs (hsym.symm hc), ho⟩ }
  have htriangle : Tournament.NoTriangle (fun a b => (a, b) ∈ resyncSuggestions D hostName oos) ↔
      ∀ a ∈ hosts, ∀ b ∈ hosts, ∀ c ∈ hosts, ¬D.Same a b → ¬D.Same b c → ¬D.Same c a →
        ¬(D.Over hostName a b ∧ D.Over hostName b c ∧ D.Over hostName c a) := by
    constructor
    · intro htri a ha b hb c hc hab hbc hca ⟨h1, h2, h3⟩
      exact htri a b c (hmem.2 ⟨⟨ha, hb⟩, hab, h1⟩) (hmem.2 ⟨⟨hb, hc⟩, hbc, h2⟩)
        (hmem.2 ⟨⟨hc, ha⟩, hca, h3⟩)
    · intro hno a b c hab hbc hca
      obtain ⟨⟨ha, hb⟩, hsab, h1⟩ := hmem.1 hab
      obtain ⟨⟨-, hc⟩, hsbc, h2⟩ := hmem.1 hbc
      obtain ⟨-, hsca, h3⟩ := hmem.1 hca
      exact hno a ha b hb c hc hsab hsbc hsca ⟨h1, h2, h3⟩
  constructor
  · intro ⟨hacyclic, hone⟩
    refine ⟨htriangle.1 ((Tournament.acyclic_iff hbetween hone).1 hacyclic), ?_⟩
    intro a ha b hb a' ha' b' hb' haa hbb hab htie hbefore
    have hab' : ¬D.Same a' b' := fun hc =>
      hab (hsym.trans haa (hsym.trans hc (hsym.symm hbb)))
    refine (before_or (hne hab')).resolve_right fun hbefore' => ?_
    have htie' : D.lead b' a' = D.lead a' b' := by
      rw [← lead_congr haa hbb, ← lead_congr hbb haa, htie]
    exact hone a b a' b' (hmem.2 ⟨⟨ha, hb⟩, hab, .inr ⟨htie, hbefore⟩⟩)
      (hmem.2 ⟨⟨hb', ha'⟩, fun hc => hab' (hsym.symm hc), .inr ⟨htie', hbefore'⟩⟩) haa hbb
  · intro ⟨htri, hties⟩
    have hone : Tournament.OneWay D.Same
        fun a b => (a, b) ∈ resyncSuggestions D hostName oos := by
      intro a b a' b' hab hba haa hbb
      obtain ⟨⟨ha, hb⟩, hsab, hover⟩ := hmem.1 hab
      obtain ⟨⟨hb', ha'⟩, hsba, hover'⟩ := hmem.1 hba
      rw [Disks.Over, ← lead_congr haa hbb, ← lead_congr hbb haa] at hover'
      rcases hover with hlt | ⟨heq, hbefore⟩
      · rcases hover' with hlt' | ⟨heq', -⟩ <;> omega
      · rcases hover' with hlt' | ⟨-, hbefore'⟩
        · omega
        · exact not_before (hne hsba) hbefore'
            (hties a ha b hb a' ha' b' hb' haa hbb hsab heq hbefore)
    exact ⟨(Tournament.acyclic_iff hbetween hone).2 (htriangle.2 htri), hone⟩

variable {status : Host → ResJson} {hosts : Finset Host} {hostName : Host} {peers : List Host}

/-- A run with all diskful nodes ends, and suggests from the counts of all pairs. -/
theorem processRes_spec (h : Mesh status hosts) (D : Disks C E) (hhost : hostName ∈ hosts)
    (hpeers : ∀ name, name ∈ diskfulPeers status hostName peers ↔ name ∈ hosts ∧ name ≠ hostName) :
    (∃ fuel suggestions, processRes D status fuel hostName peers = some suggestions) ∧
      ∀ fuel suggestions, processRes D status fuel hostName peers = some suggestions →
        ∃ oos : OosDict, Valued D.valueKiB hosts oos ∧ oos.keys.toFinset = pairs hosts ∧
          suggestions = resyncSuggestions D hostName oos := by
  have hdisk : ∀ name ∈ diskfulPeers status hostName peers, name ∈ hosts :=
    fun name hname => ((hpeers name).1 hname).1
  obtain ⟨run, hrun, hspec⟩ := verifyRes_spec peers h D.valueKiB hhost hdisk (Nat.lt_succ_self _)
  refine ⟨⟨_, _, by rw [processRes, hrun]; rfl⟩, fun fuel suggestions hs => ?_⟩
  obtain ⟨run', hrun', rfl⟩ := Option.map_eq_some_iff.1 hs
  have h1 := verifyRes_mono (le_max_left fuel (diskfulPeers status hostName peers).length.succ) hrun'
  have h2 := verifyRes_mono (le_max_right fuel _) hrun
  obtain rfl := Option.some.inj (h1.symm.trans h2)
  have hhosts : insert hostName (diskfulPeers status hostName peers).toFinset = hosts := by
    ext name
    rw [Finset.mem_insert, List.mem_toFinset, hpeers]
    by_cases hc : name = hostName
    · simp [hc, hhost]
    · simp [hc]
  exact ⟨run'.oos, verifyRes_valued h hhost hdisk hrun', hhosts ▸ hspec.keys, rfl⟩

/-- A node without a disk suggests nothing. -/
theorem processRes_diskless (D : Disks C E) (fuel : Nat) (peers : List Host)
    (h : (status hostName).diskState = "Diskless") :
    processRes D status (fuel + 1) hostName peers = some [] := by
  have hnil : resyncSuggestions D hostName [] = [] := by simp [resyncSuggestions]
  rw [processRes, verifyRes, if_pos h]
  exact congrArg some hnil

/-- **The suggestions do not contradict each other** exactly if the majorities of the datasets have
    no circle of three, and ties are broken the same way for all nodes of two datasets. -/
theorem processRes_sound_iff (h : Mesh status hosts) (D : Disks C E) (hhost : hostName ∈ hosts)
    (hpeers : ∀ name, name ∈ diskfulPeers status hostName peers ↔ name ∈ hosts ∧ name ≠ hostName) :
    ((∃ fuel suggestions, processRes D status fuel hostName peers = some suggestions) ∧
      ∀ fuel suggestions, processRes D status fuel hostName peers = some suggestions →
        (SoundSuggestions D suggestions ↔ Ranked D hostName hosts)) ∧
      ∀ name fuel peers, (status name).diskState = "Diskless" →
        processRes D status (fuel + 1) name peers = some [] := by
  obtain ⟨hex, hspec⟩ := processRes_spec h D hhost hpeers
  refine ⟨⟨hex, fun fuel suggestions hs => ?_⟩,
    fun name fuel peers hd => processRes_diskless D fuel peers hd⟩
  obtain ⟨oos, hvalued, hkeys, rfl⟩ := hspec fuel suggestions hs
  exact soundSuggestions_iff hvalued hkeys

end Sound

/-! ### Clusters of three nodes -/

section Samples

instance {C E : Type} [DecidableEq C] (D : Disks C E) (a b : Host) : Decidable (D.Same a b) :=
  inferInstanceAs (Decidable (∀ i < D.bits, _))

instance {C E : Type} [DecidableEq C] [LinearOrder E] (D : Disks C E) (hostName a b : Host) :
    Decidable (D.Over hostName a b) :=
  inferInstanceAs (Decidable (_ ∨ _))

/-- Three nodes by the entropy of their blocks. -/
def disksOf (a b c : List Nat) : Disks Nat Nat where
  bits := a.length
  block host i := (if host = "a" then a else if host = "b" then b else c).getD i 0
  entropy := id
  kbytePerBit := 4
  kbytePerBit_pos := by decide

theorem mesh_abc : Mesh (meshStatus ["a", "b", "c"]) ["a", "b", "c"].toFinset :=
  meshStatus_mesh (by decide) (by decide)

/-- One node has the lead over two others, which have the same dataset. -/
theorem processRes_sound_two_datasets : ∃ fuel suggestions,
    processRes (disksOf [2] [1] [1]) (meshStatus ["a", "b", "c"]) fuel "b" [] = some suggestions ∧
      SoundSuggestions (disksOf [2] [1] [1]) suggestions := by
  obtain ⟨⟨⟨fuel, suggestions, hs⟩, hiff⟩, -⟩ := processRes_sound_iff mesh_abc
    (disksOf [2] [1] [1]) (show "b" ∈ _ by simp) fun _ => mem_diskfulPeers_meshStatus
  exact ⟨fuel, suggestions, hs, (hiff fuel suggestions hs).2 ⟨by decide +kernel, by decide +kernel⟩⟩

/-- Three majorities can make a circle; at a tie, nodes of one dataset can be source and target. -/
theorem processRes_contradicts :
    (∃ fuel suggestions, processRes (disksOf [2, 0, 1] [1, 2, 0] [0, 1, 2])
        (meshStatus ["a", "b", "c"]) fuel "a" [] = some suggestions ∧
      ¬Tournament.Acyclic fun a b => (a, b) ∈ suggestions) ∧
    ∃ fuel suggestions, processRes { disksOf [2] [1] [2] with entropy := fun _ => 0 }
        (meshStatus ["a", "b", "c"]) fuel "a" [] = some suggestions ∧
      ¬Tournament.OneWay (disksOf [2] [1] [2]).Same fun a b => (a, b) ∈ suggestions := by
  refine ⟨?_, ?_⟩
  · obtain ⟨⟨fuel, suggestions, hs⟩, hspec⟩ := processRes_spec mesh_abc
      (disksOf [2, 0, 1] [1, 2, 0] [0, 1, 2]) (show "a" ∈ _ by simp)
      fun _ => mem_diskfulPeers_meshStatus
    obtain ⟨oos, hvalued, hkeys, rfl⟩ := hspec fuel suggestions hs
    refine ⟨fuel, _, hs, fun h => ?_⟩
    have hmem := @mem_resyncSuggestions _ _ _ _ _ _ _ "a" hvalued hkeys
    have hab := (@hmem "a" "b").2 (by decide +kernel)
    have hbc := (@hmem "b" "c").2 (by decide +kernel)
    have hca := (@hmem "c" "a").2 (by decide +kernel)
    exact h "a" (((Relation.TransGen.single hab).tail hbc).tail hca)
  · obtain ⟨⟨fuel, suggestions, hs⟩, hspec⟩ := processRes_spec mesh_abc
      { disksOf [2] [1] [2] with entropy := fun _ => 0 } (show "a" ∈ _ by simp)
      fun _ => mem_diskfulPeers_meshStatus
    obtain ⟨oos, hvalued, hkeys, rfl⟩ := hspec fuel suggestions hs
    refine ⟨fuel, _, hs, fun h => ?_⟩
    have hmem := @mem_resyncSuggestions _ _ _ _ _ _ _ "a" hvalued hkeys
    have hab := (@hmem "a" "b").2 (by decide +kernel)
    have hbc := (@hmem "b" "c").2 (by decide +kernel)
    exact h "a" "b" "c" "b" hab hbc (by decide) (by decide)

end Samples

end DrbdUtils.Verify
