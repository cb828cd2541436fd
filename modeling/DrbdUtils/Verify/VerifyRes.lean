import Mathlib.Data.Finset.Powerset
import Mathlib.Data.Finset.Sort
import Mathlib.Order.Basic
import Mathlib.Data.String.Basic

/-!
# Which pairs drbd-verify verifies

`verify_res()` of `drbd-verify.py` verifies this host against its diskful peers, and then runs the
program on each of them, with the peers that come behind it in the list as `--peers`.  A remote run
is the same `verify_res()` on another host: the flag `--level2` is passed to it and not looked at.
The runs nest; `fuel` bounds the depth.

* `verifyRes_spec` — the pairs a run verifies, and how often it starts a verify.
* `verifyRes_verifiesOnce_iff` — each pair is verified once exactly for at most three nodes.
-/

set_option autoImplicit false

namespace DrbdUtils.Verify

/-! ## The program -/

/-- A host by its name. -/
abbrev Host := String

instance : IsTrans Host (· ≤ ·) := ⟨fun _ _ _ => le_trans⟩
instance : Std.Antisymm (fun a b : Host => a ≤ b) := ⟨fun _ _ => le_antisymm⟩
instance : Std.Total (fun a b : Host => a ≤ b) := ⟨le_total⟩

/-- A connection in `drbdsetup status --json`. -/
structure PeerJson where
  name : Host
  peerDiskState : String
  replicationState : String := "Established"

/-- A resource in `drbdsetup status --json`. -/
structure ResJson where
  diskState : String
  connections : List PeerJson

/-- A dictionary from sets of hosts to out-of-sync counts, in the order of insertion. -/
abbrev OosDict := List (Finset Host × Nat)

/-- `d[key] = value`. -/
def OosDict.set (d : OosDict) (key : Finset Host) (value : Nat) : OosDict :=
  if key ∈ d.map Prod.fst then d.map fun e => if e.1 = key then (key, value) else e
  else d ++ [(key, value)]

/-- `d.update(e)`. -/
def OosDict.update (d e : OosDict) : OosDict := e.foldl (fun d x => d.set x.1 x.2) d

/-- `','.join(sorted(k))`, in `frozenset_to_json_key`. -/
def frozensetToJsonKey (k : Finset Host) : String :=
  String.ofList ([','].intercalate ((k.sort (· ≤ ·)).map String.toList))

/-- `frozenset(key_str.split(','))`, in `json_key_to_frozenset`. -/
def jsonKeyToFrozenset (key : String) : Finset Host :=
  ((key.toList.splitOn ',').map String.ofList).toFinset

/-- What the remote run prints, as `json_key_to_frozenset` reads it. -/
def OosDict.viaJson (d : OosDict) : OosDict :=
  (d.map fun e => (frozensetToJsonKey e.1, e.2)).map fun e => (jsonKeyToFrozenset e.1, e.2)

/-- What a run leaves: the verifies in the order in which they are started, on which host and
    against which peer, and the result. -/
structure Run where
  verifies : List (Host × Host) := []
  oos : OosDict := []

/-- `is_resource_ready`. -/
def isResourceReady (res : ResJson) : Bool :=
  res.connections.all (·.replicationState = "Established")

section Program

variable (status : Host → ResJson) (oos : Host → Host → Nat)

/-- The peers that pass the filter and have a disk. -/
def diskfulPeers (host : Host) (peers : List Host) : List Host :=
  ((status host).connections.filter fun peer =>
    !(!peers.isEmpty && peer.name ∉ peers) &&
      !(peer.peerDiskState = "Diskless" || peer.peerDiskState = "DUnknown")).map (·.name)

/-- The loop over the local connections: `verify_peer` for each. -/
def verifyLocal (host : Host) (diskful : List Host) : Run where
  verifies := diskful.map fun peer => (host, peer)
  oos := diskful.foldl (fun d peer => d.set {host, peer} (oos host peer)) []

/-- The loop over the remote runs; `remote` is the program on a peer with a list of peers. -/
def verifyRemotes (remote : Host → List Host → Option Run) : List Host → Run → Option Run
  | [], run => some run
  | [_], run => some run
  | peer :: peers, run => do
    let result ← remote peer peers
    verifyRemotes remote peers
      { verifies := run.verifies ++ result.verifies, oos := run.oos.update result.oos.viaJson }

/-- `verify_res`, on a host with a list of peers (none if it is empty). -/
def verifyRes : Nat → Host → List Host → Option Run
  | 0, _, _ => none
  | fuel + 1, host, peers =>
    if (status host).diskState = "Diskless" then some {}
    else
      let diskful := diskfulPeers status host peers
      -- a resource that is not ready is left out of the result, which ends the caller
      verifyRemotes (fun peer peers =>
          if isResourceReady (status peer) then verifyRes fuel peer peers else none)
        diskful (verifyLocal oos host diskful)

end Program

/-! ## Dictionaries -/

section Dict

variable {d e : OosDict} {key k : Finset Host} {value : Nat}

/-- The keys of a dictionary. -/
def OosDict.keys (d : OosDict) : List (Finset Host) := d.map Prod.fst

theorem OosDict.keys_set (d : OosDict) (key : Finset Host) (value : Nat) :
    (d.set key value).keys = if key ∈ d.keys then d.keys else d.keys ++ [key] := by
  unfold OosDict.set OosDict.keys
  split
  · rw [List.map_map]
    refine List.map_congr_left fun x _ => ?_
    by_cases hx : x.1 = key
    · simp [hx]
    · simp [hx]
  · simp

theorem OosDict.toFinset_keys_set (d : OosDict) (key : Finset Host) (value : Nat) :
    (d.set key value).keys.toFinset = insert key d.keys.toFinset := by
  rw [OosDict.keys_set]
  split
  · next h => rw [Finset.insert_eq_of_mem (List.mem_toFinset.2 h)]
  · rw [List.toFinset_append, List.toFinset_cons, List.toFinset_nil, insert_empty_eq,
      Finset.union_comm]
    rfl

theorem OosDict.nodup_keys_set (h : d.keys.Nodup) (key : Finset Host) (value : Nat) :
    (d.set key value).keys.Nodup := by
  rw [OosDict.keys_set]
  split
  · exact h
  · next hk =>
    rw [List.nodup_append]
    exact ⟨h, List.nodup_singleton key, fun x hx y hy hxy =>
      hk (List.mem_singleton.1 hy ▸ hxy ▸ hx)⟩

theorem OosDict.toFinset_keys_update (d e : OosDict) :
    (d.update e).keys.toFinset = d.keys.toFinset ∪ e.keys.toFinset := by
  unfold OosDict.update
  induction e generalizing d with
  | nil => simp [OosDict.keys]
  | cons x e ih =>
    rw [List.foldl_cons, ih, OosDict.toFinset_keys_set]
    simp [OosDict.keys]

theorem OosDict.nodup_keys_update (h : d.keys.Nodup) (e : OosDict) : (d.update e).keys.Nodup := by
  unfold OosDict.update
  induction e generalizing d with
  | nil => exact h
  | cons x e ih => exact ih (OosDict.nodup_keys_set h x.1 x.2)

/-- Names without commas come back from their key. -/
theorem jsonKeyToFrozenset_frozensetToJsonKey (hne : k.Nonempty)
    (hcomma : ∀ host ∈ k, ',' ∉ host.toList) :
    jsonKeyToFrozenset (frozensetToJsonKey k) = k := by
  have hnil : (k.sort (· ≤ ·)).map String.toList ≠ [] := by
    rw [Ne, List.map_eq_nil_iff, ← List.length_eq_zero_iff, Finset.length_sort]
    exact hne.card_pos.ne'
  have hno : ∀ l ∈ (k.sort (· ≤ ·)).map String.toList, ',' ∉ l := by
    intro l hl
    obtain ⟨host, hhost, rfl⟩ := List.mem_map.1 hl
    exact hcomma host ((Finset.mem_sort _).1 hhost)
  unfold jsonKeyToFrozenset frozensetToJsonKey
  rw [String.toList_ofList, List.splitOn_intercalate ',' hno hnil, List.map_map]
  have hid : String.ofList ∘ String.toList = id := funext fun s => String.ofList_toList
  rw [hid, List.map_id, Finset.sort_toFinset]

theorem OosDict.viaJson_eq (h : ∀ k ∈ d.keys, k.Nonempty ∧ ∀ host ∈ k, ',' ∉ host.toList) :
    d.viaJson = d := by
  unfold OosDict.viaJson
  rw [List.map_map]
  refine (List.map_congr_left fun x hx => ?_).trans (List.map_id d)
  obtain ⟨hne, hcomma⟩ := h x.1 (List.mem_map_of_mem hx)
  simp [jsonKeyToFrozenset_frozensetToJsonKey hne hcomma]

end Dict

/-! ## The pairs of a run -/

/-- The pair of a verify. -/
def pairOf (x : Host × Host) : Finset Host := {x.1, x.2}

/-- The pairs that were verified. -/
def Run.pairs (run : Run) : List (Finset Host) := run.verifies.map pairOf

/-- The unordered pairs of a set of hosts. -/
def pairs (hosts : Finset Host) : Finset (Finset Host) := hosts.powersetCard 2

/-- **What a run on a host does** with a list of diskful peers: it verifies the pairs of all of them,
and the number of verifies doubles with every peer. -/
structure RunSpec (host : Host) (diskful : List Host) (run : Run) : Prop where
  pairs : run.pairs.toFinset = pairs (insert host diskful.toFinset)
  keys : run.oos.keys.toFinset = Verify.pairs (insert host diskful.toFinset)
  nodup : run.oos.keys.Nodup
  length : run.verifies.length + 1 = 2 ^ diskful.length

theorem RunSpec.perm {host : Host} {l l' : List Host} {run : Run} (h : RunSpec host l run)
    (hl : l.Perm l') : RunSpec host l' run := by
  have heq : l.toFinset = l'.toFinset := List.toFinset_eq_of_perm l l' hl
  exact ⟨heq ▸ h.pairs, heq ▸ h.keys, h.nodup, hl.length_eq ▸ h.length⟩

theorem pairs_insert {host : Host} {hosts : Finset Host} (h : host ∉ hosts) :
    pairs (insert host hosts) = pairs hosts ∪ hosts.image fun peer => {host, peer} := by
  unfold pairs
  rw [Finset.powersetCard_succ_insert h, Finset.powersetCard_one, Finset.map_eq_image,
    Finset.image_image]
  rfl

theorem pairs_of_card_lt {hosts : Finset Host} (h : hosts.card < 2) : pairs hosts = ∅ :=
  Finset.powersetCard_eq_empty.2 h

theorem pairs_mono {s t : Finset Host} (h : s ⊆ t) : pairs s ⊆ pairs t :=
  Finset.powersetCard_mono h

section Local

variable {oos : Host → Host → Nat} {host : Host}

theorem verifyLocal_pairs (diskful : List Host) :
    (verifyLocal oos host diskful).pairs.toFinset =
      diskful.toFinset.image fun peer => {host, peer} := by
  unfold Run.pairs verifyLocal
  rw [List.map_map]
  ext k
  simp [pairOf]

theorem verifyLocal_keys (diskful : List Host) :
    (verifyLocal oos host diskful).oos.keys.toFinset =
        (diskful.toFinset.image fun peer => {host, peer}) ∧
      (verifyLocal oos host diskful).oos.keys.Nodup := by
  have key : ∀ (l : List Host) (d : OosDict), d.keys.Nodup →
      (l.foldl (fun d peer => d.set {host, peer} (oos host peer)) d).keys.toFinset =
          d.keys.toFinset ∪ (l.toFinset.image fun peer => {host, peer}) ∧
        (l.foldl (fun d peer => d.set {host, peer} (oos host peer)) d).keys.Nodup := by
    intro l
    induction l with
    | nil => exact fun d hd => ⟨by simp, hd⟩
    | cons peer l ih =>
      intro d hd
      obtain ⟨h1, h2⟩ := ih (d.set {host, peer} (oos host peer)) (OosDict.nodup_keys_set hd _ _)
      rw [List.foldl_cons]
      refine ⟨?_, h2⟩
      rw [h1, OosDict.toFinset_keys_set]
      simp
  have h := key diskful [] (by simp [OosDict.keys])
  have hnil : (OosDict.keys []).toFinset = ∅ := rfl
  rw [hnil, Finset.empty_union] at h
  exact h

end Local

/-- **The remote runs**, by induction on the peers: each verifies its own host and the peers behind
it, so that everything is verified again in the runs that these start. -/
theorem verifyRemotes_spec {remote : Host → List Host → Option Run} {diskful : List Host}
    (hnd : diskful.Nodup) (hcomma : ∀ host ∈ diskful, ',' ∉ host.toList)
    (hremote : ∀ peer peers, peers ≠ [] → peer :: peers <:+ diskful →
      ∃ run, remote peer peers = some run ∧ RunSpec peer peers run)
    (run : Run) (hrun : run.oos.keys.Nodup) :
    ∃ run', verifyRemotes remote diskful run = some run' ∧
      run'.pairs.toFinset = run.pairs.toFinset ∪ pairs diskful.toFinset ∧
      run'.oos.keys.toFinset = run.oos.keys.toFinset ∪ pairs diskful.toFinset ∧
      run'.oos.keys.Nodup ∧
      run'.verifies.length + diskful.length + 1 = run.verifies.length + 2 ^ diskful.length := by
  induction diskful generalizing run with
  | nil =>
    have hempty : pairs ([] : List Host).toFinset = ∅ := pairs_of_card_lt (by simp)
    exact ⟨run, rfl, by rw [hempty]; simp, by rw [hempty]; simp, hrun, by simp⟩
  | cons peer peers ih =>
    rw [List.nodup_cons] at hnd
    cases peers with
    | nil =>
      have hempty : pairs [peer].toFinset = ∅ := pairs_of_card_lt (by simp)
      exact ⟨run, rfl, by rw [hempty]; simp, by rw [hempty]; simp, hrun, by simp⟩
    | cons next rest =>
      obtain ⟨result, hresult, hspec⟩ := hremote peer (next :: rest) (by simp) (List.suffix_refl _)
      have hjson : result.oos.viaJson = result.oos := by
        refine OosDict.viaJson_eq fun k hk => ?_
        have hmem := List.mem_toFinset.2 hk
        rw [hspec.keys, pairs, Finset.mem_powersetCard] at hmem
        refine ⟨Finset.card_pos.1 (by omega), fun host hhost => hcomma host ?_⟩
        have := hmem.1 hhost
        rwa [← List.toFinset_cons, List.mem_toFinset] at this
      obtain ⟨run', hrun', h1, h2, h3, h4⟩ := ih hnd.2
        (fun host hhost => hcomma host (List.mem_cons_of_mem peer hhost))
        (fun p ps hne hs => hremote p ps hne (hs.trans (List.suffix_cons peer _)))
        { verifies := run.verifies ++ result.verifies, oos := run.oos.update result.oos.viaJson }
        (OosDict.nodup_keys_update hrun _)
      have hsub : pairs (next :: rest).toFinset ⊆ pairs (peer :: next :: rest).toFinset := by
        rw [List.toFinset_cons (a := peer)]
        exact pairs_mono (Finset.subset_insert _ _)
      refine ⟨run', ?_, ?_, ?_, h3, ?_⟩
      · rw [verifyRemotes, hresult]
        · exact hrun'
        · simp
      · have hp : (Run.pairs ⟨run.verifies ++ result.verifies, run.oos.update result.oos.viaJson⟩).toFinset
            = run.pairs.toFinset ∪ result.pairs.toFinset := by
          unfold Run.pairs
          rw [List.map_append, List.toFinset_append]
        rw [h1, hp, hspec.pairs, ← List.toFinset_cons, Finset.union_assoc,
          Finset.union_eq_left.2 hsub]
      · rw [h2, OosDict.toFinset_keys_update, hjson, hspec.keys, ← List.toFinset_cons,
          Finset.union_assoc, Finset.union_eq_left.2 hsub]
      · have hlen := hspec.length
        simp only [List.length_append, List.length_cons] at h4 hlen ⊢
        have hpow : 2 ^ (rest.length + 1 + 1) = 2 * 2 ^ (rest.length + 1) := by rw [pow_succ]; omega
        omega

section Cluster

variable {status : Host → ResJson} {oos : Host → Host → Nat} {hosts : Finset Host} {host : Host}
  {peers : List Host}

/-- **A cluster of diskful nodes**, all of them connected, as each of them sees it.  Others may be
there too.  A host name has no comma. -/
structure Mesh (status : Host → ResJson) (hosts : Finset Host) : Prop where
  diskful : ∀ host ∈ hosts, (status host).diskState ≠ "Diskless"
  ready : ∀ host ∈ hosts, isResourceReady (status host) = true
  nodup : ∀ host ∈ hosts, ((status host).connections.map (·.name)).Nodup
  other : ∀ host ∈ hosts, ∀ peer ∈ (status host).connections, peer.name ≠ host
  connected : ∀ host ∈ hosts, ∀ name ∈ hosts, name ≠ host →
    ∃ peer ∈ (status host).connections, peer.name = name ∧
      peer.peerDiskState ≠ "Diskless" ∧ peer.peerDiskState ≠ "DUnknown"
  comma : ∀ host ∈ hosts, ',' ∉ host.toList

theorem nodup_diskfulPeers (h : Mesh status hosts) (hhost : host ∈ hosts) (peers : List Host) :
    (diskfulPeers status host peers).Nodup :=
  (h.nodup host hhost).sublist (List.filter_sublist.map _)

theorem mem_diskfulPeers {name : Host} : name ∈ diskfulPeers status host peers ↔
    ∃ peer ∈ (status host).connections, (peers = [] ∨ peer.name ∈ peers) ∧
      peer.peerDiskState ≠ "Diskless" ∧ peer.peerDiskState ≠ "DUnknown" ∧ peer.name = name := by
  unfold diskfulPeers
  simp only [List.mem_map, List.mem_filter, Bool.and_eq_true, Bool.not_eq_true', Bool.and_eq_false_iff,
    Bool.not_eq_false', List.isEmpty_iff, decide_eq_false_iff_not, Classical.not_not,
    Bool.or_eq_false_iff, and_assoc, ne_eq]

/-- In a run with a list of peers, the diskful peers are the ones of the list. -/
theorem diskfulPeers_perm (h : Mesh status hosts) (hhost : host ∈ hosts) (hne : peers ≠ [])
    (hnd : (host :: peers).Nodup) (hsub : ∀ peer ∈ peers, peer ∈ hosts) :
    (diskfulPeers status host peers).Perm peers := by
  rw [List.nodup_cons] at hnd
  rw [List.perm_ext_iff_of_nodup (nodup_diskfulPeers h hhost peers) hnd.2]
  intro name
  rw [mem_diskfulPeers]
  constructor
  · rintro ⟨peer, -, hp | hp, -, -, rfl⟩
    · exact absurd hp hne
    · exact hp
  · intro hname
    have hneq : name ≠ host := fun hc => hnd.1 (hc ▸ hname)
    obtain ⟨peer, hpeer, rfl, h1, h2⟩ := h.connected host hhost name (hsub name hname) hneq
    exact ⟨peer, hpeer, .inr hname, h1, h2, rfl⟩

/-- **What a run on a host does**, by induction on the depth of the remote runs. -/
theorem verifyRes_spec (peers : List Host) (h : Mesh status hosts) (oos : Host → Host → Nat) {fuel : Nat}
    (hhost : host ∈ hosts) (hdisk : ∀ peer ∈ diskfulPeers status host peers, peer ∈ hosts)
    (hfuel : (diskfulPeers status host peers).length < fuel) :
    ∃ run, verifyRes status oos fuel host peers = some run ∧
      RunSpec host (diskfulPeers status host peers) run := by
  induction fuel generalizing host peers with
  | zero => omega
  | succ fuel ih =>
    have hnd := nodup_diskfulPeers h hhost peers
    have hother : host ∉ (diskfulPeers status host peers).toFinset := by
      rw [List.mem_toFinset, mem_diskfulPeers]
      rintro ⟨peer, hpeer, -, -, -, hname⟩
      exact h.other host hhost peer hpeer hname
    unfold verifyRes
    rw [if_neg (h.diskful host hhost)]
    dsimp only
    generalize diskfulPeers status host peers = diskful at hnd hother hdisk hfuel ⊢
    have hremote : ∀ peer ps, ps ≠ [] → peer :: ps <:+ diskful →
        ∃ run, (if isResourceReady (status peer) then verifyRes status oos fuel peer ps else none) =
          some run ∧ RunSpec peer ps run := by
      intro peer ps hne hs
      have hmem : ∀ name ∈ peer :: ps, name ∈ hosts := fun name hname => hdisk name (hs.subset hname)
      have hperm := diskfulPeers_perm h (hmem peer List.mem_cons_self) hne (hs.sublist.nodup hnd)
        (fun name hname => hmem name (List.mem_cons_of_mem peer hname))
      have hlen := hs.length_le
      rw [List.length_cons] at hlen
      obtain ⟨run, hrun, hspec⟩ := ih ps (hmem peer List.mem_cons_self)
        (fun name hname => hmem name (List.mem_cons_of_mem peer (hperm.mem_iff.1 hname)))
        (by rw [hperm.length_eq]; omega)
      refine ⟨run, ?_, hspec.perm hperm⟩
      rw [if_pos (h.ready peer (hmem peer List.mem_cons_self))]
      exact hrun
    obtain ⟨hk1, hk2⟩ := @verifyLocal_keys oos host diskful
    obtain ⟨run, hrun, h1, h2, h3, h4⟩ := verifyRemotes_spec hnd
      (fun name hname => h.comma name (hdisk name hname)) hremote (verifyLocal oos host diskful) hk2
    refine ⟨run, hrun, ?_, ?_, h3, ?_⟩
    · rw [h1, verifyLocal_pairs, pairs_insert hother, Finset.union_comm]
    · rw [h2, hk1, pairs_insert hother, Finset.union_comm]
    · have hlocal : (verifyLocal oos host diskful).verifies.length = diskful.length := by
        simp [verifyLocal]
      omega

theorem verifyRemotes_mono {remote remote' : Host → List Host → Option Run}
    (h : ∀ peer peers run, remote peer peers = some run → remote' peer peers = some run)
    {diskful : List Host} {run result : Run} (hr : verifyRemotes remote diskful run = some result) :
    verifyRemotes remote' diskful run = some result := by
  induction diskful generalizing run with
  | nil => exact hr
  | cons peer peers ih =>
    cases peers with
    | nil => exact hr
    | cons next rest =>
      unfold verifyRemotes at hr ⊢
      obtain ⟨r, h1, h2⟩ := Option.bind_eq_some_iff.1 hr
      rw [h peer (next :: rest) r h1]
      exact ih h2

/-- More fuel does not change a result. -/
theorem verifyRes_mono {fuel fuel' : Nat} (hle : fuel ≤ fuel') {run : Run}
    (h : verifyRes status oos fuel host peers = some run) :
    verifyRes status oos fuel' host peers = some run := by
  induction fuel generalizing host peers run fuel' with
  | zero => cases h
  | succ fuel ih =>
    obtain ⟨fuel', rfl⟩ : ∃ n, fuel' = n + 1 := ⟨fuel' - 1, by omega⟩
    unfold verifyRes at h ⊢
    split at h
    · next hd => rwa [if_pos hd]
    · next hd =>
      rw [if_neg hd]
      refine verifyRemotes_mono (fun peer ps r hr => ?_) h
      split at hr
      · next hready =>
        rw [if_pos hready]
        exact ih (by omega) hr
      · cases hr

end Cluster

/-! ## Each pair once -/

/-- **Each pair of the hosts is verified once**, no other one is, and the result has the pairs as its
keys. -/
structure VerifiesOnce (hosts : Finset Host) (run : Run) : Prop where
  once : ∀ k ∈ pairs hosts, run.pairs.count k = 1
  only : ∀ k ∈ run.pairs, k ∈ pairs hosts
  keys : run.oos.keys.toFinset = pairs hosts
  nodup : run.oos.keys.Nodup

theorem card_pairs (hosts : Finset Host) : (pairs hosts).card = hosts.card.choose 2 :=
  Finset.card_powersetCard 2 hosts

/-- There are fewer pairs than verifies from the fourth node on. -/
theorem choose_two_lt {n : Nat} (h : 4 ≤ n) : n.choose 2 + 1 < 2 ^ (n - 1) := by
  induction n, h using Nat.le_induction with
  | base => decide
  | succ n hn ih =>
    have hstep : (n + 1).choose 2 = n + n.choose 2 := by
      rw [Nat.choose_succ_succ' n 1, Nat.choose_one_right]
    have hpow : 2 ^ (n + 1 - 1) = 2 * 2 ^ (n - 1) := by
      rw [← pow_succ']
      congr 1
      omega
    have hlin : n ≤ 2 ^ (n - 1) := by
      have := Nat.lt_two_pow_self (n := n - 1)
      omega
    omega

theorem choose_two_eq {n : Nat} (h0 : 0 < n) (h : n ≤ 3) : n.choose 2 + 1 = 2 ^ (n - 1) := by
  obtain rfl | rfl | rfl : n = 1 ∨ n = 2 ∨ n = 3 := by omega
  · rfl
  · rfl
  · rfl

theorem RunSpec.verifiesOnce_iff {hosts : Finset Host} {host : Host} {diskful : List Host} {run : Run}
    (h : RunSpec host diskful run) (hnd : diskful.Nodup)
    (hmem : ∀ name, name ∈ diskful ↔ name ∈ hosts ∧ name ≠ host) (hhost : host ∈ hosts) :
    VerifiesOnce hosts run ↔ hosts.card ≤ 3 := by
  have hhosts : insert host diskful.toFinset = hosts := by
    ext name
    rw [Finset.mem_insert, List.mem_toFinset, hmem]
    constructor
    · rintro (rfl | h)
      · exact hhost
      · exact h.1
    · intro hname
      by_cases hc : name = host
      · exact .inl hc
      · exact .inr ⟨hname, hc⟩
  have hcard : hosts.card = diskful.length + 1 := by
    rw [← hhosts, Finset.card_insert_of_notMem, List.toFinset_card_of_nodup hnd]
    rw [List.mem_toFinset, hmem]
    exact fun hc => hc.2 rfl
  have hpairs := h.pairs
  have hkeys := h.keys
  have hlen : run.pairs.length + 1 = 2 ^ (hosts.card - 1) := by
    rw [Run.pairs, List.length_map, h.length, hcard, Nat.add_sub_cancel]
  rw [hhosts] at hpairs hkeys
  -- the pairs are verified once if there are as many verifies as pairs
  constructor
  · intro honce
    by_contra hc
    have hnodup : run.pairs.Nodup := by
      rw [List.nodup_iff_count_le_one]
      intro k
      by_cases hk : k ∈ run.pairs
      · exact (honce.once k (honce.only k hk)).le
      · rw [List.count_eq_zero.2 hk]
        omega
    have := List.toFinset_card_of_nodup hnodup
    rw [hpairs, card_pairs] at this
    have := choose_two_lt (n := hosts.card) (by omega)
    omega
  · intro hle
    have hchoose := choose_two_eq (Finset.card_pos.2 ⟨host, hhost⟩) hle
    have hnodup : run.pairs.Nodup := by
      rw [← Multiset.coe_nodup, ← Multiset.toFinset_card_eq_card_iff_nodup]
      change run.pairs.toFinset.card = run.pairs.length
      rw [hpairs, card_pairs]
      omega
    refine ⟨fun k hk => ?_, fun k hk => ?_, hkeys, h.nodup⟩
    · rw [← hpairs, List.mem_toFinset] at hk
      exact List.count_eq_one_of_mem hnodup hk
    · rw [← hpairs, List.mem_toFinset]
      exact hk

/-- **Each pair is verified once** exactly for at most three nodes: a run with `--level2` starts
remote runs too. -/
theorem verifyRes_verifiesOnce_iff {status : Host → ResJson} {hosts : Finset Host}
    (h : Mesh status hosts) (oos : Host → Host → Nat) {host : Host} (hhost : host ∈ hosts)
    (peers : List Host)
    (hpeers : ∀ name, name ∈ diskfulPeers status host peers ↔ name ∈ hosts ∧ name ≠ host) :
    (∃ fuel run, verifyRes status oos fuel host peers = some run) ∧
      ∀ fuel run, verifyRes status oos fuel host peers = some run →
        (VerifiesOnce hosts run ↔ hosts.card ≤ 3) := by
  obtain ⟨run, hrun, hspec⟩ := verifyRes_spec peers h oos hhost
    (fun name hname => ((hpeers name).1 hname).1) (Nat.lt_succ_self _)
  refine ⟨⟨_, run, hrun⟩, fun fuel run' hrun' => ?_⟩
  have h1 := verifyRes_mono (le_max_left fuel (diskfulPeers status host peers).length.succ) hrun'
  have h2 := verifyRes_mono (le_max_right fuel _) hrun
  obtain rfl := Option.some.inj (h1.symm.trans h2)
  exact hspec.verifiesOnce_iff (nodup_diskfulPeers h hhost peers) hpeers hhost

/-! ### Clusters of three and four nodes -/

/-- The status on each host of a cluster of connected, diskful hosts. -/
def meshStatus (hosts : List Host) (host : Host) : ResJson where
  diskState := "UpToDate"
  connections := (hosts.filter (· ≠ host)).map fun name => { name, peerDiskState := "UpToDate" }

theorem meshStatus_mesh {hosts : List Host} (hnd : hosts.Nodup)
    (hcomma : ∀ host ∈ hosts, ',' ∉ host.toList) : Mesh (meshStatus hosts) hosts.toFinset where
  diskful _ _ := by simp [meshStatus]
  ready _ _ := by simp [meshStatus, isResourceReady]
  nodup host _ := by
    have hmap : (meshStatus hosts host).connections.map (·.name) = hosts.filter (· ≠ host) := by
      rw [meshStatus, List.map_map]
      exact List.map_id _
    rw [hmap]
    exact hnd.filter _
  other host _ peer hpeer := by
    obtain ⟨name, hname, rfl⟩ := List.mem_map.1 hpeer
    simpa using (List.mem_filter.1 hname).2
  connected host _ name hname hne := by
    refine ⟨{ name, peerDiskState := "UpToDate" }, List.mem_map_of_mem ?_, rfl, by simp, by simp⟩
    exact List.mem_filter.2 ⟨List.mem_toFinset.1 hname, by simpa using hne⟩
  comma host hhost := hcomma host (List.mem_toFinset.1 hhost)

theorem mem_diskfulPeers_meshStatus {hosts : List Host} {host name : Host} :
    name ∈ diskfulPeers (meshStatus hosts) host [] ↔ name ∈ hosts.toFinset ∧ name ≠ host := by
  rw [mem_diskfulPeers, List.mem_toFinset]
  constructor
  · rintro ⟨peer, hpeer, -, -, -, rfl⟩
    obtain ⟨name, hname, rfl⟩ := List.mem_map.1 hpeer
    simpa using List.mem_filter.1 hname
  · rintro ⟨hname, hne⟩
    refine ⟨{ name, peerDiskState := "UpToDate" }, List.mem_map_of_mem ?_, .inl rfl, by simp,
      by simp, rfl⟩
    exact List.mem_filter.2 ⟨hname, by simpa using hne⟩

/-- Three nodes: each of the three pairs is verified once. -/
theorem verifyRes_verifiesOnce_three : ∃ fuel run,
    verifyRes (meshStatus ["a", "b", "c"]) (fun _ _ => 0) fuel "a" [] = some run ∧
      VerifiesOnce ["a", "b", "c"].toFinset run := by
  have h : Mesh (meshStatus ["a", "b", "c"]) ["a", "b", "c"].toFinset :=
    meshStatus_mesh (by decide) (by decide)
  obtain ⟨⟨fuel, run, hrun⟩, hiff⟩ := verifyRes_verifiesOnce_iff h (fun _ _ => 0)
    (show "a" ∈ _ by simp) [] fun _ => mem_diskfulPeers_meshStatus
  exact ⟨fuel, run, hrun, (hiff fuel run hrun).2 (by decide)⟩

/-- Four nodes: the pair of the last two is verified by the run on this host's second peer and by the
one that its first peer starts. -/
theorem verifyRes_verifies_twice : ∃ fuel run,
    verifyRes (meshStatus ["a", "b", "c", "d"]) (fun _ _ => 0) fuel "a" [] = some run ∧
      run.pairs.count {"c", "d"} = 2 ∧ ¬VerifiesOnce ["a", "b", "c", "d"].toFinset run := by
  refine ⟨4, _, rfl, ?_, ?_⟩
  · decide
  · intro h
    exact absurd (h.once {"c", "d"} (by decide)) (by decide)

end DrbdUtils.Verify
