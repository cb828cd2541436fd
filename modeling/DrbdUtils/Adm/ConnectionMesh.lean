import DrbdUtils.Adm.PostParse
import Mathlib.Data.List.Count
import Mathlib.Algebra.BigOperators.Group.List.Basic
import Mathlib.Tactic.Ring

/-!
# connection-mesh

`create_connections_from_mesh()` of `drbdadm_postparse.c` and the loop of `post_parse()` over the
meshes of a resource.

* `createFromMesh_connections` — a mesh adds one connection for each pair of its list.
* `countP_meshPairs` — how many of them connect the same two hosts.
* `completeGraph_iff` — when the meshes make a complete graph.
-/

set_option autoImplicit false

namespace DrbdUtils.Adm.PostParse

/-! ## The program -/

/-- What the loops change: the connections of the resource and `config_valid`. -/
structure MeshState where
  connections : List Connection
  configValid : Bool
  deriving DecidableEq, Repr

/-- `find_host_info_or_invalid`. -/
def findHostInfoOrInvalid (allHosts : List HostInfo) (name : Text) (configValid : Bool) :
    Option Nat × Bool :=
  match findHostInfoByName allHosts name with
  | none => (none, false)
  | some i =>
    match allHosts[i]? with
    | some host => (some i, configValid && !host.proxyCompatOnly)
    | none => (some i, configValid)

/-- An endpoint of a connection of a mesh. -/
def meshEndpoint (allHosts : List HostInfo) (i : Nat) : HnameAddress where
  name := ((allHosts[i]?.map (·.onHosts)).bind List.head?).getD []
  hostInfo := some i

section Loops

variable (isEqual : DOption → DOption → Bool) (allHosts : List HostInfo) (netOptions : List DOption)

/-- The connection that is made for two hosts of a mesh. -/
def meshConnection (p : Nat × Nat) : Connection where
  paths := [{ hnameAddressPairs := [meshEndpoint allHosts p.1, meshEndpoint allHosts p.2]
              implicit := true }]
  netOptions := (expandOpts (some isEqual) netOptions []).1
  implicit := true

/-- The inner loop; `false` where a name is unknown. -/
def meshInner (hi1 : Nat) : List Text → MeshState → MeshState × Bool
  | [], st => (st, true)
  | hname2 :: rest, st =>
    match findHostInfoOrInvalid allHosts hname2 st.configValid with
    | (none, configValid) => ({ st with configValid := configValid }, false)
    | (some hi2, configValid) =>
      if hi1 = hi2 then meshInner hi1 rest { st with configValid := configValid }
      else
        meshInner hi1 rest
          { connections := st.connections ++ [meshConnection isEqual allHosts netOptions (hi1, hi2)]
            configValid := configValid && (expandOpts (some isEqual) netOptions []).2.isEmpty }

/-- `create_connections_from_mesh`. -/
def createConnectionsFromMesh : List Text → MeshState → MeshState
  | [], st => st
  | hname1 :: rest, st =>
    match findHostInfoOrInvalid allHosts hname1 st.configValid with
    | (none, configValid) => { st with configValid := configValid }
    | (some hi1, configValid) =>
      match meshInner isEqual allHosts netOptions hi1 rest { st with configValid := configValid } with
      | (st, true) => createConnectionsFromMesh rest st
      | (st, false) => st

end Loops

/-- The loop of `post_parse` over the meshes. -/
def createFromMeshes (isEqual : DOption → DOption → Bool) (allHosts : List HostInfo)
    (meshes : List Mesh) (st : MeshState) : MeshState :=
  meshes.foldl
    (fun st mesh => createConnectionsFromMesh isEqual allHosts mesh.netOptions mesh.hosts st) st

/-- `find_host_info_by_address`. -/
def findHostInfoByAddress (allHosts : List HostInfo) (address : DAddress) : Option Nat :=
  allHosts.findIdx? fun host =>
    match host.address with
    | some a => a.addr = address.addr ∧ a.af = address.af ∧ a.port = address.port
    | none => false

/-- The host of an endpoint, as `set_host_info_in_host_address_pairs` finds it. -/
def hostOf (allHosts : List HostInfo) (ha : HnameAddress) : Option Nat :=
  match ha.hostInfo, ha.byAddress, ha.address with
  | some i, _, _ => some i
  | none, true, some address => findHostInfoByAddress allHosts address
  | none, _, _ => findHostInfoByName allHosts ha.name

/-! ## What a mesh stands for -/

/-- The two hosts of a connection. -/
def endsOf (allHosts : List HostInfo) (conn : Connection) : Option (Nat × Nat) :=
  match conn.paths.head?.map (·.hnameAddressPairs) with
  | some [ha1, ha2] =>
    match hostOf allHosts ha1, hostOf allHosts ha2 with
    | some i, some j => some (i, j)
    | _, _ => none
  | _ => none

/-- The connection is one between two hosts, in any order. -/
def Connects (allHosts : List HostInfo) (i j : Nat) (conn : Connection) : Prop :=
  endsOf allHosts conn = some (i, j) ∨ endsOf allHosts conn = some (j, i)

instance (allHosts : List HostInfo) (i j : Nat) : DecidablePred (Connects allHosts i j) :=
  fun _ => inferInstanceAs (Decidable (_ ∨ _))

/-- The hosts that a mesh lists. -/
def Mesh.hostIds (allHosts : List HostInfo) (mesh : Mesh) : List Nat :=
  mesh.hosts.filterMap (findHostInfoByName allHosts)

/-- Two hosts are listed in one mesh. -/
def ShareMesh (allHosts : List HostInfo) (meshes : List Mesh) (i j : Nat) : Prop :=
  ∃ mesh ∈ meshes, i ∈ mesh.hostIds allHosts ∧ j ∈ mesh.hostIds allHosts

/-- The meshes add exactly what is missing of the complete graphs over their hosts. -/
structure CompleteGraph (allHosts : List HostInfo) (meshes : List Mesh)
    (explicit created : List Connection) : Prop where
  one : ∀ i j, i ≠ j → ShareMesh allHosts meshes i j →
    (∀ conn ∈ explicit, ¬Connects allHosts i j conn) →
      created.countP (Connects allHosts i j) = 1
  noOther : ∀ i j, i ≠ j →
    (¬ShareMesh allHosts meshes i j ∨ ∃ conn ∈ explicit, Connects allHosts i j conn) →
      created.countP (Connects allHosts i j) = 0
  noLoop : ∀ i, ∀ conn ∈ created, ¬Connects allHosts i i conn
  netOptions : ∀ conn ∈ created, ∃ mesh ∈ meshes, ∃ i ∈ mesh.hostIds allHosts,
    ∃ j ∈ mesh.hostIds allHosts, Connects allHosts i j conn ∧
      ∀ name, optValue conn.netOptions name = optValue mesh.netOptions name

/-- No two hosts come together twice. -/
structure TogetherOnce (allHosts : List HostInfo) (meshes : List Mesh)
    (explicit : List Connection) : Prop where
  /-- A mesh of more than one host lists each of them once. -/
  listed : ∀ mesh ∈ meshes, ∀ i ∈ mesh.hostIds allHosts, ∀ j ∈ mesh.hostIds allHosts, i ≠ j →
    (mesh.hostIds allHosts).count i = 1
  /-- Two meshes share at most one host. -/
  oneMesh : meshes.Pairwise fun m m' => ∀ i j, i ≠ j →
    i ∈ m.hostIds allHosts → j ∈ m.hostIds allHosts →
      i ∈ m'.hostIds allHosts → j ∉ m'.hostIds allHosts
  /-- There is no connection yet between two hosts of a mesh. -/
  fresh : ∀ i j, i ≠ j → ShareMesh allHosts meshes i j → ∀ conn ∈ explicit, ¬Connects allHosts i j conn

/-! ## The pairs of a list -/

/-- Each element with each later one that is not the same. -/
def meshPairs : List Nat → List (Nat × Nat)
  | [] => []
  | x :: l => (l.filter (x ≠ ·)).map (x, ·) ++ meshPairs l

theorem mem_meshPairs {l : List Nat} {p : Nat × Nat} (h : p ∈ meshPairs l) :
    p.1 ∈ l ∧ p.2 ∈ l ∧ p.1 ≠ p.2 := by
  induction l with
  | nil => cases h
  | cons x l ih =>
    rcases List.mem_append.1 h with h | h
    · obtain ⟨y, hy, rfl⟩ := List.mem_map.1 h
      obtain ⟨hmem, hne⟩ := List.mem_filter.1 hy
      exact ⟨List.mem_cons_self .., List.mem_cons_of_mem _ hmem, by simpa using hne⟩
    · obtain ⟨h1, h2, hne⟩ := ih h
      exact ⟨List.mem_cons_of_mem _ h1, List.mem_cons_of_mem _ h2, hne⟩

/-- The pairs of an element with one other. -/
theorem countP_partners {x y : Nat} (hxy : x ≠ y) (l : List Nat) {p : Nat × Nat → Bool}
    (hp : ∀ z, p (x, z) = true ↔ z = y) :
    ((l.filter (x ≠ ·)).map (x, ·)).countP p = l.count y := by
  rw [List.countP_map, List.countP_filter, List.count_eq_countP]
  refine List.countP_congr fun z _ => ?_
  rw [Bool.and_eq_true, Function.comp_apply, hp, decide_eq_true_eq, beq_iff_eq]
  exact ⟨fun h => h.1, fun h => ⟨h, h ▸ hxy⟩⟩

/-- Two elements are paired as often as they are listed together. -/
theorem countP_meshPairs (l : List Nat) {i j : Nat} (hij : i ≠ j) :
    (meshPairs l).countP (fun p => p = (i, j) ∨ p = (j, i)) = l.count i * l.count j := by
  induction l with
  | nil => rfl
  | cons x l ih =>
    rw [meshPairs, List.countP_append, ih, List.count_cons, List.count_cons]
    by_cases hi : x = i
    · rw [hi, countP_partners hij l fun z => by simp [hij], if_pos (beq_self_eq_true i),
        if_neg (by simpa using hij)]
      ring
    · by_cases hj : x = j
      · rw [hj, countP_partners hij.symm l fun z => by simp [hij.symm],
          if_pos (beq_self_eq_true j), if_neg (by simpa using hij.symm)]
        ring
      · have hnone : ((l.filter (x ≠ ·)).map (x, ·)).countP
            (fun p => p = (i, j) ∨ p = (j, i)) = 0 := by
          refine List.countP_eq_zero.2 fun p hp => ?_
          obtain ⟨z, -, rfl⟩ := List.mem_map.1 hp
          simp [hi, hj]
        rw [hnone, if_neg (by simpa using hi), if_neg (by simpa using hj)]
        ring

section Sum

variable {α : Type} {f : α → Nat}

theorem le_sum_map {l : List α} {a : α} (h : a ∈ l) : f a ≤ (l.map f).sum := by
  induction l with
  | nil => cases h
  | cons b l ih =>
    rw [List.map_cons, List.sum_cons]
    rcases List.mem_cons.1 h with rfl | h
    · exact Nat.le_add_right ..
    · exact Nat.le_add_left_of_le (ih h)

theorem sum_map_eq_zero {l : List α} (h : ∀ a ∈ l, f a = 0) : (l.map f).sum = 0 := by
  induction l with
  | nil => rfl
  | cons b l ih =>
    rw [List.map_cons, List.sum_cons, h b (List.mem_cons_self ..),
      ih fun a ha => h a (List.mem_cons_of_mem _ ha)]

/-- At most one term counts where the sum is at most one. -/
theorem pairwise_of_sum_le_one {l : List α} (h : (l.map f).sum ≤ 1) :
    l.Pairwise fun a b => f a = 0 ∨ f b = 0 := by
  induction l with
  | nil => exact List.Pairwise.nil
  | cons a l ih =>
    rw [List.map_cons, List.sum_cons] at h
    refine List.pairwise_cons.2 ⟨fun b hb => ?_, ih (by omega)⟩
    have hle := @le_sum_map α f l b hb
    omega

theorem sum_of_pairwise {l : List α} (h : l.Pairwise fun a b => f a = 0 ∨ f b = 0) {a : α}
    (ha : a ∈ l) (hne : f a ≠ 0) : (l.map f).sum = f a := by
  induction l with
  | nil => cases ha
  | cons b l ih =>
    obtain ⟨hhead, htail⟩ := List.pairwise_cons.1 h
    rw [List.map_cons, List.sum_cons]
    rcases List.mem_cons.1 ha with rfl | ha
    · rw [sum_map_eq_zero fun c hc => (hhead c hc).resolve_left hne, Nat.add_zero]
    · rw [ih htail ha, (hhead a ha).resolve_right hne, Nat.zero_add]

end Sum

/-! ## The loops -/

section Loops

variable {isEqual : DOption → DOption → Bool} {allHosts : List HostInfo} {netOptions : List DOption}

theorem findHostInfoOrInvalid_fst (allHosts : List HostInfo) (name : Text) (configValid : Bool) :
    (findHostInfoOrInvalid allHosts name configValid).1 = findHostInfoByName allHosts name := by
  unfold findHostInfoOrInvalid
  split
  · next h => rw [h]
  · next h =>
    rw [h]
    split <;> rfl

theorem meshInner_connections {hi1 : Nat} {names : List Text} (st : MeshState)
    (hknown : ∀ name ∈ names, findHostInfoByName allHosts name ≠ none) :
    (meshInner isEqual allHosts netOptions hi1 names st).2 = true ∧
      (meshInner isEqual allHosts netOptions hi1 names st).1.connections =
        st.connections ++ ((names.filterMap (findHostInfoByName allHosts)).filter (hi1 ≠ ·)).map
          fun j => meshConnection isEqual allHosts netOptions (hi1, j) := by
  induction names generalizing st with
  | nil => simp [meshInner]
  | cons hname2 rest ih =>
    have hrest : ∀ name ∈ rest, findHostInfoByName allHosts name ≠ none := fun name hname =>
      hknown name (List.mem_cons_of_mem _ hname)
    have hfst := findHostInfoOrInvalid_fst allHosts hname2 st.configValid
    rw [meshInner]
    cases hfind : findHostInfoOrInvalid allHosts hname2 st.configValid with
    | mk found configValid =>
      rw [hfind] at hfst
      cases found with
      | none => exact absurd hfst.symm (hknown hname2 (List.mem_cons_self ..))
      | some hi2 =>
        dsimp only
        rw [List.filterMap_cons_some hfst.symm]
        by_cases heq : hi1 = hi2
        · rw [if_pos heq, List.filter_cons_of_neg (by simpa using heq)]
          exact ih _ hrest
        · rw [if_neg heq, List.filter_cons_of_pos (by simpa using heq)]
          obtain ⟨htrue, hconn⟩ := ih
            { connections := st.connections ++ [meshConnection isEqual allHosts netOptions (hi1, hi2)]
              configValid := configValid && (expandOpts (some isEqual) netOptions []).2.isEmpty } hrest
          refine ⟨htrue, ?_⟩
          rw [hconn, List.append_assoc]
          rfl

/-- A mesh of known hosts adds a connection for each of its pairs. -/
theorem createFromMesh_connections {names : List Text} (st : MeshState)
    (hknown : ∀ name ∈ names, findHostInfoByName allHosts name ≠ none) :
    (createConnectionsFromMesh isEqual allHosts netOptions names st).connections =
      st.connections ++ (meshPairs (names.filterMap (findHostInfoByName allHosts))).map
        (meshConnection isEqual allHosts netOptions) := by
  induction names generalizing st with
  | nil => simp [createConnectionsFromMesh, meshPairs]
  | cons hname1 rest ih =>
    have hrest : ∀ name ∈ rest, findHostInfoByName allHosts name ≠ none := fun name hname =>
      hknown name (List.mem_cons_of_mem _ hname)
    have hfst := findHostInfoOrInvalid_fst allHosts hname1 st.configValid
    rw [createConnectionsFromMesh]
    cases hfind : findHostInfoOrInvalid allHosts hname1 st.configValid with
    | mk found configValid =>
      rw [hfind] at hfst
      cases found with
      | none => exact absurd hfst.symm (hknown hname1 (List.mem_cons_self ..))
      | some hi1 =>
        dsimp only
        rw [List.filterMap_cons_some hfst.symm]
        obtain ⟨htrue, hconn⟩ := @meshInner_connections isEqual allHosts netOptions hi1 rest
          { st with configValid := configValid } hrest
        cases hinner : meshInner isEqual allHosts netOptions hi1 rest
            { st with configValid := configValid } with
        | mk st' go =>
          rw [hinner] at htrue hconn
          cases htrue
          rw [ih st' hrest, hconn, List.append_assoc, meshPairs, List.map_append, List.map_map]
          rfl

/-- What all meshes of a resource add. -/
def created (isEqual : DOption → DOption → Bool) (allHosts : List HostInfo) (meshes : List Mesh) :
    List Connection :=
  meshes.flatMap fun mesh =>
    (meshPairs (mesh.hostIds allHosts)).map (meshConnection isEqual allHosts mesh.netOptions)

theorem createFromMeshes_connections {meshes : List Mesh} (st : MeshState)
    (hknown : ∀ mesh ∈ meshes, ∀ name ∈ mesh.hosts, findHostInfoByName allHosts name ≠ none) :
    (createFromMeshes isEqual allHosts meshes st).connections =
      st.connections ++ created isEqual allHosts meshes := by
  unfold createFromMeshes
  induction meshes generalizing st with
  | nil => simp [created]
  | cons mesh meshes ih =>
    rw [List.foldl_cons, ih _ fun m hm => hknown m (List.mem_cons_of_mem _ hm),
      createFromMesh_connections st (hknown mesh (List.mem_cons_self ..)), List.append_assoc]
    rfl

/-! ## Which pairs are connected -/

theorem connects_meshConnection (p : Nat × Nat) (i j : Nat) :
    Connects allHosts i j (meshConnection isEqual allHosts netOptions p) ↔ p = (i, j) ∨ p = (j, i) := by
  have hends : endsOf allHosts (meshConnection isEqual allHosts netOptions p) = some p := rfl
  unfold Connects
  rw [hends, Option.some_inj, Option.some_inj]

theorem countP_created (meshes : List Mesh) {i j : Nat} (hij : i ≠ j) :
    (created isEqual allHosts meshes).countP (Connects allHosts i j) =
      (meshes.map fun mesh =>
        (mesh.hostIds allHosts).count i * (mesh.hostIds allHosts).count j).sum := by
  unfold created
  rw [List.countP_flatMap]
  congr 1
  refine List.map_congr_left fun mesh _ => ?_
  rw [Function.comp_apply, List.countP_map, ← countP_meshPairs _ hij]
  refine List.countP_congr fun p _ => ?_
  simp only [Function.comp_apply, decide_eq_true_eq, connects_meshConnection]

theorem mem_created {meshes : List Mesh} {conn : Connection}
    (h : conn ∈ created isEqual allHosts meshes) :
    ∃ mesh ∈ meshes, ∃ p, p.1 ∈ mesh.hostIds allHosts ∧ p.2 ∈ mesh.hostIds allHosts ∧ p.1 ≠ p.2 ∧
      conn = meshConnection isEqual allHosts mesh.netOptions p := by
  obtain ⟨mesh, hmesh, hconn⟩ := List.mem_flatMap.1 h
  obtain ⟨p, hp, rfl⟩ := List.mem_map.1 hconn
  obtain ⟨h1, h2, hne⟩ := mem_meshPairs hp
  exact ⟨mesh, hmesh, p, h1, h2, hne, rfl⟩

/-- A term of the sum over the meshes counts where the mesh lists both hosts. -/
theorem count_mul_count_eq_zero {l : List Nat} {i j : Nat} :
    l.count i * l.count j = 0 ↔ (i ∈ l → j ∉ l) := by
  rw [Nat.mul_eq_zero, List.count_eq_zero, List.count_eq_zero]
  tauto

theorem one_le_countP_created {meshes : List Mesh} {i j : Nat} (hij : i ≠ j)
    (h : ShareMesh allHosts meshes i j) :
    1 ≤ (created isEqual allHosts meshes).countP (Connects allHosts i j) := by
  obtain ⟨mesh, hmesh, hi, hj⟩ := h
  rw [countP_created _ hij]
  refine Nat.le_trans ?_ (le_sum_map hmesh)
  exact Nat.mul_pos (List.count_pos_iff.2 hi) (List.count_pos_iff.2 hj)

theorem TogetherOnce.of_completeGraph {meshes : List Mesh} {explicit : List Connection}
    (h : CompleteGraph allHosts meshes explicit (created isEqual allHosts meshes)) :
    TogetherOnce allHosts meshes explicit := by
  have hfresh : ∀ i j, i ≠ j → ShareMesh allHosts meshes i j →
      ∀ conn ∈ explicit, ¬Connects allHosts i j conn := by
    intro i j hij hshare conn hconn hconnects
    have hzero := h.noOther i j hij (Or.inr ⟨conn, hconn, hconnects⟩)
    have hone := @one_le_countP_created isEqual allHosts meshes i j hij hshare
    omega
  have hsum : ∀ i j, i ≠ j → (meshes.map fun mesh =>
      (mesh.hostIds allHosts).count i * (mesh.hostIds allHosts).count j).sum ≤ 1 := by
    intro i j hij
    rw [← @countP_created isEqual allHosts meshes i j hij]
    by_cases hshare : ShareMesh allHosts meshes i j
    · exact Nat.le_of_eq (h.one i j hij hshare (hfresh i j hij hshare))
    · rw [h.noOther i j hij (Or.inl hshare)]
      exact Nat.zero_le 1
  refine ⟨?_, ?_, hfresh⟩
  · intro mesh hmesh i hi j hj hij
    have hle := Nat.le_trans (le_sum_map (f := fun mesh : Mesh =>
      (mesh.hostIds allHosts).count i * (mesh.hostIds allHosts).count j) hmesh) (hsum i j hij)
    have hpos := List.count_pos_iff.2 hj
    have hpos' := List.count_pos_iff.2 hi
    have hmul := Nat.le_mul_of_pos_right ((mesh.hostIds allHosts).count i) hpos
    omega
  · rw [List.pairwise_iff_getElem]
    intro k k' hk hk' hlt i j hij hi hj hi'
    have hpair := List.pairwise_iff_getElem.1 (pairwise_of_sum_le_one (hsum i j hij)) k k' hk hk' hlt
    rw [count_mul_count_eq_zero, count_mul_count_eq_zero] at hpair
    exact (hpair.resolve_left fun hnot => hnot hi hj) hi'

theorem TogetherOnce.completeGraph {meshes : List Mesh} {explicit : List Connection}
    (h : TogetherOnce allHosts meshes explicit) :
    CompleteGraph allHosts meshes explicit (created isEqual allHosts meshes) where
  one := by
    rintro i j hij ⟨mesh, hmesh, hi, hj⟩ -
    have hterm : (mesh.hostIds allHosts).count i * (mesh.hostIds allHosts).count j = 1 := by
      rw [h.listed mesh hmesh i hi j hj hij, h.listed mesh hmesh j hj i hi hij.symm]
    rw [countP_created _ hij]
    refine (sum_of_pairwise (f := fun mesh : Mesh =>
      (mesh.hostIds allHosts).count i * (mesh.hostIds allHosts).count j) ?_ hmesh ?_).trans hterm
    · refine h.oneMesh.imp fun hone => ?_
      rw [count_mul_count_eq_zero, count_mul_count_eq_zero]
      have := hone i j hij
      tauto
    · omega
  noOther := by
    intro i j hij hnot
    have hshare : ¬ShareMesh allHosts meshes i j := by
      rcases hnot with hnot | ⟨conn, hconn, hconnects⟩
      · exact hnot
      · exact fun hshare => h.fresh i j hij hshare conn hconn hconnects
    rw [countP_created _ hij]
    refine sum_map_eq_zero fun mesh hmesh => ?_
    exact count_mul_count_eq_zero.2 fun hi hj => hshare ⟨mesh, hmesh, hi, hj⟩
  noLoop := by
    intro i conn hconn hconnects
    obtain ⟨mesh, hmesh, p, -, -, hne, rfl⟩ := mem_created hconn
    rw [connects_meshConnection, or_self] at hconnects
    exact hne (by rw [hconnects])
  netOptions := by
    intro conn hconn
    obtain ⟨mesh, hmesh, p, h1, h2, hne, rfl⟩ := mem_created hconn
    refine ⟨mesh, hmesh, p.1, h1, p.2, h2, (connects_meshConnection ..).2 (Or.inl rfl), fun name => ?_⟩
    rw [meshConnection, optValue_expandOpts]
    rfl

end Loops

/-- The meshes of a resource add a complete graph exactly when no two hosts come together twice. -/
theorem completeGraph_iff (isEqual : DOption → DOption → Bool) (allHosts : List HostInfo)
    (meshes : List Mesh) (explicit : List Connection) (configValid : Bool)
    (hknown : ∀ mesh ∈ meshes, ∀ name ∈ mesh.hosts, findHostInfoByName allHosts name ≠ none) :
    (∃ new, (createFromMeshes isEqual allHosts meshes ⟨explicit, configValid⟩).connections =
        explicit ++ new ∧ CompleteGraph allHosts meshes explicit new) ↔
      TogetherOnce allHosts meshes explicit := by
  rw [createFromMeshes_connections _ hknown]
  constructor
  · rintro ⟨new, hnew, hgraph⟩
    rw [← List.append_cancel_left hnew] at hgraph
    exact TogetherOnce.of_completeGraph hgraph
  · intro h
    exact ⟨_, rfl, h.completeGraph⟩

/-- Three hosts, one of them with an alias. -/
def alphaBravoCharlie : List HostInfo :=
  [{ onHosts := ["alpha".toList, "alpha-alias".toList] }, { onHosts := ["bravo".toList] },
    { onHosts := ["charlie".toList] }]

/-- One mesh over the given names. -/
def oneMesh (names : List Text) : List Mesh :=
  [{ hosts := names, netOptions := [{ name := "protocol".toList, value := some "A".toList }] }]

theorem completeGraph_iff_three :
    (∃ new, (createFromMeshes (fun a b => a.value == b.value) alphaBravoCharlie
        (oneMesh ["alpha".toList, "bravo".toList, "charlie".toList]) ⟨[], true⟩).connections =
        [] ++ new ∧ CompleteGraph alphaBravoCharlie
          (oneMesh ["alpha".toList, "bravo".toList, "charlie".toList]) [] new) ↔
      TogetherOnce alphaBravoCharlie (oneMesh ["alpha".toList, "bravo".toList, "charlie".toList]) [] :=
  completeGraph_iff (fun a b => a.value == b.value) alphaBravoCharlie
    (oneMesh ["alpha".toList, "bravo".toList, "charlie".toList]) [] true (by decide)

/-- A host listed under two of its names gets two connections to the other one. -/
theorem completeGraph_alias :
    (∀ mesh ∈ oneMesh ["alpha".toList, "alpha-alias".toList, "bravo".toList],
      ∀ name ∈ mesh.hosts, findHostInfoByName alphaBravoCharlie name ≠ none) ∧
    ¬∃ new, (createFromMeshes (fun a b => a.value == b.value) alphaBravoCharlie
        (oneMesh ["alpha".toList, "alpha-alias".toList, "bravo".toList]) ⟨[], true⟩).connections =
        [] ++ new ∧ CompleteGraph alphaBravoCharlie
          (oneMesh ["alpha".toList, "alpha-alias".toList, "bravo".toList]) [] new := by
  refine ⟨by decide, ?_⟩
  rintro ⟨new, hnew, hgraph⟩
  have htwo : (createFromMeshes (fun a b => a.value == b.value) alphaBravoCharlie
      (oneMesh ["alpha".toList, "alpha-alias".toList, "bravo".toList])
      ⟨[], true⟩).connections.countP (Connects alphaBravoCharlie 0 1) = 2 := by
    decide
  have hone := hgraph.one 0 1 (by decide) ⟨_, List.mem_singleton_self _, by decide, by decide⟩ (by simp)
  rw [List.nil_append] at hnew
  rw [hnew] at htwo
  omega

end DrbdUtils.Adm.PostParse
