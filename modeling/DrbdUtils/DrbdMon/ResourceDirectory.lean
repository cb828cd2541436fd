import DrbdUtils.DrbdMon.Objects

/-!
# drbdmon's resource directory

`ResourceDirectory.cpp`: the map of all resources, the map of those with a problem, and the
operations that event lines cause.  An operation on an object of a resource first changes the
object, then decides whether the state of the resource is recomputed; the second map follows the
transitions of that state.

* `step_mirrors`, `directory_mirrors` — whatever lines come, and however they end, the problem map
  holds the resources whose stored state is not normal.
* `step_current`, `directory_current` — the stored states are the ones that follow from the
  properties, as long as no resource with an unknown role is recomputed from its children, and no
  connection enters or leaves its alert state under peer volumes that are judged by it.
-/

set_option autoImplicit false

namespace DrbdUtils.DrbdMon

/-! ## Model -/

/-- The resources by name, the names and objects of those with a problem, and the next unused
    object. -/
structure Directory where
  rscMap : OrdMap String Resource := .empty
  prbRscMap : OrdMap String Nat := .empty
  nextOid : Nat := 0

/-- How the state of the resource is recomputed after an operation. -/
inductive Recompute where
  | none
  /-- `child_state_flags_changed` -/
  | children
  /-- `update_state_flags` -/
  | own
  deriving DecidableEq

/-- An operation on an object of a resource, or on the resource itself. -/
abbrev ResourceOp := PropsMap → Resource → Except EventException Recompute × Resource

def Recompute.apply : Recompute → Resource → Resource
  | .none, r => r
  | .children, r => r.childStateFlagsChanged
  | .own, r => r.updateStateFlags

/-- `get_connection`: the key the connection is stored under, and the connection. -/
def getConnection (p : PropsMap) (r : Resource) : Except EventException (String × Connection) :=
  match p "conn-name" with
  | none => .error (messageException "Invalid DRBD event: Missing connection information"
      "Missing 'connection' field")
  | some name =>
    match r.connections.get name with
    | none => .error (objectException "Non-existent connection referenced by the DRBD events source"
        "DRBD event line references a non-existent connection")
    | some c => .ok (name, c)

/-- `get_device`: the key the volume is stored under, and the volume. -/
def getDevice (p : PropsMap) (volumes : OrdMap Nat Volume) : Except EventException (Nat × Volume) :=
  match p "volume" with
  | none => .error (messageException "Invalid DRBD event: Missing volume number"
      "Missing volume number")
  | some text =>
    match parseUnsigned 65535 text with
    | none => .error (messageException "Invalid DRBD event: Invalid volume number"
        "Unparsable volume number")
    | some n =>
      match volumes.get n with
      | none => .error (objectException "Non-existent volume id referenced by the DRBD events source"
          "DRBD event line references a non-existent volume id")
      | some v => .ok (n, v)

/-- Has the state changed from or to normal? -/
def State.crosses (last new : State) : Bool := last ≠ new && (last = .norm || new = .norm)

/-- `new_from_props`, `update` and `set_connection` of a new volume, with its state. -/
def newVolume (p : PropsMap) (connection : Option State) : Except EventException Volume :=
  match Volume.newFromProps p with
  | .error e => .error e
  | .ok v =>
    match v.update p with
    | (.error e, _) => .error e
    | (.ok (), v) => .ok (v.updateStateFlags connection)

def createConnection : ResourceOp := fun p r =>
  match Connection.newFromProps p with
  | .error e => (.error e, r)
  | .ok c =>
    match c.update p with
    | (.error e, _) => (.error e, r)
    | (.ok (), c) =>
      match r.connections.insert c.updateStateFlags.name c.updateStateFlags with
      | none => (.error (messageException "Invalid DRBD event: Duplicate connection creation"
          "Duplicate connection creation"), r)
      | some connections => (.ok .children, { r with connections := connections })

def createDevice : ResourceOp := fun p r =>
  match newVolume p none with
  | .error e => (.error e, r)
  | .ok v =>
    match r.volumes.insert v.volNr v with
    | none => (.error (messageException "Invalid DRBD event: Duplicate volume creation"
        "Duplicate device (volume) creation"), r)
    | some volumes => (.ok .children, { r with volumes := volumes })

/-- Put a changed connection back. -/
def Resource.setConnection (r : Resource) (name : String) (c : Connection) : Resource :=
  { r with connections := r.connections.adjust name fun _ => c }

def createPeerDevice : ResourceOp := fun p r =>
  match getConnection p r with
  | .error e => (.error e, r)
  | .ok (name, c) =>
    match newVolume p (some c.objState) with
    | .error e => (.error e, r)
    | .ok v =>
      match c.volumes.insert v.volNr v with
      | none => (.error (messageException "Invalid DRBD event: Duplicate peer volume creation"
          "Duplicate peer device (peer volume) creation"), r)
      | some volumes => (.ok .children,
          r.setConnection name { c with volumes := volumes }.childStateFlagsChanged)

def updateConnection : ResourceOp := fun p r =>
  match getConnection p r with
  | .error e => (.error e, r)
  | .ok (name, c) =>
    match c.update p with
    | (.error e, c') => (.error e, r.setConnection name c')
    | (.ok (), c') =>
      (.ok (if c.objState.crosses c'.updateStateFlags.objState then .children else .none),
        r.setConnection name c'.updateStateFlags)

def updateDevice : ResourceOp := fun p r =>
  match getDevice p r.volumes with
  | .error e => (.error e, r)
  | .ok (n, v) =>
    match v.update p with
    | (.error e, v') => (.error e, { r with volumes := r.volumes.adjust n fun _ => v' })
    | (.ok (), v') =>
      (.ok .children, { r with volumes := r.volumes.adjust n fun _ => v'.updateStateFlags none })

def updatePeerDevice : ResourceOp := fun p r =>
  match getConnection p r with
  | .error e => (.error e, r)
  | .ok (name, c) =>
    match getDevice p c.volumes with
    | .error e => (.error e, r)
    | .ok (n, v) =>
      match v.update p with
      | (.error e, v') =>
        (.error e, r.setConnection name { c with volumes := c.volumes.adjust n fun _ => v' })
      | (.ok (), v') =>
        let v' := v'.updateStateFlags (some c.objState)
        let c' := { c with volumes := c.volumes.adjust n fun _ => v' }
        if v.objState.crosses v'.objState then
          (.ok (if c.objState.crosses c'.childStateFlagsChanged.objState then .children else .none),
            r.setConnection name c'.childStateFlagsChanged)
        else (.ok .none, r.setConnection name c')

def updateResource : ResourceOp := fun p r =>
  match r.update p with
  | (.error e, r') => (.error e, r')
  | (.ok (), r') => (.ok .own, r')

def destroyConnection : ResourceOp := fun p r =>
  match getConnection p r with
  | .error e => (.error e, r)
  | .ok (_, c) => (.ok (if c.objState.hasMark then .children else .none),
      { r with connections := r.connections.remove c.name })

def destroyDevice : ResourceOp := fun p r =>
  match getDevice p r.volumes with
  | .error e => (.error e, r)
  | .ok (_, v) => (.ok (if v.objState.hasMark then .children else .none),
      { r with volumes := r.volumes.remove v.volNr })

/-- The volume number is looked up once more after `get_device`, with the same result. -/
def destroyPeerDevice : ResourceOp := fun p r =>
  match getConnection p r with
  | .error e => (.error e, r)
  | .ok (name, c) =>
    match getDevice p c.volumes with
    | .error e => (.error e, r)
    | .ok (n, v) =>
      let c' := { c with volumes := c.volumes.remove n }
      if v.objState.hasMark then (.ok .children, r.setConnection name c'.childStateFlagsChanged)
      else (.ok .none, r.setConnection name c')

/-- `problem_resources_update`. -/
def problemResourcesUpdate (prb : OrdMap String Nat) (key : String) (oid : Nat) (last new : State) :
    OrdMap String Nat :=
  if last = .norm ∧ new ≠ .norm then (prb.insert key oid).getD prb
  else if last ≠ .norm ∧ new = .norm then prb.remove key
  else prb

/-- Look the resource up, change it, recompute its state, update the problem map. -/
def onResource (op : ResourceOp) (p : PropsMap) (d : Directory) :
    Except EventException Unit × Directory :=
  match p "name" with
  | none => (.error (messageException "Received DRBD event line does not contain a resource name"
      "DRBD event line contains no resource name"), d)
  | some name =>
    match d.rscMap.get name with
    | none => (.error (objectException "Non-existent resource referenced by the DRBD events source"
        "DRBD event line references a non-existent resource"), d)
    | some r =>
      match op p r with
      | (.error e, r') => (.error e, { d with rscMap := d.rscMap.adjust name fun _ => r' })
      | (.ok how, r') =>
        (.ok (), { d with
          rscMap := d.rscMap.adjust name fun _ => how.apply r'
          prbRscMap := problemResourcesUpdate d.prbRscMap name r.oid r'.objState
            (how.apply r').objState })

/-- `create_resource`. -/
def createResource (p : PropsMap) (d : Directory) : Except EventException Unit × Directory :=
  match Resource.newFromProps d.nextOid p with
  | .error e => (.error e, d)
  | .ok r =>
    match r.update p with
    | (.error e, _) => (.error e, d)
    | (.ok (), r) =>
      let r := r.updateStateFlags
      match d.rscMap.insert r.name r with
      | none => (.error (messageException "Invalid DRBD event: Duplicate resource creation"
          "Duplicate resource creation"), d)
      | some rscMap => (.ok (), {
          rscMap := rscMap
          prbRscMap := if r.objState.hasMark ∧ d.prbRscMap.get r.name = none then
            (d.prbRscMap.insert r.name r.oid).getD d.prbRscMap else d.prbRscMap
          nextOid := d.nextOid + 1 })

/-- `rename_resource`: the entries are taken out before the new name is looked at; on an exception
    the resource is destroyed. -/
def renameResource (p : PropsMap) (d : Directory) : Except EventException Unit × Directory :=
  match p "name" with
  | none => (.error (messageException "Received DRBD event line does not contain a resource name"
      "DRBD event line contains no resource name"), d)
  | some name =>
    match d.rscMap.get name with
    | none => (.error (objectException "Non-existent resource referenced by the DRBD events source"
        "Received a DRBD rename event for a non-existent resource"), d)
    | some r =>
      let isProblemResource := (d.prbRscMap.get name).isSome
      let d := { d with rscMap := d.rscMap.remove name, prbRscMap := d.prbRscMap.remove name }
      let duplicate := messageException "Invalid DRBD 'rename' event: Duplicate resource entry"
        "'rename' event: Duplicate resource entry:"
      match p "new_name" with
      | none => (.error (messageException
          "Invalid DRBD rename event: New resource name not present in event line"
          "Missing resource new_name field:"), d)
      | some newName =>
        match d.rscMap.insert newName { r with name := newName } with
        | none => (.error duplicate, d)
        | some rscMap =>
          if isProblemResource then
            match d.prbRscMap.insert newName r.oid with
            | none => (.error duplicate, { d with rscMap := rscMap })
            | some prbRscMap => (.ok (), { d with rscMap := rscMap, prbRscMap := prbRscMap })
          else (.ok (), { d with rscMap := rscMap })

/-- `destroy_resource`. -/
def destroyResource (p : PropsMap) (d : Directory) : Except EventException Unit × Directory :=
  match p "name" with
  | none => (.error (messageException "Received DRBD event line does not contain a resource name"
      "DRBD event line contains no resource name"), d)
  | some name =>
    match d.rscMap.get name with
    | none => (.error (objectException "DRBD event line references a non-existent resource"
        "DRBD event line references a non-existent resource"), d)
    | some _ => (.ok (), { d with
        rscMap := d.rscMap.remove name, prbRscMap := d.prbRscMap.remove name })

/-- The operations of the directory. -/
inductive Op where
  | createConnection | createDevice | createPeerDevice | createResource
  | updateConnection | updateDevice | updatePeerDevice | updateResource
  | renameResource
  | destroyConnection | destroyDevice | destroyPeerDevice | destroyResource
  deriving DecidableEq, Repr

/-- The part of an operation that is about one existing resource. -/
def Op.onResource : Op → Option ResourceOp
  | .createConnection => some DrbdMon.createConnection
  | .createDevice => some DrbdMon.createDevice
  | .createPeerDevice => some DrbdMon.createPeerDevice
  | .updateConnection => some DrbdMon.updateConnection
  | .updateDevice => some DrbdMon.updateDevice
  | .updatePeerDevice => some DrbdMon.updatePeerDevice
  | .updateResource => some DrbdMon.updateResource
  | .destroyConnection => some DrbdMon.destroyConnection
  | .destroyDevice => some DrbdMon.destroyDevice
  | .destroyPeerDevice => some DrbdMon.destroyPeerDevice
  | _ => none

/-- One event line. -/
def step (d : Directory) (op : Op) (p : PropsMap) : Except EventException Unit × Directory :=
  match op with
  | .createResource => createResource p d
  | .renameResource => renameResource p d
  | .destroyResource => destroyResource p d
  | op =>
    match op.onResource with
    | some f => DrbdMon.onResource f p d
    | none => (.ok (), d)

/-- `get_problem_count`. -/
def Directory.getProblemCount (d : Directory) : BitVec 32 := BitVec.ofNat 32 d.prbRscMap.size

/-- The directory after a sequence of lines, accepted or not. -/
def Directory.run (d : Directory) (lines : List (Op × PropsMap)) : Directory :=
  lines.foldl (fun d l => (step d l.1 l.2).2) d

/-! ## The problem map -/

/-- The object of a resource with a problem. -/
def Resource.problem (r : Resource) : Option Nat := if r.objState.hasMark then some r.oid else none

/-- The problem map mirrors the resource map: names are current, and no two entries have the same
    object. -/
structure Directory.Mirrors (d : Directory) : Prop where
  problems : d.prbRscMap = d.rscMap.filterMap Resource.problem
  names : ∀ k r, d.rscMap.get k = some r → r.name = k
  objects : ∀ k k' r r', d.rscMap.get k = some r → d.rscMap.get k' = some r' → r.oid = r'.oid → k = k'
  next : ∀ k r, d.rscMap.get k = some r → r.oid < d.nextOid

/-- An operation on a resource leaves its stored state, its name and its object alone. -/
def KeepsResource (f : ResourceOp) : Prop :=
  ∀ p r, (f p r).2.objState = r.objState ∧ (f p r).2.oid = r.oid ∧ (f p r).2.name = r.name

theorem Resource.update_keeps {γ : Type} (g : Resource → γ)
    (h : ∀ role r, g { r with role := role } = g r) (p : PropsMap) (r : Resource) :
    g (r.update p).2 = g r := assign_keeps g (fun role r => h role r) r

theorem Op.keepsResource {op : Op} {f : ResourceOp} (h : op.onResource = some f) : KeepsResource f := by
  intro p r
  cases op <;> cases h
  case createConnection => unfold DrbdMon.createConnection; (repeat' split) <;> exact ⟨rfl, rfl, rfl⟩
  case createDevice => unfold DrbdMon.createDevice; (repeat' split) <;> exact ⟨rfl, rfl, rfl⟩
  case createPeerDevice => unfold DrbdMon.createPeerDevice; (repeat' split) <;> exact ⟨rfl, rfl, rfl⟩
  case updateConnection => unfold DrbdMon.updateConnection; (repeat' split) <;> exact ⟨rfl, rfl, rfl⟩
  case updateDevice => unfold DrbdMon.updateDevice; (repeat' split) <;> exact ⟨rfl, rfl, rfl⟩
  case updatePeerDevice =>
    unfold DrbdMon.updatePeerDevice
    simp only
    (repeat' split) <;> exact ⟨rfl, rfl, rfl⟩
  case updateResource =>
    have h1 := Resource.update_keeps (·.objState) (fun _ _ => rfl) p r
    have h2 := Resource.update_keeps (·.oid) (fun _ _ => rfl) p r
    have h3 := Resource.update_keeps (·.name) (fun _ _ => rfl) p r
    unfold DrbdMon.updateResource
    split
    · rename_i heq
      rw [heq] at h1 h2 h3
      exact ⟨h1, h2, h3⟩
    · rename_i heq
      rw [heq] at h1 h2 h3
      exact ⟨h1, h2, h3⟩
  case destroyConnection => unfold DrbdMon.destroyConnection; (repeat' split) <;> exact ⟨rfl, rfl, rfl⟩
  case destroyDevice => unfold DrbdMon.destroyDevice; (repeat' split) <;> exact ⟨rfl, rfl, rfl⟩
  case destroyPeerDevice =>
    unfold DrbdMon.destroyPeerDevice
    simp only
    (repeat' split) <;> exact ⟨rfl, rfl, rfl⟩

theorem Recompute.keeps (how : Recompute) (r : Resource) :
    (how.apply r).oid = r.oid ∧ (how.apply r).name = r.name := by
  have hchild : ∀ r : Resource, r.childStateFlagsChanged.oid = r.oid ∧
      r.childStateFlagsChanged.name = r.name := by
    intro r
    unfold Resource.childStateFlagsChanged
    simp only
    (repeat' split) <;> exact ⟨rfl, rfl⟩
  cases how with
  | none => exact ⟨rfl, rfl⟩
  | children => exact hchild r
  | own =>
    unfold Recompute.apply Resource.updateStateFlags
    simp only
    split
    · exact hchild _
    · exact ⟨rfl, rfl⟩

/-- Following a transition of the stored state keeps the problem map right. -/
theorem problemResourcesUpdate_mirrors {m : OrdMap String Resource} {k : String} {r r' : Resource}
    (hget : m.get k = some r) (hoid : r'.oid = r.oid) :
    problemResourcesUpdate (m.filterMap Resource.problem) k r.oid r.objState r'.objState =
      (m.adjust k fun _ => r').filterMap Resource.problem := by
  refine OrdMap.ext_get fun k' => ?_
  have hprb : (m.filterMap Resource.problem).get k = r.problem := by
    rw [OrdMap.get_filterMap, hget]
    rfl
  rw [OrdMap.get_filterMap, OrdMap.get_adjust]
  unfold problemResourcesUpdate
  split
  · rename_i h
    have hnone : (m.filterMap Resource.problem).get k = none := by
      rw [hprb, Resource.problem, h.1]
      rfl
    cases hins : (m.filterMap Resource.problem).insert k r.oid with
    | none => exact absurd hnone (OrdMap.insert_eq_none_iff.1 hins)
    | some prb =>
      rw [Option.getD_some, OrdMap.get_insert hins, OrdMap.get_filterMap]
      split
      · rename_i hk
        rw [hk, hget]
        show some r.oid = r'.problem
        rw [Resource.problem, State.hasMark, decide_eq_true h.2, if_pos rfl, hoid]
      · rfl
  · rename_i h
    split
    · rename_i h'
      rw [OrdMap.get_remove, OrdMap.get_filterMap]
      split
      · rename_i hk
        rw [hk, hget]
        show none = r'.problem
        rw [Resource.problem, h'.2]
        rfl
      · rfl
    · rename_i h'
      rw [OrdMap.get_filterMap]
      split
      · rename_i hk
        rw [hk, hget]
        show r.problem = r'.problem
        have hmark : r.objState.hasMark = r'.objState.hasMark := by
          unfold State.hasMark
          by_cases h1 : r.objState = .norm <;> by_cases h2 : r'.objState = .norm <;> simp_all
        rw [Resource.problem, Resource.problem, hmark, hoid]
      · rfl

section Step

variable {d : Directory} {p : PropsMap}

theorem Directory.Mirrors.adjust (h : d.Mirrors) {k : String} {r r' : Resource}
    {prb : OrdMap String Nat} (hget : d.rscMap.get k = some r) (hoid : r'.oid = r.oid)
    (hname : r'.name = r.name)
    (hprb : prb = (d.rscMap.adjust k fun _ => r').filterMap Resource.problem) :
    Directory.Mirrors { d with rscMap := d.rscMap.adjust k fun _ => r', prbRscMap := prb } := by
  -- an adjusted entry has the name and the object of the old one
  have hold : ∀ k' x, (d.rscMap.adjust k fun _ => r').get k' = some x →
      ∃ y, d.rscMap.get k' = some y ∧ x.oid = y.oid ∧ x.name = y.name := by
    intro k' x hx
    rw [OrdMap.get_adjust] at hx
    split at hx
    · rename_i hk
      obtain ⟨_, _, rfl⟩ := Option.map_eq_some_iff.1 hx
      exact ⟨r, hk ▸ hget, hoid, hname⟩
    · exact ⟨x, hx, rfl, rfl⟩
  refine ⟨hprb, fun k' x hx => ?_, fun k' k'' x x' hx hx' he => ?_, fun k' x hx => ?_⟩
  · obtain ⟨y, hy, _, hn⟩ := hold k' x hx
    exact hn.trans (h.names k' y hy)
  · obtain ⟨y, hy, ho, _⟩ := hold k' x hx
    obtain ⟨y', hy', ho', _⟩ := hold k'' x' hx'
    exact h.objects k' k'' y y' hy hy' (by rw [← ho, ← ho', he])
  · obtain ⟨y, hy, ho, _⟩ := hold k' x hx
    exact ho ▸ h.next k' y hy

theorem Directory.Mirrors.remove (h : d.Mirrors) (k : String) :
    Directory.Mirrors { d with rscMap := d.rscMap.remove k, prbRscMap := d.prbRscMap.remove k } := by
  have hold : ∀ k' x, (d.rscMap.remove k).get k' = some x → d.rscMap.get k' = some x := by
    intro k' x hx
    rw [OrdMap.get_remove] at hx
    split at hx
    · cases hx
    · exact hx
  refine ⟨OrdMap.ext_get fun k' => ?_, fun k' x hx => h.names k' x (hold k' x hx),
    fun k' k'' x x' hx hx' => h.objects k' k'' x x' (hold k' x hx) (hold k'' x' hx'),
    fun k' x hx => h.next k' x (hold k' x hx)⟩
  rw [h.problems]
  simp only [OrdMap.get_remove, OrdMap.get_filterMap]
  split <;> rfl

/-- A new entry, with an object of its own. -/
theorem Directory.Mirrors.insert (h : d.Mirrors) {k : String} {r : Resource}
    {m : OrdMap String Resource} {prb : OrdMap String Nat} {next : Nat}
    (hm : d.rscMap.insert k r = some m) (hname : r.name = k) (hle : d.nextOid ≤ next)
    (hnew : ∀ k' x, d.rscMap.get k' = some x → x.oid ≠ r.oid) (hnext : r.oid < next)
    (hprb : ∀ k', prb.get k' = if k' = k then r.problem else d.prbRscMap.get k') :
    Directory.Mirrors ⟨m, prb, next⟩ := by
  have hold : ∀ k' x, m.get k' = some x → (k' = k ∧ x = r) ∨ (k' ≠ k ∧ d.rscMap.get k' = some x) := by
    intro k' x hx
    rw [OrdMap.get_insert hm] at hx
    split at hx
    · rename_i hk
      cases hx
      exact .inl ⟨hk, rfl⟩
    · rename_i hk
      exact .inr ⟨hk, hx⟩
  refine ⟨OrdMap.ext_get fun k' => ?_, fun k' x hx => ?_, fun k' k'' x x' hx hx' he => ?_,
    fun k' x hx => ?_⟩
  · rw [hprb, OrdMap.get_filterMap, OrdMap.get_insert hm]
    split
    · rfl
    · rw [h.problems, OrdMap.get_filterMap]
  · rcases hold k' x hx with ⟨rfl, rfl⟩ | ⟨_, hx⟩
    · exact hname
    · exact h.names k' x hx
  · rcases hold k' x hx with ⟨rfl, rfl⟩ | ⟨_, hx⟩ <;> rcases hold k'' x' hx' with ⟨rfl, rfl⟩ | ⟨_, hx'⟩
    · rfl
    · exact absurd he.symm (hnew k'' x' hx')
    · exact absurd he (hnew k' x hx)
    · exact h.objects k' k'' x x' hx hx' he
  · rcases hold k' x hx with ⟨rfl, rfl⟩ | ⟨_, hx⟩
    · exact hnext
    · exact Nat.lt_of_lt_of_le (h.next k' x hx) hle

theorem onResource_mirrors (h : d.Mirrors) {f : ResourceOp} (hf : KeepsResource f) :
    (onResource f p d).2.Mirrors := by
  unfold onResource
  split
  · exact h
  rename_i name _
  split
  · exact h
  rename_i r hget
  obtain ⟨hstate, hoid, hname⟩ := hf p r
  split
  · rename_i e r' hop
    rw [hop] at hstate hoid hname
    refine h.adjust hget hoid hname ?_
    rw [h.problems]
    refine OrdMap.ext_get fun k' => ?_
    rw [OrdMap.get_filterMap, OrdMap.get_filterMap, OrdMap.get_adjust]
    split
    · rename_i hk
      rw [hk, hget]
      show r.problem = r'.problem
      rw [Resource.problem, Resource.problem, hstate, hoid]
    · rfl
  · rename_i how r' hop
    rw [hop] at hstate hoid hname
    obtain ⟨hoid', hname'⟩ := how.keeps r'
    refine h.adjust hget (hoid'.trans hoid) (hname'.trans hname) ?_
    rw [h.problems, hstate]
    exact problemResourcesUpdate_mirrors hget (hoid'.trans hoid)

theorem insert_getD_get {prb : OrdMap String Nat} {k : String} {oid : Nat} (h : prb.get k = none)
    (k' : String) : ((prb.insert k oid).getD prb).get k' = if k' = k then some oid else prb.get k' := by
  cases hins : prb.insert k oid with
  | none => exact absurd h (OrdMap.insert_eq_none_iff.1 hins)
  | some prb' => rw [Option.getD_some, OrdMap.get_insert hins]

/-- A name that is not in use is not in the problem map. -/
theorem Directory.Mirrors.not_problem (h : d.Mirrors) {k : String} (hk : d.rscMap.get k = none) :
    d.prbRscMap.get k = none := by
  rw [h.problems, OrdMap.get_filterMap, hk]
  rfl

theorem get_eq_none_of_insert {α : Type} {m m' : OrdMap String α} {k : String} {a : α}
    (h : m.insert k a = some m') : m.get k = none := by
  by_contra hne
  rw [OrdMap.insert_eq_none_iff.2 hne] at h
  cases h

theorem createResource_mirrors (h : d.Mirrors) : (createResource p d).2.Mirrors := by
  unfold createResource
  split
  · exact h
  rename_i r hnew
  have hoid0 : r.oid = d.nextOid := by
    unfold Resource.newFromProps at hnew
    split at hnew <;> cases hnew
    rfl
  have hkeep := Resource.update_keeps (·.oid) (fun _ _ => rfl) p r
  split
  · exact h
  rename_i r' hupd
  rw [hupd] at hkeep
  have hoid : r'.updateStateFlags.oid = d.nextOid := (Recompute.keeps .own r').1.trans (hkeep.trans hoid0)
  simp only
  split
  · exact h
  rename_i m hins
  have hnone := h.not_problem (get_eq_none_of_insert hins)
  refine h.insert hins rfl (Nat.le_succ _) (fun k' x hx => ?_) (by rw [hoid]; exact Nat.lt_succ_self _)
    fun k' => ?_
  · rw [hoid]
    exact (h.next k' x hx).ne
  · by_cases hmark : r'.updateStateFlags.objState.hasMark = true
    · rw [if_pos ⟨hmark, hnone⟩, insert_getD_get hnone, Resource.problem, if_pos hmark]
    · rw [if_neg fun hc => hmark hc.1, Resource.problem, if_neg hmark]
      split
      · rename_i hk
        rw [hk, hnone]
      · rfl

theorem renameResource_mirrors (h : d.Mirrors) : (renameResource p d).2.Mirrors := by
  unfold renameResource
  split
  · exact h
  rename_i name _
  split
  · exact h
  rename_i r hget
  have hrem := h.remove name
  simp only
  split
  · exact hrem
  rename_i newName _
  split
  · exact hrem
  rename_i m hins
  have hnone := hrem.not_problem (get_eq_none_of_insert hins)
  have hprb : (d.prbRscMap.get name).isSome = r.objState.hasMark := by
    rw [h.problems, OrdMap.get_filterMap, hget]
    show (r.problem).isSome = _
    unfold Resource.problem
    split <;> simp_all
  have hnew : ∀ k' x, (d.rscMap.remove name).get k' = some x → x.oid ≠ r.oid := by
    intro k' x hx he
    rw [OrdMap.get_remove] at hx
    split at hx
    · cases hx
    · rename_i hk
      exact hk (h.objects k' name x r hx hget he)
  have hentry : ∀ prb : OrdMap String Nat, (∀ k', prb.get k' = if k' = newName then r.problem else
      (d.prbRscMap.remove name).get k') → Directory.Mirrors ⟨m, prb, d.nextOid⟩ := fun prb hp =>
    hrem.insert hins rfl (Nat.le_refl _) hnew (h.next name r hget) hp
  rw [hprb]
  split
  · rename_i hmark
    cases hins' : (d.prbRscMap.remove name).insert newName r.oid with
    | none => exact absurd hnone (OrdMap.insert_eq_none_iff.1 hins')
    | some prb =>
      refine hentry prb fun k' => ?_
      rw [OrdMap.get_insert hins', Resource.problem, if_pos hmark]
  · rename_i hmark
    refine hentry _ fun k' => ?_
    rw [Resource.problem, if_neg hmark]
    split
    · rename_i hk
      rw [hk]
      exact hnone
    · rfl

theorem destroyResource_mirrors (h : d.Mirrors) : (destroyResource p d).2.Mirrors := by
  unfold destroyResource
  split
  · exact h
  · split
    · exact h
    · exact h.remove _

/-- Every line keeps the problem map right, whether it is accepted or not. -/
theorem step_mirrors (h : d.Mirrors) (op : Op) : (step d op p).2.Mirrors := by
  unfold step
  split
  · exact createResource_mirrors h
  · exact renameResource_mirrors h
  · exact destroyResource_mirrors h
  · split
    · rename_i f hf
      exact onResource_mirrors h (Op.keepsResource hf)
    · exact h

end Step

theorem mirrors_empty : Directory.Mirrors {} where
  problems := rfl
  names _ _ h := by cases h
  objects _ _ _ _ h := by cases h
  next _ _ h := by cases h

theorem run_mirrors {d : Directory} (h : d.Mirrors) (lines : List (Op × PropsMap)) :
    (d.run lines).Mirrors := by
  induction lines generalizing d with
  | nil => exact h
  | cons l lines ih => exact ih (step_mirrors h l.1)

/-- **The problem list mirrors the directory.**  After any lines, accepted or rejected, the problem
    map holds, under their current names, exactly the resources whose stored state is not normal,
    as the objects they are now, and the problem count is their number. -/
theorem directory_mirrors (lines : List (Op × PropsMap)) :
    (Directory.run {} lines).prbRscMap = (Directory.run {} lines).rscMap.filterMap Resource.problem ∧
      (∀ k r, (Directory.run {} lines).rscMap.get k = some r → r.name = k) ∧
      (∀ k k' r r', (Directory.run {} lines).rscMap.get k = some r →
        (Directory.run {} lines).rscMap.get k' = some r' → r.oid = r'.oid → k = k') ∧
      (Directory.run {} lines).getProblemCount = BitVec.ofNat 32
        ((Directory.run {} lines).rscMap.values.countP fun r => r.objState ≠ .norm) := by
  have h := run_mirrors mirrors_empty lines
  refine ⟨h.problems, h.names, h.objects, ?_⟩
  rw [Directory.getProblemCount, h.problems]
  unfold Resource.problem
  rw [OrdMap.size_filterMap]
  rfl

/-! ## The stored states -/

/-- The keys of the children of a resource are their names and numbers. -/
structure Resource.Keyed (r : Resource) : Prop where
  connections : ∀ k c, r.connections.get k = some c → c.name = k
  volumes : ∀ k v, r.volumes.get k = some v → v.volNr = k

/-- Does the state of a peer volume depend on whether the connection is in alert? -/
def Connection.judges (c : Connection) : Bool :=
  c.volumes.values.any fun v => v.state (some .alert) ≠ v.state (some .norm)

/-- A connection enters or leaves its alert state only if it judges none of its peer volumes. -/
def Connection.Steady (c c' : Connection) : Prop := c'.inAlert = c.inAlert ∨ c.judges = false

theorem Connection.Steady.state {c c' : Connection} (h : c.Steady c') {v : Volume}
    (hv : v ∈ c.volumes.values) : v.state (some c'.excuse) = v.state (some c.excuse) := by
  rcases h with h | h
  · rw [Connection.excuse, h, Connection.excuse]
  · have hv' : v.state (some .alert) = v.state (some .norm) := by
      have := List.any_eq_false.1 h v hv
      simpa using this
    unfold Connection.excuse
    cases c'.inAlert <;> cases c.inAlert <;> simp [hv']

theorem Volume.update_keeps {γ : Type} (g : Volume → γ) (h1 : ∀ x v, g { v with diskState := x } = g v)
    (h2 : ∀ x v, g { v with replState := x } = g v) (h3 : ∀ x v, g { v with minorNr := x } = g v)
    (h4 : ∀ x v, g { v with clientState := x } = g v) (h5 : ∀ x v, g { v with quorumAlert := x } = g v)
    (h6 : ∀ x v, g { v with syncPerc := x } = g v) (p : PropsMap) (v : Volume) :
    g (v.update p).2 = g v := by
  refine updates_keeps g (fun u hu => ?_) v
  simp only [List.mem_cons, List.not_mem_nil, or_false] at hu
  rcases hu with rfl | rfl | rfl | rfl | rfl | rfl
  · exact assign_keeps g h1
  · exact assign_keeps g h2
  · exact assign_keeps g h3
  · exact assign_keeps g h4
  · exact assign_keeps g fun _ v => h5 _ v
  · intro v
    unfold Volume.updateSyncPerc
    split
    · exact h6 _ v
    · split
      · exact assign_keeps g h6 v
      · rfl

theorem Connection.update_keeps {γ : Type} (g : Connection → γ) (h1 : ∀ x c, g { c with role := x } = g c)
    (h2 : ∀ x c, g { c with connState := x } = g c) (h3 : ∀ x c, g { c with syncState := x } = g c)
    (p : PropsMap) (c : Connection) : g (c.update p).2 = g c := by
  refine updates_keeps g (fun u hu => ?_) c
  simp only [List.mem_cons, List.not_mem_nil, or_false] at hu
  rcases hu with rfl | rfl | rfl
  · exact assign_keeps g h1
  · exact assign_keeps g h2
  · intro c
    dsimp only
    split
    · exact h3 _ c
    · exact assign_keeps g h3 c

/-! ### One connection -/

/-- A connection that was just made. -/
theorem newConnection_current {p : PropsMap} {c c' : Connection} (hnew : Connection.newFromProps p = .ok c)
    (hupd : c.update p = (.ok (), c')) : c'.updateStateFlags.Current := by
  have hobj := Connection.update_keeps (·.objState) (fun _ _ => rfl) (fun _ _ => rfl) (fun _ _ => rfl) p c
  have hvol := Connection.update_keeps (·.volumes) (fun _ _ => rfl) (fun _ _ => rfl) (fun _ _ => rfl) p c
  rw [hupd] at hobj hvol
  unfold Connection.newFromProps at hnew
  split at hnew
  · cases hnew
    refine Connection.updateStateFlags_current (fun h => ?_) fun v hv => ?_
    · rw [hobj] at h
      cases h
    · rw [hvol] at hv
      cases hv
  · cases hnew

/-- The properties of a connection changed. -/
theorem Connection.Current.update {c c' : Connection} {p : PropsMap} (h : c.Current)
    (hupd : (c.update p).2 = c') (hs : c.Steady c') : c'.updateStateFlags.Current := by
  have hobj := Connection.update_keeps (·.objState) (fun _ _ => rfl) (fun _ _ => rfl) (fun _ _ => rfl) p c
  have hvol := Connection.update_keeps (·.volumes) (fun _ _ => rfl) (fun _ _ => rfl) (fun _ _ => rfl) p c
  rw [hupd] at hobj hvol
  refine Connection.updateStateFlags_current (fun hn => ?_) fun v hv => ?_
  · rw [hvol]
    exact h.norm (hobj ▸ hn)
  · rw [hvol] at hv
    rw [hs.state hv]
    exact h.volumes v hv

/-- The peer volumes of a connection changed. -/
theorem Connection.Current.setVolumes {c : Connection} (h : c.Current) {volumes : OrdMap Nat Volume}
    (hv : ∀ v ∈ volumes.values, v.objState = v.state (some c.excuse)) :
    { c with volumes := volumes }.childStateFlagsChanged.Current := by
  refine Connection.childStateFlagsChanged_current h.connAlert h.roleAlert (fun hin => ?_) hv
  have hobj := h.objState
  rw [Connection.freshState, if_pos (show c.inAlert = true from hin)] at hobj
  exact hobj

/-- The peer volumes of a connection changed, but not whether one of them is marked. -/
theorem Connection.Current.sameMarks {c : Connection} (h : c.Current) {volumes : OrdMap Nat Volume}
    (hv : ∀ v ∈ volumes.values, v.objState = v.state (some c.excuse))
    (hm : volumes.values.any (·.objState.hasMark) = c.volumes.values.any (·.objState.hasMark)) :
    { c with volumes := volumes }.Current := by
  refine ⟨h.connAlert, h.roleAlert, ?_, hv⟩
  show c.objState = if c.inAlert = true then State.alert
    else if volumes.values.any (fun v => (v.state (some c.excuse)).hasMark) = true then .mark else .norm
  have hnew : volumes.values.any (fun v => (v.state (some c.excuse)).hasMark) =
      volumes.values.any (·.objState.hasMark) := any_congr_mem fun v hx => by rw [hv v hx]
  have hold : c.volumes.values.any (·.objState.hasMark) =
      c.volumes.values.any fun v => (v.state (some c.excuse)).hasMark :=
    any_congr_mem fun v hx => by rw [h.volumes v hx]
  rw [h.objState, Connection.freshState, hnew, hm, hold]

/-- The state of a new or changed peer volume. -/
theorem peerVolume_state {c : Connection} (h : c.Current) (v : Volume) :
    (v.updateStateFlags (some c.objState)).objState =
      (v.updateStateFlags (some c.objState)).state (some c.excuse) := by
  rw [Volume.state_updateStateFlags, Volume.state_of_hasWarn (Connection.hasWarn_excuse h.objState).symm]
  rfl

theorem State.hasMark_eq_of_not_crosses {s t : State} (h : s.crosses t = false) :
    s.hasMark = t.hasMark := by
  cases s <;> cases t <;> first | rfl | exact absurd h (by decide)

/-! ### One resource -/

/-- A connection of a resource was replaced by one that is as marked as it. -/
theorem Resource.Current.setConnection {r : Resource} (h : r.Current) {name : String}
    {c c' : Connection} (hget : r.connections.get name = some c) (hc : c'.Current)
    (hm : c'.objState.hasMark = c.objState.hasMark) : (r.setConnection name c').Current := by
  have hcur : c.Current := h.connections c (OrdMap.mem_values_iff.2 ⟨name, hget⟩)
  refine ⟨?_, h.volumes, fun x hx => ?_⟩
  · have hany : (r.connections.adjust name fun _ => c').values.any (·.freshState.hasMark) =
        r.connections.values.any (·.freshState.hasMark) :=
      OrdMap.any_adjust hget (by rw [← hc.objState, ← hcur.objState, hm])
    show r.objState = if (decide (r.role = .unknown) || r.volumes.values.any (·.quorumAlert)) = true then
      State.alert else if ((r.volumes.values.any fun v => (v.state none).hasMark) ||
        (r.connections.adjust name fun _ => c').values.any (·.freshState.hasMark)) = true then .mark
      else .norm
    rw [hany, h.objState, Resource.freshState]
  · rcases OrdMap.mem_values_adjust hx with rfl | hx
    · exact hc
    · exact h.connections x hx

/-- A connection that is not marked was removed. -/
theorem Resource.Current.removeConnection {r : Resource} (h : r.Current) {name : String}
    {c : Connection} (hget : r.connections.get name = some c) (hm : c.objState.hasMark = false) :
    Resource.Current { r with connections := r.connections.remove name } := by
  have hcur : c.Current := h.connections c (OrdMap.mem_values_iff.2 ⟨name, hget⟩)
  refine ⟨?_, h.volumes, fun x hx => h.connections x (OrdMap.mem_values_remove hx)⟩
  have hany : (r.connections.remove name).values.any (·.freshState.hasMark) =
      r.connections.values.any (·.freshState.hasMark) :=
    OrdMap.any_remove hget (by rw [← hcur.objState, hm])
  show r.objState = if (decide (r.role = .unknown) || r.volumes.values.any (·.quorumAlert)) = true then
    State.alert else if ((r.volumes.values.any fun v => (v.state none).hasMark) ||
      (r.connections.remove name).values.any (·.freshState.hasMark)) = true then .mark else .norm
  rw [hany, h.objState, Resource.freshState]

/-- A volume that is not marked was removed. -/
theorem Resource.Current.removeVolume {r : Resource} (h : r.Current) {n : Nat} {v : Volume}
    (hget : r.volumes.get n = some v) (hm : v.objState.hasMark = false) :
    Resource.Current { r with volumes := r.volumes.remove n } := by
  have hstate := h.volumes v (OrdMap.mem_values_iff.2 ⟨n, hget⟩)
  have hquorum : v.quorumAlert = false := by
    by_contra hq
    rw [hstate, Volume.state_of_quorumAlert (by simpa using hq)] at hm
    cases hm
  refine ⟨?_, fun x hx => h.volumes x (OrdMap.mem_values_remove hx), h.connections⟩
  have hany : (r.volumes.remove n).values.any (fun v => (v.state none).hasMark) =
      r.volumes.values.any fun v => (v.state none).hasMark :=
    OrdMap.any_remove hget (by rw [← hstate, hm])
  have hany' : (r.volumes.remove n).values.any (·.quorumAlert) = r.volumes.values.any (·.quorumAlert) :=
    OrdMap.any_remove hget hquorum
  show r.objState = if (decide (r.role = .unknown) || (r.volumes.remove n).values.any (·.quorumAlert)) =
    true then State.alert else if (((r.volumes.remove n).values.any fun v => (v.state none).hasMark) ||
      r.connections.values.any (·.freshState.hasMark)) = true then .mark else .norm
  rw [hany, hany', h.objState, Resource.freshState]

/-- What an operation leaves to the recomputation: all connections are up to date, and so is the
    resource if nothing is recomputed. -/
structure Prepared (r : Resource) (how : Recompute) (r' : Resource) : Prop where
  connections : ∀ c ∈ r'.connections.values, c.Current
  none : how = .none → r'.Current
  own : how = .own → r' = { r with role := r'.role }
  keyed : r'.Keyed

theorem of_getConnection {p : PropsMap} {r : Resource} {name : String} {c : Connection}
    (h : getConnection p r = .ok (name, c)) : r.connections.get name = some c := by
  unfold getConnection at h
  split at h
  · cases h
  · split at h
    · cases h
    · rename_i hget
      cases h
      exact hget

theorem of_getDevice {p : PropsMap} {volumes : OrdMap Nat Volume} {n : Nat} {v : Volume}
    (h : getDevice p volumes = .ok (n, v)) : volumes.get n = some v := by
  unfold getDevice at h
  split at h
  · cases h
  · split at h
    · cases h
    · split at h
      · cases h
      · rename_i hget
        cases h
        exact hget

section Ops

variable {p : PropsMap} {r r' : Resource} {how : Recompute}

theorem Resource.Keyed.setConnection (h : r.Keyed) {name : String} {c c' : Connection}
    (hget : r.connections.get name = some c) (hname : c'.name = c.name) :
    (r.setConnection name c').Keyed := by
  refine ⟨fun k x hx => ?_, h.volumes⟩
  change (r.connections.adjust name fun _ => c').get k = some x at hx
  rw [OrdMap.get_adjust] at hx
  split at hx
  · rename_i hk
    obtain ⟨_, _, rfl⟩ := Option.map_eq_some_iff.1 hx
    exact (hname.trans (h.connections name c hget)).trans hk.symm
  · exact h.connections k x hx

theorem Resource.Keyed.setVolume (h : r.Keyed) {n : Nat} {v v' : Volume}
    (hget : r.volumes.get n = some v) (hnr : v'.volNr = v.volNr) :
    Resource.Keyed { r with volumes := r.volumes.adjust n fun _ => v' } := by
  refine ⟨h.connections, fun k x hx => ?_⟩
  change (r.volumes.adjust n fun _ => v').get k = some x at hx
  rw [OrdMap.get_adjust] at hx
  split at hx
  · rename_i hk
    obtain ⟨_, _, rfl⟩ := Option.map_eq_some_iff.1 hx
    exact (hnr.trans (h.volumes n v hget)).trans hk.symm
  · exact h.volumes k x hx

/-- A connection was replaced, and the resource is recomputed unless the connection is as marked
    as before. -/
theorem prepared_setConnection (h : r.Current) (hk : r.Keyed) {name : String} {c c' : Connection}
    (hget : r.connections.get name = some c) (hc : c'.Current) (hname : c'.name = c.name)
    (hnone : how = .none → c'.objState.hasMark = c.objState.hasMark) (hown : how ≠ .own) :
    Prepared r how (r.setConnection name c') where
  connections x hx := by
    rcases OrdMap.mem_values_adjust hx with rfl | hx
    · exact hc
    · exact h.connections x hx
  none hn := h.setConnection hget hc (hnone hn)
  own ho := absurd ho hown
  keyed := hk.setConnection hget hname

theorem createConnection_prepared (h : r.Current) (hk : r.Keyed)
    (hop : createConnection p r = (.ok how, r')) : Prepared r how r' := by
  unfold createConnection at hop
  split at hop
  · cases hop
  rename_i c hnew
  split at hop
  · cases hop
  rename_i c' hupd
  split at hop
  · cases hop
  rename_i connections hins
  cases hop
  refine ⟨fun x hx => ?_, by simp, by simp, ⟨fun k x hx => ?_, hk.volumes⟩⟩
  · rcases OrdMap.mem_values_insert hins hx with rfl | hx
    · exact newConnection_current hnew hupd
    · exact h.connections x hx
  · change connections.get k = some x at hx
    rw [OrdMap.get_insert hins] at hx
    split at hx
    · rename_i hkn
      cases hx
      exact hkn.symm
    · exact hk.connections k x hx

theorem createDevice_prepared (h : r.Current) (hk : r.Keyed)
    (hop : createDevice p r = (.ok how, r')) : Prepared r how r' := by
  unfold createDevice at hop
  split at hop
  · cases hop
  rename_i v hnew
  split at hop
  · cases hop
  rename_i volumes hins
  cases hop
  refine ⟨h.connections, by simp, by simp, ⟨hk.connections, fun k x hx => ?_⟩⟩
  change volumes.get k = some x at hx
  rw [OrdMap.get_insert hins] at hx
  split at hx
  · rename_i hkn
    cases hx
    exact hkn.symm
  · exact hk.volumes k x hx

theorem newVolume_eq {connection : Option State} {v : Volume} (h : newVolume p connection = .ok v) :
    ∃ v₀ : Volume, v = v₀.updateStateFlags connection := by
  unfold newVolume at h
  split at h
  · cases h
  · split at h
    · cases h
    · cases h
      exact ⟨_, rfl⟩

theorem Connection.name_childStateFlagsChanged (c : Connection) :
    c.childStateFlagsChanged.name = c.name := by
  unfold Connection.childStateFlagsChanged
  split <;> rfl

theorem createPeerDevice_prepared (h : r.Current) (hk : r.Keyed)
    (hop : createPeerDevice p r = (.ok how, r')) : Prepared r how r' := by
  unfold createPeerDevice at hop
  split at hop
  · cases hop
  rename_i name c hget
  have hcur := h.connections c (OrdMap.mem_values_iff.2 ⟨name, of_getConnection hget⟩)
  split at hop
  · cases hop
  rename_i v hnew
  obtain ⟨v₀, rfl⟩ := newVolume_eq hnew
  split at hop
  · cases hop
  rename_i volumes hins
  cases hop
  refine prepared_setConnection h hk (of_getConnection hget) (hcur.setVolumes fun x hx => ?_)
    (Connection.name_childStateFlagsChanged _) (by simp) (by simp)
  rcases OrdMap.mem_values_insert hins hx with rfl | hx
  · exact peerVolume_state hcur v₀
  · exact hcur.volumes x hx

theorem updateConnection_prepared (h : r.Current) (hk : r.Keyed)
    (hs : ∀ name c, getConnection p r = .ok (name, c) → c.Steady (c.update p).2)
    (hop : updateConnection p r = (.ok how, r')) : Prepared r how r' := by
  unfold updateConnection at hop
  split at hop
  · cases hop
  rename_i name c hget
  have hcur := h.connections c (OrdMap.mem_values_iff.2 ⟨name, of_getConnection hget⟩)
  have hname := Connection.update_keeps (·.name) (fun _ _ => rfl) (fun _ _ => rfl) (fun _ _ => rfl) p c
  have hst := hs name c hget
  split at hop
  · cases hop
  rename_i c' hupd
  rw [hupd] at hname hst
  have hc' : c'.updateStateFlags.Current := hcur.update (by rw [hupd]) hst
  cases hop
  refine prepared_setConnection h hk (of_getConnection hget) hc'
    ((Connection.name_updateStateFlags c').trans hname) (fun hn => ?_) (by split <;> simp)
  split at hn
  · cases hn
  · rename_i hx
    exact (State.hasMark_eq_of_not_crosses (by simpa using hx)).symm

theorem updateDevice_prepared (h : r.Current) (hk : r.Keyed)
    (hop : updateDevice p r = (.ok how, r')) : Prepared r how r' := by
  unfold updateDevice at hop
  split at hop
  · cases hop
  rename_i n v hget
  have hnr := Volume.update_keeps (·.volNr) (fun _ _ => rfl) (fun _ _ => rfl) (fun _ _ => rfl)
    (fun _ _ => rfl) (fun _ _ => rfl) (fun _ _ => rfl) p v
  split at hop
  · cases hop
  rename_i v' hupd
  rw [hupd] at hnr
  cases hop
  exact ⟨h.connections, by simp, by simp,
    hk.setVolume (of_getDevice hget) ((Volume.volNr_updateStateFlags none v').trans hnr)⟩

theorem updatePeerDevice_prepared (h : r.Current) (hk : r.Keyed)
    (hop : updatePeerDevice p r = (.ok how, r')) : Prepared r how r' := by
  unfold updatePeerDevice at hop
  split at hop
  · cases hop
  rename_i name c hget
  have hcur := h.connections c (OrdMap.mem_values_iff.2 ⟨name, of_getConnection hget⟩)
  split at hop
  · cases hop
  rename_i n v hdev
  split at hop
  · cases hop
  rename_i v' hupd
  simp only at hop
  have hvol : ∀ x ∈ (c.volumes.adjust n fun _ => v'.updateStateFlags (some c.objState)).values,
      x.objState = x.state (some c.excuse) := by
    intro x hx
    rcases OrdMap.mem_values_adjust hx with rfl | hx
    · exact peerVolume_state hcur v'
    · exact hcur.volumes x hx
  split at hop
  · cases hop
    refine prepared_setConnection h hk (of_getConnection hget) (hcur.setVolumes hvol)
      (Connection.name_childStateFlagsChanged _) (fun hn => ?_) (by split <;> simp)
    split at hn
    · cases hn
    · rename_i hx
      exact (State.hasMark_eq_of_not_crosses (by simpa using hx)).symm
  · rename_i hx
    cases hop
    refine prepared_setConnection h hk (of_getConnection hget) (hcur.sameMarks hvol ?_) rfl
      (fun _ => rfl) (by simp)
    exact OrdMap.any_adjust (of_getDevice hdev)
      (State.hasMark_eq_of_not_crosses (by simpa using hx)).symm

theorem updateResource_prepared (h : r.Current) (hk : r.Keyed)
    (hop : updateResource p r = (.ok how, r')) : Prepared r how r' := by
  have heq : r.update p = (.ok (), r') ∧ how = .own := by
    unfold updateResource at hop
    split at hop
    · cases hop
    · rename_i heq
      cases hop
      exact ⟨heq, rfl⟩
  have hr : r' = { r with role := r'.role } := by
    have hkeep := heq.1
    unfold Resource.update assign at hkeep
    split at hkeep
    · cases hkeep
      rfl
    · split at hkeep
      · cases hkeep
      · cases hkeep
        rfl
  refine ⟨?_, fun hn => ?_, fun _ => hr, ?_⟩
  · rw [hr]
    exact h.connections
  · rw [heq.2] at hn
    cases hn
  · rw [hr]
    exact ⟨hk.connections, hk.volumes⟩

theorem destroyConnection_prepared (h : r.Current) (hk : r.Keyed)
    (hop : destroyConnection p r = (.ok how, r')) : Prepared r how r' := by
  unfold destroyConnection at hop
  split at hop
  · cases hop
  rename_i name c hget
  have hname := hk.connections name c (of_getConnection hget)
  cases hop
  refine ⟨fun x hx => h.connections x (OrdMap.mem_values_remove hx), fun hn => ?_,
    (fun ho => by split at ho <;> cases ho), ⟨fun k x hx => ?_, hk.volumes⟩⟩
  · split at hn
    · cases hn
    · rename_i hm
      rw [hname]
      exact h.removeConnection (of_getConnection hget) (by simpa using hm)
  · change (r.connections.remove c.name).get k = some x at hx
    rw [OrdMap.get_remove] at hx
    split at hx
    · cases hx
    · exact hk.connections k x hx

theorem destroyDevice_prepared (h : r.Current) (hk : r.Keyed)
    (hop : destroyDevice p r = (.ok how, r')) : Prepared r how r' := by
  unfold destroyDevice at hop
  split at hop
  · cases hop
  rename_i n v hget
  have hnr := hk.volumes n v (of_getDevice hget)
  cases hop
  refine ⟨h.connections, fun hn => ?_, (fun ho => by split at ho <;> cases ho),
    ⟨hk.connections, fun k x hx => ?_⟩⟩
  · split at hn
    · cases hn
    · rename_i hm
      rw [hnr]
      exact h.removeVolume (of_getDevice hget) (by simpa using hm)
  · change (r.volumes.remove v.volNr).get k = some x at hx
    rw [OrdMap.get_remove] at hx
    split at hx
    · cases hx
    · exact hk.volumes k x hx

theorem destroyPeerDevice_prepared (h : r.Current) (hk : r.Keyed)
    (hop : destroyPeerDevice p r = (.ok how, r')) : Prepared r how r' := by
  unfold destroyPeerDevice at hop
  split at hop
  · cases hop
  rename_i name c hget
  have hcur := h.connections c (OrdMap.mem_values_iff.2 ⟨name, of_getConnection hget⟩)
  split at hop
  · cases hop
  rename_i n v hdev
  simp only at hop
  have hvol : ∀ x ∈ (c.volumes.remove n).values, x.objState = x.state (some c.excuse) :=
    fun x hx => hcur.volumes x (OrdMap.mem_values_remove hx)
  split at hop
  · cases hop
    exact prepared_setConnection h hk (of_getConnection hget) (hcur.setVolumes hvol)
      (Connection.name_childStateFlagsChanged _) (by simp) (by simp)
  · rename_i hm
    cases hop
    exact prepared_setConnection h hk (of_getConnection hget)
      (hcur.sameMarks hvol (OrdMap.any_remove (of_getDevice hdev) (by simpa using hm))) rfl
      (fun _ => rfl) (by simp)

/-- Every operation on a resource prepares the recomputation. -/
theorem Op.prepared {op : Op} {f : ResourceOp} (hf : op.onResource = some f) (h : r.Current)
    (hk : r.Keyed)
    (hs : op = .updateConnection → ∀ name c, getConnection p r = .ok (name, c) → c.Steady (c.update p).2)
    (hop : f p r = (.ok how, r')) : Prepared r how r' := by
  cases op <;> cases hf
  case createConnection => exact createConnection_prepared h hk hop
  case createDevice => exact createDevice_prepared h hk hop
  case createPeerDevice => exact createPeerDevice_prepared h hk hop
  case updateConnection => exact updateConnection_prepared h hk (hs rfl) hop
  case updateDevice => exact updateDevice_prepared h hk hop
  case updatePeerDevice => exact updatePeerDevice_prepared h hk hop
  case updateResource => exact updateResource_prepared h hk hop
  case destroyConnection => exact destroyConnection_prepared h hk hop
  case destroyDevice => exact destroyDevice_prepared h hk hop
  case destroyPeerDevice => exact destroyPeerDevice_prepared h hk hop

end Ops

/-! ### Whole runs -/

/-- A line that does not meet the two gaps of the recomputation: a resource whose role is unknown
    is not recomputed from its children, and a connection that judges its peer volumes does not
    enter or leave its alert state. -/
def Regular (d : Directory) (op : Op) (p : PropsMap) : Prop :=
  match op with
  | .createResource => ∀ r, Resource.newFromProps d.nextOid p = .ok r → (r.update p).2.role ≠ .unknown
  | op => ∀ name r f how r', p "name" = some name → d.rscMap.get name = some r →
      op.onResource = some f → f p r = (.ok how, r') →
      (r'.role = .unknown → how = .none ∨ how = .own ∧ r'.objState = .norm) ∧
      (op = .updateConnection →
        ∀ name c, getConnection p r = .ok (name, c) → c.Steady (c.update p).2)

/-- All stored states follow from the properties. -/
def Directory.Current (d : Directory) : Prop :=
  ∀ name r, d.rscMap.get name = some r → r.Current ∧ r.Keyed

theorem Prepared.current {r r' : Resource} {how : Recompute} (h : r.Current) (hp : Prepared r how r')
    (hrole : r'.role = .unknown → how = .none ∨ how = .own ∧ r'.objState = .norm) :
    (how.apply r').Current := by
  cases how with
  | none => exact hp.none rfl
  | children =>
    refine Resource.childStateFlagsChanged_current (fun hu => ?_) hp.connections
    rcases hrole hu with h | h
    · cases h
    · cases h.1
  | own =>
    refine Resource.updateStateFlags_current h (hp.own rfl) fun hne hu => ?_
    rcases hrole hu with h | h
    · cases h
    · refine hne ?_
      rw [hp.own rfl] at h
      exact h.2

theorem Resource.Keyed.childStateFlagsChanged {r : Resource} (h : r.Keyed) :
    r.childStateFlagsChanged.Keyed := by
  have hvol : ∀ k v, (r.volumes.map (·.updateStateFlags none)).get k = some v → v.volNr = k := by
    intro k v hv
    rw [OrdMap.get_map] at hv
    obtain ⟨x, hx, rfl⟩ := Option.map_eq_some_iff.1 hv
    rw [Volume.volNr_updateStateFlags]
    exact h.volumes k x hx
  have hloop : ∀ l : List (String × Connection), (∀ e ∈ l, e.2.name = e.1) →
      ∀ e ∈ (updateConnections l).1, e.2.name = e.1 := by
    intro l
    induction l with
    | nil => simp [updateConnections]
    | cons e l ih =>
      intro hl x hx
      have hhead : (e.2.updateStateFlags).name = e.1 := by
        rw [Connection.name_updateStateFlags]
        exact hl e (List.mem_cons_self ..)
      have htail : ∀ y ∈ l, y.2.name = y.1 := fun y hy => hl y (List.mem_cons_of_mem _ hy)
      unfold updateConnections at hx
      split at hx
      · rcases List.mem_cons.1 hx with rfl | hx
        · exact hhead
        · exact htail x hx
      · rcases List.mem_cons.1 hx with rfl | hx
        · exact hhead
        · exact ih htail x hx
  have hcon : ∀ k c, (r.updatedConnections).get k = some c → c.name = k := by
    intro k c hc
    exact hloop r.connections.entries (fun e he => h.connections e.1 e.2 (OrdMap.mem_iff_get.1 he))
      (k, c) (OrdMap.mem_iff_get.2 hc)
  unfold Resource.childStateFlagsChanged
  dsimp only
  by_cases hn : (if (r.volumes.map (·.updateStateFlags none)).values.any (·.quorumAlert) = true then
      State.alert else if (r.volumes.map (·.updateStateFlags none)).values.any (·.objState.hasMark) =
        true then .mark else .norm) = .norm
  · rw [if_pos hn]
    exact ⟨hcon, hvol⟩
  · rw [if_neg hn]
    exact ⟨h.connections, hvol⟩

theorem Recompute.keyed (how : Recompute) {r : Resource} (h : r.Keyed) : (how.apply r).Keyed := by
  cases how with
  | none => exact h
  | children => exact h.childStateFlagsChanged
  | own =>
    unfold Recompute.apply Resource.updateStateFlags
    dsimp only
    split
    · exact Resource.Keyed.childStateFlagsChanged ⟨h.connections, h.volumes⟩
    · exact ⟨h.connections, h.volumes⟩

theorem onResource_current {d d' : Directory} {op : Op} {p : PropsMap} {f : ResourceOp}
    (h : d.Current) (hf : op.onResource = some f)
    (hreg : ∀ name r f how r', p "name" = some name → d.rscMap.get name = some r →
      op.onResource = some f → f p r = (.ok how, r') →
      (r'.role = .unknown → how = .none ∨ how = .own ∧ r'.objState = .norm) ∧
      (op = .updateConnection →
        ∀ name c, getConnection p r = .ok (name, c) → c.Steady (c.update p).2))
    (hrun : onResource f p d = (.ok (), d')) : d'.Current := by
  unfold onResource at hrun
  split at hrun
  · cases hrun
  rename_i name hname
  split at hrun
  · cases hrun
  rename_i r hget
  obtain ⟨hcur, hkey⟩ := h name r hget
  split at hrun
  · cases hrun
  rename_i how r' hop
  obtain ⟨hrole, hsteady⟩ := hreg name r f how r' hname hget hf hop
  have hp := Op.prepared hf hcur hkey hsteady hop
  cases hrun
  intro k x hx
  change (d.rscMap.adjust name fun _ => how.apply r').get k = some x at hx
  rw [OrdMap.get_adjust] at hx
  split at hx
  · obtain ⟨_, _, rfl⟩ := Option.map_eq_some_iff.1 hx
    exact ⟨hp.current hcur hrole, how.keyed hp.keyed⟩
  · exact h k x hx

theorem createResource_current {d d' : Directory} {p : PropsMap} (h : d.Current)
    (hreg : ∀ r, Resource.newFromProps d.nextOid p = .ok r → (r.update p).2.role ≠ .unknown)
    (hrun : createResource p d = (.ok (), d')) : d'.Current := by
  unfold createResource at hrun
  split at hrun
  · cases hrun
  rename_i r hnew
  have hrole := hreg r hnew
  have hvol := Resource.update_keeps (·.volumes) (fun _ _ => rfl) p r
  have hcon := Resource.update_keeps (·.connections) (fun _ _ => rfl) p r
  have hobj := Resource.update_keeps (·.objState) (fun _ _ => rfl) p r
  have hempty : r.volumes = .empty ∧ r.connections = .empty ∧ r.objState = .alert := by
    unfold Resource.newFromProps at hnew
    split at hnew <;> cases hnew
    exact ⟨rfl, rfl, rfl⟩
  split at hrun
  · cases hrun
  rename_i r' hupd
  rw [hupd] at hrole hvol hcon hobj
  rw [hempty.1] at hvol
  rw [hempty.2.1] at hcon
  rw [hempty.2.2] at hobj
  -- a new object starts in alert, so its state is recomputed
  have hcur : r'.updateStateFlags.Current := by
    unfold Resource.updateStateFlags
    dsimp only at hobj ⊢
    rw [hobj, if_pos (by simp)]
    refine Resource.childStateFlagsChanged_current hrole fun c hc => ?_
    rw [hcon] at hc
    cases hc
  have hkey : r'.updateStateFlags.Keyed := by
    refine Recompute.keyed .own ⟨fun k c hc => ?_, fun k v hv => ?_⟩
    · rw [hcon] at hc
      cases hc
    · rw [hvol] at hv
      cases hv
  dsimp only at hrun
  split at hrun
  · cases hrun
  rename_i m hins
  cases hrun
  intro k x hx
  change m.get k = some x at hx
  rw [OrdMap.get_insert hins] at hx
  split at hx
  · cases hx
    exact ⟨hcur, hkey⟩
  · exact h k x hx

theorem renameResource_current {d d' : Directory} {p : PropsMap} (h : d.Current)
    (hrun : renameResource p d = (.ok (), d')) : d'.Current := by
  unfold renameResource at hrun
  split at hrun
  · cases hrun
  rename_i name _
  split at hrun
  · cases hrun
  rename_i r hget
  obtain ⟨hcur, hkey⟩ := h name r hget
  dsimp only at hrun
  split at hrun
  · cases hrun
  rename_i newName _
  split at hrun
  · cases hrun
  rename_i m hins
  have hm : ∀ k x, m.get k = some x → x.Current ∧ x.Keyed := by
    intro k x hx
    rw [OrdMap.get_insert hins] at hx
    split at hx
    · cases hx
      exact ⟨⟨hcur.objState, hcur.volumes, hcur.connections⟩, ⟨hkey.connections, hkey.volumes⟩⟩
    · rw [OrdMap.get_remove] at hx
      split at hx
      · cases hx
      · exact h k x hx
  split at hrun
  · split at hrun
    · cases hrun
    · cases hrun
      exact hm
  · cases hrun
    exact hm

theorem destroyResource_current {d d' : Directory} {p : PropsMap} (h : d.Current)
    (hrun : destroyResource p d = (.ok (), d')) : d'.Current := by
  unfold destroyResource at hrun
  split at hrun
  · cases hrun
  · split at hrun
    · cases hrun
    · cases hrun
      intro k x hx
      change (d.rscMap.remove _).get k = some x at hx
      rw [OrdMap.get_remove] at hx
      split at hx
      · cases hx
      · exact h k x hx

/-- An accepted regular line keeps the stored states right. -/
theorem step_current {d d' : Directory} {op : Op} {p : PropsMap} (h : d.Current)
    (hreg : Regular d op p) (hrun : step d op p = (.ok (), d')) : d'.Current := by
  cases op
  case createResource => exact createResource_current h hreg hrun
  case renameResource => exact renameResource_current h hrun
  case destroyResource => exact destroyResource_current h hrun
  all_goals exact onResource_current h rfl hreg hrun

/-- The directory after a sequence of lines; `none` when one of them is not accepted. -/
def Directory.accept (d : Directory) : List (Op × PropsMap) → Option Directory
  | [] => some d
  | (op, p) :: lines =>
    match step d op p with
    | (.ok (), d') => d'.accept lines
    | (.error _, _) => none

/-- Every line of the sequence is regular when it is handled. -/
def RegularRun (d : Directory) : List (Op × PropsMap) → Prop
  | [] => True
  | (op, p) :: lines => Regular d op p ∧ RegularRun (step d op p).2 lines

theorem accept_current {d d' : Directory} {lines : List (Op × PropsMap)} (h : d.Current)
    (hreg : RegularRun d lines) (hrun : d.accept lines = some d') : d'.Current := by
  induction lines generalizing d with
  | nil =>
    cases hrun
    exact h
  | cons l lines ih =>
    obtain ⟨op, p⟩ := l
    obtain ⟨hline, hrest⟩ := hreg
    unfold Directory.accept at hrun
    split at hrun
    · rename_i d₁ hstep
      rw [hstep] at hrest
      exact ih (step_current h hline hstep) hrest hrun
    · cases hrun

/-! ### States and properties of a whole directory -/

/-- States of a resource, its volumes, its connections and their peer volumes. -/
abbrev States := State × OrdMap Nat State × OrdMap String (State × OrdMap Nat State)

def Resource.states (r : Resource) : States :=
  (r.objState, r.volumes.map (·.objState),
    r.connections.map fun c => (c.objState, c.volumes.map (·.objState)))

/-- The states computed from scratch. -/
def Resource.freshStates (r : Resource) : States :=
  (r.freshState, r.volumes.map (·.state none),
    r.connections.map fun c => (c.freshState, c.volumes.map (·.state (some c.excuse))))

def Volume.properties (v : Volume) : Volume :=
  { v with diskAlert := false, replWarn := false, replAlert := false, objState := .norm }

def Connection.properties (c : Connection) : Connection :=
  { c with
    connAlert := false, roleAlert := false, objState := .norm
    volumes := c.volumes.map Volume.properties }

/-- A resource without what was derived from its properties, and without the object it is. -/
def Resource.properties (r : Resource) : Resource :=
  { r with
    oid := 0, roleAlert := false, quorumAlert := false, objState := .norm
    volumes := r.volumes.map Volume.properties
    connections := r.connections.map Connection.properties }

theorem Resource.Current.states {r : Resource} (h : r.Current) : r.states = r.freshStates := by
  have hvol : r.volumes.map (·.objState) = r.volumes.map (·.state none) := OrdMap.map_congr h.volumes
  have hcon : (r.connections.map fun c => (c.objState, c.volumes.map (·.objState))) =
      r.connections.map fun c => (c.freshState, c.volumes.map (·.state (some c.excuse))) := by
    refine OrdMap.map_congr fun c hc => ?_
    rw [(h.connections c hc).objState, OrdMap.map_congr (h.connections c hc).volumes]
  rw [Resource.states, Resource.freshStates, h.objState, hvol, hcon]

theorem any_values_map {κ α β : Type} [LinearOrder κ] (m : OrdMap κ α) (f : α → β) (g : β → Bool) :
    (m.map f).values.any g = m.values.any fun a => g (f a) := by
  rw [values_map, List.any_map]
  rfl

theorem Connection.freshState_properties (c : Connection) :
    c.properties.freshState = c.freshState := by
  show (if c.inAlert = true then State.alert else if (c.volumes.map Volume.properties).values.any
    (fun v => (v.state (some c.excuse)).hasMark) = true then .mark else .norm) = _
  rw [any_values_map]
  rfl

/-- The states computed from scratch depend on the properties alone. -/
theorem Resource.freshStates_properties (r : Resource) : r.properties.freshStates = r.freshStates := by
  have hstate : r.properties.freshState = r.freshState := by
    show (if (decide (r.role = .unknown) || (r.volumes.map Volume.properties).values.any
      (·.quorumAlert)) = true then State.alert else if (((r.volumes.map Volume.properties).values.any
        fun v => (v.state none).hasMark) || (r.connections.map Connection.properties).values.any
          (·.freshState.hasMark)) = true then .mark else .norm) = _
    rw [any_values_map, any_values_map, any_values_map]
    simp only [Connection.freshState_properties]
    rfl
  have hvol : (r.volumes.map Volume.properties).map (·.state none) = r.volumes.map (·.state none) :=
    OrdMap.map_map ..
  have hcon : ((r.connections.map Connection.properties).map fun c =>
      (c.freshState, c.volumes.map (·.state (some c.excuse)))) =
      r.connections.map fun c => (c.freshState, c.volumes.map (·.state (some c.excuse))) := by
    rw [OrdMap.map_map]
    refine OrdMap.map_congr fun c _ => ?_
    rw [Connection.freshState_properties]
    exact congrArg (c.freshState, ·) (OrdMap.map_map ..)
  show (r.properties.freshState, (r.volumes.map Volume.properties).map (·.state none),
    (r.connections.map Connection.properties).map fun c =>
      (c.freshState, c.volumes.map (·.state (some c.excuse)))) = _
  rw [hstate, hvol, hcon]
  rfl

/-- **The stored states follow from the properties.**  After every sequence of accepted lines that
    are regular, each object's stored state is the one computed from scratch; two such sequences
    that lead to the same properties lead to the same states. -/
theorem directory_current {lines : List (Op × PropsMap)} {d : Directory}
    (hrun : Directory.accept {} lines = some d) (hreg : RegularRun {} lines) :
    d.rscMap.map Resource.states = d.rscMap.map Resource.freshStates ∧
      ∀ lines' d', Directory.accept {} lines' = some d' → RegularRun {} lines' →
        d.rscMap.map Resource.properties = d'.rscMap.map Resource.properties →
        d.rscMap.map Resource.states = d'.rscMap.map Resource.states := by
  have hfresh : ∀ lines d, Directory.accept {} lines = some d → RegularRun {} lines →
      d.rscMap.map Resource.states = d.rscMap.map Resource.freshStates := by
    intro lines d hrun hreg
    have hcur := accept_current (fun _ _ h => by cases h) hreg hrun
    refine OrdMap.map_congr fun r hr => ?_
    obtain ⟨k, hk⟩ := OrdMap.mem_values_iff.1 hr
    exact (hcur k r hk).1.states
  have hprops : ∀ d : Directory, d.rscMap.map Resource.freshStates =
      (d.rscMap.map Resource.properties).map Resource.freshStates := by
    intro d
    rw [OrdMap.map_map]
    exact OrdMap.map_congr fun r _ => (Resource.freshStates_properties r).symm
  refine ⟨hfresh lines d hrun hreg, fun lines' d' hrun' hreg' heq => ?_⟩
  rw [hfresh lines d hrun hreg, hfresh lines' d' hrun' hreg', hprops d, heq, ← hprops d']

/-! ### A resource whose role is not known -/

/-- The properties of a line, from a list. -/
def propsOf (l : List (String × String)) : PropsMap := fun k => OrdMap.lookup k l

/-- `exists resource name:r role:Unknown` is accepted, and leaves a normal resource. -/
theorem directory_hides_unknown_role :
    ∃ d, Directory.accept {} [(.createResource, propsOf [("name", "r"), ("role", "Unknown")])] =
        some d ∧ d.rscMap.map Resource.states ≠ d.rscMap.map Resource.freshStates := by
  refine ⟨_, rfl, fun h => ?_⟩
  have hget := congrArg (fun m => (m.get "r").map Prod.fst) h
  revert hget
  decide

/-- A secondary with a volume that is out of date. -/
def outdatedLines : List (Op × PropsMap) :=
  [(.createResource, propsOf [("name", "r"), ("role", "Secondary")]),
    (.createDevice, propsOf [("name", "r"), ("volume", "0"), ("minor", "7"), ("disk", "Outdated")])]

theorem directory_current_outdated :
    ∃ d, Directory.accept {} outdatedLines = some d ∧
      d.rscMap.map Resource.states = d.rscMap.map Resource.freshStates := by
  refine ⟨_, rfl, (@directory_current outdatedLines _ rfl ⟨fun r hr => ?_,
    fun name r f how r' hn hr hf hop => ?_, trivial⟩).1⟩
  · cases hr
    decide
  · cases hn
    cases hr
    cases hf
    cases hop
    exact ⟨fun h => absurd h (by decide), fun h => absurd h (by decide)⟩

end DrbdUtils.DrbdMon
