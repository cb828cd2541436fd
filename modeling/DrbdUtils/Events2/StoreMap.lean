import DrbdUtils.Events2.ApplyEvent

/-!
# The events2 store is a keyed map

What the lists of the store stand for: a resource is a record with a map from volumes to devices and
one from names to connections, a connection is one with a map from volumes to peer devices and one
from address pairs to paths.

* `ResourceMap.apply` — a message, in terms of these maps: insert if absent, update if present (or
  insert, for paths), remove.
* `Resource.WellKeyed.eventChange` — the lists do the same and keep the keys unique.
* `store_refines` — so does every run; copies and reordered lists are the same map.
-/

set_option autoImplicit false

namespace DrbdUtils.Events2

open KeyedList

/-! ## The maps -/

structure ConnectionMap where
  ctx : DrbdCfgContext
  info : ConnectionInfo
  statistics : ConnectionStatistics
  peerDevices : KeyMap Nat PeerDevice
  paths : KeyMap PathKey Path

structure ResourceMap where
  name : String
  info : ResourceInfo
  statistics : ResourceStatistics
  resNewName : String
  destroyed : Bool
  devices : KeyMap Nat Device
  connections : KeyMap String ConnectionMap

def Connection.toMap (c : Connection) : ConnectionMap where
  ctx := c.ctx
  info := c.info
  statistics := c.statistics
  peerDevices := find PeerDevice.key c.peerDevices
  paths := find Path.key c.paths

def Resource.toMap (r : Resource) : ResourceMap where
  name := r.name
  info := r.info
  statistics := r.statistics
  resNewName := r.resNewName
  destroyed := r.destroyed
  devices := find Device.key r.devices
  connections := fun name => (find Connection.key r.connections name).map Connection.toMap

/-- Update the object with the key, or insert one. -/
def KeyMap.updateOrInsert {κ β : Type} [DecidableEq κ] (m : KeyMap κ β) (k : κ) (f : β → β) (b : β) :
    KeyMap κ β := Function.update m k (some (((m k).map f).getD b))

namespace ResourceMap

variable (n : Notification) (ctx : DrbdCfgContext)

def setConnection (m : ResourceMap) (name : String) (f : ConnectionMap → ConnectionMap) :
    ResourceMap := { m with connections := m.connections.updateIfPresent name f }

/-- A message, on the maps. -/
def apply (action : NotificationType) (m : ResourceMap) : Option ResourceMap :=
  match action, n.cmd with
  | .exists, .resourceState | .create, .resourceState => some m
  | .exists, .deviceState | .create, .deviceState => some { m with
      devices := m.devices.insertIfAbsent ctx.ctxVolume (newDeviceFromInfo n ctx) }
  | .exists, .connectionState | .create, .connectionState => some { m with
      connections := m.connections.insertIfAbsent ctx.ctxConnName
        (newConnectionFromInfo n ctx).toMap }
  | .exists, .peerDeviceState | .create, .peerDeviceState =>
    some (m.setConnection ctx.ctxConnName fun c => { c with
      peerDevices := c.peerDevices.insertIfAbsent ctx.ctxVolume (newPeerDeviceFromInfo n ctx) })
  | .exists, .pathState | .create, .pathState =>
    some (m.setConnection ctx.ctxConnName fun c => { c with
      paths := c.paths.insertIfAbsent ctx.pathKey (newPathFromInfo n ctx) })
  | .change, .resourceState => some { m with
      info := n.resourceInfo m.info
      statistics := n.resourceStatistics {} }
  | .change, .deviceState => some { m with
      devices := m.devices.updateIfPresent ctx.ctxVolume (changeDevice n) }
  | .change, .connectionState => some (m.setConnection ctx.ctxConnName fun c => { c with
      info := n.connectionInfo c.info
      statistics := n.connectionStatistics {} })
  | .change, .peerDeviceState => some (m.setConnection ctx.ctxConnName fun c => { c with
      peerDevices := c.peerDevices.updateIfPresent ctx.ctxVolume (changePeerDevice n) })
  | .change, .pathState => some (m.setConnection ctx.ctxConnName fun c => { c with
      paths := KeyMap.updateOrInsert c.paths ctx.pathKey (changePath n) (newPathFromInfo n ctx) })
  | .destroy, .resourceState => some { m with destroyed := true }
  | .destroy, .deviceState => some { m with devices := m.devices.remove ctx.ctxVolume }
  | .destroy, .connectionState => some { m with
      connections := m.connections.remove ctx.ctxConnName }
  | .destroy, .peerDeviceState => some (m.setConnection ctx.ctxConnName fun c => { c with
      peerDevices := c.peerDevices.remove ctx.ctxVolume })
  | .destroy, .pathState => some (m.setConnection ctx.ctxConnName fun c => { c with
      paths := c.paths.remove ctx.pathKey })
  | .call, .helper | .response, .helper => if n.helperInfo.isSome then some m else none
  | .rename, .resourceState => some { m with
      resNewName := n.renameResourceInfo m.resNewName }
  | .rename, _ => some m
  | _, _ => none

end ResourceMap

/-! ## Keys -/

theorem deviceKey_change (n : Notification) (d : Device) : (changeDevice n d).key = d.key := rfl

theorem peerDeviceKey_change (n : Notification) (p : PeerDevice) :
    (changePeerDevice n p).key = p.key := rfl

theorem pathKey_change (n : Notification) (p : Path) : (changePath n p).key = p.key := rfl

/-! ## Operations on the lists of a resource -/

section Operations

variable {r : Resource} (h : r.WellKeyed)

include h

theorem Resource.WellKeyed.setDevices {ds : List Device} (hds : Keyed Device.key ds) :
    ({ r with devices := ds } : Resource).WellKeyed := ⟨hds, h.connections, h.inner⟩

/-- A change of one connection that leaves its name alone. -/
theorem Resource.WellKeyed.setConnection {f : Connection → Connection}
    (hkey : ∀ c, (f c).key = c.key) (hf : ∀ c, c.WellKeyed → (f c).WellKeyed) (name : String) :
    (r.setConnection name f).WellKeyed where
  devices := h.devices
  connections := h.connections.modify hkey name
  inner := forall_modify hf name h.inner

omit h in
theorem toMap_setConnection {f : Connection → Connection} {g : ConnectionMap → ConnectionMap}
    (hkey : ∀ c, (f c).key = c.key) (name : String)
    (hfg : ∀ c, find Connection.key r.connections name = some c → (f c).toMap = g c.toMap) :
    (r.setConnection name f).toMap = r.toMap.setConnection name g := by
  have hconn : (fun k => (find Connection.key (modify Connection.key name f r.connections) k).map
      Connection.toMap) = KeyMap.updateIfPresent
        (fun k => (find Connection.key r.connections k).map Connection.toMap) name g := by
    funext k
    rw [find_modify hkey]
    unfold KeyMap.updateIfPresent
    rw [Function.update_apply, Function.update_apply]
    split
    · dsimp only
      cases hc : find Connection.key r.connections name with
      | none => rfl
      | some c => exact congrArg some (hfg c hc)
    · rfl
  unfold Resource.setConnection ResourceMap.setConnection Resource.toMap
  rw [hconn]

theorem Resource.WellKeyed.setPeerDevices {f : List PeerDevice → List PeerDevice}
    (hf : ∀ l, Keyed PeerDevice.key l → Keyed PeerDevice.key (f l)) (name : String) :
    (r.setConnection name fun c => { c with peerDevices := f c.peerDevices }).WellKeyed := by
  refine h.setConnection (by intro; rfl) ?_ name
  exact fun c hc => ⟨hf _ hc.peerDevices, hc.paths⟩

theorem Resource.WellKeyed.setPaths {f : List Path → List Path}
    (hf : ∀ l, Keyed Path.key l → Keyed Path.key (f l)) (name : String) :
    (r.setConnection name fun c => { c with paths := f c.paths }).WellKeyed := by
  refine h.setConnection (by intro; rfl) ?_ name
  exact fun c hc => ⟨hc.peerDevices, hf _ hc.paths⟩

theorem toMap_setPeerDevices {f : List PeerDevice → List PeerDevice}
    {g : KeyMap Nat PeerDevice → KeyMap Nat PeerDevice}
    (hfg : ∀ l, Keyed PeerDevice.key l → find PeerDevice.key (f l) = g (find PeerDevice.key l))
    (name : String) :
    (r.setConnection name fun c => { c with peerDevices := f c.peerDevices }).toMap =
      r.toMap.setConnection name fun c => { c with peerDevices := g c.peerDevices } := by
  refine toMap_setConnection (by intro; rfl) name fun c hc => ?_
  unfold Connection.toMap
  rw [hfg _ (h.inner c (mem_of_find hc).1).peerDevices]

theorem toMap_setPaths {f : List Path → List Path} {g : KeyMap PathKey Path → KeyMap PathKey Path}
    (hfg : ∀ l, Keyed Path.key l → find Path.key (f l) = g (find Path.key l)) (name : String) :
    (r.setConnection name fun c => { c with paths := f c.paths }).toMap =
      r.toMap.setConnection name fun c => { c with paths := g c.paths } := by
  refine toMap_setConnection (by intro; rfl) name fun c hc => ?_
  unfold Connection.toMap
  rw [hfg _ (h.inner c (mem_of_find hc).1).paths]

theorem toMap_storePeerDevice (p : PeerDevice) : (storePeerDeviceCheck r p).toMap =
    r.toMap.setConnection p.ctx.ctxConnName fun c => { c with
      peerDevices := c.peerDevices.insertIfAbsent p.key p } :=
  toMap_setPeerDevices h (f := (storeCheck PeerDevice.key · p))
    (g := (·.insertIfAbsent p.key p)) (fun l _ => find_storeCheck l p) _

theorem toMap_storePath (p : Path) : (storePathCheck r p).toMap =
    r.toMap.setConnection p.ctx.ctxConnName fun c => { c with
      paths := c.paths.insertIfAbsent p.key p } :=
  toMap_setPaths h (f := (storeCheck Path.key · p)) (g := (·.insertIfAbsent p.key p))
    (fun l _ => find_storeCheck l p) _

theorem Resource.WellKeyed.storeConnection {c : Connection} (hc : c.WellKeyed) :
    (storeConnectionCheck r c).WellKeyed where
  devices := h.devices
  connections := h.connections.storeCheck c
  inner := by
    intro x hx
    rcases mem_of_mem_storeCheck hx with rfl | hx
    · exact hc
    · exact h.inner x hx

theorem Resource.WellKeyed.deleteConnection (name : String) :
    (deleteConnection r name).WellKeyed where
  devices := h.devices
  connections := h.connections.delete name
  inner := fun x hx => h.inner x (mem_of_mem_delete hx)

omit h in
theorem toMap_storeConnection (c : Connection) : (storeConnectionCheck r c).toMap =
    { r.toMap with connections := r.toMap.connections.insertIfAbsent c.key c.toMap } := by
  have hconn : (fun k => (find Connection.key (storeCheck Connection.key r.connections c) k).map
      Connection.toMap) = KeyMap.insertIfAbsent
        (fun k => (find Connection.key r.connections k).map Connection.toMap) c.key c.toMap := by
    funext k
    rw [find_storeCheck]
    unfold KeyMap.insertIfAbsent
    rw [Option.isSome_map]
    split
    · rfl
    · rw [Function.update_apply, Function.update_apply]
      split <;> rfl
  unfold storeConnectionCheck Resource.toMap
  rw [hconn]

theorem toMap_deleteConnection (name : String) : (deleteConnection r name).toMap =
    { r.toMap with connections := r.toMap.connections.remove name } := by
  have hconn : (fun k => (find Connection.key (delete Connection.key r.connections name) k).map
      Connection.toMap) = KeyMap.remove
        (fun k => (find Connection.key r.connections k).map Connection.toMap) name := by
    funext k
    rw [find_delete h.connections]
    unfold KeyMap.remove
    rw [Function.update_apply, Function.update_apply]
    split <;> rfl
  unfold Events2.deleteConnection Resource.toMap
  rw [hconn]

/-! ## One message -/

/-- A change of a path that is not known stores it. -/
theorem toMap_changeOrStorePath (n : Notification) (ctx : DrbdCfgContext) :
    (changeOrStorePath n ctx r).WellKeyed ∧ (changeOrStorePath n ctx r).toMap =
      r.toMap.setConnection ctx.ctxConnName fun c => { c with
        paths := KeyMap.updateOrInsert c.paths ctx.pathKey (changePath n)
          (newPathFromInfo n ctx) } := by
  unfold changeOrStorePath
  split
  · rename_i p hp
    refine ⟨h.setPaths (fun l hl => hl.modify (pathKey_change n) _) _, ?_⟩
    refine toMap_setConnection (by intro; rfl) _ fun c hc => ?_
    have hpc : find Path.key c.paths ctx.pathKey = some p := by
      rwa [findPath, findConnection, hc] at hp
    unfold Connection.toMap KeyMap.updateOrInsert
    dsimp only
    rw [find_modify (pathKey_change n), hpc, KeyMap.updateIfPresent, hpc]
    rfl
  · rename_i hp
    refine ⟨h.setPaths (fun l hl => hl.storeCheck _) _, ?_⟩
    refine toMap_setConnection (by intro; rfl) _ fun c hc => ?_
    have hpc : find Path.key c.paths ctx.pathKey = none := by
      rw [findPath, findConnection] at hp
      rwa [show find Connection.key r.connections ctx.ctxConnName = some c from hc] at hp
    unfold Connection.toMap KeyMap.updateOrInsert
    dsimp only
    rw [find_storeCheck, hpc, KeyMap.insertIfAbsent, if_neg]
    · rfl
    · rw [show (newPathFromInfo n ctx).key = ctx.pathKey from rfl, hpc]
      exact Bool.false_ne_true

omit h in
/-- A message that is not ignored. -/
theorem applied {f : Resource → Resource} {m : ResourceMap} (hf : (f r).WellKeyed)
    (hm : (f r).toMap = m) : ((some f).map fun f => (f r).toMap) = some m ∧
      ∀ g, some f = some g → (g r).WellKeyed := by
  refine ⟨congrArg some hm, fun g hg => ?_⟩
  cases hg
  exact hf

/-- The lists do what the maps do, and keep their keys unique. -/
theorem Resource.WellKeyed.eventChange (n : Notification) (ctx : DrbdCfgContext)
    (action : NotificationType) :
    ((eventChange n ctx action).map fun f => (f r).toMap) = r.toMap.apply n ctx action ∧
      ∀ f, eventChange n ctx action = some f → (f r).WellKeyed := by
  have hdev : ∀ {ds : List Device} {m : KeyMap Nat Device}, find Device.key ds = m →
      ({ r with devices := ds } : Resource).toMap = { r.toMap with devices := m } := by
    rintro ds m rfl
    rfl
  unfold Events2.eventChange ResourceMap.apply
  cases action
  case «exists» | create =>
    cases n.cmd with
    | resourceState => exact applied h rfl
    | deviceState =>
      exact applied (h.setDevices (h.devices.storeCheck _)) (hdev (find_storeCheck _ _))
    | connectionState =>
      exact applied (h.storeConnection ⟨keyed_nil, keyed_nil⟩) (toMap_storeConnection _)
    | peerDeviceState =>
      exact applied (h.setPeerDevices (fun l hl => hl.storeCheck _) _)
        (toMap_storePeerDevice h _)
    | pathState =>
      exact applied (h.setPaths (fun l hl => hl.storeCheck _) _)
        (toMap_storePath h _)
    | _ => exact ⟨rfl, fun f hf => by cases hf⟩
  case change =>
    cases n.cmd with
    | resourceState => exact applied ⟨h.devices, h.connections, h.inner⟩ rfl
    | deviceState =>
      exact applied (h.setDevices (h.devices.modify (deviceKey_change n) _))
        (hdev (find_modify (deviceKey_change n) _ _))
    | connectionState =>
      exact applied (h.setConnection (f := changeConnection n) (by intro; rfl) (fun _ hc => ⟨hc.peerDevices, hc.paths⟩) _)
        (toMap_setConnection (by intro; rfl) _ fun _ _ => rfl)
    | peerDeviceState =>
      exact applied (h.setPeerDevices (fun l hl => hl.modify (peerDeviceKey_change n) _) _)
        (toMap_setPeerDevices h (f := modify PeerDevice.key ctx.ctxVolume (changePeerDevice n))
          (g := (·.updateIfPresent ctx.ctxVolume (changePeerDevice n)))
          (fun l _ => find_modify (peerDeviceKey_change n) _ l) _)
    | pathState =>
      have hpath := toMap_changeOrStorePath h n ctx
      exact applied hpath.1 hpath.2
    | _ => exact ⟨rfl, fun f hf => by cases hf⟩
  case destroy =>
    cases n.cmd with
    | resourceState => exact applied ⟨h.devices, h.connections, h.inner⟩ rfl
    | deviceState =>
      exact applied (h.setDevices (h.devices.delete _)) (hdev (find_delete h.devices _))
    | connectionState => exact applied (h.deleteConnection _) (toMap_deleteConnection h _)
    | peerDeviceState =>
      exact applied (h.setPeerDevices (fun l hl => hl.delete _) _)
        (toMap_setPeerDevices h (f := (delete PeerDevice.key · ctx.ctxVolume))
          (g := (·.remove ctx.ctxVolume)) (fun l hl => find_delete hl _) _)
    | pathState =>
      exact applied (h.setPaths (fun l hl => hl.delete _) _)
        (toMap_setPaths h (f := (delete Path.key · ctx.pathKey)) (g := (·.remove ctx.pathKey))
          (fun l hl => find_delete hl _) _)
    | _ => exact ⟨rfl, fun f hf => by cases hf⟩
  case call | response =>
    cases n.cmd with
    | helper =>
      dsimp only
      split
      · exact applied h rfl
      · exact ⟨rfl, fun f hf => by cases hf⟩
    | _ => exact ⟨rfl, fun f hf => by cases hf⟩
  case rename =>
    cases n.cmd with
    | resourceState => exact applied ⟨h.devices, h.connections, h.inner⟩ rfl
    | _ => exact applied h rfl
  case other => exact ⟨rfl, fun f hf => by cases hf⟩

end Operations

/-! ## Copies and reordered lists -/

theorem deepCopyConnection_wellKeyed {c : Connection} (h : c.WellKeyed) :
    (deepCopyConnection c).WellKeyed :=
  ⟨h.peerDevices.copy fun _ => rfl, h.paths.copy fun _ => rfl⟩

theorem toMap_deepCopyConnection {c : Connection} (h : c.WellKeyed) :
    (deepCopyConnection c).toMap = c.toMap := by
  have hpeers : find PeerDevice.key (deepCopyConnection c).peerDevices =
      find PeerDevice.key c.peerDevices := by
    funext k
    rw [deepCopyConnection, find_copy (fun _ => rfl) h.peerDevices]
    cases find PeerDevice.key c.peerDevices k <;> rfl
  have hpaths : find Path.key (deepCopyConnection c).paths = find Path.key c.paths := by
    funext k
    rw [deepCopyConnection, find_copy (fun _ => rfl) h.paths]
    cases find Path.key c.paths k <;> rfl
  unfold Connection.toMap
  rw [hpeers, hpaths]
  rfl

theorem deepCopyResource_wellKeyed {r : Resource} (h : r.WellKeyed) :
    (deepCopyResource r).WellKeyed where
  devices := h.devices.copy fun _ => rfl
  connections := h.connections.copy fun _ => rfl
  inner := by
    intro c hc
    have hmem : c ∈ copy deepCopyConnection r.connections := hc
    rw [copy_eq, List.mem_reverse, List.mem_map] at hmem
    obtain ⟨c, hc', rfl⟩ := hmem
    exact deepCopyConnection_wellKeyed (h.inner c hc')

theorem toMap_deepCopyResource {r : Resource} (h : r.WellKeyed) (hd : r.destroyed = false) :
    (deepCopyResource r).toMap = r.toMap := by
  have hdevices : find Device.key (deepCopyResource r).devices = find Device.key r.devices := by
    funext k
    rw [deepCopyResource, find_copy (fun _ => rfl) h.devices]
    cases find Device.key r.devices k <;> rfl
  have hconns : ∀ k, (find Connection.key (deepCopyResource r).connections k).map
      Connection.toMap = (find Connection.key r.connections k).map Connection.toMap := by
    intro k
    show (find Connection.key (copy deepCopyConnection r.connections) k).map _ = _
    rw [find_copy (f := deepCopyConnection) (fun _ => rfl) h.connections]
    cases hc : find Connection.key r.connections k with
    | none => rfl
    | some c => exact congrArg some (toMap_deepCopyConnection (h.inner c (mem_of_find hc).1))
  unfold Resource.toMap
  rw [hdevices, funext hconns, hd]
  rfl

/-- The same resource with its lists in another order. -/
structure Shuffled (r r' : Resource) : Prop where
  fields : r' = { r with
    devices := r'.devices
    connections := r'.connections }
  devices : r.devices.Perm r'.devices
  connections : ∃ cs, r.connections.Perm cs ∧ List.Forall₂ (fun c c' : Connection =>
    c' = { c with
      peerDevices := c'.peerDevices
      paths := c'.paths } ∧
    c.peerDevices.Perm c'.peerDevices ∧ c.paths.Perm c'.paths) cs r'.connections

theorem toMap_shuffledConnections {cs cs' : List Connection} (hcs : ∀ c ∈ cs, c.WellKeyed)
    (h : List.Forall₂ (fun c c' : Connection =>
      c' = { c with
        peerDevices := c'.peerDevices
        paths := c'.paths } ∧
      c.peerDevices.Perm c'.peerDevices ∧ c.paths.Perm c'.paths) cs cs') (k : String) :
    (find Connection.key cs' k).map Connection.toMap =
      (find Connection.key cs k).map Connection.toMap := by
  induction h with
  | nil => rfl
  | @cons c c' cs cs' hc _ ih =>
    obtain ⟨heq, hpeers, hpaths⟩ := hc
    have hkeyed := hcs c (List.mem_cons_self ..)
    have hkey : c'.key = c.key := by rw [heq]; rfl
    have hmap : c'.toMap = c.toMap := by
      rw [heq, Connection.toMap, Connection.toMap, hkeyed.peerDevices.find_perm hpeers,
        hkeyed.paths.find_perm hpaths]
    rw [find_cons, find_cons, hkey]
    split
    · rw [Option.map_some, Option.map_some, hmap]
    · exact ih fun x hx => hcs x (List.mem_cons_of_mem _ hx)

theorem toMap_shuffled {r r' : Resource} (hr : r.WellKeyed) (h : Shuffled r r') :
    r'.toMap = r.toMap := by
  obtain ⟨cs, hperm, hcs⟩ := h.connections
  have hinner : ∀ c ∈ cs, c.WellKeyed := fun c hc => hr.inner c (hperm.mem_iff.2 hc)
  have hconns : ∀ k, (find Connection.key r'.connections k).map Connection.toMap =
      (find Connection.key r.connections k).map Connection.toMap := by
    intro k
    rw [toMap_shuffledConnections hinner hcs k, hr.connections.find_perm hperm]
  rw [h.fields, Resource.toMap, Resource.toMap]
  dsimp only
  rw [hr.devices.find_perm h.devices, funext hconns]

/-- What the `find` functions see is the map. -/
theorem find_eq_toMap (r : Resource) :
    (∀ volume, findDevice r volume = r.toMap.devices volume) ∧
    (∀ name, (findConnection r name).map Connection.toMap = r.toMap.connections name) ∧
    (∀ ctx, findPeerDevice r ctx =
      (r.toMap.connections ctx.ctxConnName).bind (·.peerDevices ctx.ctxVolume)) ∧
    ∀ ctx, findPath r ctx = (r.toMap.connections ctx.ctxConnName).bind (·.paths ctx.pathKey) := by
  refine ⟨fun _ => rfl, fun _ => rfl, fun ctx => ?_, fun ctx => ?_⟩
  · unfold findPeerDevice findConnection Resource.toMap
    dsimp only
    cases find Connection.key r.connections ctx.ctxConnName <;> rfl
  · unfold findPath findConnection Resource.toMap
    dsimp only
    cases find Connection.key r.connections ctx.ctxConnName <;> rfl

/-! ## The store -/

structure StoreMap where
  update : List ResourceMap := []
  all : KeyMap String ResourceMap := fun _ => none
  initialState : Bool := true
  receiveUpdate : Bool := false

def Store.toMap (s : Store) : StoreMap where
  update := s.update.map Resource.toMap
  all := fun name => (find Resource.name s.all name).map Resource.toMap
  initialState := s.initialState
  receiveUpdate := s.receiveUpdate

namespace StoreMap

/-- A pending copy replaces the master copy, under its new name if it was renamed. -/
def flushResource (all : KeyMap String ResourceMap) (m : ResourceMap) : KeyMap String ResourceMap :=
  let name := if m.resNewName ≠ "" then m.resNewName else m.name
  if m.destroyed then all.remove m.name
  else (all.remove m.name).insertIfAbsent name { m with name := name }

def flush (s : StoreMap) : StoreMap :=
  { s with
    update := []
    all := s.update.foldl flushResource s.all }

def pendingFor (s : StoreMap) (n : Notification) (ctx : DrbdCfgContext)
    (action : NotificationType) : Option (List ResourceMap) :=
  let new := find ResourceMap.name s.update ctx.ctxResourceName
  let old := s.all ctx.ctxResourceName
  if isResourceCreate n action then
    if new.isSome || old.isSome then none else some ((newResourceFromInfo n ctx).toMap :: s.update)
  else match new, old with
    | some _, _ => some s.update
    | none, some old => some (old :: s.update)
    | none, none => none

def apply (s : StoreMap) (n : Notification) : StoreMap :=
  match n.header, n.ctx with
  | some (nhType, continues), some ctx =>
    let action := if nhType = .exists && s.receiveUpdate then .change else nhType
    match s.pendingFor n ctx action with
    | none => s
    | some update =>
      let update := modify ResourceMap.name ctx.ctxResourceName
        (fun m => { m with resNewName := "" }) update
      if (eventChange n ctx action).isNone then { s with update := update }
      else
        let s := { s with
          update := modify ResourceMap.name ctx.ctxResourceName
            (fun m => (m.apply n ctx action).getD m) update }
        if continues then s else s.flush
  | _, _ => s

def step (s : StoreMap) : Input → StoreMap
  | .notification n => s.apply n
  | .initialStateDone => { s with
      initialState := false
      receiveUpdate := false }
  | .prepareUpdate => { s with receiveUpdate := true }
  | .reset => { s with
      all := fun _ => none
      initialState := true }

end StoreMap

/-- What holds of the store in every run. -/
structure Store.Inv (s : Store) : Prop where
  update : ∀ r ∈ s.update, r.WellKeyed
  all : ∀ r ∈ s.all, r.WellKeyed ∧ r.destroyed = false
  names : Keyed Resource.name s.all

theorem find_toMap (l : List Resource) (name : String) :
    find ResourceMap.name (l.map Resource.toMap) name =
      (find Resource.name l name).map Resource.toMap := find_map (fun _ => rfl) l name

section Refinement

variable {T : Texts} {o : Options} {s : Store}

theorem Store.Inv.found (h : s.Inv) {name : String} {r : Resource}
    (hr : findResource s name = some r) : r.WellKeyed ∧ r.destroyed = false :=
  h.all r (mem_of_find hr).1

theorem Store.Inv.pendingFor (h : s.Inv) (n : Notification) (ctx : DrbdCfgContext)
    (action : NotificationType) :
    (Events2.pendingFor s n ctx action).map (List.map Resource.toMap) =
      s.toMap.pendingFor n ctx action ∧
    ∀ update, Events2.pendingFor s n ctx action = some update → ∀ r ∈ update, r.WellKeyed := by
  unfold Events2.pendingFor StoreMap.pendingFor findResource
  have hnew : find ResourceMap.name s.toMap.update ctx.ctxResourceName =
      (KeyedList.find Resource.name s.update ctx.ctxResourceName).map Resource.toMap :=
    find_toMap _ _
  have hold : s.toMap.all ctx.ctxResourceName =
      (KeyedList.find Resource.name s.all ctx.ctxResourceName).map Resource.toMap := rfl
  rw [hnew, hold]
  dsimp only
  rw [Option.isSome_map, Option.isSome_map]
  split
  · split
    · exact ⟨rfl, fun update hu => by cases hu⟩
    · refine ⟨rfl, fun update hu r hr => ?_⟩
      cases hu
      rcases List.mem_cons.1 hr with rfl | hr
      · exact ⟨keyed_nil, keyed_nil, fun c hc => by cases hc⟩
      · exact h.update r hr
  · cases hf : KeyedList.find Resource.name s.update ctx.ctxResourceName with
    | some r =>
      refine ⟨rfl, fun update hu => ?_⟩
      cases hu
      exact h.update
    | none =>
      cases hf' : KeyedList.find Resource.name s.all ctx.ctxResourceName with
      | none => exact ⟨rfl, fun update hu => by cases hu⟩
      | some r =>
        obtain ⟨hr, hd⟩ := h.found hf'
        constructor
        · show some ((deepCopyResource r).toMap :: s.update.map Resource.toMap) = _
          rw [toMap_deepCopyResource hr hd]
          rfl
        · intro update hu x hx
          cases hu
          rcases List.mem_cons.1 hx with rfl | hx
          · exact deepCopyResource_wellKeyed hr
          · exact h.update x hx

theorem printResourceChanges_name (i : Bool) (old : Option Resource) (new : Resource) :
    (printResourceChanges T o i old new).2 =
      if new.resNewName ≠ "" then new.resNewName else new.name := by
  unfold printResourceChanges
  dsimp only
  split
  · rfl
  · split <;> rfl

theorem Store.Inv.flushResource {all : List Resource} {lines : List Line}
    (hall : ∀ r ∈ all, r.WellKeyed ∧ r.destroyed = false) (hnames : Keyed Resource.name all)
    {new : Resource} (hnew : new.WellKeyed) (i : Bool) :
    (∀ r ∈ (flushResource T o i (all, lines) new).1, r.WellKeyed ∧ r.destroyed = false) ∧
    Keyed Resource.name (flushResource T o i (all, lines) new).1 ∧
    (fun name => (KeyedList.find Resource.name (flushResource T o i (all, lines) new).1 name).map
      Resource.toMap) = StoreMap.flushResource
        (fun name => (KeyedList.find Resource.name all name).map Resource.toMap) new.toMap := by
  have hremove : (fun name => (KeyedList.find Resource.name (delete Resource.name all new.name)
      name).map Resource.toMap) = KeyMap.remove
        (fun name => (KeyedList.find Resource.name all name).map Resource.toMap) new.name := by
    funext name
    rw [find_delete hnames]
    unfold KeyMap.remove
    rw [Function.update_apply, Function.update_apply]
    split <;> rfl
  have hdelete : ∀ r ∈ delete Resource.name all new.name, r.WellKeyed ∧ r.destroyed = false :=
    fun r hr => hall r (mem_of_mem_delete hr)
  unfold Events2.flushResource StoreMap.flushResource printChanges
  dsimp only
  rw [printResourceChanges_name]
  by_cases hd : new.destroyed = true
  · rw [if_pos hd, if_pos (show new.toMap.destroyed = true from hd)]
    exact ⟨hdelete, hnames.delete _, hremove⟩
  · rw [if_neg hd, if_neg (show ¬new.toMap.destroyed = true from hd)]
    refine ⟨fun r hr => ?_, (hnames.delete _).storeCheck _, ?_⟩
    · rcases mem_of_mem_storeCheck hr with rfl | hr
      · exact ⟨⟨hnew.devices, hnew.connections, hnew.inner⟩, by simpa using hd⟩
      · exact hdelete r hr
    · rw [show new.toMap.name = new.name from rfl, ← hremove,
        show new.toMap.resNewName = new.resNewName from rfl]
      generalize (if new.resNewName ≠ "" then new.resNewName else new.name) = newName
      funext name
      rw [find_storeCheck]
      unfold KeyMap.insertIfAbsent
      rw [Option.isSome_map]
      split
      · rfl
      · rw [Function.update_apply, Function.update_apply]
        split <;> rfl

theorem Store.Inv.flush (h : s.Inv) :
    (flush T o s).1.Inv ∧ (flush T o s).1.toMap = s.toMap.flush := by
  have hfold : ∀ (l : List Resource), (∀ r ∈ l, r.WellKeyed) → ∀ (all : List Resource)
      (lines : List Line), (∀ r ∈ all, r.WellKeyed ∧ r.destroyed = false) →
      Keyed Resource.name all →
      let x := l.foldl (Events2.flushResource T o s.initialState) (all, lines)
      (∀ r ∈ x.1, r.WellKeyed ∧ r.destroyed = false) ∧ Keyed Resource.name x.1 ∧
      (fun name => (KeyedList.find Resource.name x.1 name).map Resource.toMap) =
        (l.map Resource.toMap).foldl StoreMap.flushResource
          (fun name => (KeyedList.find Resource.name all name).map Resource.toMap) := by
    intro l
    induction l with
    | nil => exact fun _ all lines hall hnames => ⟨hall, hnames, rfl⟩
    | cons r l ih =>
      intro hl all lines hall hnames
      obtain ⟨hall', hnames', hmap⟩ := @Store.Inv.flushResource T o _ lines
        hall hnames _ (hl r (List.mem_cons_self ..)) s.initialState
      have hrest := ih (fun x hx => hl x (List.mem_cons_of_mem _ hx)) _
        (Events2.flushResource T o s.initialState (all, lines) r).2 hall' hnames'
      rw [hmap] at hrest
      exact hrest
  obtain ⟨hall, hnames, hmap⟩ := hfold s.update h.update s.all [] h.all h.names
  refine ⟨⟨fun _ hr => absurd hr List.not_mem_nil, hall, hnames⟩, ?_⟩
  unfold Store.toMap StoreMap.flush Events2.flush
  dsimp only at hmap ⊢
  rw [hmap]
  rfl

/-- One message: the store does what the maps do. -/
theorem Store.Inv.applyEvent (h : s.Inv) (n : Notification) :
    (applyEvent T o s n).1.Inv ∧ (applyEvent T o s n).1.toMap = s.toMap.apply n := by
  unfold Events2.applyEvent StoreMap.apply
  rcases n.header with _ | ⟨nhType, continues⟩
  · exact ⟨h, rfl⟩
  rcases n.ctx with _ | ctx
  · exact ⟨h, rfl⟩
  dsimp only
  obtain ⟨hpending, hkeyed⟩ := h.pendingFor n ctx (eventAction s nhType)
  rw [show (if (decide (nhType = .exists) && s.toMap.receiveUpdate) = true then .change
    else nhType) = eventAction s nhType from rfl, ← hpending]
  cases hp : Events2.pendingFor s n ctx (eventAction s nhType) with
  | none => exact ⟨h, rfl⟩
  | some update =>
    rw [Option.map_some]
    dsimp only
    have hup := hkeyed update hp
    have hreset : ∀ r ∈ modify Resource.name ctx.ctxResourceName
        (fun r => { r with resNewName := "" }) update, r.WellKeyed :=
      forall_modify (fun r hr => ⟨hr.devices, hr.connections, hr.inner⟩) _ hup
    have hresetMap : (modify Resource.name ctx.ctxResourceName
        (fun r => { r with resNewName := "" }) update).map Resource.toMap =
        modify ResourceMap.name ctx.ctxResourceName (fun m => { m with resNewName := "" })
          (update.map Resource.toMap) :=
      map_modify (by intro; rfl) _ fun r _ => rfl
    rw [← hresetMap]
    generalize modify Resource.name ctx.ctxResourceName _ update = update' at hreset
    cases hev : Events2.eventChange n ctx (eventAction s nhType) with
    | none => exact ⟨⟨hreset, h.all, h.names⟩, rfl⟩
    | some f =>
      have hf := fun (r : Resource) (hr : r.WellKeyed) => hr.eventChange n ctx (eventAction s nhType)
      rw [hev] at hf
      have hs : ({ s with update := modify Resource.name ctx.ctxResourceName f update' } :
          Store).Inv :=
        ⟨forall_modify (fun r hr => (hf r hr).2 f rfl) _ hreset, h.all, h.names⟩
      have hmap : (modify Resource.name ctx.ctxResourceName f update').map Resource.toMap =
          modify ResourceMap.name ctx.ctxResourceName
            (fun m => (m.apply n ctx (eventAction s nhType)).getD m)
            (update'.map Resource.toMap) := by
        refine map_modify (by intro; rfl) _ fun r hr => ?_
        rw [← (hf r (hreset r hr)).1]
        rfl
      rw [← hmap]
      dsimp only
      rw [if_neg (show ¬(some f).isNone = true by simp)]
      split
      · exact ⟨hs, rfl⟩
      · exact hs.flush

theorem Store.Inv.step (h : s.Inv) (i : Input) :
    (step T o s i).1.Inv ∧ (step T o s i).1.toMap = s.toMap.step i := by
  cases i with
  | notification n => exact h.applyEvent n
  | initialStateDone => exact ⟨⟨h.update, h.all, h.names⟩, rfl⟩
  | prepareUpdate => exact ⟨⟨h.update, h.all, h.names⟩, rfl⟩
  | reset =>
    exact ⟨⟨h.update, fun _ hr => absurd hr List.not_mem_nil, keyed_nil⟩, rfl⟩

theorem Store.Inv.run (h : s.Inv) (inputs : List Input) :
    (run T o s inputs).1.Inv ∧ (run T o s inputs).1.toMap = inputs.foldl StoreMap.step s.toMap := by
  have hfold : ∀ (inputs : List Input) (s : Store) (lines : List Line), s.Inv →
      let x := inputs.foldl (fun x i => let y := Events2.step T o x.1 i; (y.1, x.2 ++ y.2)) (s, lines)
      x.1.Inv ∧ x.1.toMap = inputs.foldl StoreMap.step s.toMap := by
    intro inputs
    induction inputs with
    | nil => exact fun s lines h => ⟨h, rfl⟩
    | cons i inputs ih =>
      intro s lines h
      obtain ⟨hinv, hmap⟩ := h.step (T := T) (o := o) i
      rw [List.foldl_cons, List.foldl_cons, ← hmap]
      exact ih _ _ hinv
  exact hfold inputs s [] h

end Refinement

theorem store_inv_init : Store.Inv {} :=
  ⟨fun _ hr => absurd hr List.not_mem_nil, fun _ hr => absurd hr List.not_mem_nil, keyed_nil⟩

/-- **The store is a keyed map.**  In every run from the start, whatever the options: no copy has
    two objects of one key; every message acts on the copies as `ResourceMap.apply` acts on the
    maps, and the whole run as `StoreMap.step`; a deep copy is the same map; and what the `find`
    functions see is that map, for any order of the lists. -/
theorem store_refines (T : Texts) (o : Options) (inputs : List Input) :
    let s := (run T o {} inputs).1
    (∀ r ∈ s.update ++ s.all, r.WellKeyed) ∧
    s.toMap = inputs.foldl StoreMap.step {} ∧
    (∀ r ∈ s.update ++ s.all, ∀ n ctx action, (eventChange n ctx action).map (fun f => (f r).toMap) =
      r.toMap.apply n ctx action) ∧
    (∀ r ∈ s.all, (deepCopyResource r).WellKeyed ∧ (deepCopyResource r).toMap = r.toMap) ∧
    ∀ r ∈ s.update ++ s.all, ∀ r', Shuffled r r' → r'.toMap = r.toMap ∧
      (∀ volume, findDevice r' volume = r.toMap.devices volume) ∧
      (∀ name, (findConnection r' name).map Connection.toMap = r.toMap.connections name) ∧
      (∀ ctx, findPeerDevice r' ctx =
        (r.toMap.connections ctx.ctxConnName).bind (·.peerDevices ctx.ctxVolume)) ∧
      ∀ ctx, findPath r' ctx =
        (r.toMap.connections ctx.ctxConnName).bind (·.paths ctx.pathKey) := by
  intro s
  obtain ⟨hinv, hmap⟩ := store_inv_init.run (T := T) (o := o) inputs
  have hkeyed : ∀ r ∈ s.update ++ s.all, r.WellKeyed := by
    intro r hr
    rcases List.mem_append.1 hr with hr | hr
    · exact hinv.update r hr
    · exact (hinv.all r hr).1
  refine ⟨hkeyed, hmap, fun r hr n ctx action => ((hkeyed r hr).eventChange n ctx action).1,
    fun r hr => ?_, fun r hr r' hshuffled => ?_⟩
  · obtain ⟨hwell, hd⟩ := hinv.all r hr
    exact ⟨deepCopyResource_wellKeyed hwell, toMap_deepCopyResource hwell hd⟩
  · have hsame := toMap_shuffled (hkeyed r hr) hshuffled
    rw [← hsame]
    exact ⟨rfl, find_eq_toMap r'⟩

end DrbdUtils.Events2
