import DrbdUtils.Events2.PrintChanges

/-!
# Applying notifications

`apply_event()` of `drbdsetup_events2.c` with the flush at its end.  A notification is applied to the
pending copy of its resource, which is made from the master copy when there is none; a notification
without `NOTIFY_CONTINUES` ends the batch, prints what has changed and moves every pending copy to
the master copies.

The attributes of a message are what the generated `*_from_attrs` functions do to a structure.
-/

set_option autoImplicit false

namespace DrbdUtils.Events2

open KeyedList

/-! ## Messages -/

/-- `enum drbd_notification_type`, without the flags. -/
inductive NotificationType where
  | exists
  | create
  | change
  | destroy
  | call
  | response
  | rename
  | other
  deriving DecidableEq, Repr

/-- `genlhdr->cmd`. -/
inductive Cmd where
  | resourceState
  | deviceState
  | connectionState
  | peerDeviceState
  | pathState
  | helper
  | other
  deriving DecidableEq, Repr

structure HelperInfo where
  helperName : String
  helperStatus : Nat

/-- A netlink message. -/
structure Notification where
  /-- The notification header: the type, and is `NOTIFY_CONTINUES` set? -/
  header : Option (NotificationType × Bool)
  cmd : Cmd
  ctx : Option DrbdCfgContext
  minor : Nat := NONE_U
  resourceInfo : ResourceInfo → ResourceInfo := id
  resourceStatistics : ResourceStatistics → ResourceStatistics := id
  renameResourceInfo : String → String := id
  deviceInfo : DeviceInfo → DeviceInfo := id
  deviceStatistics : DeviceStatistics → DeviceStatistics := id
  connectionInfo : ConnectionInfo → ConnectionInfo := id
  connectionStatistics : ConnectionStatistics → ConnectionStatistics := id
  peerDeviceInfo : PeerDeviceInfo → PeerDeviceInfo := id
  peerDeviceStatistics : PeerDeviceStatistics → PeerDeviceStatistics := id
  drbdPathInfo : DrbdPathInfo → DrbdPathInfo := id
  helperInfo : Option HelperInfo := none
  /-- A message about a device has its volume, so that `new_device_from_info` gives a device. -/
  volume_ne : cmd = .deviceState → ∀ c, ctx = some c → c.ctxVolume ≠ NONE_U := by simp

section FromInfo

variable (n : Notification) (ctx : DrbdCfgContext)

def newResourceFromInfo : Resource where
  name := ctx.ctxResourceName
  info := n.resourceInfo {}
  statistics := n.resourceStatistics {}

def newDeviceFromInfo : Device where
  minor := n.minor
  ctx := ctx
  info := n.deviceInfo
    { devDiskState := .diskless
      isIntentionalDiskless := IS_INTENTIONAL_DEF
      devIsOpen := DEV_IS_OPEN_UNKNOWN }
  statistics := n.deviceStatistics {}

def newConnectionFromInfo : Connection where
  ctx := ctx
  info := n.connectionInfo {}
  statistics := n.connectionStatistics {}

def newPeerDeviceFromInfo : PeerDevice where
  ctx := ctx
  info := n.peerDeviceInfo { peerIsIntentionalDiskless := IS_INTENTIONAL_DEF }
  statistics := n.peerDeviceStatistics {}

def newPathFromInfo : Path where
  ctx := ctx
  info := n.drbdPathInfo {}

/-! ## The switch -/

/-- What a change does to an object. -/
def changeResource (r : Resource) : Resource :=
  { r with info := n.resourceInfo r.info, statistics := n.resourceStatistics {} }

def changeDevice (d : Device) : Device :=
  { d with
    info := n.deviceInfo { d.info with
      devDiskState := .diskless
      isIntentionalDiskless := IS_INTENTIONAL_DEF
      devIsOpen := DEV_IS_OPEN_UNKNOWN }
    statistics := n.deviceStatistics {} }

def changeConnection (c : Connection) : Connection :=
  { c with info := n.connectionInfo c.info, statistics := n.connectionStatistics {} }

def changePeerDevice (p : PeerDevice) : PeerDevice :=
  { p with
    info := n.peerDeviceInfo { p.info with peerIsIntentionalDiskless := IS_INTENTIONAL_DEF }
    statistics := n.peerDeviceStatistics {} }

def changePath (p : Path) : Path := { p with info := n.drbdPathInfo p.info }

/-- `NOTIFY_CHANGE` of a path: the path may not be known yet. -/
def changeOrStorePath (r : Resource) : Resource :=
  match findPath r ctx with
  | some _ => r.setPath ctx (changePath n)
  | none => storePathCheck r (newPathFromInfo n ctx)

/-- What the message does to the pending copy; `none` is `goto out`. -/
def eventChange (action : NotificationType) : Option (Resource → Resource) :=
  match action, n.cmd with
  | .exists, .resourceState | .create, .resourceState => some id
  | .exists, .deviceState | .create, .deviceState =>
    some (storeDeviceCheck · (newDeviceFromInfo n ctx))
  | .exists, .connectionState | .create, .connectionState =>
    some (storeConnectionCheck · (newConnectionFromInfo n ctx))
  | .exists, .peerDeviceState | .create, .peerDeviceState =>
    some (storePeerDeviceCheck · (newPeerDeviceFromInfo n ctx))
  | .exists, .pathState | .create, .pathState => some (storePathCheck · (newPathFromInfo n ctx))
  | .change, .resourceState => some (changeResource n)
  | .change, .deviceState => some (·.setDevice ctx.ctxVolume (changeDevice n))
  | .change, .connectionState => some (·.setConnection ctx.ctxConnName (changeConnection n))
  | .change, .peerDeviceState => some (·.setPeerDevice ctx (changePeerDevice n))
  | .change, .pathState => some (changeOrStorePath n ctx)
  | .destroy, .resourceState => some ({ · with destroyed := true })
  | .destroy, .deviceState => some (deleteDevice · ctx.ctxVolume)
  | .destroy, .connectionState => some (deleteConnection · ctx.ctxConnName)
  | .destroy, .peerDeviceState => some (deletePeerDevice · ctx)
  | .destroy, .pathState => some (deletePath · ctx)
  | .call, .helper | .response, .helper => if n.helperInfo.isSome then some id else none
  | .rename, .resourceState => some fun r =>
    { r with resNewName := n.renameResourceInfo r.resNewName }
  | .rename, _ => some id
  | _, _ => none

/-- `print_helper`. -/
def printHelper (T : Texts) (action : NotificationType) : List Line :=
  let addresses := if ctx.ctxMyAddr ≠ [] ∧ ctx.ctxPeerAddr ≠ [] then pathAddressStrs T ctx
    else some []
  let line (kind : Action) := match n.helperInfo, addresses with
    | some h, some addresses =>
      [(⟨kind, .helper, [⟨"name", none, ctx.ctxResourceName⟩] ++
        (if ctx.ctxPeerNodeId ≠ NONE_U then
          [⟨"peer-node-id", none, toString ctx.ctxPeerNodeId⟩] else []) ++
        (if ctx.ctxConnName ≠ "" then [⟨"conn-name", none, ctx.ctxConnName⟩] else []) ++
        addresses ++
        (if ctx.ctxVolume ≠ NONE_U then [⟨"volume", none, toString ctx.ctxVolume⟩] else []) ++
        (if n.minor ≠ NONE_U then [⟨"minor", none, toString n.minor⟩] else []),
        [⟨"helper", none, h.helperName⟩] ++
        (if kind = .response then [⟨"status", none, toString h.helperStatus⟩] else [])⟩ : Line)]
    | _, _ => []
  match action, n.cmd with
  | .call, .helper => line .call
  | .response, .helper => line .response
  | _, _ => []

end FromInfo

/-! ## State -/

/-- `update_resources` and `all_resources`, the latter keyed by name, and the two flags. -/
structure Store where
  update : List Resource := []
  all : List Resource := []
  initialState : Bool := true
  receiveUpdate : Bool := false

def findResource (s : Store) (name : String) : Option Resource := find Resource.name s.all name

section ApplyEvent

variable (T : Texts) (o : Options)

/-- The flush, for one pending copy. -/
def flushResource (initialState : Bool) (x : List Resource × List Line) (new : Resource) :
    List Resource × List Line :=
  let (lines, new') := printChanges T o initialState (find Resource.name x.1 new.name) new
  -- `delete_resource` does nothing where there is no old copy
  let all := delete Resource.name x.1 new.name
  (if new'.destroyed then all else storeCheck Resource.name all new', x.2 ++ lines)

def flush (s : Store) : Store × List Line :=
  let x := s.update.foldl (flushResource T o s.initialState) (s.all, [])
  ({ s with update := [], all := x.1 }, x.2)

/-- The type of a message; `exists` messages may be updates. -/
def eventAction (s : Store) (nhType : NotificationType) : NotificationType :=
  if nhType = .exists && s.receiveUpdate then .change else nhType

/-- Creates a resource? -/
def isResourceCreate (n : Notification) (action : NotificationType) : Bool :=
  n.cmd = .resourceState && (action = .create || action = .exists)

/-- The pending copies with the one the message is about; `none` if it is ignored. -/
def pendingFor (s : Store) (n : Notification) (ctx : DrbdCfgContext) (action : NotificationType) :
    Option (List Resource) :=
  let new := find Resource.name s.update ctx.ctxResourceName
  let old := findResource s ctx.ctxResourceName
  if isResourceCreate n action then
    if new.isSome || old.isSome then none else some (newResourceFromInfo n ctx :: s.update)
  else match new, old with
    | some _, _ => some s.update
    | none, some old => some (deepCopyResource old :: s.update)
    | none, none => none

def applyEvent (s : Store) (n : Notification) : Store × List Line :=
  match n.header, n.ctx with
  | some (nhType, continues), some ctx =>
    let action := eventAction s nhType
    match pendingFor s n ctx action with
    | none => (s, [])
    | some update =>
      let update := modify Resource.name ctx.ctxResourceName
        (fun r => { r with resNewName := "" }) update
      match eventChange n ctx action with
      | none => ({ s with update := update }, [])
      | some f =>
        let s := { s with update := modify Resource.name ctx.ctxResourceName f update }
        let lines := printHelper n ctx T action
        if continues then (s, lines)
        else
          let (s, changes) := flush T o s
          (s, lines ++ changes)
  | _, _ => (s, [])

/-! ## Runs -/

/-- What happens to the store: a message that is applied, `DRBD_INITIAL_STATE_DONE`,
    `events2_prepare_update`, `events2_reset`. -/
inductive Input where
  | notification (n : Notification)
  | initialStateDone
  | prepareUpdate
  | reset

def step (s : Store) : Input → Store × List Line
  | .notification n => applyEvent T o s n
  | .initialStateDone => ({ s with initialState := false, receiveUpdate := false }, [])
  | .prepareUpdate => ({ s with receiveUpdate := true }, [])
  | .reset => ({ s with all := [], initialState := true }, [])

/-- The store and the lines printed so far. -/
def run (s : Store) (inputs : List Input) : Store × List Line :=
  inputs.foldl (fun x i => let y := step T o x.1 i; (y.1, x.2 ++ y.2)) (s, [])

end ApplyEvent

end DrbdUtils.Events2
