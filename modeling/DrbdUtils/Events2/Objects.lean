import DrbdUtils.Lib.KeyedList
import Mathlib.Algebra.Group.Nat.Defs

/-!
# The objects events2 tracks

The lists of `drbdsetup.h` and the functions of `drbdsetup_events2.c` that keep them: resources with
their devices and connections, connections with their peer devices and paths.  The nested attributes
`res_opts`, `disk_conf`, `net_conf` and the like are left out; nothing here reads them.

Flags of the netlink attributes are bytes.  Enumerations and statistics have the values and fields
of the DRBD 9 headers.

* `Resource.WellKeyed` — no two objects of one kind have one key.
-/

set_option autoImplicit false

namespace DrbdUtils.Events2

abbrev Byte := BitVec 8

/-- `-1U`. -/
def NONE_U : Nat := 2 ^ 32 - 1

/-! ## States -/

/-- `enum drbd_role`. -/
inductive DrbdRole where
  | unknown
  | primary
  | secondary
  deriving DecidableEq, Repr

/-- `enum drbd_disk_state`. -/
inductive DrbdDiskState where
  | diskless
  | attaching
  | detaching
  | failed
  | negotiating
  | inconsistent
  | outdated
  | unknown
  | consistent
  | upToDate
  deriving DecidableEq, Repr

/-- `enum drbd_conn_state`. -/
inductive DrbdConnState where
  | standalone
  | disconnecting
  | unconnected
  | timeout
  | brokenPipe
  | networkFailure
  | protocolError
  | tearDown
  | connecting
  | connected
  deriving DecidableEq, Repr

/-- `enum drbd_repl_state`. -/
inductive DrbdReplState where
  | off
  | established
  | startingSyncS
  | startingSyncT
  | wfBitmapS
  | wfBitmapT
  | wfSyncUuid
  | syncSource
  | syncTarget
  | verifyS
  | verifyT
  | pausedSyncS
  | pausedSyncT
  | ahead
  | behind
  deriving DecidableEq, Repr

/-! ## Objects -/

/-- `struct drbd_cfg_context`. -/
structure DrbdCfgContext where
  ctxResourceName : String := ""
  ctxVolume : Nat := NONE_U
  ctxPeerNodeId : Nat := NONE_U
  ctxConnName : String := ""
  ctxMyAddr : List Byte := []
  ctxPeerAddr : List Byte := []
  deriving DecidableEq, Repr

structure ResourceInfo where
  resRole : DrbdRole := .unknown
  resSusp : Byte := 0
  resSuspNod : Byte := 0
  resSuspFen : Byte := 0
  resSuspQuorum : Byte := 0
  resFailIo : Byte := 0
  deriving DecidableEq, Repr

structure ResourceStatistics where
  resStatWriteOrdering : BitVec 32 := -1
  deriving DecidableEq, Repr

def IS_INTENTIONAL_DEF : Byte := 3

def DEV_IS_OPEN_UNKNOWN : Byte := 3

structure DeviceInfo where
  devDiskState : DrbdDiskState := .diskless
  isIntentionalDiskless : Byte := IS_INTENTIONAL_DEF
  devHasQuorum : Byte := 0
  backingDevPath : String := ""
  devIsOpen : Byte := DEV_IS_OPEN_UNKNOWN
  deriving DecidableEq, Repr

structure DeviceStatistics where
  devSize : BitVec 64 := -1
  devRead : BitVec 64 := -1
  devWrite : BitVec 64 := -1
  devAlWrites : BitVec 64 := -1
  devBmWrites : BitVec 64 := -1
  devUpperPending : BitVec 32 := -1
  devLowerPending : BitVec 32 := -1
  devUpperBlocked : Byte := -1
  devLowerBlocked : Byte := -1
  devAlSuspended : Byte := -1
  devCurrentUuid : BitVec 64 := -1
  deriving DecidableEq, Repr

structure ConnectionInfo where
  connConnectionState : DrbdConnState := .standalone
  connRole : DrbdRole := .unknown
  deriving DecidableEq, Repr

structure ConnectionStatistics where
  connCongested : Byte := -1
  apInFlight : BitVec 64 := -1
  rsInFlight : BitVec 64 := -1
  deriving DecidableEq, Repr

structure PeerDeviceInfo where
  peerReplState : DrbdReplState := .off
  peerDiskState : DrbdDiskState := .diskless
  peerResyncSuspUser : Byte := 0
  peerResyncSuspPeer : Byte := 0
  peerResyncSuspDependency : Byte := 0
  peerResyncSuspMaxParallel : Byte := 0
  peerIsIntentionalDiskless : Byte := IS_INTENTIONAL_DEF
  deriving DecidableEq, Repr

structure PeerDeviceStatistics where
  peerDevReceived : BitVec 64 := -1
  peerDevSent : BitVec 64 := -1
  peerDevPending : BitVec 32 := -1
  peerDevUnacked : BitVec 32 := -1
  peerDevOutOfSync : BitVec 64 := -1
  peerDevResyncFailed : BitVec 64 := -1
  peerDevUuidFlags : BitVec 64 := -1
  peerDevRsTotal : BitVec 64 := -1
  peerDevOvLeft : BitVec 64 := -1
  deriving DecidableEq, Repr

structure DrbdPathInfo where
  pathEstablished : Byte := 0
  deriving DecidableEq, Repr

/-- `struct devices_list`. -/
structure Device where
  minor : Nat
  ctx : DrbdCfgContext
  info : DeviceInfo := {}
  statistics : DeviceStatistics := {}
  deriving DecidableEq, Repr

/-- `struct peer_devices_list`. -/
structure PeerDevice where
  ctx : DrbdCfgContext
  info : PeerDeviceInfo := {}
  statistics : PeerDeviceStatistics := {}
  deriving DecidableEq, Repr

/-- `struct paths_list`. -/
structure Path where
  ctx : DrbdCfgContext
  info : DrbdPathInfo := {}
  deriving DecidableEq, Repr

/-- `struct connections_list`. -/
structure Connection where
  ctx : DrbdCfgContext
  info : ConnectionInfo := {}
  statistics : ConnectionStatistics := {}
  peerDevices : List PeerDevice := []
  paths : List Path := []
  deriving DecidableEq, Repr

/-- `struct resources_list`; an empty `res_new_name` has length zero. -/
structure Resource where
  name : String
  info : ResourceInfo := {}
  statistics : ResourceStatistics := {}
  resNewName : String := ""
  destroyed : Bool := false
  devices : List Device := []
  connections : List Connection := []
  deriving DecidableEq, Repr

/-! ## Keys -/

def Device.key (d : Device) : Nat := d.ctx.ctxVolume

def PeerDevice.key (p : PeerDevice) : Nat := p.ctx.ctxVolume

/-- What `paths_equal` compares. -/
abbrev PathKey := List Byte × List Byte

def DrbdCfgContext.pathKey (ctx : DrbdCfgContext) : PathKey := (ctx.ctxMyAddr, ctx.ctxPeerAddr)

def Path.key (p : Path) : PathKey := p.ctx.pathKey

def Connection.key (c : Connection) : String := c.ctx.ctxConnName

/-! ## Finding, storing and deleting -/

open KeyedList

def findDevice (r : Resource) (volume : Nat) : Option Device := find Device.key r.devices volume

def storeDeviceCheck (r : Resource) (d : Device) : Resource :=
  { r with devices := storeCheck Device.key r.devices d }

def deleteDevice (r : Resource) (volume : Nat) : Resource :=
  { r with devices := delete Device.key r.devices volume }

def findConnection (r : Resource) (name : String) : Option Connection :=
  find Connection.key r.connections name

def storeConnectionCheck (r : Resource) (c : Connection) : Resource :=
  { r with connections := storeCheck Connection.key r.connections c }

def deleteConnection (r : Resource) (name : String) : Resource :=
  { r with connections := delete Connection.key r.connections name }

def connectionFindPeerDevice (c : Connection) (volume : Nat) : Option PeerDevice :=
  find PeerDevice.key c.peerDevices volume

def findPeerDevice (r : Resource) (ctx : DrbdCfgContext) : Option PeerDevice :=
  (findConnection r ctx.ctxConnName).bind (connectionFindPeerDevice · ctx.ctxVolume)

/-- Change the object a `find` function points to. -/
def Resource.setDevice (r : Resource) (volume : Nat) (f : Device → Device) : Resource :=
  { r with devices := modify Device.key volume f r.devices }

def Resource.setConnection (r : Resource) (name : String) (f : Connection → Connection) : Resource :=
  { r with connections := modify Connection.key name f r.connections }

def Resource.setPeerDevice (r : Resource) (ctx : DrbdCfgContext) (f : PeerDevice → PeerDevice) :
    Resource :=
  r.setConnection ctx.ctxConnName fun c =>
    { c with peerDevices := modify PeerDevice.key ctx.ctxVolume f c.peerDevices }

def storePeerDeviceCheck (r : Resource) (p : PeerDevice) : Resource :=
  r.setConnection p.ctx.ctxConnName fun c =>
    { c with peerDevices := storeCheck PeerDevice.key c.peerDevices p }

def deletePeerDevice (r : Resource) (ctx : DrbdCfgContext) : Resource :=
  r.setConnection ctx.ctxConnName fun c =>
    { c with peerDevices := delete PeerDevice.key c.peerDevices ctx.ctxVolume }

def connectionFindPath (c : Connection) (ctx : DrbdCfgContext) : Option Path :=
  find Path.key c.paths ctx.pathKey

def findPath (r : Resource) (ctx : DrbdCfgContext) : Option Path :=
  (findConnection r ctx.ctxConnName).bind (connectionFindPath · ctx)

def Resource.setPath (r : Resource) (ctx : DrbdCfgContext) (f : Path → Path) : Resource :=
  r.setConnection ctx.ctxConnName fun c => { c with paths := modify Path.key ctx.pathKey f c.paths }

def storePathCheck (r : Resource) (p : Path) : Resource :=
  r.setConnection p.ctx.ctxConnName fun c => { c with paths := storeCheck Path.key c.paths p }

def deletePath (r : Resource) (ctx : DrbdCfgContext) : Resource :=
  r.setConnection ctx.ctxConnName fun c => { c with paths := delete Path.key c.paths ctx.pathKey }

/-- `deep_copy_resource` for one connection. -/
def deepCopyConnection (c : Connection) : Connection where
  ctx := c.ctx
  info := c.info
  statistics := c.statistics
  peerDevices := copy (fun p => ⟨p.ctx, p.info, p.statistics⟩) c.peerDevices
  paths := copy (fun p => ⟨p.ctx, p.info⟩) c.paths

/-- `deep_copy_resource`; every list comes out in reverse. -/
def deepCopyResource (r : Resource) : Resource where
  name := r.name
  info := r.info
  statistics := r.statistics
  resNewName := r.resNewName
  devices := copy (fun d => ⟨d.minor, d.ctx, d.info, d.statistics⟩) r.devices
  connections := copy deepCopyConnection r.connections

/-! ## Keys are unique -/

structure Connection.WellKeyed (c : Connection) : Prop where
  peerDevices : Keyed PeerDevice.key c.peerDevices
  paths : Keyed Path.key c.paths

structure Resource.WellKeyed (r : Resource) : Prop where
  devices : Keyed Device.key r.devices
  connections : Keyed Connection.key r.connections
  inner : ∀ c ∈ r.connections, c.WellKeyed

end DrbdUtils.Events2
