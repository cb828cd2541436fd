import DrbdUtils.Adm.Deferred

/-!
# What drbdadm adjust schedules

`adjust_drbd()` of `drbdadm_adjust.c` with the functions under it: `compare_volumes()`,
`adjust_disk()`, `adjust_net()`, `adjust_conn()`, `adjust_paths()`, `adjust_peer_devices()` and
`schedule_peer_device_options()`.  They compare the configured resource with the running one, as
parsed from `drbdsetup show`, and put commands into the queues of `Adm.Deferred`.  The comparison of
single option values and of addresses is a parameter, `Compare`.

* `Follows` — a command waits for another, directly or through others.
* `Running.before` — what a command follows is run before it.
* `Grows` — scheduling only adds commands.
-/

set_option autoImplicit false

namespace DrbdUtils.Adm

/-! ## Options -/

/-- `struct d_option`. -/
structure DOption where
  name : String
  value : Option String
  unknown : Bool := false
  adjSkip : Bool := false
  mentioned : Bool := false
  deriving DecidableEq

/-- The `struct context_def` of an option list. -/
inductive OptContext where
  | resource | attach | disk | net | peerDevice
  deriving DecidableEq

/-- `struct d_address`. -/
structure Address where
  af : String
  addr : String
  port : String
  deriving DecidableEq

/-- The `is_equal` and `is_default` operations of the fields, and `addresses_equal`. -/
structure Compare where
  isEqual : OptContext → String → Option String → Option String → Bool
  isDefault : OptContext → String → Option String → Bool
  addressesEqual : Address → Address → Bool

def findOpt (base : List DOption) (name : String) : Option DOption := base.find? (·.name = name)

def delOpt (base : List DOption) (name : String) : List DOption := base.eraseP (·.name = name)

/-- Set a flag of the option that `findOpt` finds. -/
def flagOpt (set : DOption → DOption) (name : String) : List DOption → List DOption
  | [] => []
  | o :: base => if o.name = name then set o :: base else o :: flagOpt set name base

/-- `opts_equal`, with the configured options as it leaves them. -/
def optsEqual (cmp : Compare) (ctx : OptContext) (conf : List DOption) :
    List DOption → Bool × List DOption
  | [] => (conf.all fun o => o.adjSkip || o.mentioned || cmp.isDefault ctx o.name o.value, conf)
  | runOpt :: run =>
    if runOpt.unknown then optsEqual cmp ctx (delOpt conf runOpt.name) run
    else if runOpt.adjSkip then optsEqual cmp ctx conf run
    else match findOpt conf runOpt.name with
      | some opt =>
        if cmp.isEqual ctx runOpt.name runOpt.value opt.value then
          optsEqual cmp ctx (flagOpt (fun o => { o with mentioned := true }) opt.name conf) run
        else (false, conf)
      | none =>
        if cmp.isDefault ctx runOpt.name runOpt.value then optsEqual cmp ctx conf run
        else (false, conf)

/-- `opt_equal`. -/
def optEqual (cmp : Compare) (ctx : OptContext) (name : String) (conf run : List DOption) : Bool :=
  match findOpt conf name, findOpt run name with
  | some opt, some runOpt => cmp.isEqual ctx name opt.value runOpt.value
  | some opt, none => cmp.isDefault ctx name opt.value
  | none, some runOpt => cmp.isDefault ctx name runOpt.value
  | none, none => true

/-! ## Volumes -/

/-- `struct d_volume`, as it is parsed. -/
structure Volume where
  vnr : Nat
  deviceMinor : Nat
  disk : Option String
  metaDisk : String := "internal"
  diskOptions : List DOption := []
  deriving DecidableEq

/-- A volume with the flags that the comparison sets. -/
structure AdjVolume extends Volume where
  adjNewMinor : Bool := false
  adjDelMinor : Bool := false
  adjAttach : Bool := false
  adjDetach : Bool := false
  adjDiskOpts : Bool := false
  adjResize : Bool := false
  deriving DecidableEq

/-- There is a disk, and it is not `none`. -/
def Volume.hasDisk (v : Volume) : Bool := v.disk.any (· ≠ "none")

/-- `disk_equal`; `is_same_disk` is `strcmp`. -/
def diskEqual (conf running : Volume) : Bool :=
  match conf.disk, running.disk with
  | none, none => true
  | none, some d => d = "none"
  | some _, none => false
  | some c, some d =>
    c = d && decide (conf.metaDisk = "internal") == decide (running.metaDisk = "internal") &&
      (conf.metaDisk = "internal" || conf.metaDisk = running.metaDisk)

/-- `compare_size`: the flag `adj_resize`, and the options of both sides with the one to be
    skipped. -/
def compareSize (cmp : Compare) (conf kern : Volume) : Bool × List DOption × List DOption :=
  let c := findOpt conf.diskOptions "size"
  let k := (findOpt kern.diskOptions "size").filter fun k => !cmp.isDefault .attach "size" k.value
  let skip := flagOpt (fun o => { o with adjSkip := true }) "size"
  let differs := match c, k with
    | none, none => false
    | some c, some k => !cmp.isEqual .attach "size" c.value k.value
    | _, _ => true
  (differs, skip conf.diskOptions, skip kern.diskOptions)

/-- `compare_volume`. -/
def compareVolume (cmp : Compare) (conf kern : Volume) : AdjVolume :=
  let newMinor : Bool := conf.deviceMinor ≠ kern.deviceMinor
  let change := !diskEqual conf kern || newMinor
  let vol : AdjVolume := { conf with
    adjNewMinor := newMinor
    adjDelMinor := newMinor
    adjAttach := change && conf.hasDisk
    adjDetach := change && kern.hasDisk }
  if !vol.adjAttach && !vol.adjDetach && conf.disk.isSome then
    let (resize, confOpts, kernOpts) := compareSize cmp conf kern
    let (equal, confOpts) := optsEqual cmp .disk confOpts kernOpts
    { vol with diskOptions := confOpts, adjResize := resize, adjDiskOpts := !equal }
  else vol

/-- What `compare_volumes` makes of a volume that is not running. -/
def newVolume (conf : Volume) : AdjVolume :=
  { conf with adjNewMinor := true, adjAttach := conf.disk.isSome }

/-- `new_to_be_deleted_minor_from_template`. -/
def newToBeDeletedMinorFromTemplate (kern : Volume) : AdjVolume :=
  { vnr := kern.vnr, deviceMinor := kern.deviceMinor
    disk := if kern.hasDisk then kern.disk else none
    metaDisk := kern.metaDisk
    adjDetach := kern.hasDisk
    adjDelMinor := true }

/-- `insert_volume`. -/
def insertVolume (l : List AdjVolume) (e : AdjVolume) : List AdjVolume :=
  match l.getLast? with
  | none => [e]
  | some t =>
    if t.vnr ≤ e.vnr then l ++ [e]
    else l.takeWhile (·.vnr ≤ e.vnr) ++ e :: l.dropWhile (·.vnr ≤ e.vnr)

/-- The loop of `compare_volumes`: the configured volumes, and the running ones that are to be
    deleted.  Running volumes in front of the next configured one are taken in one go. -/
def compareLoop (cmp : Compare) : List Volume → List Volume → List AdjVolume × List Volume
  | [], kern => ([], kern)
  | c :: conf, kern =>
    let gone := kern.takeWhile (·.vnr < c.vnr)
    match kern.dropWhile (·.vnr < c.vnr) with
    | [] =>
      let (conf', gone') := compareLoop cmp conf []
      (newVolume c :: conf', gone ++ gone')
    | k :: rest =>
      if k.vnr > c.vnr then
        let (conf', gone') := compareLoop cmp conf (k :: rest)
        (newVolume c :: conf', gone ++ gone')
      else
        let (conf', gone') := compareLoop cmp conf rest
        (compareVolume cmp c k :: conf', gone ++ gone')

/-- `compare_volumes`. -/
def compareVolumes (cmp : Compare) (conf kern : List Volume) : List AdjVolume :=
  let (conf', gone) := compareLoop cmp conf kern
  ((gone.map newToBeDeletedMinorFromTemplate).foldl insertVolume []).foldl insertVolume conf'

/-! ## Connections -/

/-- `enum drbd_conn_state`; a name that is not known is parsed to -1, which is the greatest value. -/
inductive ConnState where
  | standAlone | disconnecting | unconnected | timeout | brokenPipe | networkFailure | protocolError
  | tearDown | connecting | connected | invalid
  deriving DecidableEq

def ConnState.toNat : ConnState → Nat
  | .standAlone => 0 | .disconnecting => 1 | .unconnected => 2 | .timeout => 3 | .brokenPipe => 4
  | .networkFailure => 5 | .protocolError => 6 | .tearDown => 7 | .connecting => 8
  | .connected => 9 | .invalid => 2 ^ 32 - 1

/-- `struct path`. -/
structure Path where
  myAddress : Address
  connectTo : Address
  ignore : Bool := false
  deriving DecidableEq

/-- `struct peer_device`. -/
structure PeerDevice where
  vnr : Nat
  pdOptions : List DOption := []

/-- `struct connection`; `peer` is the node id of the peer. -/
structure Connection where
  peer : Option String
  ignore : Bool := false
  me : Bool := false
  cstate : ConnState := .standAlone
  netOptions : List DOption := []
  paths : List Path := []
  peerDevices : List PeerDevice := []

/-- `struct d_resource`, with the volumes of this host.  The configured and the running resource are
    two objects; `id` tells them apart. -/
structure Resource where
  id : Nat
  volumes : List Volume := []
  connections : List Connection := []
  resOptions : List DOption := []

/-- `find_path_by_addrs`. -/
def findPathByAddrs (cmp : Compare) (conn : Connection) (pattern : Path) : Option Path :=
  conn.paths.find? fun path => cmp.addressesEqual path.myAddress pattern.myAddress &&
    cmp.addressesEqual path.connectTo pattern.connectTo

/-- `matching_conn`. -/
def matchingConn (pattern : Connection) (pool : List Connection) (retMe : Bool) : Option Connection :=
  pool.find? fun conn => retMe && conn.me || !conn.ignore && pattern.peer = conn.peer

def findPeerDevice (conn : Connection) (vnr : Nat) : Option PeerDevice :=
  conn.peerDevices.find? (·.vnr = vnr)

def matchingVolume (vol : Volume) (kern : List Volume) : Option Volume := kern.find? (·.vnr = vol.vnr)

/-! ## Commands -/

/-- The commands that adjust schedules. -/
inductive AdmCmd where
  | newResource | resOptionsDefaults | newMinor | delMinor | attach | detach | diskOptionsDefaults
  | diskOptionsEarlyDefaults | resize | newPeer | delPeer | newPath | delPath | netOptionsDefaults
  | peerDeviceOptionsDefaults | connect | disconnect | waitCAdj
  deriving DecidableEq

def AdmCmd.stage : AdmCmd → CfgStage
  | .newResource => .prereq
  | .resOptionsDefaults => .resource
  | .detach | .delMinor => .diskPrepDown
  | .newMinor | .diskOptionsEarlyDefaults => .diskPrepUp
  | .disconnect => .netDisconnect
  | .delPeer | .delPath => .netPrepDown
  | .newPeer => .netPrepUp
  | .newPath => .netPath
  | .netOptionsDefaults => .net
  | .peerDeviceOptionsDefaults => .peerDevice
  | .attach | .diskOptionsDefaults | .resize => .disk
  | .connect => .netConnect
  | .waitCAdj => .waitConnect

/-- Whether the command makes, deletes, attaches or detaches a volume. -/
def AdmCmd.isVolume : AdmCmd → Bool
  | .newMinor | .delMinor | .attach | .detach => true
  | _ => false

/-- A connection of the configured or of the running resource, by its position. -/
structure ConnRef where
  running : Bool
  idx : Nat
  deriving DecidableEq

/-- `struct cfg_ctx`. -/
structure CmdCtx where
  cmd : AdmCmd
  vol : Option Volume := none
  conn : Option ConnRef := none
  path : Option Path := none

/-- `adj_schedule_deferred_cmd` without flags. -/
def adjSchedule (s : Sched CmdCtx) (res : Nat) (ctx : CmdCtx) (dependsOn : Option Nat) :
    Sched CmdCtx × Option Nat :=
  let x := s.schedule ⟨ctx, res, ctx.cmd.stage, dependsOn⟩ fun _ => false
  (x.1, some x.2)

/-- `adj_schedule_deferred_cmd` with `SCHEDULE_ONCE`. -/
def adjScheduleOnce (s : Sched CmdCtx) (res : Nat) (ctx : CmdCtx) (dependsOn : Option Nat) :
    Sched CmdCtx × Option Nat :=
  let x := s.schedule ⟨ctx, res, ctx.cmd.stage, dependsOn⟩ fun c =>
    c.cmd = ctx.cmd && c.conn = ctx.conn && c.vol.map (·.vnr) = ctx.vol.map (·.vnr)
  (x.1, some x.2)

/-- `schedule_peer_device_options` with the connection set. -/
def schedulePeerDeviceOptionsOfConn (res : Resource) (vols : List AdjVolume) (conn : Connection)
    (idx : Nat) (s : Sched CmdCtx) (dependsOn : Option Nat) : Sched CmdCtx :=
  (vols.foldl (fun (s, dep) vol =>
    match findPeerDevice conn vol.vnr with
    | none => (s, dep)
    | some pd =>
      if pd.pdOptions.isEmpty then (s, dep)
      else adjScheduleOnce s res.id
        { cmd := .peerDeviceOptionsDefaults, vol := some vol.toVolume, conn := some ⟨false, idx⟩ } dep)
    (s, dependsOn)).1

/-- `schedule_peer_device_options` with the volume set. -/
def schedulePeerDeviceOptionsOfVol (res : Resource) (vol : Volume) (s : Sched CmdCtx)
    (dependsOn : Option Nat) : Sched CmdCtx :=
  (res.connections.zipIdx.foldl (fun (s, dep) (conn, idx) =>
    match findPeerDevice conn vol.vnr with
    | none => (s, dep)
    | some pd =>
      if pd.pdOptions.isEmpty || conn.peer.isNone then (s, dep)
      else adjScheduleOnce s res.id
        { cmd := .peerDeviceOptionsDefaults, vol := some vol, conn := some ⟨false, idx⟩ } dep)
    (s, dependsOn)).1

/-- `adjust_peer_devices`; the volume is the one of the peer with this number. -/
def adjustPeerDevices (cmp : Compare) (res : Resource) (conn : Connection) (idx : Nat)
    (runningConn : Connection) (s : Sched CmdCtx) (dependsOn : Option Nat) : Sched CmdCtx :=
  conn.peerDevices.foldl (fun s pd =>
    let ctx : CmdCtx := { cmd := .peerDeviceOptionsDefaults, conn := some ⟨false, idx⟩
                          vol := some { vnr := pd.vnr, deviceMinor := 0, disk := none } }
    match runningConn.peerDevices.find? (·.vnr = pd.vnr) with
    | none => (adjScheduleOnce s res.id ctx dependsOn).1
    | some runningPd =>
      if (optsEqual cmp .peerDevice pd.pdOptions runningPd.pdOptions).1 then s
      else (adjSchedule s res.id ctx dependsOn).1) s

/-- `adjust_paths`. -/
def adjustPaths (cmp : Compare) (res : Resource) (conn : Connection) (idx : Nat)
    (runningConn : Connection) (s : Sched CmdCtx) (dependsOn : Option Nat) : Sched CmdCtx × Bool :=
  let ref : ConnRef := ⟨false, idx⟩
  let configured := conn.paths.filter (!·.ignore)
  let s := configured.foldl (fun s path =>
    match findPathByAddrs cmp runningConn path with
    | none => (adjSchedule s res.id { cmd := .newPath, conn := some ref, path := some path } dependsOn).1
    | some _ => s) s
  -- the paths that no configured one was matched with
  let unseen := runningConn.paths.filter fun path =>
    !(configured.any fun c => findPathByAddrs cmp runningConn c = some path)
  let last : Bool := runningConn.paths.length = 1 && !unseen.isEmpty
  let (s, dependsOn) :=
    if last && runningConn.cstate ≠ .standAlone then
      adjSchedule s res.id { cmd := .disconnect, conn := some ref } dependsOn
    else (s, dependsOn)
  (unseen.foldl (fun s path =>
    (adjSchedule s res.id { cmd := .delPath, conn := some ref, path := some path } dependsOn).1) s, last)

/-- What the passes of `adjust_conn` change. -/
structure NetState where
  sched : Sched CmdCtx
  dcmd : Option Nat
  disconnect : Bool := false
  adjSeen : Nat → Bool := fun _ => false

/-- Schedule a command as the next one of the chain. -/
def NetState.chain (st : NetState) (res : Nat) (ctx : CmdCtx) : NetState :=
  { st with sched := (adjSchedule st.sched res ctx st.dcmd).1
            dcmd := (adjSchedule st.sched res ctx st.dcmd).2 }

/-- The end of a round of `adjust_conn`. -/
def NetState.seen (st : NetState) (res : Resource) (idx : Nat) (connect : Bool) : NetState :=
  let ref : ConnRef := ⟨false, idx⟩
  let st := { st with adjSeen := Function.update st.adjSeen idx true }
  if connect then
    (st.chain res.id { cmd := .connect, conn := some ref }).chain res.id { cmd := .waitCAdj, conn := some ref }
  else st

/-- A round of `adjust_conn` for a connection that is not running. -/
def adjustNewConn (res : Resource) (vols : List AdjVolume) (st : NetState) (conn : Connection) (idx : Nat) : NetState :=
  let ref : ConnRef := ⟨false, idx⟩
  let st := st.chain res.id { cmd := .newPeer, conn := some ref }
  let st := { st with sched := (adjSchedule st.sched res.id { cmd := .newPath, conn := some ref } st.dcmd).1 }
  let st := { st with sched := schedulePeerDeviceOptionsOfConn res vols conn idx st.sched st.dcmd }
  st.seen res idx true

/-- A round of `adjust_conn` for a running connection. -/
def adjustRunningConn (cmp : Compare) (res : Resource) (vols : List AdjVolume) (st : NetState)
    (conn : Connection) (idx : Nat) (runningConn : Connection) : NetState :=
  let ref : ConnRef := ⟨false, idx⟩
  let (equal, netOptions) := optsEqual cmp .net conn.netOptions runningConn.netOptions
  let immutable := optEqual cmp .net "load-balance-paths" netOptions runningConn.netOptions &&
    optEqual cmp .net "transport" netOptions runningConn.netOptions
  if !equal && !immutable then
    -- the peer is deleted and made anew
    let st := st.chain res.id { cmd := .delPeer, conn := some ref }
    let st := st.chain res.id { cmd := .newPeer, conn := some ref }
    let st := { st with
      disconnect := true
      sched := schedulePeerDeviceOptionsOfConn res vols conn idx st.sched st.dcmd }
    let st := { st with sched := adjustPeerDevices cmp res conn idx runningConn st.sched st.dcmd }
    (st.chain res.id { cmd := .newPath, conn := some ref }).seen res idx true
  else
    let st := if equal then st else
      { st with sched := (adjSchedule st.sched res.id { cmd := .netOptionsDefaults, conn := some ref } st.dcmd).1 }
    let st := { st with sched := adjustPeerDevices cmp res conn idx runningConn st.sched st.dcmd }
    let (s, dc) := adjustPaths cmp res conn idx runningConn st.sched st.dcmd
    let st := { st with sched := s, disconnect := st.disconnect || dc }
    st.seen res idx (runningConn.cstate = .standAlone || dc)

/-- One round of `adjust_conn`. -/
def adjustConnStep (cmp : Compare) (res : Resource) (vols : List AdjVolume)
    (running : List Connection) (maxCstate : ConnState) (st : NetState) (x : Connection × Nat) : NetState :=
  if x.1.ignore || st.adjSeen x.2 then st
  else match matchingConn x.1 running false with
    | none => adjustNewConn res vols st x.1 x.2
    | some runningConn =>
      if runningConn.cstate.toNat > maxCstate.toNat then st
      else adjustRunningConn cmp res vols st x.1 x.2 runningConn

/-- `adjust_conn`. -/
def adjustConn (cmp : Compare) (res : Resource) (vols : List AdjVolume) (running : List Connection)
    (maxCstate : ConnState) (st : NetState) : NetState :=
  res.connections.zipIdx.foldl (adjustConnStep cmp res vols running maxCstate) st

/-- One running connection in `adjust_net`. -/
def adjustGoneStep (res running : Resource) (st : NetState) (x : Connection × Nat) : NetState :=
  match matchingConn x.1 res.connections true with
  | some _ => st
  | none =>
    { st.chain running.id { cmd := .delPeer, conn := some ⟨true, x.2⟩ } with disconnect := true }

/-- The loop over the running connections in `adjust_net`. -/
def adjustGone (res running : Resource) (st : NetState) : NetState :=
  running.connections.zipIdx.foldl (adjustGoneStep res running) st

/-- `adjust_net`; without a running resource there are no running connections. -/
def adjustNet (cmp : Compare) (res : Resource) (vols : List AdjVolume) (running : Option Resource)
    (s : Sched CmdCtx) (dcmd : Option Nat) : Sched CmdCtx :=
  let conns := running.elim [] (·.connections)
  let oneWasConnected := conns.any (·.cstate = .connected)
  let st := adjustConn cmp res vols conns .connecting ⟨s, dcmd, false, fun _ => false⟩
  let st := adjustConn cmp res vols conns .connected st
  let st := running.elim st (adjustGone res · st)
  let s := if st.disconnect && oneWasConnected then st.sched else st.sched.cancelWaits res.id
  -- remove a final wait-connect
  match st.dcmd with
  | none => s
  | some i => if (s.cmds[i]?).any (·.cmd.cmd = .waitCAdj) then s.cancel i else s

/-- `bitmap_will_be_enabled`. -/
def bitmapWillBeEnabled (conf kern : Volume) : Bool :=
  (findOpt kern.diskOptions "bitmap").any (·.value = some "no") &&
    (findOpt conf.diskOptions "bitmap").all (·.value = some "yes")

/-- One volume of `adjust_disk`. -/
def adjustDiskStep (res : Nat) (running : List Volume) (x : Sched CmdCtx × Option Nat)
    (vol : AdjVolume) : Sched CmdCtx × Option Nat :=
  let kern := matchingVolume vol.toVolume running
  let k := kern.getD vol.toVolume
  let x := if vol.adjDetach then adjSchedule x.1 res { cmd := .detach, vol := some k } x.2 else x
  let x := if vol.adjDelMinor then adjSchedule x.1 res { cmd := .delMinor, vol := some k } x.2 else x
  let s := if vol.adjAttach then (adjSchedule x.1 res { cmd := .attach, vol := some vol.toVolume } x.2).1 else x.1
  let s := if vol.adjDiskOpts then
      if kern.any (bitmapWillBeEnabled vol.toVolume ·) then
        (adjSchedule s res { cmd := .diskOptionsEarlyDefaults, vol := some vol.toVolume } x.2).1
      else (adjSchedule s res { cmd := .diskOptionsDefaults, vol := some vol.toVolume } x.2).1
    else s
  let s := if vol.adjResize then (adjSchedule s res { cmd := .resize, vol := some vol.toVolume } x.2).1 else s
  (s, x.2)

/-- `adjust_disk`, for all volumes or the given one. -/
def adjustDisk (res : Resource) (vols : List AdjVolume) (running : List Volume) (vol : Option Nat)
    (s : Sched CmdCtx) (dependsOn : Option Nat) : Sched CmdCtx :=
  ((vols.filter fun v => vol.all (v.vnr = ·)).foldl (adjustDiskStep res.id running)
    (s, dependsOn)).1

/-- One volume in the loop over the new volumes in `adjust_drbd`. -/
def adjustNewMinorStep (res : Resource) (both : Bool) (x : Sched CmdCtx × Option Nat) (v : AdjVolume) :
    Sched CmdCtx × Option Nat :=
  if v.adjNewMinor then
    let x := adjSchedule x.1 res.id { cmd := .newMinor, vol := some v.toVolume } x.2
    if both then (schedulePeerDeviceOptionsOfVol res v.toVolume x.1 x.2, x.2) else x
  else x

/-- The loop over the new volumes in `adjust_drbd`. -/
def adjustNewMinors (res : Resource) (vols : List AdjVolume) (vol : Option Nat) (both : Bool)
    (x : Sched CmdCtx × Option Nat) : Sched CmdCtx × Option Nat :=
  (vols.filter fun v => vol.all (v.vnr = ·)).foldl (adjustNewMinorStep res both) x

/-- The commands for the resource itself in `adjust_drbd`. -/
def adjustResource (cmp : Compare) (res : Resource) (running : Option Resource) (s : Sched CmdCtx) :
    Sched CmdCtx × Option Nat :=
  match running with
  | none => adjSchedule s res.id { cmd := .newResource } none
  | some r =>
    if (optsEqual cmp .resource res.resOptions r.resOptions).1 then (s, none)
    else adjSchedule s res.id { cmd := .resOptionsDefaults } none

/-- The flags that `adm_adjust` passes on. -/
structure AdjustFlags where
  disk : Bool := true
  net : Bool := true

/-- `adjust_drbd`; `vol` is the volume that was asked for, if any. -/
def adjustDrbd (cmp : Compare) (res : Resource) (running : Option Resource) (vol : Option Nat)
    (flags : AdjustFlags) (s : Sched CmdCtx) : Sched CmdCtx :=
  let kern := running.elim [] (·.volumes)
  let vols := compareVolumes cmp res.volumes kern
  let x := adjustNewMinors res vols vol (flags.net && flags.disk) (adjustResource cmp res running s)
  let s := if flags.disk then adjustDisk res vols kern vol x.1 x.2 else x.1
  if flags.net then adjustNet cmp res vols running s x.2 else s

/-! ## Scheduling adds commands -/

/-- Commands with a property were added, and nothing else happened. -/
structure Grows (P : DeferredCmd CmdCtx → Prop) (s s' : Sched CmdCtx) : Prop where
  cmds : ∃ new, s'.cmds = s.cmds ++ new ∧ ∀ d ∈ new, P d
  done : s'.done = s.done
  built : Built s → Built s'

/-- A command that is already there. -/
def ValidDep (s : Sched CmdCtx) (dep : Option Nat) : Prop := ∀ j, dep = some j → j < s.cmds.length

section Grows

variable {P Q : DeferredCmd CmdCtx → Prop} {s s' s'' : Sched CmdCtx} {dep : Option Nat}

theorem Grows.refl (s : Sched CmdCtx) : Grows P s s := ⟨⟨[], by simp, by simp⟩, rfl, id⟩

theorem Grows.trans (h : Grows P s s') (h' : Grows P s' s'') : Grows P s s'' := by
  obtain ⟨new, hc, hp⟩ := h.cmds
  obtain ⟨new', hc', hp'⟩ := h'.cmds
  refine ⟨⟨new ++ new', by rw [hc', hc, List.append_assoc], fun d hd => ?_⟩,
    h'.done.trans h.done, fun hb => h'.built (h.built hb)⟩
  exact (List.mem_append.1 hd).elim (hp d) (hp' d)

theorem Grows.mono (h : Grows P s s') (hpq : ∀ d, P d → Q d) : Grows Q s s' := by
  obtain ⟨new, hc, hp⟩ := h.cmds
  exact ⟨⟨new, hc, fun d hd => hpq d (hp d hd)⟩, h.done, h.built⟩

theorem Grows.length_le (h : Grows P s s') : s.cmds.length ≤ s'.cmds.length := by
  obtain ⟨new, hc, _⟩ := h.cmds
  rw [hc, List.length_append]
  omega

theorem Grows.getElem? (h : Grows P s s') {i : Nat} {d : DeferredCmd CmdCtx}
    (hi : s.cmds[i]? = some d) : s'.cmds[i]? = some d := by
  obtain ⟨new, hc, _⟩ := h.cmds
  rw [hc, List.getElem?_append_left (lt_of_getElem?_eq_some hi)]
  exact hi

/-- Where a command comes from. -/
theorem Grows.cases (h : Grows P s s') {i : Nat} {d : DeferredCmd CmdCtx}
    (hi : s'.cmds[i]? = some d) : s.cmds[i]? = some d ∨ s.cmds.length ≤ i ∧ P d := by
  obtain ⟨new, hc, hp⟩ := h.cmds
  rw [hc, List.getElem?_append] at hi
  split at hi
  · exact .inl hi
  · exact .inr ⟨by omega, hp d (List.mem_of_getElem? hi)⟩

theorem Grows.follows (h : Grows P s s') {i j : Nat} (hf : Follows s.cmds i j) :
    Follows s'.cmds i j := by
  obtain ⟨new, hc, _⟩ := h.cmds
  rw [hc]
  exact hf.append new

theorem Grows.validDep (h : Grows P s s') (hd : ValidDep s dep) : ValidDep s' dep :=
  fun j hj => (hd j hj).trans_le h.length_le

theorem schedule_grows {d : DeferredCmd CmdCtx} (same : CmdCtx → Bool) (hp : P d)
    (hd : ValidDep s d.dependsOn) : Grows P s (s.schedule d same).1 := by
  refine ⟨?_, ?_, fun hb => .schedule d same hb hd⟩
  · unfold Sched.schedule
    split
    · exact ⟨[], by simp, by simp⟩
    · exact ⟨[d], rfl, by simpa using hp⟩
  · unfold Sched.schedule
    split <;> rfl

theorem schedule_snd_lt (d : DeferredCmd CmdCtx) (same : CmdCtx → Bool) :
    (s.schedule d same).2 < (s.schedule d same).1.cmds.length := by
  unfold Sched.schedule
  split
  · rename_i i heq
    have hany := List.find?_some heq
    cases hc : s.cmds[i]? with
    | none => rw [hc] at hany; cases hany
    | some d' => exact lt_of_getElem?_eq_some hc
  · show s.cmds.length < (s.cmds ++ [d]).length
    simp

variable {res : Nat} {ctx : CmdCtx}

theorem adjSchedule_eq (s : Sched CmdCtx) (res : Nat) (ctx : CmdCtx) (dep : Option Nat) :
    adjSchedule s res ctx dep = ((adjSchedule s res ctx dep).1, some s.cmds.length) ∧
      (adjSchedule s res ctx dep).1.cmds = s.cmds ++ [⟨ctx, res, ctx.cmd.stage, dep⟩] := by
  have hnone : (s.deferredCmds ctx.cmd.stage).find? (fun i =>
      (s.cmds[i]?).any fun d' => decide (d'.res = res) && false) = none := by
    rw [List.find?_eq_none]
    intro i _
    cases s.cmds[i]? <;> simp
  unfold adjSchedule Sched.schedule
  dsimp only
  rw [hnone]
  exact ⟨rfl, rfl⟩

theorem adjSchedule_snd : (adjSchedule s res ctx dep).2 = some s.cmds.length :=
  congrArg Prod.snd (adjSchedule_eq s res ctx dep).1

theorem adjSchedule_cmds :
    (adjSchedule s res ctx dep).1.cmds = s.cmds ++ [⟨ctx, res, ctx.cmd.stage, dep⟩] :=
  (adjSchedule_eq s res ctx dep).2

theorem adjSchedule_grows (hp : P ⟨ctx, res, ctx.cmd.stage, dep⟩) (hd : ValidDep s dep) :
    Grows P s (adjSchedule s res ctx dep).1 := schedule_grows _ hp hd

theorem adjSchedule_valid : ValidDep (adjSchedule s res ctx dep).1 (adjSchedule s res ctx dep).2 := by
  intro j hj
  rw [← Option.some.inj hj]
  exact schedule_snd_lt _ _

theorem adjScheduleOnce_grows (hp : P ⟨ctx, res, ctx.cmd.stage, dep⟩) (hd : ValidDep s dep) :
    Grows P s (adjScheduleOnce s res ctx dep).1 := schedule_grows _ hp hd

theorem adjScheduleOnce_valid :
    ValidDep (adjScheduleOnce s res ctx dep).1 (adjScheduleOnce s res ctx dep).2 := by
  intro j hj
  rw [← Option.some.inj hj]
  exact schedule_snd_lt _ _

end Grows

/-! ### The functions beside the chain -/

section Side

variable {res : Resource} {s : Sched CmdCtx} {dep : Option Nat}

/-- A command of the resource that says something about options of peer devices or about paths. -/
def IsSide (res : Nat) (d : DeferredCmd CmdCtx) : Prop :=
  d.res = res ∧ d.stage = d.cmd.cmd.stage ∧ d.cmd.cmd ∈ [AdmCmd.peerDeviceOptionsDefaults, .newPath,
    .delPath, .disconnect, .netOptionsDefaults]

/-- A command about the options of a peer device. -/
def IsPeerDevice (res : Nat) (d : DeferredCmd CmdCtx) : Prop :=
  d.res = res ∧ d.stage = d.cmd.cmd.stage ∧ d.cmd.cmd = .peerDeviceOptionsDefaults

theorem IsPeerDevice.isSide {id : Nat} {d : DeferredCmd CmdCtx} (h : IsPeerDevice id d) : IsSide id d :=
  ⟨h.1, h.2.1, by rw [h.2.2]; simp⟩

theorem schedulePeerDeviceOptionsOfConn_devices (vols : List AdjVolume) (conn : Connection) (idx : Nat)
    (hd : ValidDep s dep) :
    Grows (IsPeerDevice res.id) s (schedulePeerDeviceOptionsOfConn res vols conn idx s dep) := by
  unfold schedulePeerDeviceOptionsOfConn
  induction vols generalizing s dep with
  | nil => exact .refl s
  | cons vol vols ih =>
    rw [List.foldl_cons]
    dsimp only
    split
    · exact ih hd
    · split
      · exact ih hd
      · exact (adjScheduleOnce_grows ⟨rfl, rfl, rfl⟩ hd).trans (ih adjScheduleOnce_valid)

theorem schedulePeerDeviceOptionsOfConn_grows (vols : List AdjVolume) (conn : Connection) (idx : Nat)
    (hd : ValidDep s dep) :
    Grows (IsSide res.id) s (schedulePeerDeviceOptionsOfConn res vols conn idx s dep) :=
  (schedulePeerDeviceOptionsOfConn_devices vols conn idx hd).mono fun _ => IsPeerDevice.isSide

theorem schedulePeerDeviceOptionsOfVol_grows (res : Resource) (vol : Volume) (hd : ValidDep s dep) :
    Grows (IsPeerDevice res.id) s (schedulePeerDeviceOptionsOfVol res vol s dep) := by
  unfold schedulePeerDeviceOptionsOfVol
  induction res.connections.zipIdx generalizing s dep with
  | nil => exact .refl s
  | cons x conns ih =>
    rw [List.foldl_cons]
    dsimp only
    split
    · exact ih hd
    · split
      · exact ih hd
      · exact (adjScheduleOnce_grows ⟨rfl, rfl, rfl⟩ hd).trans (ih adjScheduleOnce_valid)

/-- Scheduling a command for each member of a list. -/
theorem foldl_grows {α : Type} {P : DeferredCmd CmdCtx → Prop} {f : Sched CmdCtx → α → Sched CmdCtx}
    (hf : ∀ s x, ValidDep s dep → Grows P s (f s x)) (l : List α) (hd : ValidDep s dep) :
    Grows P s (l.foldl f s) := by
  induction l generalizing s with
  | nil => exact .refl s
  | cons x l ih => exact (hf s x hd).trans (ih ((hf s x hd).validDep hd))

theorem adjustPeerDevices_devices (cmp : Compare) (conn : Connection) (idx : Nat)
    (runningConn : Connection) (hd : ValidDep s dep) :
    Grows (IsPeerDevice res.id) s (adjustPeerDevices cmp res conn idx runningConn s dep) := by
  unfold adjustPeerDevices
  refine foldl_grows (fun s pd hd => ?_) _ hd
  dsimp only
  split
  · exact adjScheduleOnce_grows ⟨rfl, rfl, rfl⟩ hd
  · split
    · exact .refl s
    · exact adjSchedule_grows ⟨rfl, rfl, rfl⟩ hd

theorem adjustPeerDevices_grows (cmp : Compare) (conn : Connection) (idx : Nat)
    (runningConn : Connection) (hd : ValidDep s dep) :
    Grows (IsSide res.id) s (adjustPeerDevices cmp res conn idx runningConn s dep) :=
  (adjustPeerDevices_devices cmp conn idx runningConn hd).mono fun _ => IsPeerDevice.isSide

theorem adjustPaths_grows (cmp : Compare) (conn : Connection) (idx : Nat)
    (runningConn : Connection) (hd : ValidDep s dep) :
    Grows (IsSide res.id) s (adjustPaths cmp res conn idx runningConn s dep).1 := by
  unfold adjustPaths
  dsimp only
  have hnew : ∀ l : List Path, Grows (IsSide res.id) s (l.foldl (fun s path =>
      match findPathByAddrs cmp runningConn path with
      | none => (adjSchedule s res.id
          { cmd := .newPath, conn := some ⟨false, idx⟩, path := some path } dep).1
      | some _ => s) s) := by
    intro l
    refine foldl_grows (fun s path hd => ?_) l hd
    split
    · exact adjSchedule_grows ⟨rfl, rfl, by simp⟩ hd
    · exact .refl s
  refine (hnew (conn.paths.filter (!·.ignore))).trans ?_
  have hd' := (hnew (conn.paths.filter (!·.ignore))).validDep hd
  split
  · have hdis : Grows (IsSide res.id) _ (adjSchedule _ res.id
        { cmd := .disconnect, conn := some ⟨false, idx⟩ } dep).1 :=
      adjSchedule_grows ⟨rfl, rfl, by simp⟩ hd'
    refine hdis.trans ?_
    exact foldl_grows (fun s path hd => adjSchedule_grows ⟨rfl, rfl, by simp⟩ hd) _ adjSchedule_valid
  · exact foldl_grows (fun s path hd => adjSchedule_grows ⟨rfl, rfl, by simp⟩ hd) _ hd'

end Side

/-! ### Volumes -/

section Local

variable {res : Resource} {P : DeferredCmd CmdCtx → Prop}

/-- A command of the resource, in its stage, of one of the given kinds. -/
def IsCmd (kinds : List AdmCmd) (res : Nat) (d : DeferredCmd CmdCtx) : Prop :=
  d.res = res ∧ d.stage = d.cmd.cmd.stage ∧ d.cmd.cmd ∈ kinds

/-- A command for the resource itself or a new volume. -/
def IsNew : Nat → DeferredCmd CmdCtx → Prop :=
  IsCmd [.newResource, .resOptionsDefaults, .newMinor, .peerDeviceOptionsDefaults]

/-- A command for a volume that is there. -/
def IsDisk : Nat → DeferredCmd CmdCtx → Prop :=
  IsCmd [.delMinor, .attach, .detach, .diskOptionsDefaults, .diskOptionsEarlyDefaults, .resize]

/-- A command of the resource itself or of its volumes. -/
def IsLocal (res : Nat) (d : DeferredCmd CmdCtx) : Prop := IsNew res d ∨ IsDisk res d

theorem IsLocal.res_eq {id : Nat} {d : DeferredCmd CmdCtx} (h : IsLocal id d) : d.res = id :=
  h.elim (·.1) (·.1)

theorem IsLocal.stage_eq {id : Nat} {d : DeferredCmd CmdCtx} (h : IsLocal id d) :
    d.stage = d.cmd.cmd.stage := h.elim (·.2.1) (·.2.1)

theorem IsPeerDevice.isNew {id : Nat} {d : DeferredCmd CmdCtx} (h : IsPeerDevice id d) :
    IsNew id d := ⟨h.1, h.2.1, by rw [h.2.2]; simp⟩

/-- A command that may be the next one of the chain. -/
theorem ite_adjSchedule_grows {x : Sched CmdCtx × Option Nat} {id : Nat} (ctx : CmdCtx) (b : Bool)
    (hp : P ⟨ctx, id, ctx.cmd.stage, x.2⟩) (hd : ValidDep x.1 x.2) :
    Grows P x.1 (if b then adjSchedule x.1 id ctx x.2 else x).1 ∧
      ValidDep (if b then adjSchedule x.1 id ctx x.2 else x).1
        (if b then adjSchedule x.1 id ctx x.2 else x).2 := by
  cases b with
  | true => exact ⟨adjSchedule_grows hp hd, adjSchedule_valid⟩
  | false => exact ⟨.refl _, hd⟩

/-- A command that may be scheduled beside it. -/
theorem ite_fst_adjSchedule_grows {s : Sched CmdCtx} {dep : Option Nat} {id : Nat} (ctx : CmdCtx)
    (b : Bool) (hp : P ⟨ctx, id, ctx.cmd.stage, dep⟩) (hd : ValidDep s dep) :
    Grows P s (if b then (adjSchedule s id ctx dep).1 else s) := by
  cases b with
  | true => exact adjSchedule_grows hp hd
  | false => exact .refl _

theorem adjustDiskStep_grows (running : List Volume) {x : Sched CmdCtx × Option Nat} (vol : AdjVolume)
    (hd : ValidDep x.1 x.2) :
    Grows (IsDisk res.id) x.1 (adjustDiskStep res.id running x vol).1 ∧
      ValidDep (adjustDiskStep res.id running x vol).1 (adjustDiskStep res.id running x vol).2 := by
  unfold adjustDiskStep
  dsimp only
  generalize (matchingVolume vol.toVolume running).getD vol.toVolume = k
  have h1 := ite_adjSchedule_grows (P := IsDisk res.id) { cmd := .detach, vol := some k }
    vol.adjDetach ⟨rfl, rfl, by simp⟩ hd
  generalize (if vol.adjDetach then adjSchedule x.1 res.id { cmd := .detach, vol := some k } x.2
    else x) = y at h1 ⊢
  have h2 := ite_adjSchedule_grows (P := IsDisk res.id) { cmd := .delMinor, vol := some k }
    vol.adjDelMinor ⟨rfl, rfl, by simp⟩ h1.2
  generalize (if vol.adjDelMinor then adjSchedule y.1 res.id { cmd := .delMinor, vol := some k } y.2
    else y) = z at h2 ⊢
  have h3 := ite_fst_adjSchedule_grows (P := IsDisk res.id)
    { cmd := .attach, vol := some vol.toVolume } vol.adjAttach ⟨rfl, rfl, by simp⟩ h2.2
  generalize (if vol.adjAttach then (adjSchedule z.1 res.id
    { cmd := .attach, vol := some vol.toVolume } z.2).1 else z.1) = s3 at h3 ⊢
  have h4 : Grows (IsDisk res.id) s3 (if vol.adjDiskOpts = true then
      if (matchingVolume vol.toVolume running).any (bitmapWillBeEnabled vol.toVolume ·) = true then
        (adjSchedule s3 res.id { cmd := .diskOptionsEarlyDefaults, vol := some vol.toVolume } z.2).1
      else (adjSchedule s3 res.id { cmd := .diskOptionsDefaults, vol := some vol.toVolume } z.2).1
      else s3) := by
    split
    · split
      · exact adjSchedule_grows ⟨rfl, rfl, by simp⟩ (h3.validDep h2.2)
      · exact adjSchedule_grows ⟨rfl, rfl, by simp⟩ (h3.validDep h2.2)
    · exact .refl _
  have hd4 := h4.validDep (h3.validDep h2.2)
  have h5 := ite_fst_adjSchedule_grows (P := IsDisk res.id)
    { cmd := .resize, vol := some vol.toVolume } vol.adjResize ⟨rfl, rfl, by simp⟩ hd4
  exact ⟨h1.1.trans (h2.1.trans (h3.trans (h4.trans h5))), h5.validDep hd4⟩

theorem adjustResource_grows (cmp : Compare) (res : Resource) (running : Option Resource)
    (s : Sched CmdCtx) : Grows (IsNew res.id) s (adjustResource cmp res running s).1 ∧
      ValidDep (adjustResource cmp res running s).1 (adjustResource cmp res running s).2 := by
  have h0 : ValidDep s none := fun j hj => by cases hj
  unfold adjustResource
  split
  · exact ⟨adjSchedule_grows ⟨rfl, rfl, by simp⟩ h0, adjSchedule_valid⟩
  · split
    · exact ⟨.refl _, h0⟩
    · exact ⟨adjSchedule_grows ⟨rfl, rfl, by simp⟩ h0, adjSchedule_valid⟩

theorem adjustNewMinorStep_grows (res : Resource) (both : Bool) {x : Sched CmdCtx × Option Nat}
    (v : AdjVolume) (hd : ValidDep x.1 x.2) :
    Grows (IsNew res.id) x.1 (adjustNewMinorStep res both x v).1 ∧
      ValidDep (adjustNewMinorStep res both x v).1 (adjustNewMinorStep res both x v).2 := by
  unfold adjustNewMinorStep
  split
  · have h1 : Grows (IsNew res.id) x.1 (adjSchedule x.1 res.id
        { cmd := .newMinor, vol := some v.toVolume } x.2).1 :=
      adjSchedule_grows ⟨rfl, rfl, by simp⟩ hd
    have hv : ValidDep (adjSchedule x.1 res.id { cmd := .newMinor, vol := some v.toVolume } x.2).1
        (adjSchedule x.1 res.id { cmd := .newMinor, vol := some v.toVolume } x.2).2 := adjSchedule_valid
    split
    · have h2 := schedulePeerDeviceOptionsOfVol_grows res v.toVolume hv
      exact ⟨h1.trans (h2.mono fun d hs => hs.isNew), h2.validDep hv⟩
    · exact ⟨h1, hv⟩
  · exact ⟨.refl _, hd⟩

/-- A loop over volumes that schedules commands. -/
theorem foldl_pair_grows {α : Type}
    {f : Sched CmdCtx × Option Nat → α → Sched CmdCtx × Option Nat}
    (hf : ∀ x v, ValidDep x.1 x.2 → Grows P x.1 (f x v).1 ∧ ValidDep (f x v).1 (f x v).2)
    (l : List α) {x : Sched CmdCtx × Option Nat} (hd : ValidDep x.1 x.2) :
    Grows P x.1 (l.foldl f x).1 ∧ ValidDep (l.foldl f x).1 (l.foldl f x).2 := by
  induction l generalizing x with
  | nil => exact ⟨.refl _, hd⟩
  | cons v l ih =>
    obtain ⟨h1, h2⟩ := hf x v hd
    obtain ⟨g1, g2⟩ := ih h2
    exact ⟨h1.trans g1, g2⟩

theorem adjustDisk_grows (res : Resource) (vols : List AdjVolume) (running : List Volume) (vol : Option Nat)
    {s : Sched CmdCtx} {dep : Option Nat} (hd : ValidDep s dep) :
    Grows (IsDisk res.id) s (adjustDisk res vols running vol s dep) := by
  unfold adjustDisk
  exact (@foldl_pair_grows _ _ _ (fun x v hx => adjustDiskStep_grows running v hx) _ (s, dep) hd).1

/-- `adjust_drbd` schedules what it needs for the resource and its volumes, and then calls
    `adjust_net`. -/
theorem adjustDrbd_net (cmp : Compare) (res : Resource) (running : Option Resource) (vol : Option Nat)
    (disk : Bool) (s₀ : Sched CmdCtx) :
    ∃ s dcmd, Grows (IsLocal res.id) s₀ s ∧ ValidDep s dcmd ∧
      adjustDrbd cmp res running vol ⟨disk, true⟩ s₀ =
        adjustNet cmp res (compareVolumes cmp res.volumes (running.elim [] (·.volumes))) running s dcmd := by
  unfold adjustDrbd
  dsimp only
  rw [if_pos rfl]
  generalize compareVolumes cmp res.volumes (running.elim [] (·.volumes)) = vols
  obtain ⟨hg, hv⟩ := adjustResource_grows cmp res running s₀
  obtain ⟨g1, g2⟩ : _ ∧ ValidDep (adjustNewMinors res vols vol (true && disk) _).1 _ :=
    foldl_pair_grows (fun x v hx => adjustNewMinorStep_grows res (true && disk) v hx)
      (vols.filter fun v => vol.all (v.vnr = ·)) hv
  have hnew : Grows (IsLocal res.id) s₀ (adjustNewMinors res vols vol (true && disk)
      (adjustResource cmp res running s₀)).1 := (hg.trans g1).mono fun _ => .inl
  refine ⟨_, _, ?_, ?_, rfl⟩
  · split
    · exact hnew.trans ((adjustDisk_grows res vols _ vol g2).mono fun _ => .inr)
    · exact hnew
  · split
    · exact (adjustDisk_grows res vols _ vol g2).validDep g2
    · exact g2

end Local

end DrbdUtils.Adm
