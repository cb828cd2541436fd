import DrbdUtils.Events2.Promotion

/-!
# The lines of events2

`print_changes()` of `drbdsetup_events2.c` and the functions under it: compare the copies of a
resource before and after an update and print a line for every object that is new, changed or gone.
A line is its action, the object it is about, and the fields behind it; time stamps and colours are
left out.

* `Visible` — what the lines of an object display under the given options.
* `changes_reported_iff` — exactly when the change lines are those of the objects with a visible
  change.
-/

set_option autoImplicit false

namespace DrbdUtils.Events2

open KeyedList

/-! ## Lines -/

/-- `opt_statistics`, `opt_diff` and `opt_fullch`. -/
structure Options where
  optStatistics : Bool := false
  optDiff : Bool := false
  optFullch : Bool := false

/-- `name:new`, or `name:old->new`. -/
structure Field where
  name : String
  old : Option String := none
  new : String
  deriving DecidableEq, Repr

inductive Action where
  | exists
  | create
  | change
  | destroy
  | rename
  | call
  | response
  deriving DecidableEq, Repr

/-- The object of a line, without the name of the resource. -/
inductive ObjectKey where
  | resource
  | device (volume : Nat)
  | connection (name : String)
  | peerDevice (connection : String) (volume : Nat)
  | path (connection : String) (key : PathKey)
  | helper
  deriving DecidableEq, Repr

structure Line where
  action : Action
  object : ObjectKey
  /-- `name:` and the other ids. -/
  ids : List Field
  fields : List Field := []
  deriving DecidableEq, Repr

/-- The texts of `drbd_strings.h`, `address_str` and the statistics, which are printed in whole. -/
structure Texts where
  roleStr : DrbdRole → String
  diskStr : DrbdDiskState → String
  connStr : DrbdConnState → String
  replStr : DrbdReplState → String
  addressStr : List Byte → Option String
  resourceStatistics : Option ResourceStatistics → ResourceStatistics → List Field
  deviceStatistics : Option DeviceStatistics → DeviceStatistics → List Field
  connectionStatistics : Option ConnectionStatistics → ConnectionStatistics → List Field
  peerDeviceStatistics : Option PeerDeviceStatistics → PeerDeviceStatistics → List Field

def UNKNOWN_STRING : String := "UNKNOWN"

def yesNo (b : Bool) : String := if b then "yes" else "no"

/-- A field of both copies; with `opt_diff` the old value, too. -/
def showField {α : Type} (o : Options) (name : String) (text : α → String) (old : Option α) (new : α) :
    Field where
  name := name
  old := if o.optDiff then some ((old.map text).getD UNKNOWN_STRING) else none
  new := text new

/-- The same, where the old value is printed only if it differs. -/
def showIfChanged {α : Type} (o : Options) (name : String) (text : α → String)
    (changed : α → Bool) (old : Option α) (new : α) : Field where
  name := name
  old := if o.optDiff && old.all changed then some ((old.map text).getD UNKNOWN_STRING) else none
  new := text new

def suspStr (info : ResourceInfo) : String :=
  let flags := (if info.resSusp ≠ 0 then ["user"] else []) ++
    (if info.resSuspNod ≠ 0 then ["no-data"] else []) ++
    (if info.resSuspFen ≠ 0 then ["fencing"] else []) ++
    (if info.resSuspQuorum ≠ 0 then ["quorum"] else [])
  if flags = [] then "no" else ",".intercalate flags

def backingDevStr (info : DeviceInfo) : String :=
  if info.backingDevPath = "" then "none" else info.backingDevPath

def noYesUnknownStr (almostBool : Byte) : String :=
  if almostBool = 0 then "no" else if almostBool = 1 then "yes" else "unknown"

def resyncSuspStr (info : PeerDeviceInfo) : String :=
  let flags := (if info.peerResyncSuspUser ≠ 0 then ["user"] else []) ++
    (if info.peerResyncSuspPeer ≠ 0 then ["peer"] else []) ++
    (if info.peerResyncSuspDependency ≠ 0 then ["dependency"] else []) ++
    (if info.peerResyncSuspMaxParallel ≠ 0 then ["max-parallel"] else [])
  if flags = [] then "no" else ",".intercalate flags

/-! ## The program -/

section Program

variable (T : Texts) (o : Options)

/-- `old_object ? action_change : action_new`. -/
def lineAction {α : Type} (initialState : Bool) (old : Option α) : Action :=
  if old.isSome then .change else if initialState then .exists else .create

/-- `role_changed`, `info_changed` and so on: there is no old copy, or `differs` says so. -/
def changed {α : Type} (old : Option α) (differs : α → Bool) : Bool := old.all differs

/-- The line and the name of the resource behind it. -/
def printResourceChanges (initialState : Bool) (old : Option Resource) (new : Resource) :
    List Line × String :=
  let promotion := computePromotionInfo new
  let oldPromotion := old.map computePromotionInfo
  let roleChanged := changed old fun r => new.info.resRole ≠ r.info.resRole
  let infoChanged := changed old fun r => new.info.resSusp ≠ r.info.resSusp ||
    new.info.resSuspNod ≠ r.info.resSuspNod || new.info.resSuspFen ≠ r.info.resSuspFen ||
    new.info.resSuspQuorum ≠ r.info.resSuspQuorum
  let failIoChanged := changed old fun r => new.info.resFailIo ≠ r.info.resFailIo
  let statisticsChanged := o.optStatistics && changed old fun r => new.statistics ≠ r.statistics
  let promotionInfoChanged := changed old fun r => promotion ≠ computePromotionInfo r
  if new.resNewName ≠ "" then
    ([⟨.rename, .resource, [⟨"name", none, new.name⟩, ⟨"new_name", none, new.resNewName⟩], []⟩],
      new.resNewName)
  else if !roleChanged && !infoChanged && !statisticsChanged && !promotionInfoChanged &&
      !failIoChanged then ([], new.name)
  else
    ([⟨lineAction initialState old, .resource, [⟨"name", none, new.name⟩],
      (if roleChanged || o.optFullch then
        [showField o "role" T.roleStr (old.map (·.info.resRole)) new.info.resRole] else []) ++
      (if infoChanged || o.optFullch then
        [showField o "suspended" suspStr (old.map (·.info)) new.info] else []) ++
      (if failIoChanged || o.optFullch then
        [showField o "force-io-failures" (fun b : Byte => yesNo (b ≠ 0))
          (old.map (·.info.resFailIo)) new.info.resFailIo] else []) ++
      (if statisticsChanged || o.optFullch then
        T.resourceStatistics (old.map (·.statistics)) new.statistics else []) ++
      (if promotionInfoChanged || o.optFullch then
        [showField o "may_promote" yesNo (oldPromotion.map (·.mayPromote)) promotion.mayPromote,
          showField o "promotion_score" toString
            (some ((oldPromotion.map (·.promotionScore)).getD 0)) promotion.promotionScore]
      else [])⟩], new.name)

def printDeviceChanges (initialState : Bool) (resourceName : String) (new : Device)
    (old : Option Device) : List Line :=
  let infoChanged := changed old fun d => new.info.devDiskState ≠ d.info.devDiskState ||
    new.info.devHasQuorum ≠ d.info.devHasQuorum || new.info.devIsOpen ≠ d.info.devIsOpen
  let statisticsChanged := o.optStatistics && changed old fun d => new.statistics ≠ d.statistics
  if !infoChanged && !statisticsChanged then []
  else
    [⟨lineAction initialState old, .device new.key,
      [⟨"name", none, resourceName⟩, ⟨"volume", none, toString new.ctx.ctxVolume⟩,
        ⟨"minor", none, toString new.minor⟩],
      (if infoChanged || o.optFullch then
        let intentional (info : DeviceInfo) : Bool := info.isIntentionalDiskless = 1
        let oldInfo := old.map (·.info)
        [showIfChanged o "backing_dev" backingDevStr
            (fun i => backingDevStr i ≠ backingDevStr new.info) oldInfo new.info,
          showField o "disk" T.diskStr (oldInfo.map (·.devDiskState)) new.info.devDiskState,
          showIfChanged o "client" (fun i => noYesUnknownStr i.isIntentionalDiskless)
            (fun i => intentional i ≠ intentional new.info) oldInfo new.info,
          showIfChanged o "open" (fun i => noYesUnknownStr i.devIsOpen)
            (fun i => i.devIsOpen ≠ new.info.devIsOpen) oldInfo new.info,
          showIfChanged o "quorum" (fun i => yesNo (i.devHasQuorum ≠ 0))
            (fun i => i.devHasQuorum ≠ new.info.devHasQuorum) oldInfo new.info]
      else []) ++
      (if statisticsChanged || o.optFullch then
        T.deviceStatistics (old.map (·.statistics)) new.statistics else [])⟩]

/-- The ids of a connection and what is in it. -/
def connectionIds (resourceName : String) (ctx : DrbdCfgContext) : List Field :=
  [⟨"name", none, resourceName⟩, ⟨"peer-node-id", none, toString ctx.ctxPeerNodeId⟩,
    ⟨"conn-name", none, ctx.ctxConnName⟩]

/-- `connection` is the name of the connection the peer device is in. -/
def printPeerDeviceChanges (initialState : Bool) (resourceName : String) (connection : String)
    (new : PeerDevice) (old : Option PeerDevice) : List Line :=
  let intentional (p : PeerDevice) : Bool := p.info.peerIsIntentionalDiskless = 1
  let oldIntentional := (old.map intentional).getD false
  let replStateChanged := changed old fun p => new.info.peerReplState ≠ p.info.peerReplState
  let diskChanged := changed old fun p => new.info.peerDiskState ≠ p.info.peerDiskState
  let resyncSuspendedChanged := changed old fun p =>
    new.info.peerResyncSuspUser ≠ p.info.peerResyncSuspUser ||
    new.info.peerResyncSuspPeer ≠ p.info.peerResyncSuspPeer ||
    new.info.peerResyncSuspDependency ≠ p.info.peerResyncSuspDependency ||
    new.info.peerResyncSuspMaxParallel ≠ p.info.peerResyncSuspMaxParallel
  -- not only with `opt_statistics`
  let statisticsChanged := changed old fun p => new.statistics ≠ p.statistics
  if !replStateChanged && !diskChanged && !resyncSuspendedChanged && !statisticsChanged then []
  else
    [⟨lineAction initialState old, .peerDevice connection new.key,
      connectionIds resourceName new.ctx ++ [⟨"volume", none, toString new.ctx.ctxVolume⟩],
      (if replStateChanged || o.optFullch then
        [showField o "replication" T.replStr (old.map (·.info.peerReplState))
          new.info.peerReplState] else []) ++
      (if diskChanged || o.optFullch || intentional new ≠ oldIntentional then
        [showField o "peer-disk" T.diskStr (old.map (·.info.peerDiskState)) new.info.peerDiskState,
          showIfChanged o "peer-client" (fun p => noYesUnknownStr p.info.peerIsIntentionalDiskless)
            (fun p => intentional p ≠ intentional new) old new] else []) ++
      (if resyncSuspendedChanged || o.optFullch then
        [showField o "resync-suspended" resyncSuspStr (old.map (·.info)) new.info] else []) ++
      (if statisticsChanged || o.optFullch then
        T.peerDeviceStatistics (old.map (·.statistics)) new.statistics else [])⟩]

/-- `path_address_strs`; `none` when an address cannot be printed. -/
def pathAddressStrs (ctx : DrbdCfgContext) : Option (List Field) :=
  match T.addressStr ctx.ctxMyAddr, T.addressStr ctx.ctxPeerAddr with
  | some myAddr, some peerAddr => some [⟨"local", none, myAddr⟩, ⟨"peer", none, peerAddr⟩]
  | _, _ => none

def printPathChanges (initialState : Bool) (resourceName : String) (connection : String)
    (new : Path) (old : Option Path) : List Line :=
  let establishedChanged := changed old fun p => new.info.pathEstablished ≠ p.info.pathEstablished
  if !establishedChanged then []
  else match pathAddressStrs T new.ctx with
    | none => []
    | some addresses =>
      [⟨lineAction initialState old, .path connection new.key,
        connectionIds resourceName new.ctx ++ addresses,
        [showField o "established" (fun b : Byte => yesNo (b ≠ 0))
          (old.map (·.info.pathEstablished)) new.info.pathEstablished]⟩]

def printConnectionChanges (initialState : Bool) (resourceName : String) (new : Connection)
    (old : Option Connection) : List Line :=
  let connectionStateChanged := changed old fun c =>
    new.info.connConnectionState ≠ c.info.connConnectionState
  let roleChanged := changed old fun c => new.info.connRole ≠ c.info.connRole
  let statisticsChanged := o.optStatistics && changed old fun c => new.statistics ≠ c.statistics
  if !connectionStateChanged && !roleChanged && !statisticsChanged then []
  else
    [⟨lineAction initialState old, .connection new.key, connectionIds resourceName new.ctx,
      (if connectionStateChanged || o.optFullch then
        [showField o "connection" T.connStr (old.map (·.info.connConnectionState))
          new.info.connConnectionState] else []) ++
      (if roleChanged || o.optFullch then
        [showField o "role" T.roleStr (old.map (·.info.connRole)) new.info.connRole] else []) ++
      (if statisticsChanged || o.optFullch then
        T.connectionStatistics (old.map (·.statistics)) new.statistics else [])⟩]

/-- The third loop of `print_changes`, for one connection. -/
def printInConnection (initialState : Bool) (resourceName : String) (new : Connection)
    (old : Option Connection) : List Line :=
  new.peerDevices.flatMap (fun p => printPeerDeviceChanges T o initialState resourceName new.key p
    (old.bind (connectionFindPeerDevice · p.ctx.ctxVolume))) ++
  new.paths.flatMap (fun p => printPathChanges T o initialState resourceName new.key p
    (old.bind (connectionFindPath · p.ctx))) ++
  ((old.map (·.paths)).getD []).flatMap (fun p =>
    match connectionFindPath new p.ctx, pathAddressStrs T p.ctx with
    | none, some addresses =>
      [⟨.destroy, .path new.key p.key, connectionIds resourceName p.ctx ++ addresses, []⟩]
    | _, _ => []) ++
  ((old.map (·.peerDevices)).getD []).flatMap (fun p =>
    match connectionFindPeerDevice new p.ctx.ctxVolume with
    | none => [⟨.destroy, .peerDevice new.key p.key, connectionIds resourceName p.ctx ++
        [⟨"volume", none, toString p.ctx.ctxVolume⟩], []⟩]
    | some _ => [])

/-- The lines that depend on the new copy only through its name and what is in it. -/
def printObjectChanges (initialState : Bool) (name : String) (old : Option Resource)
    (new : Resource) : List Line :=
  let oldConnection (c : Connection) := old.bind (findConnection · c.ctx.ctxConnName)
  new.connections.flatMap (fun c => printConnectionChanges T o initialState name c
    (oldConnection c)) ++
  new.devices.flatMap (fun d => printDeviceChanges T o initialState name d
    (old.bind (findDevice · d.ctx.ctxVolume))) ++
  new.connections.flatMap (fun c => printInConnection T o initialState name c (oldConnection c)) ++
  ((old.map (·.connections)).getD []).flatMap (fun c =>
    match findConnection new c.ctx.ctxConnName with
    | none => [⟨.destroy, .connection c.key, connectionIds name c.ctx, []⟩]
    | some _ => []) ++
  ((old.map (·.devices)).getD []).flatMap (fun d =>
    match findDevice new d.ctx.ctxVolume with
    | none => [⟨.destroy, .device d.key,
        [⟨"name", none, name⟩, ⟨"volume", none, toString d.ctx.ctxVolume⟩], []⟩]
    | some _ => []) ++
  if new.destroyed then [⟨.destroy, .resource, [⟨"name", none, name⟩], []⟩] else []

/-- The lines, and the new copy under the name it has then. -/
def printChanges (initialState : Bool) (old : Option Resource) (new : Resource) :
    List Line × Resource :=
  let (lines, name) := printResourceChanges T o initialState old new
  (lines ++ printObjectChanges T o initialState name old new, { new with name := name })

end Program

/-! ## Change lines -/

/-- There is a change line for the object. -/
def ChangeLine (lines : List Line) (k : ObjectKey) : Prop :=
  ∃ l ∈ lines, l.action = .change ∧ l.object = k

section ChangeLine

variable {k : ObjectKey} {ls ls' : List Line} {l : Line}

@[simp]
theorem changeLine_nil : ¬ChangeLine [] k := by
  rintro ⟨l, hl, -⟩
  cases hl

@[simp]
theorem changeLine_singleton : ChangeLine [l] k ↔ l.action = .change ∧ l.object = k := by
  simp [ChangeLine]

@[simp]
theorem changeLine_append : ChangeLine (ls ++ ls') k ↔ ChangeLine ls k ∨ ChangeLine ls' k := by
  simp [ChangeLine, or_and_right, exists_or]

theorem changeLine_flatMap {α : Type} {l : List α} {f : α → List Line} :
    ChangeLine (l.flatMap f) k ↔ ∃ a ∈ l, ChangeLine (f a) k := by
  unfold ChangeLine
  constructor
  · rintro ⟨x, hx, h⟩
    obtain ⟨a, ha, hxa⟩ := List.mem_flatMap.1 hx
    exact ⟨a, ha, x, hxa, h⟩
  · rintro ⟨a, ha, x, hxa, h⟩
    exact ⟨x, List.mem_flatMap.2 ⟨a, ha, hxa⟩, h⟩

/-- Lines of another action are no change lines. -/
theorem not_changeLine_flatMap {α : Type} {l : List α} {f : α → List Line}
    (h : ∀ a ∈ l, ∀ x ∈ f a, x.action ≠ .change) : ¬ChangeLine (l.flatMap f) k := by
  rw [changeLine_flatMap]
  rintro ⟨a, ha, x, hx, hchange, -⟩
  exact h a ha x hx hchange

end ChangeLine

theorem lineAction_eq_change {α : Type} (i : Bool) (old : Option α) :
    lineAction i old = .change ↔ old.isSome = true := by
  cases old <;> cases i <;> simp [lineAction]

/-- A line for an object is a change line if the object has an old copy. -/
theorem changeLine_line {α : Type} {i : Bool} {old : Option α} {object k : ObjectKey}
    {ids fields : List Field} : ChangeLine [⟨lineAction i old, object, ids, fields⟩] k ↔
      k = object ∧ ∃ a, old = some a := by
  rw [changeLine_singleton, lineAction_eq_change, Option.isSome_iff_exists]
  exact and_comm.trans (and_congr_left' eq_comm)

/-! ## What is tested -/

section Tested

variable {T : Texts} {o : Options} {i : Bool} {name connection : String} {k : ObjectKey}

/-- The tests of `print_resource_changes`. -/
def resourceTested (o : Options) (new old : Resource) : Prop :=
  new.info ≠ old.info ∨ computePromotionInfo new ≠ computePromotionInfo old ∨
    (o.optStatistics = true ∧ new.statistics ≠ old.statistics)

/-- The tests of `print_device_changes`. -/
def deviceTested (o : Options) (new old : Device) : Prop :=
  new.info.devDiskState ≠ old.info.devDiskState ∨ new.info.devHasQuorum ≠ old.info.devHasQuorum ∨
    new.info.devIsOpen ≠ old.info.devIsOpen ∨
    (o.optStatistics = true ∧ new.statistics ≠ old.statistics)

/-- The tests of `print_peer_device_changes`. -/
def peerInfoTested (new old : PeerDeviceInfo) : Prop :=
  new.peerReplState ≠ old.peerReplState ∨ new.peerDiskState ≠ old.peerDiskState ∨
    (new.peerResyncSuspUser ≠ old.peerResyncSuspUser ∨
      new.peerResyncSuspPeer ≠ old.peerResyncSuspPeer ∨
      new.peerResyncSuspDependency ≠ old.peerResyncSuspDependency ∨
      new.peerResyncSuspMaxParallel ≠ old.peerResyncSuspMaxParallel)

def peerDeviceTested (new old : PeerDevice) : Prop :=
  peerInfoTested new.info old.info ∨ new.statistics ≠ old.statistics

/-- The tests of `print_connection_changes`. -/
def connectionTested (o : Options) (new old : Connection) : Prop :=
  new.info ≠ old.info ∨ (o.optStatistics = true ∧ new.statistics ≠ old.statistics)

theorem resourceInfo_ne_iff {new old : ResourceInfo} : new ≠ old ↔ new.resRole ≠ old.resRole ∨
    (new.resSusp ≠ old.resSusp ∨ new.resSuspNod ≠ old.resSuspNod ∨
      new.resSuspFen ≠ old.resSuspFen ∨ new.resSuspQuorum ≠ old.resSuspQuorum) ∨
    new.resFailIo ≠ old.resFailIo := by
  cases new
  cases old
  simp only [ne_eq, ResourceInfo.mk.injEq, not_and_or, or_comm, or_left_comm]

theorem changeLine_resource {new : Resource} {old : Option Resource} :
    ChangeLine (printResourceChanges T o i old new).1 k ↔
      k = .resource ∧ new.resNewName = "" ∧ ∃ r, old = some r ∧ resourceTested o new r := by
  unfold printResourceChanges
  dsimp only
  split
  · rename_i hname
    simp [hname]
  rename_i hname
  rw [not_not] at hname
  split
  · rename_i hall
    simp only [changeLine_nil, false_iff]
    rintro ⟨-, -, r, rfl, ht⟩
    rw [resourceTested, resourceInfo_ne_iff] at ht
    simp [changed] at hall
    grind
  · rename_i hall
    rw [changeLine_line]
    refine and_congr_right fun _ => ⟨?_, fun ⟨_, r, hr, _⟩ => ⟨r, hr⟩⟩
    rintro ⟨r, rfl⟩
    refine ⟨hname, r, rfl, ?_⟩
    rw [resourceTested, resourceInfo_ne_iff]
    simp [changed] at hall
    grind

theorem changeLine_device {new : Device} {old : Option Device} :
    ChangeLine (printDeviceChanges T o i name new old) k ↔
      k = .device new.key ∧ ∃ d, old = some d ∧ deviceTested o new d := by
  unfold printDeviceChanges deviceTested
  dsimp only
  split
  · rename_i hall
    simp only [changeLine_nil, false_iff]
    rintro ⟨-, d, rfl, ht⟩
    simp [changed] at hall
    grind
  · rename_i hall
    rw [changeLine_line]
    refine and_congr_right fun _ => exists_congr fun d => (and_iff_left_of_imp ?_).symm
    rintro rfl
    simp [changed] at hall
    grind

theorem changeLine_peerDevice {new : PeerDevice} {old : Option PeerDevice} :
    ChangeLine (printPeerDeviceChanges T o i name connection new old) k ↔
      k = .peerDevice connection new.key ∧ ∃ p, old = some p ∧ peerDeviceTested new p := by
  unfold printPeerDeviceChanges peerDeviceTested peerInfoTested
  dsimp only
  split
  · rename_i hall
    simp only [changeLine_nil, false_iff]
    rintro ⟨-, p, rfl, ht⟩
    simp [changed] at hall
    grind
  · rename_i hall
    rw [changeLine_line]
    refine and_congr_right fun _ => exists_congr fun p => (and_iff_left_of_imp ?_).symm
    rintro rfl
    simp [changed] at hall
    grind

theorem pathInfo_ne_iff {new old : DrbdPathInfo} :
    new ≠ old ↔ new.pathEstablished ≠ old.pathEstablished := by
  cases new
  cases old
  simp

theorem changeLine_path {new : Path} {old : Option Path} :
    ChangeLine (printPathChanges T o i name connection new old) k ↔
      k = .path connection new.key ∧ (pathAddressStrs T new.ctx).isSome = true ∧
        ∃ p, old = some p ∧ new.info ≠ p.info := by
  unfold printPathChanges
  dsimp only
  split
  · rename_i hall
    simp only [changeLine_nil, false_iff]
    rintro ⟨-, -, p, rfl, ht⟩
    rw [pathInfo_ne_iff] at ht
    simp [changed] at hall
    exact ht hall
  · rename_i hall
    cases pathAddressStrs T new.ctx with
    | none => simp
    | some addresses =>
      dsimp only
      rw [changeLine_line, Option.isSome_some]
      simp only [true_and]
      refine and_congr_right fun _ => exists_congr fun p => (and_iff_left_of_imp ?_).symm
      rintro rfl
      rw [pathInfo_ne_iff]
      simpa [changed] using hall

theorem connectionInfo_ne_iff {new old : ConnectionInfo} : new ≠ old ↔
    new.connConnectionState ≠ old.connConnectionState ∨ new.connRole ≠ old.connRole := by
  cases new
  cases old
  simp only [ne_eq, ConnectionInfo.mk.injEq, not_and_or]

theorem changeLine_connection {new : Connection} {old : Option Connection} :
    ChangeLine (printConnectionChanges T o i name new old) k ↔
      k = .connection new.key ∧ ∃ c, old = some c ∧ connectionTested o new c := by
  unfold printConnectionChanges
  dsimp only
  split
  · rename_i hall
    simp only [changeLine_nil, false_iff]
    rintro ⟨-, c, rfl, ht⟩
    rw [connectionTested, connectionInfo_ne_iff] at ht
    simp [changed] at hall
    grind
  · rename_i hall
    rw [changeLine_line]
    refine and_congr_right fun _ => exists_congr fun c => (and_iff_left_of_imp ?_).symm
    rintro rfl
    rw [connectionTested, connectionInfo_ne_iff]
    simp [changed] at hall
    grind

/-- The lines of `print_changes` in all. -/
theorem changeLine_printChanges {new old : Resource} :
    ChangeLine (printChanges T o i (some old) new).1 k ↔
      (k = .resource ∧ new.resNewName = "" ∧ resourceTested o new old) ∨
      (∃ c ∈ new.connections, k = .connection c.key ∧
        ∃ c₀, findConnection old c.key = some c₀ ∧ connectionTested o c c₀) ∨
      (∃ d ∈ new.devices, k = .device d.key ∧
        ∃ d₀, findDevice old d.key = some d₀ ∧ deviceTested o d d₀) ∨
      (∃ c ∈ new.connections, ∃ p ∈ c.peerDevices, k = .peerDevice c.key p.key ∧
        ∃ p₀, (findConnection old c.key).bind (connectionFindPeerDevice · p.key) = some p₀ ∧
          peerDeviceTested p p₀) ∨
      (∃ c ∈ new.connections, ∃ p ∈ c.paths, k = .path c.key p.key ∧
        (pathAddressStrs T p.ctx).isSome = true ∧
        ∃ p₀, (findConnection old c.key).bind (connectionFindPath · p.ctx) = some p₀ ∧
          p.info ≠ p₀.info) := by
  have hpaths : ∀ (c : Connection) (l : List Path) (name : String), ¬ChangeLine (l.flatMap fun p =>
      match connectionFindPath c p.ctx, pathAddressStrs T p.ctx with
      | none, some addresses => [(⟨.destroy, .path c.key p.key,
          connectionIds name p.ctx ++ addresses, []⟩ : Line)]
      | _, _ => []) k := by
    refine fun c l name => not_changeLine_flatMap fun p _ x hx => ?_
    split at hx <;> simp_all
  have hpeers : ∀ (c : Connection) (l : List PeerDevice) (name : String),
      ¬ChangeLine (l.flatMap fun p => match connectionFindPeerDevice c p.ctx.ctxVolume with
        | none => [(⟨.destroy, .peerDevice c.key p.key, connectionIds name p.ctx ++
            [⟨"volume", none, toString p.ctx.ctxVolume⟩], []⟩ : Line)]
        | some _ => []) k := by
    refine fun c l name => not_changeLine_flatMap fun p _ x hx => ?_
    split at hx <;> simp_all
  have hconns : ∀ (l : List Connection) (name : String), ¬ChangeLine (l.flatMap fun c =>
      match findConnection new c.ctx.ctxConnName with
      | none => [(⟨.destroy, .connection c.key, connectionIds name c.ctx, []⟩ : Line)]
      | some _ => []) k := by
    refine fun l name => not_changeLine_flatMap fun c _ x hx => ?_
    split at hx <;> simp_all
  have hdevices : ∀ (l : List Device) (name : String), ¬ChangeLine (l.flatMap fun d =>
      match findDevice new d.ctx.ctxVolume with
      | none => [(⟨.destroy, .device d.key,
          [⟨"name", none, name⟩, ⟨"volume", none, toString d.ctx.ctxVolume⟩], []⟩ : Line)]
      | some _ => []) k := by
    refine fun l name => not_changeLine_flatMap fun d _ x hx => ?_
    split at hx <;> simp_all
  have hdestroyed : ∀ name : String, ¬ChangeLine (if new.destroyed = true then
      [(⟨.destroy, .resource, [⟨"name", none, name⟩], []⟩ : Line)] else []) k := by
    intro name
    split <;> simp
  unfold printChanges printObjectChanges
  simp only [changeLine_append, hconns, hdevices, hdestroyed, or_false]
  rw [changeLine_resource, changeLine_flatMap, changeLine_flatMap, changeLine_flatMap]
  refine or_congr (by simp) ?_
  rw [or_assoc]
  refine or_congr ?_ (or_congr ?_ ?_)
  · exact exists_congr fun c => and_congr_right fun _ => changeLine_connection
  · exact exists_congr fun d => and_congr_right fun _ => changeLine_device
  · simp only [printInConnection, changeLine_append, hpaths, hpeers, or_false, changeLine_flatMap,
      changeLine_peerDevice, changeLine_path, and_or_left, exists_or]
    simp only [Option.bind_some]
    rfl

end Tested

/-! ## What is visible -/

/-- What the lines of an object display. -/
inductive Visible where
  | resource (info : ResourceInfo) (promotion : PromotionInfo) (stats : Option ResourceStatistics)
  | device (info : DeviceInfo) (stats : Option DeviceStatistics)
  | connection (info : ConnectionInfo) (stats : Option ConnectionStatistics)
  | peerDevice (info : PeerDeviceInfo) (stats : Option PeerDeviceStatistics)
  | path (info : DrbdPathInfo)

section Visible

variable (o : Options)

/-- Statistics are displayed when enabled. -/
def Options.stats {α : Type} (s : α) : Option α := if o.optStatistics then some s else none

theorem Options.stats_ne_iff {α : Type} {s s' : α} :
    o.stats s ≠ o.stats s' ↔ o.optStatistics = true ∧ s ≠ s' := by
  unfold Options.stats
  by_cases h : o.optStatistics = true <;> simp [h]

def findPeerDeviceOf (r : Resource) (connection : String) (volume : Nat) : Option PeerDevice :=
  (findConnection r connection).bind (connectionFindPeerDevice · volume)

def findPathOf (r : Resource) (connection : String) (key : PathKey) : Option Path :=
  (findConnection r connection).bind fun c => find Path.key c.paths key

def visible (r : Resource) : ObjectKey → Option Visible
  | .resource => some (.resource r.info (computePromotionInfo r) (o.stats r.statistics))
  | .device volume => (findDevice r volume).map fun d => .device d.info (o.stats d.statistics)
  | .connection name => (findConnection r name).map fun c =>
      .connection c.info (o.stats c.statistics)
  | .peerDevice connection volume => (findPeerDeviceOf r connection volume).map fun p =>
      .peerDevice p.info (o.stats p.statistics)
  | .path connection key => (findPathOf r connection key).map fun p => .path p.info
  | .helper => none

/-- Every object of both copies has a change line if and only if something visible differs. -/
def ChangesReported (T : Texts) (i : Bool) (old new : Resource) : Prop :=
  ∀ k v₀ v, visible o old k = some v₀ → visible o new k = some v →
    (ChangeLine (printChanges T o i (some old) new).1 k ↔ v ≠ v₀)

/-- What the tests leave out does not change alone. -/
structure TestsSuffice (T : Texts) (old new : Resource) : Prop where
  rename : new.resNewName = "" ∨ visible o new .resource = visible o old .resource
  device : ∀ volume d d₀, findDevice new volume = some d → findDevice old volume = some d₀ →
    d.info.backingDevPath ≠ d₀.info.backingDevPath ∨
      d.info.isIntentionalDiskless ≠ d₀.info.isIntentionalDiskless →
    deviceTested o d d₀
  peerClient : ∀ connection volume p p₀, findPeerDeviceOf new connection volume = some p →
    findPeerDeviceOf old connection volume = some p₀ →
    p.info.peerIsIntentionalDiskless ≠ p₀.info.peerIsIntentionalDiskless → peerDeviceTested p p₀
  statistics : ∀ connection volume p p₀, findPeerDeviceOf new connection volume = some p →
    findPeerDeviceOf old connection volume = some p₀ → o.optStatistics = false →
    p.statistics ≠ p₀.statistics → p.info ≠ p₀.info
  address : ∀ connection key p p₀, findPathOf new connection key = some p →
    findPathOf old connection key = some p₀ → p.info ≠ p₀.info →
    (pathAddressStrs T p.ctx).isSome = true

variable {o}

theorem deviceInfo_ne_iff {new old : DeviceInfo} : new ≠ old ↔
    (new.backingDevPath ≠ old.backingDevPath ∨
      new.isIntentionalDiskless ≠ old.isIntentionalDiskless) ∨
    (new.devDiskState ≠ old.devDiskState ∨ new.devHasQuorum ≠ old.devHasQuorum ∨
      new.devIsOpen ≠ old.devIsOpen) := by
  cases new
  cases old
  simp only [ne_eq, DeviceInfo.mk.injEq, not_and_or, or_comm, or_left_comm]

theorem peerDeviceInfo_ne_iff {new old : PeerDeviceInfo} : new ≠ old ↔
    new.peerIsIntentionalDiskless ≠ old.peerIsIntentionalDiskless ∨ peerInfoTested new old := by
  cases new
  cases old
  simp only [ne_eq, PeerDeviceInfo.mk.injEq, not_and_or, peerInfoTested, or_comm, or_left_comm]

variable {T : Texts} {i : Bool} {old new : Resource}

theorem reported_resource_iff :
    (ChangeLine (printChanges T o i (some old) new).1 .resource ↔
      visible o new .resource ≠ visible o old .resource) ↔
    (new.resNewName = "" ∨ visible o new .resource = visible o old .resource) := by
  have hvisible : visible o new .resource ≠ visible o old .resource ↔
      resourceTested o new old := by
    unfold visible resourceTested
    rw [← o.stats_ne_iff, ne_eq, Option.some.injEq, Visible.resource.injEq, not_and_or, not_and_or]
  rw [changeLine_printChanges]
  simp only [reduceCtorEq, false_and, and_false, exists_false, or_false, true_and]
  rw [← not_ne_iff (a := visible o new .resource), hvisible]
  by_cases hname : new.resNewName = "" <;> by_cases ht : resourceTested o new old <;>
    simp [hname, ht]

theorem reported_device_iff (hnew : new.WellKeyed) {volume : Nat} {d d₀ : Device}
    (hd : findDevice new volume = some d) (hd₀ : findDevice old volume = some d₀) :
    (ChangeLine (printChanges T o i (some old) new).1 (.device volume) ↔
      Visible.device d.info (o.stats d.statistics) ≠ .device d₀.info (o.stats d₀.statistics)) ↔
    (d.info.backingDevPath ≠ d₀.info.backingDevPath ∨
      d.info.isIntentionalDiskless ≠ d₀.info.isIntentionalDiskless → deviceTested o d d₀) := by
  have hline : ChangeLine (printChanges T o i (some old) new).1 (.device volume) ↔
      deviceTested o d d₀ := by
    rw [changeLine_printChanges]
    simp only [reduceCtorEq, false_and, and_false, exists_false, or_false, false_or,
      ObjectKey.device.injEq]
    constructor
    · rintro ⟨x, hx, rfl, x₀, hx₀, ht⟩
      rw [findDevice, hnew.devices.find_of_mem hx] at hd
      rw [hd₀] at hx₀
      cases hd
      cases hx₀
      exact ht
    · intro ht
      obtain ⟨hmem, rfl⟩ := mem_of_find hd
      exact ⟨d, hmem, rfl, d₀, hd₀, ht⟩
  rw [hline, ne_eq, Visible.device.injEq, not_and_or, ← ne_eq, ← ne_eq, o.stats_ne_iff,
    deviceInfo_ne_iff]
  unfold deviceTested
  grind

theorem reported_connection (hnew : new.WellKeyed) {name : String} {c c₀ : Connection}
    (hc : findConnection new name = some c) (hc₀ : findConnection old name = some c₀) :
    ChangeLine (printChanges T o i (some old) new).1 (.connection name) ↔
      Visible.connection c.info (o.stats c.statistics) ≠
        .connection c₀.info (o.stats c₀.statistics) := by
  rw [changeLine_printChanges, ne_eq, Visible.connection.injEq, not_and_or, ← ne_eq, ← ne_eq,
    o.stats_ne_iff]
  simp only [reduceCtorEq, false_and, and_false, exists_false, or_false, false_or,
    ObjectKey.connection.injEq]
  constructor
  · rintro ⟨x, hx, rfl, x₀, hx₀, ht⟩
    rw [findConnection, hnew.connections.find_of_mem hx] at hc
    rw [hc₀] at hx₀
    cases hc
    cases hx₀
    exact ht
  · intro ht
    obtain ⟨hmem, rfl⟩ := mem_of_find hc
    exact ⟨c, hmem, rfl, c₀, hc₀, ht⟩

theorem reported_peerDevice_iff (hnew : new.WellKeyed) {connection : String} {volume : Nat}
    {p p₀ : PeerDevice} (hp : findPeerDeviceOf new connection volume = some p)
    (hp₀ : findPeerDeviceOf old connection volume = some p₀) :
    (ChangeLine (printChanges T o i (some old) new).1 (.peerDevice connection volume) ↔
      Visible.peerDevice p.info (o.stats p.statistics) ≠
        .peerDevice p₀.info (o.stats p₀.statistics)) ↔
    ((p.info.peerIsIntentionalDiskless ≠ p₀.info.peerIsIntentionalDiskless →
        peerDeviceTested p p₀) ∧
      (o.optStatistics = false → p.statistics ≠ p₀.statistics → p.info ≠ p₀.info)) := by
  have hline : ChangeLine (printChanges T o i (some old) new).1 (.peerDevice connection volume) ↔
      peerDeviceTested p p₀ := by
    rw [changeLine_printChanges]
    simp only [reduceCtorEq, false_and, and_false, exists_false, or_false, false_or,
      ObjectKey.peerDevice.injEq]
    obtain ⟨c, hc, hpc⟩ := Option.bind_eq_some_iff.1 hp
    constructor
    · rintro ⟨x, hx, y, hy, ⟨rfl, rfl⟩, y₀, hy₀, ht⟩
      rw [findConnection, hnew.connections.find_of_mem hx] at hc
      cases hc
      rw [connectionFindPeerDevice, (hnew.inner _ hx).peerDevices.find_of_mem hy] at hpc
      rw [← findPeerDeviceOf, hp₀] at hy₀
      cases hpc
      cases hy₀
      exact ht
    · intro ht
      obtain ⟨hmem, rfl⟩ := mem_of_find hc
      obtain ⟨hmem', rfl⟩ := mem_of_find hpc
      exact ⟨c, hmem, p, hmem', ⟨rfl, rfl⟩, p₀, hp₀, ht⟩
  rw [hline, ne_eq, Visible.peerDevice.injEq, not_and_or, ← ne_eq, ← ne_eq, o.stats_ne_iff,
    peerDeviceInfo_ne_iff, peerDeviceTested, ← Bool.not_eq_true]
  grind

theorem reported_path_iff (hnew : new.WellKeyed) {connection : String} {key : PathKey}
    {p p₀ : Path} (hp : findPathOf new connection key = some p)
    (hp₀ : findPathOf old connection key = some p₀) :
    (ChangeLine (printChanges T o i (some old) new).1 (.path connection key) ↔
      Visible.path p.info ≠ .path p₀.info) ↔
    (p.info ≠ p₀.info → (pathAddressStrs T p.ctx).isSome = true) := by
  have hline : ChangeLine (printChanges T o i (some old) new).1 (.path connection key) ↔
      (pathAddressStrs T p.ctx).isSome = true ∧ p.info ≠ p₀.info := by
    rw [changeLine_printChanges]
    simp only [reduceCtorEq, false_and, and_false, exists_false, false_or, ObjectKey.path.injEq]
    obtain ⟨c, hc, hpc⟩ := Option.bind_eq_some_iff.1 hp
    constructor
    · rintro ⟨x, hx, y, hy, ⟨rfl, rfl⟩, haddr, y₀, hy₀, ht⟩
      rw [findConnection, hnew.connections.find_of_mem hx] at hc
      cases hc
      rw [(hnew.inner _ hx).paths.find_of_mem hy] at hpc
      have hy₀' : findPathOf old _ y.key = some y₀ := hy₀
      rw [hp₀] at hy₀'
      cases hpc
      cases hy₀'
      exact ⟨haddr, ht⟩
    · rintro ⟨haddr, ht⟩
      obtain ⟨hmem, rfl⟩ := mem_of_find hc
      obtain ⟨hmem', rfl⟩ := mem_of_find hpc
      exact ⟨c, hmem, p, hmem', ⟨rfl, rfl⟩, haddr, p₀, hp₀, ht⟩
  have hvisible : Visible.path p.info ≠ .path p₀.info ↔ p.info ≠ p₀.info := by simp
  rw [hline, hvisible]
  tauto

/-- **Change lines.**  For all copies of a resource and all options, every object of both copies
    has a change line exactly when something visible differs, if and only if no change is left to
    what the tests do not look at. -/
theorem changes_reported_iff (T : Texts) (i : Bool) (old : Resource) (hnew : new.WellKeyed) :
    ChangesReported o T i old new ↔ TestsSuffice o T old new := by
  constructor
  · intro h
    refine ⟨?_, fun volume d d₀ hd hd₀ => ?_, fun connection volume p p₀ hp hp₀ => ?_,
      fun connection volume p p₀ hp hp₀ => ?_, fun connection key p p₀ hp hp₀ => ?_⟩
    · refine (reported_resource_iff (T := T) (i := i)).1 ?_
      rw [h .resource _ _ rfl rfl, visible, visible, ne_eq, ne_eq, Option.some.injEq]
    · refine (reported_device_iff hnew hd hd₀).1 (h (.device volume) _ _ ?_ ?_)
      · rw [visible, hd₀]; rfl
      · rw [visible, hd]; rfl
    · refine ((reported_peerDevice_iff hnew hp hp₀).1 (h (.peerDevice connection volume) _ _ ?_ ?_)).1
      · rw [visible, hp₀]; rfl
      · rw [visible, hp]; rfl
    · refine ((reported_peerDevice_iff hnew hp hp₀).1 (h (.peerDevice connection volume) _ _ ?_ ?_)).2
      · rw [visible, hp₀]; rfl
      · rw [visible, hp]; rfl
    · refine (reported_path_iff hnew hp hp₀).1 (h (.path connection key) _ _ ?_ ?_)
      · rw [visible, hp₀]; rfl
      · rw [visible, hp]; rfl
  · intro h k v₀ v hv₀ hv
    cases k with
    | resource =>
      rw [(reported_resource_iff (T := T) (i := i)).2 h.rename, hv, hv₀, ne_eq, Option.some.injEq]
    | device volume =>
      obtain ⟨d₀, hd₀, rfl⟩ := Option.map_eq_some_iff.1 hv₀
      obtain ⟨d, hd, rfl⟩ := Option.map_eq_some_iff.1 hv
      exact (reported_device_iff hnew hd hd₀).2 (h.device volume d d₀ hd hd₀)
    | connection name =>
      obtain ⟨c₀, hc₀, rfl⟩ := Option.map_eq_some_iff.1 hv₀
      obtain ⟨c, hc, rfl⟩ := Option.map_eq_some_iff.1 hv
      exact reported_connection hnew hc hc₀
    | peerDevice connection volume =>
      obtain ⟨p₀, hp₀, rfl⟩ := Option.map_eq_some_iff.1 hv₀
      obtain ⟨p, hp, rfl⟩ := Option.map_eq_some_iff.1 hv
      exact (reported_peerDevice_iff hnew hp hp₀).2 ⟨h.peerClient _ _ p p₀ hp hp₀,
        h.statistics _ _ p p₀ hp hp₀⟩
    | path connection key =>
      obtain ⟨p₀, hp₀, rfl⟩ := Option.map_eq_some_iff.1 hv₀
      obtain ⟨p, hp, rfl⟩ := Option.map_eq_some_iff.1 hv
      exact (reported_path_iff hnew hp hp₀).2 (h.address _ _ p p₀ hp hp₀)
    | helper => cases hv

end Visible

/-- Texts for the examples. -/
def plainTexts : Texts where
  roleStr := reprStr
  diskStr := reprStr
  connStr := reprStr
  replStr := reprStr
  addressStr := fun a => if a = [] then none else some (toString a.length)
  resourceStatistics := fun _ _ => []
  deviceStatistics := fun _ _ => []
  connectionStatistics := fun _ _ => []
  peerDeviceStatistics := fun _ _ => []

/-- A resource with a single volume. -/
def oneVolume (info : DeviceInfo) : Resource where
  name := "r"
  devices := [⟨0, { ctxVolume := 0 }, info, {}⟩]

theorem oneVolume_wellKeyed (info : DeviceInfo) : (oneVolume info).WellKeyed where
  devices := List.nodup_singleton _
  connections := keyed_nil
  inner := by
    intro c hc
    cases hc

/-- A disk that becomes UpToDate, on a device that gets its backing device. -/
theorem changes_reported_attach : ChangesReported {} plainTexts false (oneVolume {})
    (oneVolume { devDiskState := .upToDate, backingDevPath := "/dev/sda" }) := by
  refine (changes_reported_iff plainTexts false _ (oneVolume_wellKeyed _)).2
    ⟨.inl rfl, fun volume d d₀ hd hd₀ _ => ?_, fun _ _ p _ hp => ?_, fun _ _ p _ hp => ?_,
      fun _ _ p _ hp => ?_⟩
  · have hmem := (mem_of_find hd).1
    have hmem₀ := (mem_of_find hd₀).1
    rw [oneVolume, List.mem_singleton] at hmem hmem₀
    rw [hmem, hmem₀]
    exact .inl (by decide)
  all_goals cases hp

/-- A diskless volume becomes a client: `client` is displayed, but not tested. -/
theorem client_change_unreported : ¬ChangesReported {} plainTexts false
    (oneVolume { isIntentionalDiskless := 0 }) (oneVolume { isIntentionalDiskless := 1 }) := by
  intro h
  have hlines : (printChanges plainTexts {} false (some (oneVolume { isIntentionalDiskless := 0 }))
      (oneVolume { isIntentionalDiskless := 1 })).1 = [] := by decide
  have hdevice := h (.device 0) _ _ rfl rfl
  rw [hlines] at hdevice
  exact changeLine_nil (hdevice.2 (by simp))

end DrbdUtils.Events2
