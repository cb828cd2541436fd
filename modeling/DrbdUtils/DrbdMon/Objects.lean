import DrbdUtils.Lib.OrdMap

/-!
# The objects drbdmon tracks

`DrbdRole`, `DrbdVolume`, `DrbdConnection` and `DrbdResource` of `drbdmon/objects`, with the
parsers for the property values of an event line.  Every object has a stored state; the functions
`update_state_flags` and `child_state_flags_changed` recompute it.

* `Volume.state`, `Connection.freshState`, `Resource.freshState` — the states that follow from the
  current properties alone.
* `Connection.updateStateFlags_current`, `Resource.updateStateFlags_current` — when the
  recomputation gives them.
-/

set_option autoImplicit false

namespace DrbdUtils.DrbdMon

/-! ## Exceptions and properties -/

inductive EventExceptionKind where
  /-- "malformed / unparsable lines" -/
  | message
  /-- "references an object that does not exist" -/
  | object
  deriving DecidableEq, Repr

structure EventException where
  kind : EventExceptionKind
  errorMsg : Option String
  debugInfo : Option String
  deriving DecidableEq, Repr

def messageException (errorMsg debugInfo : String) : EventException :=
  ⟨.message, some errorMsg, some debugInfo⟩

def objectException (errorMsg debugInfo : String) : EventException :=
  ⟨.object, some errorMsg, some debugInfo⟩

/-- The `key:value` properties of an event line. -/
abbrev PropsMap := String → Option String

/-- A change of an object that may be cut short by an exception; what was assigned before stays. -/
abbrev Update (σ : Type) := σ → Except EventException Unit × σ

/-- If the property is there, parse it and assign the value. -/
def assign {σ β : Type} (prop : Option String) (parse : String → Except EventException β)
    (set : β → σ → σ) : Update σ := fun s =>
  match prop with
  | none => (.ok (), s)
  | some text =>
    match parse text with
    | .error e => (.error e, s)
    | .ok b => (.ok (), set b s)

def updates {σ : Type} : List (Update σ) → Update σ
  | [], s => (.ok (), s)
  | u :: us, s =>
    match u s with
    | (.ok (), s') => updates us s'
    | (.error e, s') => (.error e, s')

theorem assign_keeps {σ β γ : Type} {prop : Option String} {parse : String → Except EventException β}
    {set : β → σ → σ} (f : σ → γ) (h : ∀ b s, f (set b s) = f s) (s : σ) :
    f (assign prop parse set s).2 = f s := by
  unfold assign
  split
  · rfl
  · split
    · rfl
    · exact h _ _

theorem updates_keeps {σ γ : Type} (f : σ → γ) {us : List (Update σ)}
    (h : ∀ u ∈ us, ∀ s, f (u s).2 = f s) (s : σ) : f (updates us s).2 = f s := by
  induction us generalizing s with
  | nil => rfl
  | cons u us ih =>
    have hu := h u (List.mem_cons_self ..) s
    unfold updates
    split
    · rename_i s' hs
      rw [hs] at hu
      exact (ih (fun v hv => h v (List.mem_cons_of_mem _ hv)) s').trans hu
    · rename_i e s' hs
      rw [hs] at hu
      exact hu

/-! ## Numbers -/

/-- The digits of a number, not more than `max`. -/
def parseDigits (max : Nat) : List Char → Nat → Option Nat
  | [], result => some result
  | c :: cs, result =>
    if max / 10 < result ∨ ¬ c.isDigit ∨ max - result * 10 < c.toNat - '0'.toNat then none
    else parseDigits max cs (result * 10 + (c.toNat - '0'.toNat))

/-- `parse_unsigned_numeric_impl`, for decimal numbers. -/
def parseUnsigned (max : Nat) (text : String) : Option Nat :=
  if text.toList = [] then none else parseDigits max text.toList 0

/-- `parse_signed_int32`. -/
def parseSignedInt32 (text : String) : Option Int :=
  match text.toList with
  | [] => none
  | '-' :: cs => if cs = [] then none else (parseDigits (2 ^ 31) cs 0).map fun n => -(n : Int)
  | '+' :: cs => if cs = [] then none else (parseDigits (2 ^ 31 - 1) cs 0).map Int.ofNat
  | cs => (parseDigits (2 ^ 31 - 1) cs 0).map Int.ofNat

example : parseUnsigned 65535 "65535" = some 65535 ∧ parseUnsigned 65535 "65536" = none := by decide

/-! ## States -/

/-- `StateFlags::state`. -/
inductive State where
  | norm
  | mark
  | warn
  | alert
  deriving DecidableEq, Repr

def State.hasMark (s : State) : Bool := s ≠ .norm

def State.hasWarn (s : State) : Bool := s = .warn ∨ s = .alert

def State.setMark (s : State) : State := if s = .norm then .mark else s

def State.setWarn (s : State) : State := if s ≠ .alert then .warn else s

/-- `DrbdRole::resource_role`. -/
inductive Role where
  | primary
  | secondary
  | unknown
  deriving DecidableEq, Repr

/-- `DrbdRole::parse_role`. -/
def parseRole (text : String) : Except EventException Role :=
  if text = "Primary" then .ok .primary
  else if text = "Secondary" then .ok .secondary
  else if text = "Unknown" then .ok .unknown
  else .error (messageException "Invalid DRBD event: Invalid DRBD role" "Invalid DRBD role")

/-! ## Volumes -/

inductive DiskState where
  | diskless | attaching | detaching | failed | negotiating | inconsistent | outdated | unknown
  | consistent | upToDate
  deriving DecidableEq, Repr

inductive ReplState where
  | off | established | startingSyncSource | startingSyncTarget | wfBitmapSource | wfBitmapTarget
  | wfSyncUuid | syncSource | syncTarget | pausedSyncSource | pausedSyncTarget | verifySource
  | verifyTarget | ahead | behind | unknown
  deriving DecidableEq, Repr

inductive ClientState where
  | enabled | disabled | unknown
  deriving DecidableEq, Repr

/-- Find the value that a label stands for. -/
def parseLabel {β : Type} (labels : List (String × β)) (e : EventException) (text : String) :
    Except EventException β :=
  match labels with
  | [] => .error e
  | l :: ls => if text = l.1 then .ok l.2 else parseLabel ls e text

def parseDiskState : String → Except EventException DiskState :=
  parseLabel [("Diskless", .diskless), ("Attaching", .attaching), ("Detaching", .detaching),
    ("Failed", .failed), ("Negotiating", .negotiating), ("Inconsistent", .inconsistent),
    ("Outdated", .outdated), ("Consistent", .consistent), ("UpToDate", .upToDate),
    ("DUnknown", .unknown)]
    (messageException "Invalid DRBD event: Invalid disk state" "Invalid disk state")

def parseReplState : String → Except EventException ReplState :=
  parseLabel [("Ahead", .ahead), ("Behind", .behind), ("Established", .established), ("Off", .off),
    ("PausedSyncS", .pausedSyncSource), ("PausedSyncT", .pausedSyncTarget),
    ("StartingSyncS", .startingSyncSource), ("StartingSyncT", .startingSyncTarget),
    ("SyncSource", .syncSource), ("SyncTarget", .syncTarget), ("VerifyS", .verifySource),
    ("VerifyT", .verifyTarget), ("WFBitMapS", .wfBitmapSource), ("WFBitMapT", .wfBitmapTarget),
    ("WFSyncUUID", .wfSyncUuid), ("Unknown", .unknown)]
    (messageException "Invalid DRBD event: Invalid replication state" "Invalid replication state")

def parseClientState : String → Except EventException ClientState :=
  parseLabel [("no", .disabled), ("yes", .enabled), ("unknown", .unknown)]
    (messageException "Invalid DRBD event: Invalid client (diskless) mode" "Invalid client mode value")

/-- `parse_quorum_state`: is the quorum present? -/
def parseQuorumState : String → Except EventException Bool :=
  parseLabel [("yes", true), ("no", false)]
    (messageException "Invalid DRBD event: Invalid quorum state" "Invalid quorum state")

def parseMinorNr (text : String) : Except EventException Int :=
  match parseSignedInt32 text with
  | some n => .ok n
  | none => .error (messageException "Invalid DRBD event: Invalid minor number" "Invalid minor number")

/-- `MAX_SYNC_PERC`. -/
def maxSyncPerc : Nat := 10000

/-- `parse_sync_perc`: hundredths of a percent; zero without a decimal point. -/
def parseSyncPerc (text : String) : Except EventException Nat :=
  let e := messageException "Invalid DRBD event: Invalid sync percentage value"
    "Invalid sync percentage value"
  let value := text.toList.takeWhile (· ≠ '.')
  match text.toList.dropWhile (· ≠ '.') with
  | [] => .ok 0
  | _ :: fract =>
    match parseUnsigned 65535 (String.ofList value), parseUnsigned 65535 (String.ofList fract) with
    | some value, some fract =>
      if 100 < value ∨ 99 < fract ∨ maxSyncPerc < value * 100 + fract then .error e
      else .ok (value * 100 + fract)
    | _, _ => .error e

structure Volume where
  volNr : Nat
  minorNr : Int := -1
  syncPerc : Nat := maxSyncPerc
  diskState : DiskState := .unknown
  replState : ReplState := .unknown
  clientState : ClientState := .unknown
  diskAlert : Bool := false
  replWarn : Bool := false
  replAlert : Bool := false
  quorumAlert : Bool := false
  objState : State := .alert
  deriving DecidableEq, Repr

/-- The replication states in which `done` is looked at. -/
def ReplState.isResyncing : ReplState → Bool
  | .off | .behind | .startingSyncTarget | .syncTarget | .pausedSyncTarget | .verifyTarget => true
  | _ => false

/-- The end of `DrbdVolume::update`. -/
def Volume.updateSyncPerc (p : PropsMap) : Update Volume := fun v =>
  if v.replState = .established then (.ok (), { v with syncPerc := maxSyncPerc })
  else if v.replState.isResyncing then
    assign (p "done") parseSyncPerc (fun n v => { v with syncPerc := n }) v
  else (.ok (), v)

/-- `DrbdVolume::update`. -/
def Volume.update (p : PropsMap) : Update Volume :=
  updates [
    assign ((p "disk").or (p "peer-disk")) parseDiskState fun s v => { v with diskState := s },
    assign (p "replication") parseReplState fun s v => { v with replState := s },
    assign (p "minor") parseMinorNr fun n v => { v with minorNr := n },
    assign ((p "client").or (p "peer-client")) parseClientState fun s v => { v with clientState := s },
    assign (p "quorum") parseQuorumState fun present v => { v with quorumAlert := !present },
    Volume.updateSyncPerc p]

/-- "Check the volume's disk state"; `connection` is the state of a peer volume's connection. -/
def Volume.checkDisk (connection : Option State) (v : Volume) : Volume :=
  let alert := { v with diskAlert := true, objState := .alert }
  match v.diskState with
  | .upToDate => v
  | .diskless => if v.clientState ≠ .enabled then alert else v
  | .unknown =>
    match connection with
    | none => alert
    | some c => if !c.hasWarn then alert else v
  | _ => alert

/-- "Check the volume's replication state". -/
def Volume.checkReplication (connection : Option State) (v : Volume) : Volume :=
  let alert := { v with replAlert := true, objState := .alert }
  match v.replState with
  | .established => v
  | .unknown | .off =>
    match connection with
    | none => v
    | some c => if !c.hasWarn then alert else v
  | .ahead | .behind => alert
  | _ => { v with replWarn := true, objState := v.objState.setWarn }

/-- `DrbdVolume::update_state_flags`. -/
def Volume.updateStateFlags (connection : Option State) (v : Volume) : Volume :=
  let v := { v with objState := .norm, diskAlert := false, replWarn := false, replAlert := false }
  let v := (v.checkDisk connection).checkReplication connection
  if v.quorumAlert then { v with objState := .alert } else v

/-- `DrbdVolume::new_from_props`. -/
def Volume.newFromProps (p : PropsMap) : Except EventException Volume :=
  match (p "volume").bind (parseUnsigned 65535) with
  | some n => .ok { volNr := n }
  | none => .error ⟨.message, none, none⟩

/-! ## Connections -/

inductive ConnState where
  | standalone | disconnecting | unconnected | timeout | brokenPipe | networkFailure | protocolError
  | connecting | tearDown | connected | unknown
  deriving DecidableEq, Repr

inductive SyncState where
  | resyncable | split | unrelated
  deriving DecidableEq, Repr

def parseConnState : String → Except EventException ConnState :=
  parseLabel [("StandAlone", .standalone), ("Connecting", .connecting),
    ("Disconnecting", .disconnecting), ("Unconnected", .unconnected), ("Timeout", .timeout),
    ("BrokenPipe", .brokenPipe), ("NetworkFailure", .networkFailure),
    ("ProtocolError", .protocolError), ("TearDown", .tearDown), ("Connected", .connected),
    ("Unknown", .unknown)]
    (messageException "Invalid DRBD event: Invalid connection state" "Invalid connection state value")

def parseSyncState : String → Except EventException SyncState :=
  parseLabel [("SplitBrain", .split), ("Unrelated", .unrelated)]
    (messageException "Invalid DRBD event: Invalid synchronization state" "Invalid sync-state value")

structure Connection where
  name : String
  nodeId : Nat
  role : Role := .unknown
  connState : ConnState := .unknown
  syncState : SyncState := .resyncable
  connAlert : Bool := false
  roleAlert : Bool := false
  objState : State := .alert
  volumes : OrdMap Nat Volume := .empty

/-- `DrbdConnection::update`. -/
def Connection.update (p : PropsMap) : Update Connection :=
  updates [
    assign (p "role") parseRole fun r c => { c with role := r },
    assign (p "connection") parseConnState fun s c => { c with connState := s },
    fun c =>
      if p "sync-state" = none ∧ c.connState = .connected then
        (.ok (), { c with syncState := .resyncable })
      else assign (p "sync-state") parseSyncState (fun s c => { c with syncState := s }) c]

/-- `DrbdConnection::child_state_flags_changed`. -/
def Connection.childStateFlagsChanged (c : Connection) : Connection :=
  if !(c.roleAlert || c.connAlert) then
    { c with objState := if c.volumes.values.any (·.objState.hasMark) then .mark else .norm }
  else c

/-- `DrbdConnection::update_state_flags`. -/
def Connection.updateStateFlags (c : Connection) : Connection :=
  let lastState := c.objState
  let connAlert : Bool := c.connState ≠ .connected
  let c := { c with
    connAlert := connAlert
    roleAlert := c.role = .unknown && !connAlert
    objState := if connAlert || c.role = .unknown then .alert else c.objState }
  if lastState ≠ .norm then c.childStateFlagsChanged else c

/-- `DrbdConnection::new_from_props`. -/
def Connection.newFromProps (p : PropsMap) : Except EventException Connection :=
  match p "conn-name", (p "peer-node-id").bind (parseUnsigned 255) with
  | some name, some nodeId => .ok { name := name, nodeId := nodeId }
  | _, _ => .error ⟨.message, none, some "Missing connection name, node id or unparsable node id"⟩

/-! ## Resources -/

/-- A resource object; `oid` tells apart objects that had the same name at different times. -/
structure Resource where
  oid : Nat
  name : String
  role : Role := .unknown
  roleAlert : Bool := false
  quorumAlert : Bool := false
  objState : State := .alert
  volumes : OrdMap Nat Volume := .empty
  connections : OrdMap String Connection := .empty

/-- `DrbdResource::update`. -/
def Resource.update (p : PropsMap) : Update Resource :=
  assign (p "role") parseRole fun role r => { r with role := role }

/-- "If any of the resource's connections has marks/warnings/alerts": update them up to the first
    one that is not normal. -/
def updateConnections : List (String × Connection) → List (String × Connection) × Bool
  | [] => ([], false)
  | (k, c) :: l =>
    if c.updateStateFlags.objState ≠ .norm then ((k, c.updateStateFlags) :: l, true)
    else ((k, c.updateStateFlags) :: (updateConnections l).1, (updateConnections l).2)

theorem updateConnections_keys (l : List (String × Connection)) :
    (updateConnections l).1.map Prod.fst = l.map Prod.fst := by
  induction l with
  | nil => rfl
  | cons e l ih =>
    unfold updateConnections
    split
    · rfl
    · rw [List.map_cons, List.map_cons, ih]

/-- The connections after that loop. -/
def Resource.updatedConnections (r : Resource) : OrdMap String Connection where
  entries := (updateConnections r.connections.entries).1
  sorted := by
    have h := List.pairwise_map.2 r.connections.sorted
    rw [← updateConnections_keys] at h
    exact List.pairwise_map.1 h

/-- `DrbdResource::child_state_flags_changed`. -/
def Resource.childStateFlagsChanged (r : Resource) : Resource :=
  let volumes := r.volumes.map (·.updateStateFlags none)
  let quorumAlert := volumes.values.any (·.quorumAlert)
  let objState : State := if quorumAlert then .alert
    else if volumes.values.any (·.objState.hasMark) then .mark else .norm
  let r := { r with volumes := volumes, quorumAlert := quorumAlert, objState := objState }
  if objState = .norm then
    { r with
      connections := r.updatedConnections
      objState := if (updateConnections r.connections.entries).2 then .mark else .norm }
  else r

/-- `DrbdResource::update_state_flags`. -/
def Resource.updateStateFlags (r : Resource) : Resource :=
  let lastState := r.objState
  let r := { r with
    roleAlert := r.role = .unknown
    quorumAlert := false
    objState := if r.role = .unknown then .alert else r.objState }
  if lastState ≠ .norm then r.childStateFlagsChanged else r

/-- `DrbdResource::new_from_props`. -/
def Resource.newFromProps (oid : Nat) (p : PropsMap) : Except EventException Resource :=
  match p "name" with
  | some name => .ok { oid := oid, name := name }
  | none => .error (messageException "Invalid DRBD event: Missing resource name"
      "Missing resource name field:")

/-! ## The states that follow from the properties -/

/-- The state `update_state_flags` gives a volume. -/
def Volume.state (connection : Option State) (v : Volume) : State :=
  (v.updateStateFlags connection).objState

/-- Not connected, or the peer's role is not known. -/
def Connection.inAlert (c : Connection) : Bool := c.connState ≠ .connected || c.role = .unknown

/-- What the peer volumes of a connection see of it. -/
def Connection.excuse (c : Connection) : State := if c.inAlert then .alert else .norm

def Connection.freshState (c : Connection) : State :=
  if c.inAlert then .alert
  else if c.volumes.values.any fun v => (v.state (some c.excuse)).hasMark then .mark else .norm

def Resource.freshState (r : Resource) : State :=
  if r.role = .unknown || r.volumes.values.any (·.quorumAlert) then .alert
  else if (r.volumes.values.any fun v => (v.state none).hasMark) ||
    r.connections.values.any (·.freshState.hasMark) then .mark
  else .norm

/-- The stored states of a connection and of its peer volumes are the ones that follow from the
    current properties; so are the alert flags. -/
structure Connection.Current (c : Connection) : Prop where
  connAlert : c.connAlert = decide (c.connState ≠ .connected)
  roleAlert : c.roleAlert = (decide (c.role = .unknown) && !decide (c.connState ≠ .connected))
  objState : c.objState = c.freshState
  volumes : ∀ v ∈ c.volumes.values, v.objState = v.state (some c.excuse)

/-- The same for a resource and all that belongs to it. -/
structure Resource.Current (r : Resource) : Prop where
  objState : r.objState = r.freshState
  volumes : ∀ v ∈ r.volumes.values, v.objState = v.state none
  connections : ∀ c ∈ r.connections.values, c.Current

/-! ### Volumes -/

/-- Recomputing changes flags, and no property. -/
theorem Volume.updateStateFlags_eq (connection : Option State) (v : Volume) :
    ∃ diskAlert replWarn replAlert objState, v.updateStateFlags connection =
      { v with
        diskAlert := diskAlert, replWarn := replWarn, replAlert := replAlert, objState := objState } := by
  have hdisk : ∀ v : Volume, ∃ diskAlert objState, v.checkDisk connection =
      { v with diskAlert := diskAlert, objState := objState } := by
    intro v
    unfold Volume.checkDisk
    split
    · exact ⟨_, _, rfl⟩
    · split <;> exact ⟨_, _, rfl⟩
    · split
      · exact ⟨_, _, rfl⟩
      · split <;> exact ⟨_, _, rfl⟩
    · exact ⟨_, _, rfl⟩
  have hrepl : ∀ v : Volume, ∃ replWarn replAlert objState, v.checkReplication connection =
      { v with replWarn := replWarn, replAlert := replAlert, objState := objState } := by
    intro v
    unfold Volume.checkReplication
    split
    · exact ⟨_, _, _, rfl⟩
    · split
      · exact ⟨_, _, _, rfl⟩
      · split <;> exact ⟨_, _, _, rfl⟩
    · split
      · exact ⟨_, _, _, rfl⟩
      · split <;> exact ⟨_, _, _, rfl⟩
    · exact ⟨_, _, _, rfl⟩
    · exact ⟨_, _, _, rfl⟩
    · exact ⟨_, _, _, rfl⟩
  unfold Volume.updateStateFlags
  obtain ⟨a, s, ha⟩ := hdisk
    { v with objState := .norm, diskAlert := false, replWarn := false, replAlert := false }
  obtain ⟨b, c, t, hb⟩ := hrepl { v with
    objState := s, diskAlert := a, replWarn := false, replAlert := false }
  simp only [ha, hb]
  split
  · exact ⟨a, b, c, .alert, rfl⟩
  · exact ⟨a, b, c, t, rfl⟩

theorem Volume.updateStateFlags_twice (connection connection' : Option State) (v : Volume) :
    (v.updateStateFlags connection).updateStateFlags connection' = v.updateStateFlags connection' := by
  obtain ⟨a, b, c, s, h⟩ := v.updateStateFlags_eq connection
  rw [h]
  rfl

@[simp] theorem Volume.state_updateStateFlags (connection connection' : Option State) (v : Volume) :
    (v.updateStateFlags connection).state connection' = v.state connection' := by
  rw [Volume.state, Volume.updateStateFlags_twice, Volume.state]

@[simp] theorem Volume.quorumAlert_updateStateFlags (connection : Option State) (v : Volume) :
    (v.updateStateFlags connection).quorumAlert = v.quorumAlert := by
  obtain ⟨a, b, c, s, h⟩ := v.updateStateFlags_eq connection
  rw [h]

@[simp] theorem Volume.volNr_updateStateFlags (connection : Option State) (v : Volume) :
    (v.updateStateFlags connection).volNr = v.volNr := by
  obtain ⟨a, b, c, s, h⟩ := v.updateStateFlags_eq connection
  rw [h]

theorem Volume.state_of_hasWarn {s s' : State} (h : s.hasWarn = s'.hasWarn) (v : Volume) :
    v.state (some s) = v.state (some s') := by
  unfold Volume.state Volume.updateStateFlags Volume.checkDisk Volume.checkReplication
  simp only [h]

/-- Lost quorum is an alert. -/
theorem Volume.state_of_quorumAlert {connection : Option State} {v : Volume}
    (h : v.quorumAlert = true) : v.state connection = .alert := by
  have hq := v.quorumAlert_updateStateFlags connection
  unfold Volume.state
  unfold Volume.updateStateFlags at hq ⊢
  simp only at hq ⊢
  split
  · rfl
  · rename_i hn
    rw [if_neg hn] at hq
    exact absurd (hq.trans h) hn

/-! ### Connections -/

theorem any_congr_mem {α : Type} {l : List α} {f g : α → Bool} (h : ∀ a ∈ l, f a = g a) :
    l.any f = l.any g := by
  induction l with
  | nil => rfl
  | cons a l ih =>
    rw [List.any_cons, List.any_cons, h a (List.mem_cons_self ..),
      ih fun b hb => h b (List.mem_cons_of_mem _ hb)]

theorem Connection.hasWarn_excuse {c : Connection} (h : c.objState = c.freshState) :
    c.objState.hasWarn = c.excuse.hasWarn := by
  rw [h, Connection.freshState, Connection.excuse]
  cases c.inAlert
  · simp only [Bool.false_eq_true, if_false]
    split <;> rfl
  · rfl

theorem Connection.inAlert_eq (c : Connection) :
    c.inAlert = (decide (c.connState ≠ .connected) || decide (c.role = .unknown)) := rfl

/-- Recomputing a connection from its peer volumes. -/
theorem Connection.childStateFlagsChanged_current {c : Connection}
    (hconn : c.connAlert = decide (c.connState ≠ .connected))
    (hrole : c.roleAlert = (decide (c.role = .unknown) && !decide (c.connState ≠ .connected)))
    (halert : c.inAlert = true → c.objState = .alert)
    (hv : ∀ v ∈ c.volumes.values, v.objState = v.state (some c.excuse)) :
    c.childStateFlagsChanged.Current := by
  have hflags : (c.roleAlert || c.connAlert) = c.inAlert := by
    rw [hconn, hrole, Connection.inAlert_eq]
    cases decide (c.connState ≠ .connected) <;> cases decide (c.role = .unknown) <;> rfl
  unfold Connection.childStateFlagsChanged
  rw [hflags]
  cases hin : c.inAlert
  · refine ⟨hconn, hrole, ?_, hv⟩
    show (if c.volumes.values.any (·.objState.hasMark) then State.mark else .norm) = c.freshState
    rw [Connection.freshState, hin, any_congr_mem fun v hm => by rw [hv v hm]]
    rfl
  · refine ⟨hconn, hrole, ?_, hv⟩
    show c.objState = c.freshState
    rw [halert hin, Connection.freshState, hin]
    rfl

/-- Recomputing a connection from its own properties: a state that was normal is trusted to have
    no marked peer volume. -/
theorem Connection.updateStateFlags_current {c : Connection}
    (hnorm : c.objState = .norm → c.volumes.values.any (·.objState.hasMark) = false)
    (hv : ∀ v ∈ c.volumes.values, v.objState = v.state (some c.excuse)) :
    c.updateStateFlags.Current := by
  unfold Connection.updateStateFlags
  simp only
  split
  · refine Connection.childStateFlagsChanged_current rfl rfl (fun h => ?_) hv
    show (if _ then State.alert else c.objState) = .alert
    rw [if_pos (by simpa [Connection.inAlert] using h)]
  · rename_i hlast
    simp only [not_not] at hlast
    refine ⟨rfl, rfl, ?_, hv⟩
    show (if (decide (c.connState ≠ .connected) || decide (c.role = .unknown)) = true then State.alert
      else c.objState) = c.freshState
    have hany := hnorm hlast
    rw [any_congr_mem fun v hm => by rw [hv v hm]] at hany
    rw [Connection.freshState, hany, ← Connection.inAlert_eq, hlast]
    simp

theorem Connection.Current.norm {c : Connection} (h : c.Current) (hn : c.objState = .norm) :
    c.volumes.values.any (·.objState.hasMark) = false := by
  rw [any_congr_mem fun v hm => by rw [h.volumes v hm]]
  have hs := h.objState
  rw [hn, Connection.freshState] at hs
  split at hs
  · cases hs
  · split at hs
    · cases hs
    · rename_i hany
      exact Bool.eq_false_iff.2 hany

/-- Recomputing changes flags, and no property. -/
theorem Connection.updateStateFlags_eq (c : Connection) : ∃ connAlert roleAlert objState,
    c.updateStateFlags =
      { c with connAlert := connAlert, roleAlert := roleAlert, objState := objState } := by
  unfold Connection.updateStateFlags Connection.childStateFlagsChanged
  simp only
  split
  · split <;> exact ⟨_, _, _, rfl⟩
  · exact ⟨_, _, _, rfl⟩

@[simp] theorem Connection.freshState_updateStateFlags (c : Connection) :
    c.updateStateFlags.freshState = c.freshState := by
  obtain ⟨a, b, s, h⟩ := c.updateStateFlags_eq
  rw [h]
  rfl

@[simp] theorem Connection.name_updateStateFlags (c : Connection) :
    c.updateStateFlags.name = c.name := by
  obtain ⟨a, b, s, h⟩ := c.updateStateFlags_eq
  rw [h]

theorem Connection.Current.updateStateFlags {c : Connection} (h : c.Current) :
    c.updateStateFlags.Current := Connection.updateStateFlags_current h.norm h.volumes

/-! ### Resources -/

theorem updateConnections_current {l : List (String × Connection)} (h : ∀ e ∈ l, e.2.Current) :
    (∀ e ∈ (updateConnections l).1, e.2.Current) ∧
      (updateConnections l).2 = l.any (·.2.freshState.hasMark) ∧
      (updateConnections l).1.any (·.2.freshState.hasMark) = l.any (·.2.freshState.hasMark) := by
  induction l with
  | nil => exact ⟨by simp [updateConnections], rfl, rfl⟩
  | cons e l ih =>
    obtain ⟨k, c⟩ := e
    have hc := h (k, c) (List.mem_cons_self ..)
    have hl : ∀ e ∈ l, e.2.Current := fun e he => h e (List.mem_cons_of_mem _ he)
    obtain ⟨ih1, ih2, ih3⟩ := ih hl
    have hstate : c.updateStateFlags.objState = c.freshState := by
      rw [hc.updateStateFlags.objState, Connection.freshState_updateStateFlags]
    unfold updateConnections
    rw [hstate]
    split
    · rename_i hne
      refine ⟨?_, ?_, ?_⟩
      · intro e he
        rcases List.mem_cons.1 he with rfl | he
        · exact hc.updateStateFlags
        · exact hl e he
      · simp [State.hasMark, hne]
      · simp [State.hasMark, hne]
    · rename_i heq
      simp only [not_not] at heq
      refine ⟨?_, ?_, ?_⟩
      · intro e he
        rcases List.mem_cons.1 he with rfl | he
        · exact hc.updateStateFlags
        · exact ih1 e he
      · simp [State.hasMark, heq, ih2]
      · simpa [State.hasMark, heq] using ih3

theorem values_any {κ α : Type} [LinearOrder κ] (m : OrdMap κ α) (f : α → Bool) :
    m.values.any f = m.entries.any fun e => f e.2 := by
  rw [OrdMap.values, List.any_map]
  rfl

theorem values_map {κ α β : Type} [LinearOrder κ] (m : OrdMap κ α) (f : α → β) :
    (m.map f).values = m.values.map f := by
  simp [OrdMap.values, OrdMap.map]

/-- **Recomputing a resource from its children** gives the state that follows from its properties,
    if its role is known. -/
theorem Resource.childStateFlagsChanged_current {r : Resource} (hrole : r.role ≠ .unknown)
    (hc : ∀ c ∈ r.connections.values, c.Current) : r.childStateFlagsChanged.Current := by
  have hce : ∀ e ∈ r.connections.entries, e.2.Current := fun e he =>
    hc e.2 (List.mem_map_of_mem he)
  obtain ⟨hcur, hflag, hany⟩ := updateConnections_current hce
  have hvol : ∀ v ∈ (r.volumes.map (·.updateStateFlags none)).values, v.objState = v.state none := by
    intro v hv
    rw [values_map, List.mem_map] at hv
    obtain ⟨v, _, rfl⟩ := hv
    rw [Volume.state_updateStateFlags]
    rfl
  have hmarks : (r.volumes.map (·.updateStateFlags none)).values.any (·.objState.hasMark) =
      (r.volumes.map (·.updateStateFlags none)).values.any fun v => (v.state none).hasMark :=
    any_congr_mem fun v hv => by rw [hvol v hv]
  unfold Resource.childStateFlagsChanged
  simp only
  generalize r.volumes.map (·.updateStateFlags none) = vols at hvol hmarks ⊢
  by_cases hq : vols.values.any (·.quorumAlert) = true
  · rw [if_pos hq, if_neg (by simp)]
    refine ⟨?_, hvol, hc⟩
    simp [Resource.freshState, hq]
  by_cases hm : vols.values.any (·.objState.hasMark) = true
  · rw [if_neg hq, if_pos hm, if_neg (by simp)]
    refine ⟨?_, hvol, hc⟩
    rw [hmarks] at hm
    simp [Resource.freshState, hq, hrole, hm]
  rw [if_neg hq, if_neg hm, if_pos rfl]
  rw [hmarks] at hm
  refine ⟨?_, hvol, ?_⟩
  · show (if (updateConnections r.connections.entries).2 = true then State.mark else .norm) = _
    have hconn : (r.updatedConnections).values.any (·.freshState.hasMark) =
        (updateConnections r.connections.entries).2 := by
      rw [values_any, hflag]
      exact hany
    rw [Resource.freshState]
    show _ = if (decide (r.role = .unknown) || vols.values.any (·.quorumAlert)) = true then State.alert
      else if ((vols.values.any fun v => (v.state none).hasMark) ||
        (r.updatedConnections).values.any (·.freshState.hasMark)) = true then .mark else .norm
    rw [hconn, decide_eq_false hrole, Bool.eq_false_iff.2 hq, Bool.eq_false_iff.2 hm]
    simp
  · intro c hcm
    obtain ⟨e, he, rfl⟩ := List.mem_map.1 hcm
    exact hcur e he

/-- Recomputing a resource after its role changed. -/
theorem Resource.updateStateFlags_current {r r' : Resource} (h : r.Current)
    (hr : r' = { r with role := r'.role }) (hrole : r.objState ≠ .norm → r'.role ≠ .unknown) :
    r'.updateStateFlags.Current := by
  have hobj : r'.objState = r.objState := by rw [hr]
  have hvol : r'.volumes = r.volumes := by rw [hr]
  have hcon : r'.connections = r.connections := by rw [hr]
  unfold Resource.updateStateFlags
  simp only
  split
  · rename_i hlast
    refine Resource.childStateFlagsChanged_current (hrole (hobj ▸ hlast)) ?_
    rw [hcon]
    exact h.connections
  · rename_i hlast
    simp only [not_not] at hlast
    rw [hobj] at hlast
    have hs := h.objState
    rw [hlast, Resource.freshState] at hs
    refine ⟨?_, by rw [hvol]; exact h.volumes, by rw [hcon]; exact h.connections⟩
    show (if r'.role = .unknown then State.alert else r'.objState) = Resource.freshState _
    rw [hobj, hlast]
    unfold Resource.freshState
    simp only [hvol, hcon]
    split at hs
    · cases hs
    · rename_i hno
      simp only [Bool.or_eq_true, decide_eq_true_eq, not_or] at hno
      split at hs
      · cases hs
      · rename_i hno'
        simp [hno.2, hno']

end DrbdUtils.DrbdMon
