import DrbdUtils.Adm.ShowSections

/-!
# The output of "drbdsetup show"

The text that `drbdsetup show` prints of the resources that are up, and what `parse_drbdsetup_show()`
makes of it.

* `ShowResource` — what is printed of a resource; the items of each section are in any order.
* `runs_resource`, `runs_show` — the parser makes of a text what `SectionSem` says of its sections.
-/

set_option autoImplicit false

namespace DrbdUtils.Adm.Parser

open Scanner
open Setup.ConfigFlags (mStrtoll)

/-! ## Texts -/

/-- A number that `m_strtoll` reads. -/
structure Number where
  text : Text
  isNumber : (mStrtoll text '1').isSome = true

def int (txt : Text) : Lexeme := ⟨.integer txt, txt⟩

/-- The families of addresses without brackets. -/
inductive Family where
  | ipv4
  | ssocks
  | sdp

def Family.keyword : Family → Keyword
  | .ipv4 => .ipv4
  | .ssocks => .ssocks
  | .sdp => .sdp

inductive ShowAddress where
  | v4 (family : Family) (addr : Text) (port : Number)
  | v6 (addr : Text) (port : Number)

def ShowAddress.print : ShowAddress → List Lexeme
  | .v4 family addr port => [kw family.keyword, ⟨.ipaddr addr, addr⟩, op ':', int port.text]
  | .v6 addr port =>
    [kw .ipv6, op '[', ⟨.ipaddr6 addr, addr⟩, op ']', op ':', int port.text]

def ShowAddress.value : ShowAddress → DAddress
  | .v4 family addr port =>
    { af := family.keyword.text, addr := addr, port := port.text, isLocalAddress := addrScopeLocal addr }
  | .v6 addr port =>
    { af := "ipv6".toList, addr := addr, port := port.text, isLocalAddress := addrScopeLocal addr }

/-- `show_volume`. -/
inductive VolItem where
  | deviceMinor (minor : Text)
  | disk (path : Text)
  | metaInternal
  | metaFlexible (path : Text) (external : path ≠ "internal".toList)
  | metaIndexed (path : Text) (external : path ≠ "internal".toList) (index : Text)
  | options (stmts : List OptStmt)

/-- The statements of "_this_host". -/
inductive HostItem where
  | nodeId (id : Number)
  | volume (vnr : Text) (items : List VolItem)

/-- `show_connection`. -/
inductive ConnItem where
  | peerNodeId (id : Number)
  | path (thisHost remoteHost : ShowAddress)
  | cstate (txt : Text)
  | net (stmts : List OptStmt)
  | volume (vnr : Text) (stmts : List OptStmt)

/-- `show_resource_list`. -/
inductive ResItem where
  | options (stmts : List OptStmt)
  | thisHost (items : List HostItem)
  | connection (items : List ConnItem)

structure ShowResource where
  name : Text
  items : List ResItem

/-- A section between braces. -/
def braces (ts : List Lexeme) : List Lexeme := op '{' :: (ts ++ [op '}'])

def VolItem.keyword : VolItem → Keyword
  | .deviceMinor _ => .device
  | .disk _ | .options _ => .disk
  | .metaInternal | .metaFlexible _ _ | .metaIndexed _ _ _ => .metaDisk

/-- The tokens of a statement of a volume behind its keyword. -/
def VolItem.behind : VolItem → List Lexeme
  | .deviceMinor minor => [kw .minor, int minor, op ';']
  | .disk path => [str path, op ';']
  | .metaInternal => [str "internal".toList, op ';']
  | .metaFlexible path _ => [str path, op ';']
  | .metaIndexed path _ index => [str path, op '[', int index, op ']', op ';']
  | .options stmts => braces (stmts.flatMap OptStmt.print)

def VolItem.print (item : VolItem) : List Lexeme := kw item.keyword :: item.behind

def HostItem.print : HostItem → List Lexeme
  | .nodeId id => [kw .nodeId, int id.text, op ';']
  | .volume vnr items => [kw .volume, int vnr] ++ braces (items.flatMap VolItem.print)

/-- The addresses of a path. -/
def pathPrint (thisHost remoteHost : ShowAddress) : List Lexeme :=
  kw .thisHost :: (thisHost.print ++ [op ';']) ++ kw .remoteHost :: (remoteHost.print ++ [op ';'])

def ConnItem.print : ConnItem → List Lexeme
  | .peerNodeId id => [kw .peerNodeId, int id.text, op ';']
  | .path thisHost remoteHost => kw .path :: braces (pathPrint thisHost remoteHost)
  | .cstate txt => [kw .cstate, str txt, op ';']
  | .net stmts => kw .net :: braces (stmts.flatMap OptStmt.print)
  | .volume vnr stmts =>
    [kw .volume, int vnr] ++ braces (kw .disk :: braces (stmts.flatMap OptStmt.print))

def ResItem.print : ResItem → List Lexeme
  | .options stmts => kw .options :: braces (stmts.flatMap OptStmt.print)
  | .thisHost items => kw .thisHost :: braces (items.flatMap HostItem.print)
  | .connection items => kw .connection :: braces (items.flatMap ConnItem.print)

def ShowResource.print (res : ShowResource) : List Lexeme :=
  [kw .resource, str res.name] ++ braces (res.items.flatMap ResItem.print)

/-! ## What is made of them -/

/-- What becomes of a statement in the sections of each kind; none where the parser does not go on. -/
structure SectionSem where
  field (ctx : ContextDef) : Section Unit → OptStmt → Option (Section Unit)
  net : Section Unit → OptStmt → Option (Section Unit)
  disk : Section PeerDelegateData → OptStmt → Option (Section PeerDelegateData)

/-- What the parser does. -/
def parserSem (env : Env) : SectionSem where
  field := fieldStep
  net := netStep env
  disk := diskStep env

section Sem

variable (sem : SectionSem)

def SectionSem.options (ctx : ContextDef) (stmts : List OptStmt) : Option (List DOption) :=
  (stmts.foldlM (sem.field ctx) ([], ())).map Prod.fst

def SectionSem.netOptions (stmts : List OptStmt) : Option (List DOption) :=
  (stmts.foldlM sem.net ([], ())).map Prod.fst

def volStep (vol : Volume) : VolItem → Option Volume
  | .deviceMinor minor => some { vol with deviceMinor := atoi minor }
  | .disk path => some { vol with disk := some path }
  | .metaInternal =>
    some { vol with metaDisk := some "internal".toList, metaIndex := some "internal".toList }
  | .metaFlexible path _ => some { vol with metaDisk := some path, metaIndex := some "flexible".toList }
  | .metaIndexed path _ index => some { vol with metaDisk := some path, metaIndex := some index }
  | .options stmts =>
    (stmts.foldlM sem.disk ([], { deviceOptions := vol.deviceOptions, peerDeviceOptions := vol.pdOptions
                                  netOptions := none })).map fun c =>
      { vol with diskOptions := c.1, deviceOptions := c.2.deviceOptions, pdOptions := c.2.peerDeviceOptions }

def hostStep (host : HostInfo) : HostItem → Option HostInfo
  | .nodeId id => some { host with nodeId := some id.text }
  | .volume vnr items =>
    (items.foldlM (volStep sem) { vnr := atoi vnr }).map fun vol =>
      { host with volumes := insertVolume host.volumes vol }

/-- The path that is made of two addresses. -/
def showPath (thisHost remoteHost : ShowAddress) : Path where
  hnameAddressPairs :=
    [{ name := "_this_host".toList, address := some thisHost.value },
      { name := "_remote_host".toList, address := some remoteHost.value }]

def connStep (env : Env) (conn : Connection) : ConnItem → Option Connection
  | .peerNodeId id => some { conn with peerNodeId := some id.text }
  | .path thisHost remoteHost => some { conn with paths := conn.paths ++ [showPath thisHost remoteHost] }
  | .cstate txt => some { conn with cstate := some txt }
  | .net stmts => (sem.netOptions stmts).map fun options => { conn with netOptions := options }
  | .volume vnr stmts =>
    (sem.options env.peerDeviceOptionsCtx stmts).map fun options =>
      { conn with peerDevices := conn.peerDevices ++ [{ vnr := atoi vnr, pdOptions := options }] }

def resStep (env : Env) (res : Resource) : ResItem → Option Resource
  | .options stmts =>
    (sem.options env.resourceOptionsCtx stmts).map fun options =>
      { res with resOptions := res.resOptions ++ options }
  | .thisHost items =>
    (items.foldlM (hostStep sem) { onHosts := ["_this_host".toList] }).map (insertHost res)
  | .connection items =>
    (items.foldlM (connStep sem env) {}).map fun conn => { res with connections := res.connections ++ [conn] }

def showResource (env : Env) (res : ShowResource) : Option Resource :=
  res.items.foldlM (resStep sem env) { name := res.name }

/-- The running configuration. -/
def showResult (env : Env) (text : List ShowResource) : Option (List Resource) :=
  text.foldlM (fun running res => (showResource sem env res).map fun r => running ++ [r]) []

end Sem

/-! ## The parser on a text -/

/-- The loops have enough turns for a list that was printed. -/
theorem length_lt_of_flatMap {ι : Type} {print : ι → List Lexeme} (hpos : ∀ i, print i ≠ []) {items : List ι}
    {n : Nat} (h : (items.flatMap print).length < n) : items.length < n := by
  refine Nat.lt_of_le_of_lt ?_ h
  clear h
  induction items with
  | nil => exact Nat.zero_le _
  | cons i items ih =>
    have hi := List.length_pos_of_ne_nil (hpos i)
    rw [List.flatMap_cons, List.length_append, List.length_cons]
    omega

theorem length_lt_of_mem {ι : Type} {print : ι → List Lexeme} {items : List ι} {i : ι} (hi : i ∈ items) {n : Nat}
    (h : (items.flatMap print).length < n) : (print i).length < n := by
  obtain ⟨front, back, rfl⟩ := List.append_of_mem hi
  rw [List.flatMap_append, List.flatMap_cons, List.length_append, List.length_append] at h
  omega

theorem OptStmt.print_ne (stmt : OptStmt) : stmt.print ≠ [] := by
  cases stmt <;> exact nofun

section Env

variable {env : Env}

theorem runs_rangeCheck (what : RangeChecks) (n : Number) : Runs (rangeCheck env what n.text) [] (some ()) := by
  unfold rangeCheck
  obtain ⟨r, hr⟩ := Option.isSome_iff_exists.1 n.isNumber
  rw [hr]
  dsimp only
  split
  · exact fun s rest hin => ⟨_, rfl, hin⟩
  · exact Runs.pure ()

/-- The port of an address. -/
theorem runs_port (port : Number) (f : Text → DAddress) :
    Runs (do
      expOp ':'
      let port ← expInteger
      rangeCheck env .port port
      pure (f port)) [op ':', int port.text] (some (f port.text)) :=
  Runs.exp rfl (Runs.exp rfl (Runs.andThen (runs_rangeCheck .port port) (Runs.pure _)))

theorem runs_parseAddress (a : ShowAddress) : Runs (parseAddress env) a.print (some a.value) := by
  cases a with
  | v4 family addr port =>
    have hfamily : Runs parseAddressFamily [kw family.keyword, ⟨.ipaddr addr, addr⟩]
        (some (family.keyword.text, addr)) := by
      cases family <;> exact Runs.lex (Runs.exp rfl (Runs.pure _))
    have hne : family.keyword.text ≠ "ipv6".toList := by cases family <;> decide
    refine Runs.andThen hfamily ?_
    dsimp only
    rw [if_neg hne]
    exact runs_port port fun port => DAddress.mk family.keyword.text addr port (addrScopeLocal addr)
  | v6 addr port =>
    have hfamily : Runs parseAddressFamily [kw .ipv6, op '[', ⟨.ipaddr6 addr, addr⟩]
        (some ("ipv6".toList, addr)) := Runs.lex (Runs.exp rfl (Runs.exp rfl (Runs.pure _)))
    refine Runs.andThen hfamily ?_
    dsimp only
    rw [if_pos rfl]
    exact Runs.exp rfl
      (runs_port port fun port => DAddress.mk "ipv6".toList addr port (addrScopeLocal addr))

/-! ### Volumes -/

theorem runs_checkUniqDevice {vol : Volume} (hdevice : vol.device = none) (hosts : List Text) :
    Runs (checkUniqDevice vol hosts) [] (some ()) := by
  induction hosts with
  | nil => exact Runs.pure ()
  | cons h hosts ih =>
    have huniq : ∀ s, ∃ t, handle (.checkUniq ("device-minor:".toList ++ h ++ ":".toList ++
        unsignedText vol.deviceMinor)) s = .ok ((), t) ∧ t.input = s.input := by
      intro s
      rw [handle]
      split <;> exact ⟨_, rfl, rfl⟩
    refine Runs.quiet huniq ?_
    rw [hdevice]
    exact ih

theorem runs_parseDevice {vol : Volume} (hdevice : vol.device = none) (hosts : List Text) (minor : Text) :
    Runs (parseDevice env (some hosts) vol) [kw .minor, int minor, op ';']
      (some { vol with deviceMinor := atoi minor }) := by
  have hminor : Runs (parseDeviceMinor (env.hostnameInList hosts) vol) [int minor, op ';']
      (some { vol with deviceMinor := atoi minor }) := by
    refine Runs.exp rfl (Runs.exp rfl ?_)
    split
    · dsimp only
      rw [hdevice]
      exact Runs.pure _
    · exact Runs.pure _
  have hstmt : Runs (parseDeviceStmt env (env.hostnameInList hosts) vol) [kw .minor, int minor, op ';']
      (some { vol with deviceMinor := atoi minor }) := Runs.lex hminor
  have hcheck : Runs (checkUniqDevice { vol with deviceMinor := atoi minor } hosts) [] (some ()) := by
    apply runs_checkUniqDevice
    exact hdevice
  exact Runs.andThen hstmt (Runs.andThen hcheck (Runs.pure _))

/-- A section in braces behind its keyword. -/
theorem length_braces {ts : List Lexeme} {n : Nat} (h : (braces ts).length < n) : ts.length < n := by
  simp only [braces, List.length_cons, List.length_append] at h
  omega

theorem runs_volStmt (hsemi : NoSemicolon env) {vol : Volume} (hdevice : vol.device = none)
    (hosts : List Text) (item : VolItem) (hfuel : item.print.length < env.fuel) :
    Runs (parseVolumeStmt env vol (some hosts) (some (.keyword item.keyword))) item.behind
      ((volStep (parserSem env) vol item).map some) := by
  cases item with
  | deviceMinor minor => exact Runs.map some (runs_parseDevice hdevice hosts minor)
  | disk path => exact Runs.lex (Runs.exp rfl (Runs.pure _))
  | metaInternal =>
    refine Runs.map some (r := some _) (Runs.exp rfl ?_)
    rw [if_pos rfl]
    exact Runs.exp rfl (Runs.pure _)
  | metaFlexible path external =>
    refine Runs.map some (r := some _) (Runs.exp rfl ?_)
    rw [if_neg external]
    exact Runs.lex (Runs.pure _)
  | metaIndexed path external index =>
    refine Runs.map some (r := some _) (Runs.exp rfl ?_)
    rw [if_neg external]
    exact Runs.lex (Runs.exp rfl (Runs.exp rfl (Runs.exp rfl (Runs.pure _))))
  | options stmts =>
    have hlt : stmts.length < env.fuel := by
      refine length_lt_of_flatMap OptStmt.print_ne (length_braces (Nat.lt_of_succ_lt ?_))
      exact hfuel
    have hvol : Runs (parseVolumeDiskOptions env vol) (stmts.flatMap OptStmt.print ++ [op '}'])
        (volStep (parserSem env) vol (.options stmts)) :=
      Runs.map _ (runs_parseDiskOptions hsemi hlt rfl)
    exact Runs.lex (Runs.map some hvol)

theorem volStep_device (sem : SectionSem) {vol vol' : Volume} {item : VolItem} (hdevice : vol.device = none)
    (h : volStep sem vol item = some vol') : vol'.device = none := by
  cases item with
  | options stmts =>
    obtain ⟨c, -, rfl⟩ := Option.map_eq_some_iff.1 h
    exact hdevice
  | _ =>
    cases h
    exact hdevice

theorem VolItem.print_ne (item : VolItem) : item.print ≠ [] := nofun

theorem runs_parseVolume (hsemi : NoSemicolon env) (vnr : Int) (hosts : List Text) {items : List VolItem}
    (hfuel : (items.flatMap VolItem.print).length < env.fuel) :
    Runs (parseVolume env vnr (some hosts)) (braces (items.flatMap VolItem.print))
      (items.foldlM (volStep (parserSem env)) { vnr := vnr }) := by
  refine Runs.exp rfl ?_
  rw [← Option.bind_fun_some (items.foldlM (volStep (parserSem env)) { vnr := vnr })]
  refine Runs.items (P := fun vol => vol.device = none) (fun _ _ _ hc h => volStep_device _ hc h) ?_ ?_ rfl
    (length_lt_of_flatMap VolItem.print_ne hfuel)
  · intro vol hdevice item hitem
    have hstmt := runs_volStmt hsemi hdevice hosts item (length_lt_of_mem hitem hfuel)
    refine Runs.lex ?_
    dsimp only
    rw [if_neg (by simp [kw])]
    cases hstep : volStep (parserSem env) vol item with
    | none =>
      rw [hstep] at hstmt
      exact Runs.bind_none _ hstmt
    | some vol' =>
      rw [hstep] at hstmt
      exact Runs.finish hstmt (Runs.pure _)
  · intro vol fuel _ hpos
    refine Runs.last ?_ hpos
    exact Runs.lex (Runs.pure _)

/-! ### Hosts -/

theorem quiet_checkUpr (key : Text) (s : ParseState) :
    ∃ t, handle (.checkUpr key) s = .ok ((), t) ∧ t.input = s.input := by
  rw [handle]
  split <;> exact ⟨_, rfl, rfl⟩

theorem runs_checkUprHosts (hosts : List Text) (key : Text → Text) :
    Runs (checkUprHosts hosts key) [] (some ()) := by
  induction hosts with
  | nil => exact Runs.pure ()
  | cons h hosts ih => exact Runs.quiet (quiet_checkUpr (key h)) ih

theorem runs_parseNodeId (resName : Text) (hosts : List Text) (id : Number) :
    Runs (parseNodeId env resName hosts) [int id.text, op ';'] (some id.text) := by
  refine Runs.exp rfl (Runs.andThen (runs_rangeCheck .nodeId id) ?_)
  refine Runs.andThen (runs_checkUprHosts hosts _) (Runs.quiet (quiet_checkUpr _) ?_)
  exact Runs.exp rfl (Runs.pure _)

theorem runs_hostStmt (hsemi : NoSemicolon env) (resName : Text) (hosts : List Text) (host : HostInfo)
    (item : HostItem) (hfuel : item.print.length < env.fuel) :
    Runs (parseHostStmt env resName hosts host) item.print
      ((hostStep (parserSem env) host item).map .inl) := by
  cases item with
  | nodeId id =>
    refine Runs.lex ?_
    exact Runs.finish (runs_parseNodeId resName hosts id) (Runs.pure _)
  | volume vnr items =>
    have hlt : (items.flatMap VolItem.print).length < env.fuel :=
      length_braces (Nat.lt_of_succ_lt (Nat.lt_of_succ_lt hfuel))
    refine Runs.lex (Runs.exp rfl ?_)
    have hvol := runs_parseVolume hsemi (atoi vnr) hosts hlt
    cases hitems : items.foldlM (volStep (parserSem env)) { vnr := atoi vnr } with
    | none =>
      rw [hitems] at hvol
      rw [hostStep, hitems]
      exact Runs.bind_none _ hvol
    | some vol =>
      rw [hitems] at hvol
      rw [hostStep, hitems]
      exact Runs.finish hvol (Runs.pure _)

theorem HostItem.print_ne (item : HostItem) : item.print ≠ [] := by
  cases item <;> exact nofun

theorem runs_thisHost (hsemi : NoSemicolon env) (resName : Text) {items : List HostItem}
    (hfuel : (items.flatMap HostItem.print).length < env.fuel) :
    Runs (parseHostSection env resName ["_this_host".toList] false false)
      (items.flatMap HostItem.print ++ [op '}'])
      (items.foldlM (hostStep (parserSem env)) { onHosts := ["_this_host".toList] }) := by
  refine Runs.skip (runs_checkUprHosts _ _) ?_
  rw [← Option.bind_fun_some (items.foldlM (hostStep (parserSem env)) _)]
  refine Runs.items (P := fun _ => True) (fun _ _ _ _ _ => trivial) ?_ ?_ trivial
    (length_lt_of_flatMap HostItem.print_ne hfuel)
  · intro host _ item hitem
    exact runs_hostStmt hsemi resName _ host item (length_lt_of_mem hitem hfuel)
  · intro host fuel _ hpos
    refine Runs.last ?_ hpos
    exact Runs.lex (Runs.pure _)

/-! ### Connections -/

theorem runs_hnameAddress (ha : HnameAddress) (a : ShowAddress) :
    Runs (parseHnameAddress env ha) (a.print ++ [op ';']) (some { ha with address := some a.value }) :=
  Runs.andThen (runs_parseAddress a) (Runs.lex (Runs.pure _))

theorem runs_parsePath (thisHost remoteHost : ShowAddress) (hfuel : 2 < env.fuel) :
    Runs (parsePath env) (braces (pathPrint thisHost remoteHost))
      (some (showPath thisHost remoteHost)) := by
  obtain ⟨n, hn⟩ := Nat.exists_eq_add_of_lt hfuel
  refine Runs.exp rfl ?_
  unfold loop
  rw [hn, Nat.add_comm 2 n, pathPrint, List.append_assoc]
  have hthis : Runs (parseHnameAddress env { name := "_this_host".toList }) (thisHost.print ++ [op ';'])
      (some { name := "_this_host".toList, address := some thisHost.value }) :=
    runs_hnameAddress _ thisHost
  have hremote : Runs (parseHnameAddress env { name := "_remote_host".toList })
      (remoteHost.print ++ [op ';'])
      (some { name := "_remote_host".toList, address := some remoteHost.value }) :=
    runs_hnameAddress _ remoteHost
  refine Runs.andThen (Runs.lex (Runs.finish hthis (Runs.pure _))) ?_
  refine Runs.andThen (Runs.lex (Runs.finish hremote (Runs.pure _))) ?_
  refine Runs.last ?_ (Nat.succ_ne_zero n)
  exact Runs.lex (Runs.pure _)

theorem ConnItem.print_ne (item : ConnItem) : item.print ≠ [] := by
  cases item <;> exact nofun

theorem runs_parsePeerDevice (vnr : Int) {stmts : List OptStmt} (hfuel : stmts.length < env.fuel) :
    Runs (parsePeerDevice env vnr) (braces (kw .disk :: braces (stmts.flatMap OptStmt.print)))
      ((optionsResult env.peerDeviceOptionsCtx stmts).map fun options =>
        { vnr := vnr, pdOptions := options }) := by
  refine Runs.exp rfl (Runs.exp rfl (Runs.exp rfl ?_))
  exact Runs.mapThen (runs_parseOptions hfuel) fun options => Runs.exp rfl (Runs.pure _)

/-- With a connection goes the number of its hosts. -/
theorem runs_connStmt (conn : Connection) (hosts : Nat) (item : ConnItem)
    (hfuel : item.print.length < env.fuel) :
    Runs (parseConnectionStmt env .parseForAdjust (conn, hosts)) item.print
      ((connStep (parserSem env) env conn item).map fun conn => .inl (conn, hosts)) := by
  cases item with
  | peerNodeId id =>
    have hid : Runs (parsePeerNodeId env) [int id.text, op ';'] (some id.text) :=
      Runs.exp rfl (Runs.skip (runs_rangeCheck .nodeId id) (Runs.exp rfl (Runs.pure _)))
    exact Runs.lex (Runs.finish hid (Runs.pure _))
  | path thisHost remoteHost =>
    have hlt : 2 < env.fuel := by
      simp only [ConnItem.print, braces, pathPrint, List.length_cons, List.length_append] at hfuel
      omega
    exact Runs.lex (Runs.finish (runs_parsePath thisHost remoteHost hlt) (Runs.pure _))
  | cstate txt => exact Runs.lex (Runs.exp rfl (Runs.exp rfl (Runs.pure _)))
  | net stmts =>
    have hlt : stmts.length < env.fuel :=
      length_lt_of_flatMap OptStmt.print_ne (length_braces (Nat.lt_of_succ_lt hfuel))
    have hnet : Runs (parseNetOptions env .parseForAdjust) (stmts.flatMap OptStmt.print ++ [op '}'])
        ((parserSem env).netOptions stmts) := runs_parseNetOptions hlt
    have hconn : Runs (do
        expOp '{'
        let options ← parseNetOptions env .parseForAdjust
        pure (Sum.inl ({ conn with netOptions := options }, hosts) : (Connection × Nat) ⊕ Connection))
        (braces (stmts.flatMap OptStmt.print))
        ((connStep (parserSem env) env conn (.net stmts)).map fun conn => .inl (conn, hosts)) := by
      rw [connStep, Option.map_map]
      exact Runs.exp rfl (Runs.mapFinish hnet fun options => Runs.pure _)
    refine Runs.lex ?_
    dsimp only [parseHnameAddressPair, kw]
    split
    · exact Runs.quiet (fun s => ⟨_, rfl, rfl⟩) hconn
    · exact hconn
  | volume vnr stmts =>
    have hlt : stmts.length < env.fuel := by
      have houter : (kw .disk :: braces (stmts.flatMap OptStmt.print)).length < env.fuel :=
        length_braces (Nat.lt_of_succ_lt (Nat.lt_of_succ_lt hfuel))
      exact length_lt_of_flatMap OptStmt.print_ne (length_braces (Nat.lt_of_succ_lt houter))
    rw [connStep, Option.map_map]
    refine Runs.lex (Runs.exp rfl ?_)
    have h := Runs.mapFinish (runs_parsePeerDevice (atoi vnr) hlt) fun peerDevice => Runs.pure (Sum.inl
      ({ conn with peerDevices := conn.peerDevices ++ [peerDevice] }, hosts) : (Connection × Nat) ⊕ Connection)
    rw [Option.map_map] at h
    exact h

/-- A fold that carries a number along. -/
theorem foldlM_carry {γ ι : Type} (step : γ → ι → Option γ) (items : List ι) (c : γ) (n : Nat) :
    items.foldlM (fun (p : γ × Nat) i => (step p.1 i).map fun c => (c, p.2)) (c, n) =
      (items.foldlM step c).map fun c => (c, n) := by
  induction items generalizing c with
  | nil => rfl
  | cons i items ih =>
    rw [List.foldlM_cons, List.foldlM_cons]
    cases step c i with
    | none => rfl
    | some c' => exact ih c'

theorem runs_connection {items : List ConnItem} (hfuel : (items.flatMap ConnItem.print).length < env.fuel) :
    Runs (parseConnection env .parseForAdjust) (braces (items.flatMap ConnItem.print))
      (items.foldlM (connStep (parserSem env) env) {}) := by
  refine Runs.lex ?_
  have hloop : Runs (loop env (parseConnectionStmt env .parseForAdjust) ({}, 0))
      (items.flatMap ConnItem.print ++ [op '}'])
      ((items.foldlM (fun (p : Connection × Nat) i => (connStep (parserSem env) env p.1 i).map fun c => (c, p.2))
        ({}, 0)).bind fun p => some p.1) := by
    refine Runs.items (P := fun _ => True) (fun _ _ _ _ _ => trivial) ?_ ?_ trivial
      (length_lt_of_flatMap ConnItem.print_ne hfuel)
    · intro p _ item hitem
      rw [Option.map_map]
      exact runs_connStmt p.1 p.2 item (length_lt_of_mem hitem hfuel)
    · intro p fuel _ hpos
      refine Runs.last ?_ hpos
      have hclose : (if p.1.paths = [] ∧ PrFlags.parseForAdjust ≠ .parseForAdjust then
          invalid >>= fun _ => pure (.inr p.1) else pure (.inr p.1) :
          Parse ((Connection × Nat) ⊕ Connection)) = pure (.inr p.1) := if_neg fun h => h.2 rfl
      refine Runs.lex ?_
      refine Eq.subst (motive := fun q => Runs q [] _) hclose.symm ?_
      exact Runs.pure _
  have hfst : ∀ r : Option Connection, (r.map fun c => (c, 0)).bind (fun p => some p.1) = r := by
    rintro (_ | _) <;> rfl
  rw [foldlM_carry, hfst] at hloop
  exact hloop

/-! ### Resources -/

theorem runs_resStmt (hsemi : NoSemicolon env) (res : Resource) (item : ResItem)
    (templateFile : Text → Parse (Option ResourceBody))
    (hfuel : item.print.length < env.fuel) :
    Runs (parseResourceStmt env templateFile .parseForAdjust res) item.print
      ((resStep (parserSem env) env res item).map .inl) := by
  cases item with
  | options stmts =>
    have hlt : stmts.length < env.fuel :=
      length_lt_of_flatMap OptStmt.print_ne (length_braces (Nat.lt_of_succ_lt hfuel))
    rw [resStep, Option.map_map]
    refine Runs.lex (Runs.quiet (quiet_checkUpr _) (Runs.exp rfl ?_))
    exact Runs.mapFinish (runs_parseOptions hlt) fun options => Runs.pure _
  | thisHost items =>
    have hlt : (items.flatMap HostItem.print).length < env.fuel :=
      length_braces (Nat.lt_of_succ_lt hfuel)
    rw [resStep, Option.map_map]
    refine Runs.lex (Runs.exp rfl ?_)
    exact Runs.mapFinish (runs_thisHost hsemi res.name hlt) fun host => Runs.pure _
  | connection items =>
    have hlt : (items.flatMap ConnItem.print).length < env.fuel :=
      length_braces (Nat.lt_of_succ_lt hfuel)
    rw [resStep, Option.map_map]
    refine Runs.lex ?_
    exact Runs.mapFinish (runs_connection hlt) fun conn => Runs.pure _

theorem ResItem.print_ne (item : ResItem) : item.print ≠ [] := by
  cases item <;> exact nofun

theorem quiet_checkUniq (key : Text) (s : ParseState) :
    ∃ t, handle (.checkUniq key) s = .ok ((), t) ∧ t.input = s.input := by
  rw [handle]
  split <;> exact ⟨_, rfl, rfl⟩

theorem quiet_checkUprInit (s : ParseState) :
    ∃ t, handle .checkUprInit s = .ok ((), t) ∧ t.input = s.input := by
  refine ⟨_, rfl, ?_⟩
  split <;> rfl

theorem runs_parseResourceWith (hsemi : NoSemicolon env)
    (templateFile : Text → Parse (Option ResourceBody)) (res : ShowResource)
    (hfuel : (res.items.flatMap ResItem.print).length < env.fuel) :
    Runs (parseResourceWith env templateFile res.name .parseForAdjust)
      (res.items.flatMap ResItem.print ++ [op '}']) (showResource (parserSem env) env res) := by
  have hloop : Runs (loop env (parseResourceStmt env templateFile .parseForAdjust) { name := res.name })
      (res.items.flatMap ResItem.print ++ [op '}'])
      ((res.items.foldlM (resStep (parserSem env) env) { name := res.name }).bind some) := by
    refine Runs.items (P := fun _ => True) (fun _ _ _ _ _ => trivial) ?_ ?_ trivial
      (length_lt_of_flatMap ResItem.print_ne hfuel)
    · intro r _ item hitem
      exact runs_resStmt hsemi r item templateFile (length_lt_of_mem hitem hfuel)
    · intro r fuel _ hpos
      refine Runs.last ?_ hpos
      exact Runs.lex (Runs.pure _)
  rw [Option.bind_fun_some] at hloop
  refine Runs.quiet quiet_checkUprInit (Runs.quiet (quiet_checkUniq res.name) ?_)
  rw [← Option.map_id' (x := showResource (parserSem env) env res)]
  refine Runs.mapFinish hloop fun r => ?_
  rw [if_neg fun h => nomatch h.1]
  exact Runs.pure r

theorem runs_parseResource (hsemi : NoSemicolon env) (room : Nat) (configSave : Text) (res : ShowResource)
    (hfuel : (res.items.flatMap ResItem.print).length < env.fuel) :
    Runs (parseResource env room configSave res.name .parseForAdjust)
      (res.items.flatMap ResItem.print ++ [op '}']) (showResource (parserSem env) env res) := by
  cases room <;> exact runs_parseResourceWith hsemi _ res hfuel

theorem ShowResource.print_ne (res : ShowResource) : res.print ≠ [] := nofun

/-- The whole text. -/
theorem runs_show (hsemi : NoSemicolon env) (room : Nat) (text : List ShowResource)
    (hfuel : (text.flatMap ShowResource.print).length < env.fuel) (s : ParseState)
    (hs : s.input = text.flatMap ShowResource.print) :
    Ends [] (showResult (parserSem env) env text) ((parseDrbdsetupShow env room).run handle s) := by
  rw [← Option.bind_fun_some (showResult (parserSem env) env text)]
  refine Runs.items_rest (P := fun _ => True) (fun _ _ _ _ _ => trivial) ?_ ?_ trivial
    (length_lt_of_flatMap ShowResource.print_ne hfuel) (hs.trans (List.append_nil _).symm)
  · intro running _ res hres
    have hlt : (res.items.flatMap ResItem.print).length < env.fuel := by
      have := length_lt_of_mem hres hfuel
      exact length_braces (Nat.lt_of_succ_lt (Nat.lt_of_succ_lt this))
    rw [Option.map_map]
    refine Runs.lex ?_
    refine Runs.lex (Runs.lex ?_)
    exact Runs.mapFinish (runs_parseResource hsemi room _ res hlt) fun r => Runs.pure _
  · intro running fuel t _ hpos ht
    obtain ⟨fuel, rfl⟩ := Nat.exists_eq_succ_of_ne_zero hpos
    have hlex : yylex.run handle t = .ok ((none, []), t) := run_yylex_eq_ok.2 (Or.inl ⟨ht, rfl, rfl⟩)
    exact ⟨t, Prog.run_loop_end (Prog.run_bind_of_ok hlex) fuel, ht⟩

end Env

end DrbdUtils.Adm.Parser
