import DrbdUtils.Adm.Parser

/-!
# The sections of drbd.conf

The rest of `drbdadm_parser.c`, from the statements of a volume up to `my_parse()`, `parse_device()` of
`drbdadm_linux.c`, and the loop of `parse_drbdsetup_show()` of `drbdadm_adjust.c`.  How many more files
can be opened is a number, `room`.
-/

set_option autoImplicit false

namespace DrbdUtils.Adm.Parser

open Scanner Numerals CString

section Env

variable (env : Env)

/-! ## Addresses -/

/-- `addr_scope_local`. -/
def addrScopeLocal (input : Text) : Bool :=
  match inetPton6 input, inetPton4 input with
  | some addr6, _ => addr6 = [0, 0, 0, 0, 0, 0, 0, 1]
  | none, some addr4 => addr4.head? = some 127
  | none, none => false

/-- The family and the address of `__parse_address`. -/
def parseAddressFamily : Parse (Text × Text) := do
  let (token, _) ← yylex
  match token with
  | some (.keyword .sci) => do
    let addr ← expIpaddr
    pure ("ssocks".toList, addr)
  | some (.keyword .ssocks) => do
    let addr ← expIpaddr
    pure ("ssocks".toList, addr)
  | some (.keyword .sdp) => do
    let addr ← expIpaddr
    pure ("sdp".toList, addr)
  | some (.keyword .ipv4) => do
    let addr ← expIpaddr
    pure ("ipv4".toList, addr)
  | some (.keyword .ipv6) => do
    expOp '['
    let addr ← expIpaddr6
    pure ("ipv6".toList, addr)
  | some (.ipaddr txt) => pure ("ipv4".toList, txt)
  | _ => peExpected

/-- `__parse_address`. -/
def parseAddress : Parse DAddress := do
  let (af, addr) ← parseAddressFamily
  if af = "ipv6".toList then expOp ']'
  expOp ':'
  let port ← expInteger
  rangeCheck env .port port
  pure { af := af, addr := addr, port := port, isLocalAddress := addrScopeLocal addr }

/-- `parse_hosts`. -/
def parseHosts (delimeter : Char) : Parse (List Text) :=
  loop env (fun hosts => do
    let (token, _) ← yylex
    match token with
    | some (.string txt) => pure (.inl (hosts ++ [txt]))
    | _ => if token = some (.op [delimeter]) ∧ hosts ≠ [] then pure (.inr hosts) else peExpected) []

/-- `parse_proxy_section`. -/
def parseProxySection : Parse ProxyInfo := do
  expKeyword .on
  let hosts ← parseHosts env '{'
  let proxy ← loop env (fun (proxy : ProxyInfo) => do
    let (token, _) ← yylex
    match token with
    | some (.keyword .inside) => do
      let address ← parseAddress env
      expOp ';'
      pure (.inl { proxy with inside := some address })
    | some (.keyword .outside) => do
      let address ← parseAddress env
      expOp ';'
      pure (.inl { proxy with outside := some address })
    | some (.keyword .options) => do
      let (options, plugins) ← parseProxyOptions env proxy.plugins
      pure (.inl { proxy with options := options, plugins := plugins })
    | some (.op ['}']) => pure (.inr proxy)
    | _ => peExpected) { onHosts := hosts }
  if proxy.inside = none then invalid
  if proxy.outside = none then invalid
  pure proxy

/-! ## Volumes -/

/-- `parse_meta_disk`. -/
def parseMetaDisk (vol : Volume) : Parse Volume := do
  let metaDisk ← expString
  let vol := { vol with metaDisk := some metaDisk }
  if metaDisk = "internal".toList then
    expOp ';'
    pure { vol with metaIndex := some "internal".toList }
  else
    let (token, _) ← yylex
    match token with
    | some (.op ['[']) => do
      let index ← expInteger
      expOp ']'
      expOp ';'
      pure { vol with metaIndex := some index }
    | some (.op [';']) => pure { vol with metaIndex := some "flexible".toList }
    | _ => peExpected

/-- `only_digits`. -/
def onlyDigits (s : Text) : Bool := s ≠ [] && s.all isDigit

/-- `check_minor_nonsense`. -/
def checkMinorNonsense (devname : Option Text) (explicitMinor : Int) : Parse Unit :=
  match devname with
  | none => pure ()
  | some devname =>
    let rest := devname.drop 9
    if onlyDigits rest then if atoi rest = explicitMinor then pure () else invalid
    else if rest.head? = some '_' then pure ()
    else invalid

/-- `minor <minor>;` in `parse_device`, from the number on. -/
def parseDeviceMinor (checked : Bool) (vol : Volume) : Parse Volume := do
  let minor ← expInteger
  let vol := { vol with deviceMinor := atoi minor }
  expOp ';'
  if checked then checkMinorNonsense vol.device vol.deviceMinor
  pure vol

/-- The statement of `parse_device`.  Another first token is passed over without a word. -/
def parseDeviceStmt (checked : Bool) (vol : Volume) : Parse Volume := do
  let (token, _) ← yylex
  match token with
  | some (.string txt) => do
    let device := if "drbd".toList <+: txt then "/dev/".toList ++ txt else txt
    let vol := { vol with device := some device }
    if checked && !decide ("/dev/drbd".toList <+: device) then invalid
    let (token, _) ← yylex
    match token with
    | some (.op [';']) => do
      let m := env.dtMinorOfDev device
      if m < 0 then invalid
      pure { vol with deviceMinor := m }
    | some (.keyword .minor) => parseDeviceMinor checked vol
    | _ => peExpected
  | some (.keyword .minor) => parseDeviceMinor checked vol
  | _ => pure vol

/-- `%u` of an `int`. -/
def unsignedText (n : Int) : Text := decText (BitVec.ofInt 32 n).toNat

/-- `check_uniq_file_line` for each host. -/
def checkUniqDevice (vol : Volume) (hosts : List Text) : Parse Unit :=
  match hosts with
  | [] => pure ()
  | h :: rest => do
    checkUniq ("device-minor:".toList ++ h ++ ":".toList ++ unsignedText vol.deviceMinor)
    match vol.device with
    | some device => checkUniq ("device:".toList ++ h ++ ":".toList ++ device)
    | none => pure ()
    checkUniqDevice vol rest

/-- `parse_device`; `none` stands for no list of hosts. -/
def parseDevice (onHosts : Option (List Text)) (vol : Volume) : Parse Volume := do
  match onHosts with
  | none => parseDeviceStmt env true vol
  | some hosts => do
    let vol ← parseDeviceStmt env (env.hostnameInList hosts) vol
    checkUniqDevice vol hosts
    pure vol

/-- `volume0`: the first volume, and those behind it. -/
def volume0 (volumes : List Volume) : Parse (Volume × List Volume) :=
  match volumes with
  | [] => pure ({ vnr := 0, implicit := true }, [])
  | vol :: rest => do
    if !decide (vol.vnr = 0 ∧ rest = [] ∧ vol.implicit) then invalid
    pure (vol, rest)

/-- `insert_volume`. -/
def insertVolume (volumes : List Volume) (vol : Volume) : List Volume :=
  match volumes.getLast? with
  | none => [vol]
  | some t =>
    if t.vnr ≤ vol.vnr then volumes ++ [vol]
    else volumes.takeWhile (·.vnr ≤ vol.vnr) ++ vol :: volumes.dropWhile (·.vnr ≤ vol.vnr)

/-- `parse_skip`. -/
def parseSkip : Parse Unit :=
  loop env (fun (level : Int) => do
    let (token, _) ← yylex
    match token with
    | some (.op ['{']) => pure (.inl (level + 1))
    | some (.op ['}']) => if level - 1 = 0 then pure (.inr ()) else pure (.inl (level - 1))
    | some _ => pure (.inl level)
    | none => stop .exit) 0

/-- A disk section of a volume. -/
def parseVolumeDiskOptions (vol : Volume) : Parse Volume := do
  let (options, params) ← parseDiskOptions env
    { deviceOptions := vol.deviceOptions, peerDeviceOptions := vol.pdOptions, netOptions := none }
  pure { vol with
    diskOptions := options, deviceOptions := params.deviceOptions, pdOptions := params.peerDeviceOptions }

/-- `parse_volume_stmt`; no result where it returns 0. -/
def parseVolumeStmt (vol : Volume) (onHosts : Option (List Text)) (token : Option Token) :
    Parse (Option Volume) := do
  match token with
  | some (.keyword .disk) => do
    let (token, _) ← yylex
    match token with
    | some (.string txt) => do
      expOp ';'
      pure (some { vol with disk := some txt })
    | some (.op ['{']) => some <$> parseVolumeDiskOptions env vol
    | _ => peExpected
  | some (.keyword .device) => some <$> parseDevice env onHosts vol
  | some (.keyword .metaDisk) => some <$> parseMetaDisk vol
  | some (.keyword .flexMetaDisk) => do
    let metaDisk ← expString
    expOp ';'
    pure (some { vol with
      metaDisk := some metaDisk
      metaIndex := some (if metaDisk = "internal".toList then metaDisk else "flexible".toList) })
  | some (.keyword .skip) => do
    parseSkip env
    pure (some vol)
  | some (.keyword .tiebreaker) => do
    let (token, _) ← yylex
    let tiebreaker ← match token with
      | some (.keyword .yes) => pure true
      | some (.keyword .no) => pure false
      | _ => peExpected
    expOp ';'
    pure (some { vol with tiebreaker := tiebreaker })
  | _ => pure none

/-- `parse_volume`. -/
def parseVolume (vnr : Int) (onHosts : Option (List Text)) : Parse Volume := do
  expOp '{'
  loop env (fun (vol : Volume) => do
    let (token, _) ← yylex
    if token = some (.op ['}']) then pure (.inr vol)
    else
      match ← parseVolumeStmt env vol onHosts token with
      | some vol => pure (.inl vol)
      | none => peExpected) { vnr := vnr }

/-- `parse_stacked_volume`. -/
def parseStackedVolume (vnr : Int) : Parse Volume := do
  expOp '{'
  let vol ← loop env (fun (vol : Volume) => do
    let (token, _) ← yylex
    match token with
    | some (.keyword .device) => Sum.inl <$> parseDevice env none vol
    | some (.keyword .disk) => do
      expOp '{'
      Sum.inl <$> parseVolumeDiskOptions env vol
    | some (.op ['}']) => pure (.inr vol)
    | _ => peExpected) { vnr := vnr }
  pure { vol with metaDisk := some "internal".toList, metaIndex := some "internal".toList }

/-! ## Hosts -/

/-- `fixup_name_inplace_for_strict_names`. -/
def fixupName (name : Text) : Text :=
  name.map fun c =>
    if isDigit c || ('A' ≤ c && c ≤ 'Z') || ('a' ≤ c && c ≤ 'z') || "+-._".toList.contains c then c
    else '_'

/-- The statement "node-id <id>;" of a host of `resName`. -/
def parseNodeId (resName : Text) (onHosts : List Text) : Parse Text := do
  let nodeId ← expInteger
  rangeCheck env .nodeId nodeId
  checkUprHosts onHosts fun h => resName ++ ":".toList ++ h ++ ":node-id".toList
  checkUpr (resName ++ ":".toList ++ nodeId)
  expOp ';'
  pure nodeId

/-- What follows `vol0stmt` in `parse_host_section`, with the check of the statement in front of it. -/
def hostVolumeStmt (resName what : Text) (onHosts : List Text) (token : Option Token) (host : HostInfo) :
    Parse (HostInfo ⊕ HostInfo) := do
  checkUprHosts onHosts fun h => resName ++ ":".toList ++ h ++ ":".toList ++ what
  let (vol, rest) ← volume0 host.volumes
  match ← parseVolumeStmt env vol (some onHosts) token with
  | some vol => pure (.inl { host with volumes := vol :: rest })
  | none => peExpected

/-- A statement of a host section. -/
def parseHostStmt (resName : Text) (onHosts : List Text) (host : HostInfo) :
    Parse (HostInfo ⊕ HostInfo) := do
  let (token, _) ← yylex
  match token with
  | some (.keyword .disk) => hostVolumeStmt env resName "disk".toList onHosts token host
  | some (.keyword .device) => hostVolumeStmt env resName "device".toList onHosts token host
  | some (.keyword .metaDisk) | some (.keyword .flexMetaDisk) =>
    hostVolumeStmt env resName "meta-disk".toList onHosts token host
  | some (.keyword .address) =>
    if host.byAddress then stop .exit
    else do
      checkUprHosts onHosts fun h => resName ++ ":".toList ++ h ++ ":address".toList
      let address ← parseAddress env
      expOp ';'
      rangeCheck env .port address.port
      pure (.inl { host with address := some address })
  | some (.keyword .proxy) => do
    let proxy ← parseProxySection env
    pure (.inl { host with proxyCompatOnly := some proxy })
  | some (.keyword .volume) => do
    let vnr ← expInteger
    let vol ← parseVolume env (atoi vnr) (some onHosts)
    pure (.inl { host with volumes := insertVolume host.volumes vol })
  | some (.keyword .nodeId) => do
    let nodeId ← parseNodeId env resName onHosts
    pure (.inl { host with nodeId := some nodeId })
  | some (.keyword .options) => do
    expOp '{'
    let options ← parseOptions env env.resourceOptionsCtx
    pure (.inl { host with resOptions := options })
  | some (.keyword .skip) => do
    parseSkip env
    pure (.inl host)
  | some (.op ['}']) => pure (.inr host)
  | _ => peExpected

/-- `parse_host_section`. -/
def parseHostSection (resName : Text) (onHosts : List Text) (requireMinor byAddress : Bool) :
    Parse HostInfo := do
  let host : HostInfo := { onHosts := onHosts, requireMinor := requireMinor, byAddress := byAddress }
  if byAddress then
    let address ← parseAddress env
    let fakeUname := fixupName (address.addr ++ ":".toList ++ address.port)
    let host := { host with address := some address, onHosts := fakeUname :: onHosts }
    let (token, _) ← yylex
    if token = some (.op ['{']) then
      checkUprHosts onHosts fun h => resName ++ ": on ".toList ++ h
      loop env (parseHostStmt env resName onHosts) host
    else if token = some (.op [';']) then
      checkUprHosts onHosts fun h => resName ++ ": on ".toList ++ h
      pure host
    else peExpected
  else
    checkUprHosts onHosts fun h => resName ++ ": on ".toList ++ h
    loop env (parseHostStmt env resName onHosts) host

/-- `parse_stacked_section`; the host has no name yet. -/
def parseStackedSection (resName : Text) : Parse HostInfo := do
  let lowerName ← expString
  checkUniq ("stacked:".toList ++ lowerName)
  expOp '{'
  loop env (fun (host : HostInfo) => do
    let (token, _) ← yylex
    match token with
    | some (.keyword .device) => do
      let (vol, rest) ← volume0 host.volumes
      let vol ← parseDevice env (some host.onHosts) vol
      let vol :=
        { vol with metaDisk := some "internal".toList, metaIndex := some "internal".toList }
      pure (.inl { host with volumes := vol :: rest })
    | some (.keyword .address) => do
      let address ← parseAddress env
      expOp ';'
      rangeCheck env .port address.port
      pure (.inl { host with address := some address })
    | some (.keyword .proxy) => do
      let proxy ← parseProxySection env
      pure (.inl { host with proxyCompatOnly := some proxy })
    | some (.keyword .volume) => do
      let vnr ← expInteger
      let vol ← parseStackedVolume env (atoi vnr)
      pure (.inl { host with volumes := insertVolume host.volumes vol })
    | some (.keyword .nodeId) => do
      let nodeId ← parseNodeId env resName host.onHosts
      pure (.inl { host with nodeId := some nodeId })
    | some (.op ['}']) => pure (.inr host)
    | _ => peExpected) { onHosts := [], lowerName := some lowerName }

/-! ## Connections -/

/-- `parse_via`. -/
def parseVia (ha : HnameAddress) : Parse HnameAddress := do
  let (token, _) ← yylex
  match token with
  | some (.keyword .proxy) => do
    let proxy ← parseProxySection env
    pure { ha with proxy := some proxy }
  | some (.keyword .outsideAddress) => do
    let address ← parseAddress env
    expOp ';'
    pure { ha with outsideAddress := some address }
  | _ => peExpected

/-- What follows `parse_optional_via`. -/
def parseOptionalVia (ha : HnameAddress) : Parse HnameAddress := do
  let (token, _) ← yylex
  if token = some (.keyword .via) then parseVia env ha
  else if token = some (.op [';']) then pure ha
  else peExpected

/-- What follows `parse_address`. -/
def parseHnameAddress (ha : HnameAddress) : Parse HnameAddress := do
  let address ← parseAddress env
  parseOptionalVia env { ha with address := some address }

/-- `parse_hname_address_pair`; `none` for a token that starts no pair. -/
def parseHnameAddressPair (prevToken : Option Token) : Option (Parse HnameAddress) :=
  match prevToken with
  | some (.keyword .address) =>
    some (parseHnameAddress env { name := "UNKNOWN".toList, byAddress := true })
  | some (.keyword .thisHost) => some (parseHnameAddress env { name := "_this_host".toList })
  | some (.keyword .remoteHost) => some (parseHnameAddress env { name := "_remote_host".toList })
  | some (.keyword .host) =>
    some (do
      let name ← expString
      let (token, _) ← yylex
      match token with
      | some (.keyword .address) => parseHnameAddress env { name := name }
      | some (.keyword .port) => do
        let port ← expInteger
        parseOptionalVia env { name := name, port := some port }
      | some (.keyword .via) => parseVia env { name := name }
      | some (.op [';']) => pure { name := name }
      | _ => peExpected)
  | _ => none

/-- `parse_peer_device`. -/
def parsePeerDevice (vnr : Int) : Parse PeerDevice := do
  expOp '{'
  expKeyword .disk
  expOp '{'
  let options ← parseOptions env env.peerDeviceOptionsCtx
  expOp '}'
  pure { vnr := vnr, pdOptions := options }

/-- `parse_peer_node_id`. -/
def parsePeerNodeId : Parse Text := do
  let nodeId ← expInteger
  rangeCheck env .nodeId nodeId
  expOp ';'
  pure nodeId

/-- `path0`: the first path, and those behind it. -/
def path0 (paths : List Path) : Parse (Path × List Path) :=
  match paths with
  | [] => pure ({ implicit := true }, [])
  | path :: rest => do
    if !path.implicit then invalid
    pure (path, rest)

/-- `parse_path`; with the path goes the number of its hosts. -/
def parsePath : Parse Path := do
  expOp '{'
  loop env (fun ((path, hosts) : Path × Nat) => do
    let (token, _) ← yylex
    match parseHnameAddressPair env token with
    | some pair => do
      let ha ← pair
      if 3 ≤ hosts + 1 then invalid
      pure (.inl ({ path with hnameAddressPairs := path.hnameAddressPairs ++ [ha] }, hosts + 1))
    | none => if token = some (.op ['}']) then pure (.inr path) else peExpected) ({}, 0)

/-- A statement of a connection; with the connection goes the number of its hosts. -/
def parseConnectionStmt (flags : PrFlags) (c : Connection × Nat) :
    Parse ((Connection × Nat) ⊕ Connection) := do
  let (conn, hosts) := c
  let (token, _) ← yylex
  match parseHnameAddressPair env token with
  | some pair => do
    let (path, rest) ← path0 conn.paths
    let ha ← pair
    let path := { path with hnameAddressPairs := path.hnameAddressPairs ++ [ha] }
    if 3 ≤ hosts + 1 then invalid
    pure (.inl ({ conn with paths := path :: rest }, hosts + 1))
  | none =>
    match token with
    | some (.keyword .peerNodeId) => do
      let nodeId ← parsePeerNodeId env
      pure (.inl ({ conn with peerNodeId := some nodeId }, hosts))
    | some (.keyword .net) => do
      if conn.netOptions ≠ [] then invalid
      expOp '{'
      let options ← parseNetOptions env flags
      pure (.inl ({ conn with netOptions := options }, hosts))
    | some (.keyword .skip) => do
      parseSkip env
      pure (.inl (conn, hosts))
    | some (.keyword .disk) => do
      expOp '{'
      let options ← parseOptions env env.peerDeviceOptionsCtx
      pure (.inl ({ conn with pdOptions := options }, hosts))
    | some (.keyword .volume) => do
      let vnr ← expInteger
      let peerDevice ← parsePeerDevice env (atoi vnr)
      pure (.inl ({ conn with peerDevices := conn.peerDevices ++ [peerDevice] }, hosts))
    | some (.keyword .cstate) => do
      let cstate ← expString
      expOp ';'
      pure (.inl ({ conn with cstate := some cstate }, hosts))
    | some (.keyword .path) => do
      let path ← parsePath env
      pure (.inl ({ conn with paths := conn.paths ++ [path] }, hosts))
    | some (.op ['}']) => do
      if conn.paths = [] ∧ flags ≠ .parseForAdjust then invalid
      pure (.inr conn)
    | _ => peExpected

/-- `parse_connection`. -/
def parseConnection (flags : PrFlags) : Parse Connection := do
  let (token, _) ← yylex
  match token with
  | some (.op ['{']) => loop env (parseConnectionStmt env flags) ({}, 0)
  | some (.string _) => do
    expOp '{'
    loop env (parseConnectionStmt env flags) ({}, 0)
  | _ => peExpected

/-- `parse_connection_mesh`. -/
def parseConnectionMesh (flags : PrFlags) : Parse Mesh := do
  expOp '{'
  loop env (fun (mesh : Mesh) => do
    let (token, _) ← yylex
    match token with
    | some (.keyword .hosts) => do
      let hosts ← parseHosts env ';'
      pure (.inl { mesh with hosts := mesh.hosts ++ hosts })
    | some (.keyword .net) => do
      if mesh.netOptions ≠ [] then invalid
      expOp '{'
      let options ← parseNetOptions env flags
      pure (.inl { mesh with netOptions := options })
    | some (.op ['}']) => pure (.inr mesh)
    | _ => peExpected) {}

/-! ## Resources -/

/-- `disk <name>;` or `disk { .. }` in a resource. -/
def parseResourceDisk (res : Resource) : Parse Resource := do
  let (token, _) ← yylex
  match token with
  | some (.string txt) => do
    let (vol, rest) ← volume0 res.volumes
    expOp ';'
    pure { res with volumes := { vol with disk := some txt } :: rest }
  | some (.op ['{']) => do
    checkUpr (res.name ++ ":disk".toList)
    let (options, params) ← parseDiskOptions env
      { deviceOptions := res.deviceOptions, peerDeviceOptions := res.pdOptions
        netOptions := some res.netOptions }
    pure { res with
      diskOptions := res.diskOptions ++ options
      deviceOptions := params.deviceOptions
      pdOptions := params.peerDeviceOptions
      netOptions := params.netOptions.getD [] }
  | _ => peExpected

/-- `protocol <value>;`. -/
def parseProtocol (res : Resource) : Parse Resource := do
  checkUpr (res.name ++ ": protocol".toList)
  match (findField env.netOptionsCtx "protocol".toList).2 with
  | some field => do
    let value ← parseOptionValue field false
    pure { res with netOptions := res.netOptions ++ [{ name := field.name, value := some value }] }
  | none => stop .crash

/-- `device`, `meta-disk` and `flexible-meta-disk` in a resource. -/
def resourceVolumeStmt (token : Option Token) (res : Resource) : Parse Resource := do
  let (vol, rest) ← volume0 res.volumes
  let stmt ← parseVolumeStmt env vol none token
  pure { res with volumes := stmt.getD vol :: rest }

/-- The host sections of a resource. -/
def insertHost (res : Resource) (host : HostInfo) : Resource :=
  { res with allHosts := res.allHosts ++ [host] }

/-- A statement of a resource. -/
def parseResourceStmt (templateFile : Text → Parse (Option ResourceBody)) (flags : PrFlags)
    (res : Resource) : Parse (Resource ⊕ Resource) := do
  let (token, _) ← yylex
  match token with
  | some (.string txt) =>
    if txt = "protocol".toList then Sum.inl <$> parseProtocol env res else peExpected
  | some (.keyword .on) => do
    let hosts ← parseHosts env '{'
    let host ← parseHostSection env res.name hosts true false
    pure (.inl (insertHost res host))
  | some (.keyword .stacked) => do
    let host ← parseStackedSection env res.name
    pure (.inl { insertHost res host with stackedOnOne := true })
  | some (.keyword .thisHost) => do
    expOp '{'
    let host ← parseHostSection env res.name ["_this_host".toList] false false
    pure (.inl (insertHost res host))
  | some (.keyword .floating) => do
    let host ← parseHostSection env res.name [] true true
    pure (.inl (insertHost res host))
  | some (.keyword .disk) => Sum.inl <$> parseResourceDisk env res
  | some (.keyword .net) => do
    checkUpr (res.name ++ ":net".toList)
    expOp '{'
    let options ← parseNetOptions env flags
    pure (.inl { res with netOptions := res.netOptions ++ options })
  | some (.keyword .syncer) => do
    checkUpr (res.name ++ ":syncer".toList)
    expOp '{'
    Sum.inl <$> parseOptionsSyncer env res
  | some (.keyword .startup) => do
    checkUpr (res.name ++ ":startup".toList)
    expOp '{'
    let (options, stackedTimeouts) ←
      parseOptionsLoop env env.startupOptionsCtx (some (startupDelegate env)) res.stackedTimeouts
    pure (.inl { res with startupOptions := options, stackedTimeouts := stackedTimeouts })
  | some (.keyword .handler) => do
    checkUpr (res.name ++ ":handlers".toList)
    expOp '{'
    let options ← parseOptions env env.handlersCtx
    pure (.inl { res with handlers := options })
  | some (.keyword .proxy) => do
    checkUpr (res.name ++ ":proxy".toList)
    let (options, plugins) ← parseProxyOptions env res.proxyPlugins
    pure (.inl { res with proxyOptions := options, proxyPlugins := plugins })
  | some (.keyword .device) => do
    checkUpr (res.name ++ ":device".toList)
    Sum.inl <$> resourceVolumeStmt env token res
  | some (.keyword .metaDisk) | some (.keyword .flexMetaDisk) =>
    Sum.inl <$> resourceVolumeStmt env token res
  | some (.keyword .volume) => do
    let vnr ← expInteger
    let vol ← parseVolume env (atoi vnr) none
    pure (.inl { res with volumes := insertVolume res.volumes vol })
  | some (.keyword .options) => do
    checkUpr (res.name ++ ":res_options".toList)
    expOp '{'
    let options ← parseOptions env env.resourceOptionsCtx
    pure (.inl { res with resOptions := res.resOptions ++ options })
  | some (.keyword .connection) => do
    let conn ← parseConnection env flags
    pure (.inl { res with connections := res.connections ++ [conn] })
  | some (.keyword .connectionMesh) => do
    let mesh ← parseConnectionMesh env flags
    pure (.inl { res with meshes := res.meshes ++ [mesh] })
  | some (.keyword .templateFile) => do
    let template ← templateFile res.name
    pure (.inl { res with template := template })
  | some (.keyword .skip) => do
    parseSkip env
    pure (.inl res)
  -- the end of the file closes a resource as a brace does
  | some (.op ['}']) | none => pure (.inr res)
  | _ => peExpected

/-- `parse_resource` with `template_file` as a parameter. -/
def parseResourceWith (templateFile : Text → Parse (Option ResourceBody)) (resName : Text)
    (flags : PrFlags) : Parse Resource := do
  Prog.perform Op.checkUprInit
  checkUniq resName
  let res ← loop env (parseResourceStmt env templateFile flags) { name := resName }
  if flags = .noHostSectAllowed ∧ res.allHosts ≠ [] then invalid
  pure res

/-- `template_file`; `nested` parses the resource in it, unless no more files can be opened. -/
def templateFile (nested : Option (Text → Text → Parse Resource)) (configSave resName : Text) :
    Parse (Option ResourceBody) := do
  let fileName ← expString
  expOp ';'
  match nested, env.fopen configSave fileName with
  | some parseResource, .file input => do
    Prog.perform (Op.pushFile input)
    expKeyword .common
    expOp '{'
    let template ← parseResource (env.canonifyPath configSave fileName)
      ("template-".toList ++ resName)
    Prog.perform Op.popFile
    pure (some template.toResourceBody)
  | _, _ => do
    invalid
    pure none

/-- `parse_resource` in a configuration file, with room for more open files. -/
def parseResource : Nat → Text → Text → PrFlags → Parse Resource
  | 0, configSave, resName, flags =>
    parseResourceWith env (templateFile env none configSave) resName flags
  | room + 1, configSave, resName, flags =>
    parseResourceWith env
      (templateFile env
        (some fun configSave resName => parseResource room configSave resName .noHostSectAllowed)
        configSave)
      resName flags

/-! ## The file -/

/-- The end of a statement of the global section. -/
def globalAgain : Parse (Unit ⊕ Unit) := do
  expOp ';'
  pure (.inl ())

/-- A statement of the global section that takes a number. -/
def parseGlobalNumber (check : Text → Parse Unit) : Parse (Unit ⊕ Unit) := do
  let value ← expInteger
  check value
  globalAgain

/-- "usage-count" behind its name. -/
def parseUsageCount : Parse (Unit ⊕ Unit) := do
  let (token, _) ← yylex
  match token with
  | some (.keyword .yes) | some (.keyword .no) | some (.keyword .ask) => globalAgain
  | _ => peExpected

/-- A statement of the global section. -/
def parseGlobalStmt : Parse (Unit ⊕ Unit) := do
  let (token, _) ← yylex
  match token with
  | some (.keyword .udevAlwaysUseVnr) | some (.keyword .disableIpVerification) => globalAgain
  | some (.keyword .minorCount) => parseGlobalNumber (rangeCheck env .minorCount)
  | some (.keyword .dialogRefresh) => parseGlobalNumber (rangeCheck env .dialogRefresh)
  | some (.keyword .cmdTimeoutShort) | some (.keyword .cmdTimeoutMedium)
  | some (.keyword .cmdTimeoutLong) => parseGlobalNumber timeoutRange
  | some (.keyword .usageCount) => parseUsageCount
  | some (.op ['}']) => pure (.inr ())
  | _ => peExpected

/-- `parse_global`. -/
def parseGlobal : Parse Unit := do
  checkUniq "global".toList
  expOp '{'
  loop env (fun _ => parseGlobalStmt env) ()

/-- The comparison that a statement on the version of the module asks for. -/
def moduleToken : Keyword → Option ValidateKmod.ModuleToken
  | .moduleEq => some .eq
  | .moduleNe => some .ne
  | .moduleGt => some .gt
  | .moduleGe => some .ge
  | .moduleLt => some .lt
  | .moduleLe => some .le
  | _ => none

/-- `contains_glob_magic_char`. -/
def containsGlobMagicChar (str : Text) : Bool := str.contains '*' || str.contains '?' || str.contains '['

/-- The files of an include statement, each with `include_file`; `nested` is `my_parse`, unless no more
    files can be opened. -/
def includeFiles (nested : Option (Text → Text → Config → Parse Config)) (configSave str : Text)
    (pathv : List Text) (config : Config) : Parse Config :=
  match pathv with
  | [] => pure config
  | path :: pathv => do
    let realPath := env.realpath configSave path
    let seen ← Prog.perform (Op.alreadySeen realPath)
    if seen then includeFiles nested configSave str pathv config
    else
      match nested, env.fopen configSave path with
      | some myParse, .file input => do
        Prog.perform (Op.pushFile input)
        let config ← myParse realPath (env.canonifyPath configSave path) config
        Prog.perform Op.popFile
        includeFiles nested configSave str pathv config
      | some _, .noEntry => do
        if !containsGlobMagicChar str then invalid
        includeFiles nested configSave str pathv config
      | _, _ => do
        invalid
        includeFiles nested configSave str pathv config

/-- `include_stmt`. -/
def includeStmt (nested : Option (Text → Text → Config → Parse Config)) (configSave str : Text)
    (config : Config) : Parse Config :=
  match env.glob configSave str with
  | .paths pathv => includeFiles env nested configSave str pathv config
  | .nomatch => do
    if !containsGlobMagicChar str then invalid
    pure config
  | .error => stop .exit

/-- `ensure_sanity_of_res_name`. -/
def ensureSanityOfResName (stg : Text) : Parse Unit :=
  if stg = [] then stop .exit
  else if stg.any fun code => code.toNat < 32 || code.toNat = 127 then stop .exit
  else pure ()

/-- A statement of `my_parse`. -/
def parseStmt (room : Nat) (nested : Option (Text → Text → Config → Parse Config))
    (configSave : Text) (config : Config) : Parse (Config ⊕ Config) := do
  let (token, _) ← yylex
  match token with
  | some (.keyword .globalSection) => do
    parseGlobal env
    pure (.inl config)
  | some (.keyword .common) => do
    expOp '{'
    let common ← parseResource env room configSave "common".toList .noHostSectAllowed
    pure (.inl { config with common := some common })
  | some (.keyword .resource) => do
    let name ← expString
    ensureSanityOfResName name
    expOp '{'
    let res ← parseResource env room configSave name .none
    pure (.inl { config with config := config.config ++ [res] })
  | some (.keyword .skip) => do
    parseSkip env
    pure (.inl config)
  | some (.keyword .includeFile) => do
    let str ← expString
    expOp ';'
    Sum.inl <$> includeStmt env nested configSave str config
  | some (.keyword k) =>
    match moduleToken k with
    | some op => do
      let txt ← exp fun | .kmodvers txt => some txt | _ => none
      expOp ';'
      match ValidateKmod.validateKmod env.driver op txt with
      | .returns => pure (.inl config)
      | _ => stop .exit
    | none => peExpected
  | none => pure (.inr config)
  | _ => peExpected

/-- `my_parse` on a file of which the real path is known, with room for more open files. -/
def myParse : Nat → Text → Text → Config → Parse Config
  | 0, realPath, configSave, config => do
    let _ ← Prog.perform (Op.alreadySeen realPath)
    loop env (parseStmt env 0 none configSave) config
  | room + 1, realPath, configSave, config => do
    let _ ← Prog.perform (Op.alreadySeen realPath)
    loop env (parseStmt env (room + 1) (some (myParse room)) configSave) config

/-- The loop of `parse_drbdsetup_show`. -/
def parseDrbdsetupShow (room : Nat) : Parse (List Resource) :=
  loop env (fun (running : List Resource) => do
    let (token, _) ← yylex
    if token = some (.keyword .resource) then
      let (token, _) ← yylex
      match token with
      | some (.string name) => do
        let (token, _) ← yylex
        if token = some (.op ['{']) then
          let res ← parseResource env room "drbdsetup show".toList name .parseForAdjust
          pure (.inl (running ++ [res]))
        else pure (.inr running)
      | _ => pure (.inr running)
    else pure (.inr running)) []

end Env

end DrbdUtils.Adm.Parser
