import DrbdUtils.Lib.Markup

/-!
# What drbdadm dump-xml prints

`print_dump_xml_header()`, `adm_dump_xml()` and the functions under them in `drbdadm_dump.c`, with
`esc_xml()` of `shared_tool.c`.  What is printed is a list of tags and texts; indentation and line
ends are left out.

* `escXml_eq_some` — what `esc_xml` gives, and when it gives up.
* `Config.Clean` — the strings that are printed as they are hold no markup.
* `dumpXml_wellFormed_iff` — when the document is well-formed.
-/

set_option autoImplicit false

namespace DrbdUtils.Adm.DumpXml

open Flex Flex.Pattern Printer Markup

/-! ## Configuration -/

/-- `struct d_option`. -/
structure DOption where
  name : List Char
  value : Option (List Char)
  isEscaped : Bool := false

/-- `struct d_address`. -/
structure Address where
  addr : Option (List Char)
  port : Option (List Char)
  af : Option (List Char)

/-- `struct d_proxy_info`. -/
structure ProxyInfo where
  onHosts : List (List Char)
  inside : Address
  outside : Address
  options : List DOption
  plugins : List DOption

/-- `struct d_volume`. -/
structure Volume where
  vnr : Nat
  deviceOptions : List DOption := []
  diskOptions : List DOption := []
  pdOptions : List DOption := []
  device : Option (List Char)
  deviceMinor : Nat
  disk : Option (List Char)
  metaDisk : Option (List Char)
  metaIndex : Option (List Char)

/-- `struct d_host_info`. -/
structure HostInfo where
  byAddress : Bool := false
  onHosts : List (List Char)
  resOptions : List DOption := []
  volumes : List Volume := []
  address : Address

/-- `struct hname_address`; `hostAddress` is the address of its host. -/
structure HnameAddress where
  name : List Char
  address : Address
  hostAddress : Address
  proxy : Option ProxyInfo := none

/-- `struct path`. -/
structure Path where
  implicit : Bool := false
  pairs : List HnameAddress

/-- `struct peer_device`. -/
structure PeerDevice where
  implicit : Bool := false
  vnr : Nat
  pdOptions : List DOption := []

/-- `struct connection`; it has a path. -/
structure Connection where
  name : Option (List Char)
  path : Path
  paths : List Path := []
  netOptions : List DOption := []
  pdOptions : List DOption := []
  peerDevices : List PeerDevice := []

/-- `struct d_resource`; `template` is the file of the template. -/
structure Resource where
  name : List Char
  configFile : List Char
  startLine : Nat := 0
  template : Option (List Char) := none
  allHosts : List HostInfo := []
  connections : List Connection := []
  resOptions : List DOption := []
  netOptions : List DOption := []
  deviceOptions : List DOption := []
  diskOptions : List DOption := []
  pdOptions : List DOption := []
  startupOptions : List DOption := []
  stackedTimeouts : Bool := false
  proxyOptions : List DOption := []
  proxyPlugins : List DOption := []
  handlers : List DOption := []

structure GlobalOptions where
  minorCount : Nat := 0
  disableIpVerification : Bool := false
  dialogRefresh : Nat := 1

/-- What was read, with the file it was read from and the option `--verbose`. -/
structure Config where
  configSave : List Char
  verbose : Bool := false
  globalOptions : GlobalOptions := {}
  common : Option Resource := none
  resources : List Resource := []

/-! ## esc_xml -/

def special (c : Char) : Bool := c ∈ ['\'', '"', '<', '>', '&']

/-- `XML_ENCODE_SPECIAL`. -/
def replacement : Char → List Char
  | '\'' => "&apos;".toList
  | '"' => "&quot;".toList
  | '<' => "&lt;".toList
  | '>' => "&gt;".toList
  | '&' => "&amp;".toList
  | c => [c]

/-- The loop of `esc_xml`; `e` is in the buffer, and `none` is `exit(E_SYNTAX)`. -/
def escXmlLoop : List Char → List Char → Option (List Char)
  | [], e => some e
  | c :: ue, e =>
    if special c then
      if 1023 - (replacement c).length ≤ e.length then none else escXmlLoop ue (e ++ replacement c)
    else if 1022 ≤ (e ++ [c]).length then none else escXmlLoop ue (e ++ [c])

/-- `esc_xml`. -/
def escXml (str : Option (List Char)) : Option (List Char) :=
  match str with
  | none => some []
  | some str => if str.any fun c => special c || c = '\\' then escXmlLoop str [] else some str

/-- Two calls for one `printf`: they share the buffer, and the call that is made last fills it. -/
def escXml2 (leftFirst : Bool) (a b : List Char) : Option (List Char × List Char) := do
  let x ← escXml a
  let y ← escXml b
  if a.any (fun c => special c || c = '\\') && b.any (fun c => special c || c = '\\') then
    if leftFirst then some (y, y) else some (x, x)
  else some (x, y)

/-- `%u`. -/
def number (n : Nat) : List Char := Nat.toDigits 10 n

/-- `%s`. -/
def printed (s : Option (List Char)) : List Char := s.getD "(null)".toList

/-- `names_to_str`: the names with blanks between them, as far as they fit. -/
def namesToStr (names : List (List Char)) : List Char :=
  if names = [] then "UNKNOWN".toList else (List.intercalate [' '] names).take 4095

/-! ## Printing -/

/-- `__dump_options_xml`. -/
def dumpOptionXml (o : DOption) : Doc Piece :=
  match o.value with
  | some value =>
    (if o.isEscaped then some value else escXml value).bind fun v =>
      put (.empty "option" [("name", o.name), ("value", v)])
  | none => put (.empty "option" [("name", o.name)])

def dumpOptionsListXml (options : List DOption) : Doc Piece := cat (options.map dumpOptionXml)

/-- `dump_options_xml`. -/
def dumpOptionsXml (sectionName : String) (subsectionName : Option String) (options : List DOption)
    (more : List (List DOption)) : Doc Piece :=
  if options.isEmpty && more.all List.isEmpty then some []
  else
    match if more.any (!·.isEmpty) then subsectionName else none with
    | some subsection =>
      cat [put (.start "section" [("name", sectionName.toList)]), dumpOptionsListXml options,
        put (.start "section" [("name", subsection.toList)]), cat (more.map dumpOptionsListXml),
        put (.stop "section"), put (.stop "section")]
    | none =>
      cat [put (.start "section" [("name", sectionName.toList)]), dumpOptionsListXml options,
        cat (more.map dumpOptionsListXml), put (.stop "section")]

/-- `dump_global_info_xml`. -/
def dumpGlobalInfoXml (g : GlobalOptions) : Doc Piece :=
  if g.minorCount = 0 && !g.disableIpVerification && g.dialogRefresh = 1 then some []
  else
    cat [put (.start "global" []),
      if g.disableIpVerification then put (.empty "disable-ip-verification" []) else some [],
      if g.minorCount ≠ 0 then put (.empty "minor-count" [("count", number g.minorCount)]) else some [],
      if g.dialogRefresh ≠ 1 then put (.empty "dialog-refresh" [("refresh", number g.dialogRefresh)])
      else some [],
      put (.stop "global")]

/-- `fake_startup_options`. -/
def fakeStartupOptions (res : Resource) : List DOption :=
  if res.stackedTimeouts then res.startupOptions ++ [⟨"stacked-timeouts".toList, none, false⟩]
  else res.startupOptions

/-- The options of a resource, as `dump_common_info_xml` and `adm_dump_xml` print them. -/
def dumpResourceOptionsXml (res : Resource) : Doc Piece :=
  cat [dumpOptionsXml "options" none res.resOptions [],
    dumpOptionsXml "net" none res.netOptions [],
    dumpOptionsXml "disk" none res.deviceOptions [res.diskOptions, res.pdOptions],
    dumpOptionsXml "startup" none (fakeStartupOptions res) [],
    dumpOptionsXml "proxy" (some "plugin") res.proxyOptions [res.proxyPlugins],
    dumpOptionsXml "handlers" none res.handlers []]

/-- `dump_common_info_xml`. -/
def dumpCommonInfoXml : Option Resource → Doc Piece
  | none => some []
  | some common => cat [put (.start "common" []), dumpResourceOptionsXml common, put (.stop "common")]

/-- An address, under the name of its element. -/
def dumpAddressXml (element : String) (a : Address) : Doc Piece :=
  cat [put (.start element [("family", printed a.af), ("port", printed a.port)]),
    put (.text (printed a.addr)), put (.stop element)]

/-- `dump_proxy_info_xml`. -/
def dumpProxyInfoXml (pi : ProxyInfo) : Doc Piece :=
  cat [put (.start "proxy" [("hostname", namesToStr pi.onHosts)]),
    dumpAddressXml "inside" pi.inside, dumpAddressXml "outside" pi.outside,
    dumpOptionsXml "options" none pi.options [pi.plugins], put (.stop "proxy")]

/-- An element with an escaped text. -/
def dumpTextXml (element : String) (attrs : List (String × List Char)) (str : Option (List Char)) : Doc Piece :=
  (escXml str).bind fun s => cat [put (.start element attrs), put (.text s), put (.stop element)]

/-- `dump_volume_xml`. -/
def dumpVolumeXml (vol : Volume) : Doc Piece :=
  cat [put (.start "volume" [("vnr", number vol.vnr)]),
    dumpOptionsXml "disk" none vol.deviceOptions [vol.diskOptions, vol.pdOptions],
    dumpTextXml "device" [("minor", number vol.deviceMinor)] vol.device,
    dumpTextXml "disk" [] vol.disk,
    match vol.metaIndex with
    | none => some [] -- "Stacked do not have this..."
    | some metaIndex =>
      if metaIndex = "flexible".toList then dumpTextXml "meta-disk" [] vol.metaDisk
      else if metaIndex = "internal".toList then
        cat [put (.start "meta-disk" []), put (.text "internal".toList), put (.stop "meta-disk")]
      else dumpTextXml "meta-disk" [("index", metaIndex)] vol.metaDisk,
    put (.stop "volume")]

/-- `dump_host_info_xml`. -/
def dumpHostInfoXml (hi : HostInfo) : Doc Piece :=
  cat [if hi.byAddress then put (.start "host" [("floating", ['1'])])
      else put (.start "host" [("name", namesToStr hi.onHosts)]),
    dumpOptionsXml "options" none hi.resOptions [], cat (hi.volumes.map dumpVolumeXml),
    dumpAddressXml "address" hi.address, put (.stop "host")]

/-- One round of `dump_hname_address_pairs_xml`. -/
def dumpHnameAddressXml (ha : HnameAddress) : Doc Piece :=
  cat [put (.start "host" [("name", ha.name)]),
    dumpAddressXml "address" (if ha.address.addr.isSome then ha.address else ha.hostAddress),
    match ha.proxy with
    | some proxy => dumpProxyInfoXml proxy
    | none => some [],
    put (.stop "host")]

def dumpHnameAddressPairsXml (pairs : List HnameAddress) : Doc Piece := cat (pairs.map dumpHnameAddressXml)

def dumpPathXml (path : Path) : Doc Piece :=
  cat [put (.start "path" []), dumpHnameAddressPairsXml path.pairs, put (.stop "path")]

def dumpPeerDeviceXml (verbose : Bool) (pd : PeerDevice) : Doc Piece :=
  if pd.implicit && !verbose then some []
  else
    cat [put (.start "volume" [("vnr", number pd.vnr)]), dumpOptionsXml "disk" none pd.pdOptions [],
      put (.stop "volume")]

/-- `dump_connection_xml`. -/
def dumpConnectionXml (verbose : Bool) (conn : Connection) : Doc Piece :=
  cat [match conn.name with
      | some name => (escXml name).bind fun s => put (.start "connection" [("name", s)])
      | none => put (.start "connection" []),
    if conn.path.implicit && !verbose then dumpHnameAddressPairsXml conn.path.pairs
    else cat ((conn.path :: conn.paths).map dumpPathXml),
    dumpOptionsXml "net" none conn.netOptions [], dumpOptionsXml "disk" none conn.pdOptions [],
    cat (conn.peerDevices.map (dumpPeerDeviceXml verbose)), put (.stop "connection")]

/-- `adm_dump_xml`; `leftFirst` is the order in which arguments are evaluated. -/
def admDumpXml (verbose leftFirst : Bool) (res : Resource) : Doc Piece :=
  cat [(escXml2 leftFirst res.name res.configFile).bind fun s =>
      put (.start "resource" [("name", s.1), ("conf-file-line", s.2 ++ ':' :: number res.startLine)]),
    match res.template with
    | some file => (escXml file).bind fun s => put (.start "template" [("file", s)])
    | none => some [],
    cat (res.allHosts.map dumpHostInfoXml), cat (res.connections.map (dumpConnectionXml verbose)),
    dumpResourceOptionsXml res, put (.stop "resource")]

/-- `print_dump_xml_header`. -/
def printDumpXmlHeader (c : Config) : Doc Piece :=
  cat [put (.start "config" [("file", c.configSave)]), dumpGlobalInfoXml c.globalOptions,
    dumpCommonInfoXml c.common]

/-- `dump-xml` for all resources. -/
def dumpXml (leftFirst : Bool) (c : Config) : Doc Piece :=
  cat [printDumpXmlHeader c, cat (c.resources.map (admDumpXml c.verbose leftFirst)),
    put (.stop "config")]

/-! ## What esc_xml gives -/

/-- The escaped text fits into the buffer: 1022 letters only do when the last ones are a reference. -/
def Fits (s : List Char) : Prop :=
  s.any (fun c => special c || c = '\\') = false ∨ (s.flatMap replacement).length ≤ 1021 ∨
    (s.flatMap replacement).length = 1022 ∧ ∃ c, s.getLast? = some c ∧ special c = true

theorem special_cases {c : Char} (h : special c = true) :
    c = '\'' ∨ c = '"' ∨ c = '<' ∨ c = '>' ∨ c = '&' := by
  unfold special at h
  simpa using h

theorem replacement_special {c : Char} (h : special c = true) :
    replacement c ∈ reference.lang ∧ 1 ≤ (replacement c).length ∧ (replacement c).length ≤ 6 := by
  rcases special_cases h with rfl | rfl | rfl | rfl | rfl <;>
    exact ⟨longest_whole.1 (by decide), by decide, by decide⟩

theorem replacement_plain {c : Char} (h : special c = false) : replacement c = [c] := by
  unfold replacement
  split <;> first | rfl | exact absurd h (by decide)

theorem replacement_pos (c : Char) : 1 ≤ (replacement c).length := by
  cases h : special c with
  | true => exact (replacement_special h).2.1
  | false => rw [replacement_plain h, List.length_singleton]

theorem escXmlLoop_eq {s e out : List Char} (h : escXmlLoop s e = some out) :
    out = e ++ s.flatMap replacement := by
  induction s generalizing e with
  | nil =>
    cases h
    exact (List.append_nil _).symm
  | cons c s ih =>
    rw [escXmlLoop] at h
    cases hc : special c with
    | true =>
      rw [hc, if_pos rfl] at h
      split at h
      · cases h
      · rw [ih h, List.append_assoc]
        rfl
    | false =>
      rw [hc, if_neg Bool.false_ne_true] at h
      split at h
      · cases h
      · rw [ih h, List.append_assoc, List.flatMap_cons, replacement_plain hc]

/-- A letter more: what has to fit is the text that ends with it. -/
theorem escXmlLoop_cons {c : Char} {s e : List Char} : escXmlLoop (c :: s) e =
    if (e ++ replacement c).length ≤ (if special c then 1022 else 1021) then
      escXmlLoop s (e ++ replacement c) else none := by
  have hlen := @List.length_append _ e (replacement c)
  rw [escXmlLoop]
  cases hc : special c with
  | true =>
    obtain ⟨-, -, hle⟩ := replacement_special hc
    simp only [if_true]
    split <;> split <;> first | rfl | omega
  | false =>
    rw [replacement_plain hc] at hlen ⊢
    simp only [Bool.false_eq_true, if_false]
    split <;> split <;> first | rfl | omega

theorem escXmlLoop_isSome_iff {s e : List Char} : (escXmlLoop s e).isSome ↔
    s = [] ∨ (e ++ s.flatMap replacement).length ≤ 1021 ∨
      (e ++ s.flatMap replacement).length = 1022 ∧ ∃ c, s.getLast? = some c ∧ special c = true := by
  induction s generalizing e with
  | nil => simp [escXmlLoop]
  | cons c s ih =>
    have htotal : (e ++ (c :: s).flatMap replacement).length =
        (e ++ replacement c ++ s.flatMap replacement).length := by
      rw [List.flatMap_cons, List.append_assoc]
    rw [htotal, escXmlLoop_cons, or_iff_right (List.cons_ne_nil c s)]
    match s with
    | [] =>
      rw [List.flatMap_nil, List.append_nil, List.getLast?_singleton]
      cases hc : special c with
      | true =>
        rw [if_pos rfl]
        split
        · refine iff_of_true (by simp [escXmlLoop]) ?_
          rcases Nat.lt_or_ge (e ++ replacement c).length 1022 with hlt | hge
          · exact Or.inl (Nat.le_of_lt_succ hlt)
          · exact Or.inr ⟨by omega, c, rfl, hc⟩
        · refine iff_of_false Bool.false_ne_true ?_
          rintro (h | ⟨h, -⟩) <;> omega
      | false =>
        rw [if_neg Bool.false_ne_true]
        split
        · exact iff_of_true (by simp [escXmlLoop]) (Or.inl ‹_›)
        · refine iff_of_false Bool.false_ne_true ?_
          rintro (h | ⟨-, d, hd, hspecial⟩)
          · omega
          · cases hd
            rw [hc] at hspecial
            cases hspecial
    | d :: s =>
      have hmore : 1 ≤ ((d :: s).flatMap replacement).length := by
        rw [List.flatMap_cons, List.length_append]
        exact Nat.le_add_right_of_le (replacement_pos d)
      rw [List.getLast?_cons_cons]
      have hlim : 1021 ≤ if special c = true then 1022 else 1021 := by split <;> omega
      generalize (if special c = true then 1022 else 1021) = lim at hlim ⊢
      by_cases hfits : (e ++ replacement c).length ≤ lim
      · rw [if_pos hfits, ih, or_iff_right (List.cons_ne_nil d s)]
      · rw [if_neg hfits]
        have hlen := @List.length_append _ (e ++ replacement c) ((d :: s).flatMap replacement)
        refine iff_of_false Bool.false_ne_true ?_
        rintro (h | ⟨h, -⟩) <;> omega

theorem escXml_isSome_iff {s : List Char} : (escXml (some s)).isSome ↔ Fits s := by
  unfold Fits
  rw [escXml]
  cases h : s.any fun c => special c || c = '\\' with
  | false => exact iff_of_true rfl (Or.inl rfl)
  | true =>
    have hne : s ≠ [] := by
      rintro rfl
      cases h
    rw [if_pos rfl, escXmlLoop_isSome_iff, or_iff_right hne, List.nil_append]
    simp

/-- Both kinds of places take an escaped text. -/
theorem escaped_clean (s : List Char) :
    AttrClean (s.flatMap replacement) ∧ TextClean (s.flatMap replacement) := by
  have hpiece : ∀ c, (special c = false ∧ replacement c = [c]) ∨ replacement c ∈ reference.lang := by
    intro c
    cases h : special c with
    | true => exact Or.inr (replacement_special h).1
    | false => exact Or.inl ⟨rfl, replacement_plain h⟩
  have hnot : ∀ c, special c = false → c ∉ ['<', '&', '"'] := by
    rintro c h hc
    simp only [List.mem_cons, List.not_mem_nil, or_false] at hc
    rcases hc with rfl | rfl | rfl <;> exact absurd h (by decide)
  refine ⟨?_, ?_, ?_⟩
  · refine mem_rep.2 ⟨s.map replacement, Nat.zero_le _, fun h hh => (by cases hh), ?_, rfl⟩
    intro u hu
    obtain ⟨c, -, rfl⟩ := List.mem_map.1 hu
    rcases hpiece c with ⟨hc, heq⟩ | href
    · exact mem_alt.2 (Or.inl ⟨c, decide_eq_true (hnot c hc), heq⟩)
    · exact mem_alt.2 (Or.inr href)
  · refine mem_rep.2 ⟨s.map replacement, Nat.zero_le _, fun h hh => (by cases hh), ?_, rfl⟩
    intro u hu
    obtain ⟨c, -, rfl⟩ := List.mem_map.1 hu
    rcases hpiece c with ⟨hc, heq⟩ | href
    · refine mem_alt.2 (Or.inl ⟨c, decide_eq_true fun hin => hnot c hc ?_, heq⟩)
      exact List.mem_append_left ['"'] hin
    · exact mem_alt.2 (Or.inr href)
  · -- there is no `>` at all
    intro hin
    obtain ⟨c, -, hc⟩ := List.mem_flatMap.1 (hin.subset (by simp : '>' ∈ [']', ']', '>']))
    cases h : special c with
    | true => rcases special_cases h with rfl | rfl | rfl | rfl | rfl <;> revert hc <;> decide
    | false =>
      rw [replacement_plain h, List.mem_singleton] at hc
      rw [← hc] at h
      exact absurd h (by decide)

theorem escXml_clean {s : Option (List Char)} {out : List Char} (h : escXml s = some out) :
    AttrClean out ∧ TextClean out := by
  have hall : ∃ t : List Char, out = t.flatMap replacement := by
    cases s with
    | none =>
      cases h
      exact ⟨[], rfl⟩
    | some s =>
      rw [escXml] at h
      split at h
      · exact ⟨s, escXmlLoop_eq h⟩
      · cases h
        rename_i hplain
        refine ⟨out, ?_⟩
        have hsame : ∀ c ∈ out, replacement c = [c] := fun c hc => by
          refine replacement_plain ?_
          by_contra hs
          exact hplain (List.any_eq_true.2 ⟨c, hc, by simp [eq_true_of_ne_false hs]⟩)
        rw [List.flatMap_def, List.map_congr_left hsame, ← List.flatMap_def, List.flatMap_singleton']
  obtain ⟨t, rfl⟩ := hall
  exact escaped_clean t

/-! ## Strings that are printed as they are -/

/-- The text may be absent. -/
def FitsIfAny (s : Option (List Char)) : Prop := ∀ t, s = some t → Fits t

def DOption.Clean (o : DOption) : Prop :=
  AttrClean o.name ∧ ∀ v, o.value = some v → if o.isEscaped then AttrClean v else Fits v

def OptionsClean (options : List DOption) : Prop := ∀ o ∈ options, o.Clean

def Address.Clean (a : Address) : Prop :=
  AttrClean (printed a.af) ∧ AttrClean (printed a.port) ∧ TextClean (printed a.addr)

structure ProxyInfo.Clean (pi : ProxyInfo) : Prop where
  onHosts : AttrClean (namesToStr pi.onHosts)
  inside : pi.inside.Clean
  outside : pi.outside.Clean
  options : OptionsClean pi.options
  plugins : OptionsClean pi.plugins

structure Volume.Clean (vol : Volume) : Prop where
  deviceOptions : OptionsClean vol.deviceOptions
  diskOptions : OptionsClean vol.diskOptions
  pdOptions : OptionsClean vol.pdOptions
  device : FitsIfAny vol.device
  disk : FitsIfAny vol.disk
  metaIndex : ∀ i, vol.metaIndex = some i → AttrClean i ∧ (i ≠ "internal".toList → FitsIfAny vol.metaDisk)

structure HostInfo.Clean (hi : HostInfo) : Prop where
  onHosts : hi.byAddress = false → AttrClean (namesToStr hi.onHosts)
  resOptions : OptionsClean hi.resOptions
  volumes : ∀ vol ∈ hi.volumes, vol.Clean
  address : hi.address.Clean

structure HnameAddress.Clean (ha : HnameAddress) : Prop where
  name : AttrClean ha.name
  address : (if ha.address.addr.isSome then ha.address else ha.hostAddress).Clean
  proxy : ∀ pi, ha.proxy = some pi → pi.Clean

/-- The paths that are printed. -/
def Connection.printedPaths (verbose : Bool) (conn : Connection) : List Path :=
  if conn.path.implicit && !verbose then [conn.path] else conn.path :: conn.paths

structure Connection.Clean (verbose : Bool) (conn : Connection) : Prop where
  name : FitsIfAny conn.name
  paths : ∀ path ∈ conn.printedPaths verbose, ∀ ha ∈ path.pairs, ha.Clean
  netOptions : OptionsClean conn.netOptions
  pdOptions : OptionsClean conn.pdOptions
  peerDevices : ∀ pd ∈ conn.peerDevices, (pd.implicit && !verbose) = false → OptionsClean pd.pdOptions

structure Resource.OptionsClean (res : Resource) : Prop where
  resOptions : DumpXml.OptionsClean res.resOptions
  netOptions : DumpXml.OptionsClean res.netOptions
  deviceOptions : DumpXml.OptionsClean res.deviceOptions
  diskOptions : DumpXml.OptionsClean res.diskOptions
  pdOptions : DumpXml.OptionsClean res.pdOptions
  startupOptions : DumpXml.OptionsClean res.startupOptions
  proxyOptions : DumpXml.OptionsClean res.proxyOptions
  proxyPlugins : DumpXml.OptionsClean res.proxyPlugins
  handlers : DumpXml.OptionsClean res.handlers

structure Resource.Clean (verbose : Bool) (res : Resource) : Prop where
  name : Fits res.name
  configFile : Fits res.configFile
  template : FitsIfAny res.template
  allHosts : ∀ hi ∈ res.allHosts, hi.Clean
  connections : ∀ conn ∈ res.connections, conn.Clean verbose
  options : res.OptionsClean

structure Config.Clean (c : Config) : Prop where
  configSave : AttrClean c.configSave
  common : ∀ common, c.common = some common → common.OptionsClean
  resources : ∀ res ∈ c.resources, res.Clean c.verbose

/-! ## What is printed is clean -/

theorem clean_start {name : String} {attrs : List (String × List Char)} :
    Emits Piece.Clean (put (.start name attrs)) ↔ ∀ a ∈ attrs, AttrClean a.2 := emits_put

theorem clean_empty {name : String} {attrs : List (String × List Char)} :
    Emits Piece.Clean (put (.empty name attrs)) ↔ ∀ a ∈ attrs, AttrClean a.2 := emits_put

theorem clean_text {s : List Char} : Emits Piece.Clean (put (.text s)) ↔ TextClean s := emits_put

theorem clean_stop (name : String) : Emits Piece.Clean (put (.stop name)) := emits_put.2 trivial

theorem number_clean (n : Nat) : AttrClean (number n) := by
  refine attrClean_of_plain fun c hc hin => ?_
  have hdigit := Nat.isDigit_of_mem_toDigits (by decide) (by decide) hc
  simp only [List.mem_cons, List.not_mem_nil, or_false] at hin
  rcases hin with rfl | rfl | rfl <;> exact absurd hdigit (by decide)

/-- A printer that escapes a text first: the escaped text does not matter further. -/
theorem clean_escXml {s : Option (List Char)} {f : List Char → Doc Piece} {C : Prop}
    (hf : ∀ out, AttrClean out → TextClean out → (Emits Piece.Clean (f out) ↔ C)) :
    Emits Piece.Clean ((escXml s).bind f) ↔ FitsIfAny s ∧ C := by
  have hfits : (escXml s).isSome ↔ FitsIfAny s := by
    cases s with
    | none => exact iff_of_true rfl fun t ht => by cases ht
    | some s =>
      rw [escXml_isSome_iff]
      exact ⟨fun h t ht => by cases ht; exact h, fun h => h s rfl⟩
  rw [emits_bind, ← hfits, Option.isSome_iff_exists]
  constructor
  · rintro ⟨v, hv, h⟩
    exact ⟨⟨v, hv⟩, (hf v (escXml_clean hv).1 (escXml_clean hv).2).1 h⟩
  · rintro ⟨⟨v, hv⟩, h⟩
    exact ⟨v, hv, (hf v (escXml_clean hv).1 (escXml_clean hv).2).2 h⟩

theorem forall_mem_one {p : String × List Char → Prop} {a : String × List Char} :
    (∀ x ∈ [a], p x) ↔ p a := List.forall_mem_singleton

theorem forall_mem_two {p : String × List Char → Prop} {a b : String × List Char} :
    (∀ x ∈ [a, b], p x) ↔ p a ∧ p b := by
  rw [List.forall_mem_cons, List.forall_mem_singleton]

theorem clean_dumpOptionXml {o : DOption} : Emits Piece.Clean (dumpOptionXml o) ↔ o.Clean := by
  unfold dumpOptionXml DOption.Clean
  cases o.value with
  | none => simp [clean_empty]
  | some value =>
    cases o.isEscaped with
    | true => simp [clean_empty]
    | false =>
      simp only [Bool.false_eq_true, if_false]
      rw [clean_escXml fun out hattr _ => ?_]
      · exact and_comm
      · rw [clean_empty, forall_mem_two, and_iff_left hattr]

theorem clean_dumpOptionsListXml {options : List DOption} :
    Emits Piece.Clean (dumpOptionsListXml options) ↔ OptionsClean options := by
  unfold dumpOptionsListXml OptionsClean
  rw [emits_map]
  exact forall₂_congr fun o _ => clean_dumpOptionXml

theorem clean_dumpOptionsXml {sectionName : String} {subsectionName : Option String}
    (hs : AttrClean sectionName.toList) (hsub : ∀ s, subsectionName = some s → AttrClean s.toList)
    (options : List DOption) (more : List (List DOption)) :
    Emits Piece.Clean (dumpOptionsXml sectionName subsectionName options more) ↔
      OptionsClean options ∧ ∀ l ∈ more, OptionsClean l := by
  have hmore : Emits Piece.Clean (cat (more.map dumpOptionsListXml)) ↔ ∀ l ∈ more, OptionsClean l := by
    rw [emits_map]
    exact forall₂_congr fun l _ => clean_dumpOptionsListXml
  have hstart : ∀ s : String, AttrClean s.toList →
      Emits Piece.Clean (put (.start "section" [("name", s.toList)])) := fun s h =>
    clean_start.2 fun a ha => by rw [List.mem_singleton.1 ha]; exact h
  unfold dumpOptionsXml
  split
  · rename_i hempty
    rw [Bool.and_eq_true, List.isEmpty_iff, List.all_eq_true] at hempty
    refine iff_of_true emits_nil ⟨?_, fun l hl => ?_⟩
    · rw [hempty.1]
      exact fun o ho => by cases ho
    · rw [List.isEmpty_iff.1 (hempty.2 l hl)]
      exact fun o ho => by cases ho
  · split
    · rename_i subsection heq
      have hsubclean : AttrClean subsection.toList := by
        split at heq
        · exact hsub subsection heq
        · cases heq
      simp only [emits_cons, clean_dumpOptionsListXml, hmore, hstart _ hs, hstart _ hsubclean,
        clean_stop, true_and, and_true, cat_nil, emits_nil]
    · simp only [emits_cons, clean_dumpOptionsListXml, hmore, hstart _ hs, clean_stop, true_and,
        and_true, cat_nil, emits_nil]

theorem clean_dumpOptionsXml_none {sectionName : String} (hs : AttrClean sectionName.toList)
    (options : List DOption) : Emits Piece.Clean (dumpOptionsXml sectionName none options []) ↔
      OptionsClean options := by
  rw [clean_dumpOptionsXml hs (fun s h => by cases h)]
  exact and_iff_left fun l hl => by cases hl

theorem clean_fakeStartupOptions (res : Resource) :
    OptionsClean (fakeStartupOptions res) ↔ OptionsClean res.startupOptions := by
  unfold fakeStartupOptions
  split
  · have hfake : DOption.Clean ⟨"stacked-timeouts".toList, none, false⟩ :=
      ⟨by decide, fun v hv => by cases hv⟩
    unfold OptionsClean
    rw [List.forall_mem_append, List.forall_mem_singleton, and_iff_left hfake]
  · rfl

theorem clean_dumpResourceOptionsXml {res : Resource} :
    Emits Piece.Clean (dumpResourceOptionsXml res) ↔ res.OptionsClean := by
  unfold dumpResourceOptionsXml
  simp only [emits_cons, cat_nil, emits_nil, and_true]
  rw [clean_dumpOptionsXml_none (by decide), clean_dumpOptionsXml_none (by decide),
    clean_dumpOptionsXml_none (by decide), clean_dumpOptionsXml_none (by decide),
    clean_dumpOptionsXml (by decide) (fun s h => by cases h),
    clean_dumpOptionsXml (by decide) (fun s h => by cases h; decide), clean_fakeStartupOptions]
  simp only [List.forall_mem_cons, List.not_mem_nil, IsEmpty.forall_iff, implies_true, and_true]
  constructor
  · rintro ⟨h1, h2, ⟨h3, h4, h5⟩, h6, ⟨h7, h8⟩, h9⟩
    exact ⟨h1, h2, h3, h4, h5, h6, h7, h8, h9⟩
  · rintro ⟨h1, h2, h3, h4, h5, h6, h7, h8, h9⟩
    exact ⟨h1, h2, ⟨h3, h4, h5⟩, h6, ⟨h7, h8⟩, h9⟩

theorem clean_dumpAddressXml {element : String} {a : Address} :
    Emits Piece.Clean (dumpAddressXml element a) ↔ a.Clean := by
  unfold dumpAddressXml Address.Clean
  simp only [emits_cons, clean_start, clean_text, clean_stop, cat_nil, emits_nil, and_true,
    forall_mem_two, and_assoc]

theorem clean_dumpProxyInfoXml {pi : ProxyInfo} :
    Emits Piece.Clean (dumpProxyInfoXml pi) ↔ pi.Clean := by
  unfold dumpProxyInfoXml
  simp only [emits_cons, clean_start, clean_stop, cat_nil, emits_nil, and_true,
    clean_dumpAddressXml, List.forall_mem_singleton]
  rw [clean_dumpOptionsXml (by decide) (fun s h => by cases h), List.forall_mem_singleton]
  constructor
  · rintro ⟨h1, h2, h3, h4, h5⟩
    exact ⟨h1, h2, h3, h4, h5⟩
  · rintro ⟨h1, h2, h3, h4, h5⟩
    exact ⟨h1, h2, h3, h4, h5⟩

theorem clean_dumpTextXml {element : String} {attrs : List (String × List Char)}
    {str : Option (List Char)} : Emits Piece.Clean (dumpTextXml element attrs str) ↔
      FitsIfAny str ∧ ∀ a ∈ attrs, AttrClean a.2 := by
  unfold dumpTextXml
  refine clean_escXml fun out _ htext => ?_
  simp only [emits_cons, clean_start, clean_text, clean_stop, cat_nil, emits_nil, and_true]
  exact and_iff_left htext

theorem clean_metaDisk {metaIndex : List Char} {metaDisk : Option (List Char)} :
    Emits Piece.Clean (if metaIndex = "flexible".toList then dumpTextXml "meta-disk" [] metaDisk
      else if metaIndex = "internal".toList then
        cat [put (.start "meta-disk" []), put (.text "internal".toList), put (.stop "meta-disk")]
      else dumpTextXml "meta-disk" [("index", metaIndex)] metaDisk) ↔
    AttrClean metaIndex ∧ (metaIndex ≠ "internal".toList → FitsIfAny metaDisk) := by
  have hnone : ∀ a ∈ ([] : List (String × List Char)), AttrClean a.2 := fun a ha => by cases ha
  by_cases hflex : metaIndex = "flexible".toList
  · rw [if_pos hflex, clean_dumpTextXml, and_iff_left hnone, hflex]
    exact ⟨fun h => ⟨by decide, fun _ => h⟩, fun h => h.2 (by decide)⟩
  · rw [if_neg hflex]
    by_cases hint : metaIndex = "internal".toList
    · rw [if_pos hint, hint]
      refine iff_of_true ?_ ⟨by decide, fun h => absurd rfl h⟩
      simp only [emits_cons, clean_start, clean_text, clean_stop, cat_nil, emits_nil, and_true]
      exact ⟨hnone, (escaped_clean "internal".toList).2⟩
    · rw [if_neg hint, clean_dumpTextXml, forall_mem_one, and_comm]
      exact and_congr_right fun _ => ⟨fun h _ => h, fun h => h hint⟩

theorem clean_dumpVolumeXml {vol : Volume} :
    Emits Piece.Clean (dumpVolumeXml vol) ↔ vol.Clean := by
  have hmeta : Emits Piece.Clean (match vol.metaIndex with
      | none => some []
      | some metaIndex =>
        if metaIndex = "flexible".toList then dumpTextXml "meta-disk" [] vol.metaDisk
        else if metaIndex = "internal".toList then
          cat [put (.start "meta-disk" []), put (.text "internal".toList), put (.stop "meta-disk")]
        else dumpTextXml "meta-disk" [("index", metaIndex)] vol.metaDisk) ↔
      ∀ i, vol.metaIndex = some i →
        AttrClean i ∧ (i ≠ "internal".toList → FitsIfAny vol.metaDisk) := by
    cases vol.metaIndex with
    | none => exact iff_of_true emits_nil fun i hi => by cases hi
    | some i => exact clean_metaDisk.trans ⟨fun h j hj => by cases hj; exact h, fun h => h i rfl⟩
  unfold dumpVolumeXml
  simp only [emits_cons, clean_start, clean_stop, cat_nil, emits_nil, and_true, forall_mem_one,
    number_clean, true_and, clean_dumpTextXml]
  rw [clean_dumpOptionsXml (by decide) (fun s h => by cases h), hmeta]
  simp only [List.forall_mem_cons, List.not_mem_nil, IsEmpty.forall_iff, implies_true, and_true]
  constructor
  · rintro ⟨⟨h1, h2, h3⟩, h4, h5, h6⟩
    exact ⟨h1, h2, h3, h4, h5, h6⟩
  · rintro ⟨h1, h2, h3, h4, h5, h6⟩
    exact ⟨⟨h1, h2, h3⟩, h4, h5, h6⟩

theorem clean_dumpHostInfoXml {hi : HostInfo} :
    Emits Piece.Clean (dumpHostInfoXml hi) ↔ hi.Clean := by
  have hstart : Emits Piece.Clean (if hi.byAddress then put (.start "host" [("floating", ['1'])])
      else put (.start "host" [("name", namesToStr hi.onHosts)])) ↔
      (hi.byAddress = false → AttrClean (namesToStr hi.onHosts)) := by
    cases hi.byAddress with
    | true =>
      rw [if_pos rfl, clean_start, forall_mem_one]
      exact iff_of_true (by decide) fun h => absurd h (by decide)
    | false =>
      rw [if_neg Bool.false_ne_true, clean_start, forall_mem_one]
      exact ⟨fun h _ => h, fun h => h rfl⟩
  unfold dumpHostInfoXml
  simp only [emits_cons, emits_map, clean_stop, cat_nil, emits_nil, and_true, clean_dumpAddressXml,
    clean_dumpVolumeXml]
  rw [hstart, clean_dumpOptionsXml_none (by decide)]
  constructor
  · rintro ⟨h1, h2, h3, h4⟩
    exact ⟨h1, h2, h3, h4⟩
  · rintro ⟨h1, h2, h3, h4⟩
    exact ⟨h1, h2, h3, h4⟩

theorem clean_dumpHnameAddressXml {ha : HnameAddress} :
    Emits Piece.Clean (dumpHnameAddressXml ha) ↔ ha.Clean := by
  have hproxy : Emits Piece.Clean (match ha.proxy with
      | some proxy => dumpProxyInfoXml proxy
      | none => some []) ↔ ∀ pi, ha.proxy = some pi → pi.Clean := by
    cases ha.proxy with
    | none => exact iff_of_true emits_nil fun pi hpi => by cases hpi
    | some pi =>
      exact clean_dumpProxyInfoXml.trans ⟨fun h p hp => by cases hp; exact h, fun h => h pi rfl⟩
  unfold dumpHnameAddressXml
  simp only [emits_cons, clean_start, clean_stop, cat_nil, emits_nil, and_true, forall_mem_one,
    clean_dumpAddressXml]
  rw [hproxy]
  constructor
  · rintro ⟨h1, h2, h3⟩
    exact ⟨h1, h2, h3⟩
  · rintro ⟨h1, h2, h3⟩
    exact ⟨h1, h2, h3⟩

theorem clean_dumpHnameAddressPairsXml {pairs : List HnameAddress} :
    Emits Piece.Clean (dumpHnameAddressPairsXml pairs) ↔ ∀ ha ∈ pairs, ha.Clean := by
  unfold dumpHnameAddressPairsXml
  rw [emits_map]
  exact forall₂_congr fun ha _ => clean_dumpHnameAddressXml

theorem clean_dumpPathXml {path : Path} :
    Emits Piece.Clean (dumpPathXml path) ↔ ∀ ha ∈ path.pairs, ha.Clean := by
  unfold dumpPathXml
  simp only [emits_cons, clean_start, clean_stop, cat_nil, emits_nil, and_true,
    clean_dumpHnameAddressPairsXml]
  exact and_iff_right fun a ha => by cases ha

theorem clean_dumpPeerDeviceXml {verbose : Bool} {pd : PeerDevice} :
    Emits Piece.Clean (dumpPeerDeviceXml verbose pd) ↔
      ((pd.implicit && !verbose) = false → OptionsClean pd.pdOptions) := by
  unfold dumpPeerDeviceXml
  cases pd.implicit && !verbose with
  | true => exact iff_of_true emits_nil fun h => absurd h (by decide)
  | false =>
    rw [if_neg Bool.false_ne_true]
    simp only [emits_cons, clean_start, clean_stop, cat_nil, emits_nil, and_true, forall_mem_one,
      number_clean, true_and]
    rw [clean_dumpOptionsXml_none (by decide)]
    exact ⟨fun h _ => h, fun h => h trivial⟩

theorem clean_dumpConnectionXml {verbose : Bool} {conn : Connection} :
    Emits Piece.Clean (dumpConnectionXml verbose conn) ↔ conn.Clean verbose := by
  have hname : Emits Piece.Clean (match conn.name with
      | some name => (escXml name).bind fun s => put (.start "connection" [("name", s)])
      | none => put (.start "connection" [])) ↔ FitsIfAny conn.name := by
    cases conn.name with
    | none =>
      exact iff_of_true (clean_start.2 fun a ha => by cases ha) fun t ht => by cases ht
    | some name =>
      show Emits Piece.Clean ((escXml (some name)).bind _) ↔ _
      rw [clean_escXml fun out hattr _ => ?_]
      · exact and_iff_left trivial
      · rw [clean_start, forall_mem_one]
        exact iff_of_true hattr trivial
  have hpaths : Emits Piece.Clean (if conn.path.implicit && !verbose then
        dumpHnameAddressPairsXml conn.path.pairs
      else cat ((conn.path :: conn.paths).map dumpPathXml)) ↔
      ∀ path ∈ conn.printedPaths verbose, ∀ ha ∈ path.pairs, ha.Clean := by
    unfold Connection.printedPaths
    split
    · rw [clean_dumpHnameAddressPairsXml, List.forall_mem_singleton]
    · rw [emits_map]
      exact forall₂_congr fun path _ => clean_dumpPathXml
  unfold dumpConnectionXml
  simp only [emits_cons, emits_map, clean_stop, cat_nil, emits_nil, and_true,
    clean_dumpPeerDeviceXml]
  rw [hname, hpaths, clean_dumpOptionsXml_none (by decide), clean_dumpOptionsXml_none (by decide)]
  constructor
  · rintro ⟨h1, h2, h3, h4, h5⟩
    exact ⟨h1, h2, h3, h4, h5⟩
  · rintro ⟨h1, h2, h3, h4, h5⟩
    exact ⟨h1, h2, h3, h4, h5⟩

/-- Both texts of `escXml2` are clean, whichever is printed. -/
theorem escXml2_eq_some_iff {leftFirst : Bool} {a b : List Char} :
    (∃ v, escXml2 leftFirst a b = some v) ↔ Fits a ∧ Fits b := by
  rw [← escXml_isSome_iff, ← escXml_isSome_iff]
  unfold escXml2
  cases hx : escXml (some a) with
  | none => exact iff_of_false (fun ⟨v, hv⟩ => by cases hv) fun h => Bool.false_ne_true h.1
  | some x =>
    cases hy : escXml (some b) with
    | none => exact iff_of_false (fun ⟨v, hv⟩ => by cases hv) fun h => Bool.false_ne_true h.2
    | some y =>
      refine iff_of_true ?_ ⟨rfl, rfl⟩
      dsimp only [Option.bind_eq_bind, Option.bind_some]
      split
      · split
        · exact ⟨_, rfl⟩
        · exact ⟨_, rfl⟩
      · exact ⟨_, rfl⟩

theorem escXml2_clean {leftFirst : Bool} {a b : List Char} {v : List Char × List Char}
    (h : escXml2 leftFirst a b = some v) : AttrClean v.1 ∧ AttrClean v.2 := by
  unfold escXml2 at h
  obtain ⟨x, hx, h⟩ := Option.bind_eq_some_iff.1 h
  obtain ⟨y, hy, h⟩ := Option.bind_eq_some_iff.1 h
  have hxc := (escXml_clean hx).1
  have hyc := (escXml_clean hy).1
  split at h
  · split at h
    · cases h
      exact ⟨hyc, hyc⟩
    · cases h
      exact ⟨hxc, hxc⟩
  · cases h
    exact ⟨hxc, hyc⟩

theorem clean_admDumpXml {verbose leftFirst : Bool} {res : Resource} :
    Emits Piece.Clean (admDumpXml verbose leftFirst res) ↔ res.Clean verbose := by
  have hstart : Emits Piece.Clean ((escXml2 leftFirst res.name res.configFile).bind fun s =>
      put (.start "resource"
        [("name", s.1), ("conf-file-line", s.2 ++ ':' :: number res.startLine)])) ↔
      Fits res.name ∧ Fits res.configFile := by
    rw [emits_bind, ← @escXml2_eq_some_iff leftFirst]
    refine exists_congr fun v => and_iff_left_of_imp fun hv => ?_
    obtain ⟨h1, h2⟩ := escXml2_clean hv
    rw [clean_start, forall_mem_two]
    have hline : AttrClean ([':'] ++ number res.startLine) :=
      attrClean_append (by decide) (number_clean _)
    exact ⟨h1, attrClean_append h2 hline⟩
  have htemplate : Emits Piece.Clean (match res.template with
      | some file => (escXml file).bind fun s => put (.start "template" [("file", s)])
      | none => some []) ↔ FitsIfAny res.template := by
    cases res.template with
    | none => exact iff_of_true emits_nil fun t ht => by cases ht
    | some file =>
      show Emits Piece.Clean ((escXml (some file)).bind _) ↔ _
      rw [clean_escXml fun out hattr _ => ?_]
      · exact and_iff_left trivial
      · rw [clean_start, forall_mem_one]
        exact iff_of_true hattr trivial
  unfold admDumpXml
  simp only [emits_cons, emits_map, clean_stop, cat_nil, emits_nil, and_true,
    clean_dumpHostInfoXml, clean_dumpConnectionXml, clean_dumpResourceOptionsXml]
  rw [hstart, htemplate]
  constructor
  · rintro ⟨⟨h1, h2⟩, h3, h4, h5, h6⟩
    exact ⟨h1, h2, h3, h4, h5, h6⟩
  · rintro ⟨h1, h2, h3, h4, h5, h6⟩
    exact ⟨⟨h1, h2⟩, h3, h4, h5, h6⟩

theorem clean_dumpGlobalInfoXml (g : GlobalOptions) : Emits Piece.Clean (dumpGlobalInfoXml g) := by
  have hopt : ∀ {p : Prop} [Decidable p] {d : Doc Piece}, Emits Piece.Clean d →
      Emits Piece.Clean (if p then d else some []) := by
    intro p _ d hd
    split
    · exact hd
    · exact emits_nil
  have hnone : ∀ a ∈ ([] : List (String × List Char)), AttrClean a.2 := fun a ha => by cases ha
  unfold dumpGlobalInfoXml
  split
  · exact emits_nil
  · simp only [emits_cons, cat_nil, emits_nil, and_true]
    refine ⟨clean_start.2 hnone, hopt (clean_empty.2 hnone), hopt (clean_empty.2 ?_),
      hopt (clean_empty.2 ?_), clean_stop _⟩
    · exact forall_mem_one.2 (number_clean _)
    · exact forall_mem_one.2 (number_clean _)

/-- All of the document is printed and clean. -/
theorem clean_dumpXml {leftFirst : Bool} {c : Config} :
    Emits Piece.Clean (dumpXml leftFirst c) ↔ c.Clean := by
  have hcommon : Emits Piece.Clean (dumpCommonInfoXml c.common) ↔
      ∀ common, c.common = some common → common.OptionsClean := by
    cases c.common with
    | none => exact iff_of_true emits_nil fun common h => by cases h
    | some common =>
      unfold dumpCommonInfoXml
      simp only [emits_cons, clean_start, clean_stop, cat_nil, emits_nil, and_true,
        clean_dumpResourceOptionsXml]
      rw [and_iff_right fun a ha => by cases ha]
      exact ⟨fun h r hr => by cases hr; exact h, fun h => h common rfl⟩
  unfold dumpXml printDumpXmlHeader
  simp only [emits_cons, emits_map, clean_start, clean_stop, cat_nil, emits_nil, and_true,
    forall_mem_one, clean_dumpGlobalInfoXml, true_and, clean_admDumpXml]
  rw [hcommon]
  constructor
  · rintro ⟨⟨h1, h2⟩, h3⟩
    exact ⟨h1, h2, h3⟩
  · rintro ⟨h1, h2, h3⟩
    exact ⟨⟨h1, h2⟩, h3⟩

/-! ## What is printed is nested -/

theorem nests_dumpOptionXml (o : DOption) : Nests (dumpOptionXml o) := by
  unfold dumpOptionXml
  split
  · exact fun st => Moves.bind fun v => Nests.empty _ _ st
  · exact Nests.empty _ _

theorem nests_dumpOptionsListXml (options : List DOption) : Nests (dumpOptionsListXml options) :=
  Nests.map fun o _ => nests_dumpOptionXml o

theorem nests_dumpOptionsXml (sectionName : String) (subsectionName : Option String)
    (options : List DOption) (more : List (List DOption)) :
    Nests (dumpOptionsXml sectionName subsectionName options more) := by
  have hmore : Nests (cat (more.map dumpOptionsListXml)) := Nests.map fun l _ => nests_dumpOptionsListXml l
  unfold dumpOptionsXml
  split
  · exact Nests.nil
  · intro st
    split
    · exact (moves_start _ _ st).cons ((nests_dumpOptionsListXml options _).cons
        ((moves_start _ _ _).cons ((hmore _).cons
          ((moves_stop _ _).cons ((moves_stop _ _).cons (Moves.nil st))))))
    · exact (moves_start _ _ st).cons ((nests_dumpOptionsListXml options _).cons
        ((hmore _).cons ((moves_stop _ _).cons (Moves.nil st))))

theorem nests_dumpGlobalInfoXml (g : GlobalOptions) : Nests (dumpGlobalInfoXml g) := by
  have hopt : ∀ {p : Prop} [Decidable p] (name : String) (attrs : List (String × List Char)),
      Nests (if p then put (.empty name attrs) else some []) := by
    intro p _ name attrs
    split
    · exact Nests.empty _ _
    · exact Nests.nil
  unfold dumpGlobalInfoXml
  split
  · exact Nests.nil
  · exact fun st => (moves_start _ _ st).cons ((hopt _ _ _).cons ((hopt _ _ _).cons ((hopt _ _ _).cons
      ((moves_stop _ _).cons (Moves.nil st)))))

theorem nests_dumpResourceOptionsXml (res : Resource) : Nests (dumpResourceOptionsXml res) := by
  refine Nests.cat fun d hd => ?_
  simp only [List.mem_cons, List.not_mem_nil, or_false] at hd
  rcases hd with rfl | rfl | rfl | rfl | rfl | rfl <;> exact nests_dumpOptionsXml _ _ _ _

theorem nests_dumpCommonInfoXml (common : Option Resource) : Nests (dumpCommonInfoXml common) := by
  unfold dumpCommonInfoXml
  split
  · exact Nests.nil
  · exact fun st => (moves_start _ _ st).cons ((nests_dumpResourceOptionsXml _ _).cons
      ((moves_stop _ _).cons (Moves.nil st)))

theorem nests_dumpAddressXml (element : String) (a : Address) : Nests (dumpAddressXml element a) :=
  fun st => (moves_start _ _ st).cons ((Nests.text _ _).cons ((moves_stop _ _).cons (Moves.nil st)))

theorem nests_dumpProxyInfoXml (pi : ProxyInfo) : Nests (dumpProxyInfoXml pi) := fun st =>
  (moves_start _ _ st).cons ((nests_dumpAddressXml _ _ _).cons ((nests_dumpAddressXml _ _ _).cons
    ((nests_dumpOptionsXml _ _ _ _ _).cons ((moves_stop _ _).cons (Moves.nil st)))))

theorem nests_dumpTextXml (element : String) (attrs : List (String × List Char))
    (str : Option (List Char)) : Nests (dumpTextXml element attrs str) := fun st =>
  Moves.bind fun s =>
    (moves_start _ _ st).cons ((Nests.text s _).cons ((moves_stop _ _).cons (Moves.nil st)))

theorem nests_dumpVolumeXml (vol : Volume) : Nests (dumpVolumeXml vol) := by
  intro st
  refine (moves_start _ _ st).cons ((nests_dumpOptionsXml _ _ _ _ _).cons
    ((nests_dumpTextXml _ _ _ _).cons ((nests_dumpTextXml _ _ _ _).cons (Moves.cons ?_
      ((moves_stop _ _).cons (Moves.nil st))))))
  split
  · exact Nests.nil _
  · split
    · exact nests_dumpTextXml _ _ _ _
    · split
      · exact (moves_start _ _ _).cons ((Nests.text _ _).cons ((moves_stop _ _).cons (Moves.nil _)))
      · exact nests_dumpTextXml _ _ _ _

theorem nests_dumpHostInfoXml (hi : HostInfo) : Nests (dumpHostInfoXml hi) := by
  intro st
  have hstart : Moves step (if hi.byAddress then put (.start "host" [("floating", ['1'])])
      else put (.start "host" [("name", namesToStr hi.onHosts)])) st ("host" :: st) := by
    split
    · exact moves_start _ _ st
    · exact moves_start _ _ st
  exact hstart.cons ((nests_dumpOptionsXml _ _ _ _ _).cons
    ((Nests.map (fun vol _ => nests_dumpVolumeXml vol) _).cons ((nests_dumpAddressXml _ _ _).cons
      ((moves_stop _ _).cons (Moves.nil st)))))

theorem nests_dumpHnameAddressPairsXml (pairs : List HnameAddress) :
    Nests (dumpHnameAddressPairsXml pairs) := by
  refine Nests.map fun ha _ st => ?_
  refine (moves_start _ _ st).cons ((nests_dumpAddressXml _ _ _).cons (Moves.cons ?_
    ((moves_stop _ _).cons (Moves.nil st))))
  split
  · exact nests_dumpProxyInfoXml _ _
  · exact Nests.nil _

theorem nests_dumpPathXml (path : Path) : Nests (dumpPathXml path) := fun st =>
  (moves_start _ _ st).cons ((nests_dumpHnameAddressPairsXml _ _).cons
    ((moves_stop _ _).cons (Moves.nil st)))

theorem nests_dumpPeerDeviceXml (verbose : Bool) (pd : PeerDevice) :
    Nests (dumpPeerDeviceXml verbose pd) := by
  unfold dumpPeerDeviceXml
  split
  · exact Nests.nil
  · exact fun st => (moves_start _ _ st).cons ((nests_dumpOptionsXml _ _ _ _ _).cons
      ((moves_stop _ _).cons (Moves.nil st)))

theorem nests_dumpConnectionXml (verbose : Bool) (conn : Connection) :
    Nests (dumpConnectionXml verbose conn) := by
  intro st
  have hstart : Moves step (match conn.name with
      | some name => (escXml name).bind fun s => put (.start "connection" [("name", s)])
      | none => put (.start "connection" [])) st ("connection" :: st) := by
    split
    · exact Moves.bind fun s => moves_start _ _ st
    · exact moves_start _ _ st
  have hpaths : Nests (if conn.path.implicit && !verbose then dumpHnameAddressPairsXml conn.path.pairs
      else cat ((conn.path :: conn.paths).map dumpPathXml)) := by
    split
    · exact nests_dumpHnameAddressPairsXml _
    · exact Nests.map fun path _ => nests_dumpPathXml path
  exact hstart.cons ((hpaths _).cons ((nests_dumpOptionsXml _ _ _ _ _).cons
    ((nests_dumpOptionsXml _ _ _ _ _).cons
      ((Nests.map (fun pd _ => nests_dumpPeerDeviceXml verbose pd) _).cons
        ((moves_stop _ _).cons (Moves.nil st))))))

/-- A resource without a template. -/
theorem nests_admDumpXml (verbose leftFirst : Bool) {res : Resource} (h : res.template = none) :
    Nests (admDumpXml verbose leftFirst res) := by
  intro st
  unfold admDumpXml
  rw [h]
  exact (Moves.bind fun s => moves_start _ _ st).cons ((Nests.nil _).cons
    ((Nests.map (fun hi _ => nests_dumpHostInfoXml hi) _).cons
      ((Nests.map (fun conn _ => nests_dumpConnectionXml verbose conn) _).cons
        ((nests_dumpResourceOptionsXml res _).cons ((moves_stop _ _).cons (Moves.nil st))))))

/-- The `template` element is not closed, and the end tag of the resource does not fit. -/
theorem stuck_admDumpXml (verbose leftFirst : Bool) {res : Resource} (h : res.template ≠ none)
    (st : List String) : Stuck step (admDumpXml verbose leftFirst res) st := by
  obtain ⟨file, hfile⟩ := Option.ne_none_iff_exists'.1 h
  unfold admDumpXml
  rw [hfile]
  refine (Moves.bind fun s => moves_start _ _ st).stuck ((Moves.bind fun s => moves_start _ _ _).stuck
    ((Nests.map (fun hi _ => nests_dumpHostInfoXml hi) _).stuck
      ((Nests.map (fun conn _ => nests_dumpConnectionXml verbose conn) _).stuck
        ((nests_dumpResourceOptionsXml res _).stuck ?_))))
  exact (stuck_stop (by decide) _).here []

theorem stuck_resources (verbose leftFirst : Bool) {resources : List Resource}
    (h : ∃ res ∈ resources, res.template ≠ none) (st : List String) :
    Stuck step (cat (resources.map (admDumpXml verbose leftFirst))) st := by
  induction resources with
  | nil =>
    obtain ⟨res, hres, -⟩ := h
    cases hres
  | cons res resources ih =>
    by_cases hres : res.template = none
    · obtain ⟨r, hr, ht⟩ := h
      refine (nests_admDumpXml verbose leftFirst hres st).stuck (ih ⟨r, ?_, ht⟩)
      rcases List.mem_cons.1 hr with rfl | hr
      · exact absurd hres ht
      · exact hr
    · exact (stuck_admDumpXml verbose leftFirst hres st).here _

theorem printDumpXmlHeader_moves (c : Config) : Moves step (printDumpXmlHeader c) [] ["config"] :=
  (moves_start _ _ []).cons ((nests_dumpGlobalInfoXml _ _).cons
    ((nests_dumpCommonInfoXml _ _).cons (Moves.nil _)))

/-- **The document is well-formed if no resource has a template and the strings that are printed as
    they are hold no markup.** -/
theorem dumpXml_wellFormed_iff (leftFirst : Bool) (c : Config) :
    (∃ ps, dumpXml leftFirst c = some ps ∧ WellFormed ps) ↔
      (∀ res ∈ c.resources, res.template = none) ∧ c.Clean := by
  constructor
  · rintro ⟨ps, hps, hnested, hclean⟩
    refine ⟨?_, clean_dumpXml.1 ⟨ps, hps, hclean⟩⟩
    by_contra htemplate
    have hsome : ∃ res ∈ c.resources, res.template ≠ none := by
      obtain ⟨res, hres⟩ := not_forall.1 htemplate
      exact ⟨res, Classical.not_imp.1 hres⟩
    have hstuck : Stuck step (dumpXml leftFirst c) [] :=
      (printDumpXmlHeader_moves c).stuck ((stuck_resources c.verbose leftFirst hsome _).here _)
    rw [hstuck ps hps] at hnested
    cases hnested
  · rintro ⟨htemplate, hclean⟩
    obtain ⟨ps, hps, hclean⟩ := (@clean_dumpXml leftFirst c).2 hclean
    have hmoves : Moves step (dumpXml leftFirst c) [] [] :=
      (printDumpXmlHeader_moves c).cons
        ((Nests.map (fun res hres => nests_admDumpXml c.verbose leftFirst (htemplate res hres)) _).cons
          ((moves_stop _ _).cons (Moves.nil [])))
    exact ⟨ps, hps, hmoves ps hps, hclean⟩

/-- A resource that was made from a template: its `template` element stays open. -/
theorem dumpXml_template : ¬∃ ps, dumpXml true
    { configSave := "/etc/drbd.conf".toList
      resources := [{ name := "r0".toList, configFile := "/etc/drbd.conf".toList
                      template := some "/etc/r0.tmpl".toList }] } = some ps ∧ WellFormed ps := by
  rintro ⟨ps, hps, hnested, -⟩
  cases hps
  exact absurd hnested (by decide)

end DrbdUtils.Adm.DumpXml
