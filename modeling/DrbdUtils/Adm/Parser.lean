import DrbdUtils.Adm.Escape
import DrbdUtils.Adm.ValidateKmod
import DrbdUtils.Lib.CString
import DrbdUtils.Lib.Prog
import DrbdUtils.Setup.ConfigFlags

/-!
# The parser of drbd.conf

`drbdadm_parser.c` over the tokens of the scanner, from `my_parse()` down to the option sections.  A
function of the parser is a program that asks for tokens and reports errors; `handle` says what these
operations do to the state of the parser.

A loop of the source takes at most `fuel` turns here; `hang` is what is left when they are used up.
-/

set_option autoImplicit false

namespace DrbdUtils.Adm.Parser

open Scanner Numerals CString
open Setup.ConfigFlags (FieldDef CheckCodes check mStrtoll)

abbrev Text := List Char

/-! ## Data -/

/-- A token with the letters it was read from. -/
structure Lexeme where
  token : Token
  yytext : Text
  deriving DecidableEq

/-- `struct field_def`, as far as the parser uses it. -/
structure Field where
  name : Text
  fieldDef : FieldDef
  checkedInPostparse : Bool := false

/-- A `struct context_def`: the fields that a section knows. -/
abbrev ContextDef := List Field

/-- `struct d_option`. -/
structure DOption where
  name : Text
  value : Option Text
  unknown : Bool := false
  deriving DecidableEq, Repr

/-- `struct d_address`. -/
structure DAddress where
  af : Text
  addr : Text
  port : Text
  isLocalAddress : Bool
  deriving DecidableEq, Repr

/-- `struct d_proxy_info`. -/
structure ProxyInfo where
  onHosts : List Text
  inside : Option DAddress := none
  outside : Option DAddress := none
  options : List DOption := []
  plugins : List DOption := []
  deriving DecidableEq, Repr

/-- `struct d_volume`. -/
structure Volume where
  vnr : Int
  device : Option Text := none
  deviceMinor : Int := -1
  disk : Option Text := none
  metaDisk : Option Text := none
  metaIndex : Option Text := none
  implicit : Bool := false
  tiebreaker : Bool := true
  deviceOptions : List DOption := []
  diskOptions : List DOption := []
  pdOptions : List DOption := []
  deriving DecidableEq, Repr

/-- `struct d_host_info`. -/
structure HostInfo where
  onHosts : List Text
  volumes : List Volume := []
  address : Option DAddress := none
  proxyCompatOnly : Option ProxyInfo := none
  lowerName : Option Text := none
  byAddress : Bool := false
  requireMinor : Bool := false
  resOptions : List DOption := []
  nodeId : Option Text := none
  deriving DecidableEq, Repr

/-- `struct hname_address`. -/
structure HnameAddress where
  name : Text
  address : Option DAddress := none
  port : Option Text := none
  outsideAddress : Option DAddress := none
  proxy : Option ProxyInfo := none
  byAddress : Bool := false
  deriving DecidableEq, Repr

/-- `struct path`. -/
structure Path where
  hnameAddressPairs : List HnameAddress := []
  implicit : Bool := false
  deriving DecidableEq, Repr

/-- `struct peer_device`. -/
structure PeerDevice where
  vnr : Int
  pdOptions : List DOption
  deriving DecidableEq, Repr

/-- `struct connection`; of `peer` there is only the node id. -/
structure Connection where
  paths : List Path := []
  peerDevices : List PeerDevice := []
  peerNodeId : Option Text := none
  netOptions : List DOption := []
  pdOptions : List DOption := []
  cstate : Option Text := none
  deriving DecidableEq, Repr

/-- `struct mesh`. -/
structure Mesh where
  hosts : List Text := []
  netOptions : List DOption := []
  deriving DecidableEq, Repr

/-- `struct d_resource` without its template. -/
structure ResourceBody where
  name : Text
  volumes : List Volume := []
  connections : List Connection := []
  allHosts : List HostInfo := []
  meshes : List Mesh := []
  netOptions : List DOption := []
  deviceOptions : List DOption := []
  diskOptions : List DOption := []
  pdOptions : List DOption := []
  resOptions : List DOption := []
  startupOptions : List DOption := []
  handlers : List DOption := []
  proxyOptions : List DOption := []
  proxyPlugins : List DOption := []
  stackedTimeouts : Bool := false
  stackedOnOne : Bool := false
  deriving DecidableEq, Repr

/-- `struct d_resource`.  Nothing reads the template of a template. -/
structure Resource extends ResourceBody where
  template : Option ResourceBody := none
  deriving DecidableEq, Repr

/-- `common` and `config`. -/
structure Config where
  common : Option Resource := none
  config : List Resource := []
  deriving DecidableEq, Repr

/-- `enum range_checks`, as far as it is used. -/
inductive RangeChecks where
  | minorCount
  | dialogRefresh
  | port
  | nodeId
  deriving DecidableEq, Repr

/-- What `glob` says of the text of an include statement. -/
inductive GlobResult where
  | paths (pathv : List Text)
  | nomatch
  | error
  deriving DecidableEq, Repr

/-- What `fopen` makes of a path. -/
inductive Fopen where
  | file (input : List Lexeme)
  | noEntry
  | error

/-- What the parser takes from elsewhere: the tables of `config_flags.c`, the limits of
    `drbd_limits.h`, the machine and its files. -/
structure Env where
  showNetOptionsCtx : ContextDef
  netOptionsCtx : ContextDef
  attachCmdCtx : ContextDef
  resourceOptionsCtx : ContextDef
  peerDeviceOptionsCtx : ContextDef
  deviceOptionsCtx : ContextDef
  startupOptionsCtx : ContextDef
  handlersCtx : ContextDef
  proxyOptionsCtx : ContextDef
  limits : RangeChecks → Nat × Nat
  hostnameInList : List Text → Bool
  dtMinorOfDev : Text → Int
  /-- Paths are relative to the configuration file that names them. -/
  fopen : Text → Text → Fopen
  canonifyPath : Text → Text → Text
  realpath : Text → Text → Text
  glob : Text → Text → GlobResult
  driver : ValidateKmod.DriverSources
  fuel : Nat

/-- `enum pr_flags`. -/
inductive PrFlags where
  | none
  | noHostSectAllowed
  | parseForAdjust
  deriving DecidableEq, Repr

/-! ## Operations -/

/-- How a run can end early: the process exits with an error, a null pointer is followed, a loop goes
    on. -/
inductive Stop where
  | exit
  | crash
  | hang
  deriving DecidableEq, Repr

/-- An option statement: the field that was found, and what is written behind its name; `none` where
    the name stands alone. -/
structure Reading where
  field : Field
  noPrefix : Bool
  written : Option Text

/-- The value that `parse_option_value` returns. -/
def Reading.value (r : Reading) : Text :=
  match r.written with
  | none => if r.noPrefix then "no".toList else "yes".toList
  | some yytext => yytext

/-- Whether `parse_option_value` calls `pe_field`. -/
def Reading.peField (r : Reading) : Bool :=
  match r.written with
  | none => false
  | some yytext => !r.field.checkedInPostparse && decide (check r.field.fieldDef yytext ≠ .ok)

/-- What a function of the parser can ask for. -/
inductive Op where
  | yylex
  | stop (reason : Stop)
  /-- `config_valid = 0`. -/
  | invalid
  /-- The same, unless the output of `drbdsetup` is parsed. -/
  | invalidInConfig
  | checkUniq (key : Text)
  | checkUpr (key : Text)
  | checkUprInit
  /-- `was_file_already_seen`. -/
  | alreadySeen (realPath : Text)
  | pushFile (input : List Lexeme)
  | popFile
  /-- What `parse_option_value` makes of a statement. -/
  | reads (reading : Reading)

/-- The answers. -/
abbrev Op.Ans : Op → Type
  | yylex => Option Token × Text
  | stop _ => Empty
  | alreadySeen _ => Bool
  | _ => Unit

/-- The state of the parser: what is left of the open files, `config_valid`, `global_btree` and
    `per_resource_btree`, and the option statements that were read. -/
structure ParseState where
  input : List Lexeme
  suspended : List (List Lexeme) := []
  configValid : Nat := 1
  globalBtree : List Text := []
  perResourceBtree : List Text := []
  readings : List Reading := []

/-- `vcheck_uniq_file_line`: a key that is there already makes the configuration invalid. -/
def checkKey (tree : List Text) (key : Text) : Bool × List Text :=
  if key ∈ tree then (false, tree) else (true, key :: tree)

/-- What an operation does. -/
def handle : (o : Op) → ParseState → Except Stop (o.Ans × ParseState)
  | .yylex, s =>
    match s.input with
    | [] => .ok ((none, []), s)
    | l :: input => .ok ((some l.token, l.yytext), { s with input := input })
  | .stop reason, _ => .error reason
  | .invalid, s => .ok ((), { s with configValid := 0 })
  | .invalidInConfig, s =>
    .ok ((), { s with configValid := if s.configValid ≤ 1 then 0 else s.configValid })
  | .checkUniq key, s =>
    if 2 ≤ s.configValid then .ok ((), s)
    else
      let (unique, tree) := checkKey s.globalBtree key
      .ok ((), { s with globalBtree := tree, configValid := if unique then s.configValid else 0 })
  | .checkUpr key, s =>
    if 2 ≤ s.configValid then .ok ((), s)
    else
      let (unique, tree) := checkKey s.perResourceBtree key
      .ok ((), { s with perResourceBtree := tree, configValid := if unique then s.configValid else 0 })
  | .checkUprInit, s => .ok ((), if 2 ≤ s.configValid then s else { s with perResourceBtree := [] })
  | .alreadySeen realPath, s =>
    let (unique, tree) := checkKey s.globalBtree realPath
    .ok (!unique, { s with globalBtree := tree })
  | .pushFile input, s => .ok ((), { s with input := input, suspended := s.input :: s.suspended })
  | .popFile, s =>
    match s.suspended with
    | [] => .ok ((), s)
    | input :: rest => .ok ((), { s with input := input, suspended := rest })
  | .reads reading, s =>
    .ok ((), { s with
      readings := s.readings ++ [reading]
      configValid := if reading.peField && decide (s.configValid ≤ 1) then 0 else s.configValid })

abbrev Parse (α : Type) := Prog Op Op.Ans α

def yylex : Parse (Option Token × Text) := Prog.perform Op.yylex

def stop {α : Type} (reason : Stop) : Parse α := Prog.call (Op.stop reason) Empty.elim

/-- `pe_expected` and its kin. -/
def peExpected {α : Type} : Parse α := stop .exit

def invalid : Parse Unit := Prog.perform Op.invalid

def invalidInConfig : Parse Unit := Prog.perform Op.invalidInConfig

def checkUniq (key : Text) : Parse Unit := Prog.perform (Op.checkUniq key)

def checkUpr (key : Text) : Parse Unit := Prog.perform (Op.checkUpr key)

/-- `check_upr` for each host. -/
def checkUprHosts (hosts : List Text) (key : Text → Text) : Parse Unit :=
  match hosts with
  | [] => pure ()
  | h :: rest => do
    checkUpr (key h)
    checkUprHosts rest key

/-- The macro `EXP`. -/
def exp {α : Type} (accept : Token → Option α) : Parse α := do
  let (token, _) ← yylex
  match token.bind accept with
  | some a => pure a
  | none => peExpected

def expOp (c : Char) : Parse Unit := exp fun token => if token = .op [c] then some () else none

def expKeyword (k : Keyword) : Parse Unit :=
  exp fun token => if token = .keyword k then some () else none

def expString : Parse Text := exp fun | .string txt => some txt | _ => none

def expInteger : Parse Text := exp fun | .integer txt => some txt | _ => none

def expIpaddr : Parse Text := exp fun | .ipaddr txt => some txt | _ => none

def expIpaddr6 : Parse Text := exp fun | .ipaddr6 txt => some txt | _ => none

theorem run_stop {α : Type} (reason : Stop) (s : ParseState) :
    (stop reason : Parse α).run handle s = .error reason := rfl

theorem run_peExpected {α : Type} (s : ParseState) :
    (peExpected : Parse α).run handle s = .error .exit := rfl

theorem run_yylex_eq_ok {s s' : ParseState} {r : Option Token × Text} :
    yylex.run handle s = .ok (r, s') ↔
      (s.input = [] ∧ r = (none, []) ∧ s' = s) ∨
        ∃ l input, s.input = l :: input ∧ r = (some l.token, l.yytext) ∧
          s' = { s with input := input } := by
  rw [yylex, Prog.run_perform, handle]
  cases hin : s.input with
  | nil => simp [eq_comm]
  | cons l input =>
    simp only [Except.ok.injEq, Prod.mk.injEq, reduceCtorEq, false_and, false_or, List.cons.injEq]
    constructor
    · rintro ⟨rfl, rfl⟩
      exact ⟨l, input, ⟨rfl, rfl⟩, rfl, rfl⟩
    · rintro ⟨_, _, ⟨rfl, rfl⟩, rfl, rfl⟩
      exact ⟨rfl, rfl⟩

/-- What `EXP` consumes. -/
theorem run_exp_iff {α : Type} {accept : Token → Option α} {s s' : ParseState} {a : α} :
    (exp accept).run handle s = .ok (a, s') ↔
      ∃ l input, s.input = l :: input ∧ accept l.token = some a ∧ s' = { s with input := input } := by
  rw [exp, yylex, Prog.run_bind, Prog.run_perform, handle]
  cases hin : s.input with
  | nil => simp [run_peExpected]
  | cons l input =>
    simp only [Option.bind_some]
    cases ha : accept l.token with
    | none => simp [run_peExpected, ha]
    | some b =>
      simp only [Prog.run_pure, Except.ok.injEq, Prod.mk.injEq, List.cons.injEq]
      constructor
      · rintro ⟨rfl, rfl⟩
        exact ⟨l, input, ⟨rfl, rfl⟩, ha, rfl⟩
      · rintro ⟨_, _, ⟨rfl, rfl⟩, hb, rfl⟩
        exact ⟨by simpa [ha] using hb, rfl⟩

theorem run_expOp_iff {c : Char} {s s' : ParseState} {u : Unit} :
    (expOp c).run handle s = .ok (u, s') ↔
      ∃ l input, s.input = l :: input ∧ l.token = .op [c] ∧ s' = { s with input := input } := by
  rw [expOp, run_exp_iff]
  simp

/-- `atoi` of digits. -/
def atoi (txt : Text) : Int := (BitVec.ofNat 32 (min (2 ^ 63 - 1) (ofDigits 10 txt))).toInt

/-! ## Values -/

/-- `find_field`: whether the name begins with "no-", and the field. -/
def findField (ctx : ContextDef) (name : Text) : Bool × Option Field :=
  if "no-".toList <+: name then (true, ctx.find? (·.name = name.drop 3))
  else (false, ctx.find? (·.name = name))

/-- `parse_option_value`. -/
def parseOptionValue (field : Field) (noPrefix : Bool) : Parse Text := do
  let (token, yytext) ← yylex
  if token = some (.op [';']) then
    let reading : Reading := { field := field, noPrefix := noPrefix, written := none }
    Prog.perform (Op.reads reading)
    pure reading.value
  else
    let reading : Reading := { field := field, noPrefix := noPrefix, written := some yytext }
    Prog.perform (Op.reads reading)
    expOp ';'
    pure reading.value

/-- What the parser makes of an option statement once its field is found. -/
def parseOption (field : Field) (noPrefix obeyValue : Bool) : Parse DOption := do
  if obeyValue then
    let value ← parseOptionValue field noPrefix
    pure { name := field.name, value := some value }
  else do
    expOp ';'
    pure { name := field.name, value := none, unknown := true }

section Env

variable (env : Env)

/-- A loop of the parser. -/
def loop {γ β : Type} (body : γ → Parse (γ ⊕ β)) (c : γ) : Parse β :=
  Prog.loop (stop .hang) env.fuel body c

/-- `range_check`. -/
def rangeCheck (what : RangeChecks) (value : Text) : Parse Unit :=
  match mStrtoll value '1' with
  | none => stop .exit
  | some r => if r < (env.limits what).1 ∨ (env.limits what).2 < r then invalidInConfig else pure ()

/-- `m_strtoll_range` of a timeout. -/
def timeoutRange (value : Text) : Parse Unit :=
  match mStrtoll value '1' with
  | none => stop .exit
  | some r => if 900 < r then invalidInConfig else pure ()

/-! ## Option sections -/

/-- A statement of `__parse_options`.  A delegate with its context takes the names that are no fields; it
    gets the text of the name and `obey_value`. -/
def parseOptionStmt {γ : Type} (ctx : ContextDef) (delegate : Option (γ → Text → Bool → Parse γ))
    (c : List DOption × γ) : Parse ((List DOption × γ) ⊕ (List DOption × γ)) := do
  let (options, params) := c
  let (token, yytext) ← yylex
  if token = some (.op ['}']) then pure (.inr (options, params))
  else do
    let obeyValue := decide (token ≠ some (.keyword .unknown))
    let yytext ← if obeyValue then pure yytext else Prod.snd <$> yylex
    match findField ctx yytext with
    | (noPrefix, some field) =>
      let option ← parseOption field noPrefix obeyValue
      pure (.inl (options ++ [option], params))
    | (_, none) =>
      match delegate with
      | some delegate => do
        let params ← delegate params yytext obeyValue
        pure (.inl (options, params))
      -- after the warning about an unknown name, the name of no field is looked up
      | none => if obeyValue then peExpected else stop .crash

/-- The loop of `__parse_options`. -/
def parseOptionsLoop {γ : Type} (ctx : ContextDef) (delegate : Option (γ → Text → Bool → Parse γ))
    (params : γ) : Parse (List DOption × γ) :=
  loop env (parseOptionStmt ctx delegate) ([], params)

/-- `parse_options`. -/
def parseOptions (ctx : ContextDef) : Parse (List DOption) :=
  Prod.fst <$> parseOptionsLoop (γ := Unit) env ctx none ()

/-- The lists that `parse_disk_options` fills beside that of the section; `none` for no net options. -/
structure PeerDelegateData where
  deviceOptions : List DOption
  peerDeviceOptions : List DOption
  netOptions : Option (List DOption)

/-- `insert_pd_options_delegate`. -/
def insertPdOptionsDelegate (params : PeerDelegateData) (yytext : Text) (obeyValue : Bool) :
    Parse PeerDelegateData :=
  match findField env.peerDeviceOptionsCtx yytext, findField env.deviceOptionsCtx yytext,
    decide (yytext = "fencing".toList), params.netOptions with
  | (noPrefix, some field), _, _, _ => do
    let option ← parseOption field noPrefix obeyValue
    pure { params with peerDeviceOptions := params.peerDeviceOptions ++ [option] }
  | _, (noPrefix, some field), _, _ => do
    let option ← parseOption field noPrefix obeyValue
    pure { params with deviceOptions := params.deviceOptions ++ [option] }
  | _, _, true, some netOptions =>
    match findField env.netOptionsCtx yytext with
    | (noPrefix, some field) => do
      let option ← parseOption field noPrefix obeyValue
      pure { params with netOptions := some (netOptions ++ [option]) }
    | (_, none) => stop .crash
  | _, _, _, _ => if obeyValue then peExpected else pure params

/-- `parse_disk_options`: the options of the section, and the other lists. -/
def parseDiskOptions (params : PeerDelegateData) : Parse (List DOption × PeerDelegateData) :=
  parseOptionsLoop env env.attachCmdCtx (some (insertPdOptionsDelegate env)) params

/-- `startup_delegate`; the context is `stacked_timeouts`. -/
def startupDelegate (stackedTimeouts : Bool) (yytext : Text) (obeyValue : Bool) : Parse Bool := do
  if yytext = "become-primary-on".toList then
    if obeyValue then
      loop env (fun (_ : Unit) => do
        let (token, _) ← yylex
        if token = some (.op [';']) then pure (.inr ()) else pure (.inl ())) ()
    else expOp ';'
    pure stackedTimeouts
  else if yytext = "stacked-timeouts".toList then
    expOp ';'
    pure true
  else peExpected

/-- `net_delegate`. -/
def netDelegate (flags : PrFlags) (_ : Unit) (yytext : Text) (obeyValue : Bool) : Parse Unit := do
  if yytext = "discard-my-data".toList ∧ flags = .parseForAdjust then
    if obeyValue then
      let (token, _) ← yylex
      match token with
      | some (.keyword .yes) => expOp ';'
      | some (.keyword .no) => expOp ';'
      | some (.op [';']) => pure ()
      | _ => peExpected
    else expOp ';'
  else peExpected

/-- A net section. -/
def parseNetOptions (flags : PrFlags) : Parse (List DOption) :=
  Prod.fst <$> parseOptionsLoop env env.showNetOptionsCtx (some (netDelegate flags)) ()

/-- The words of a line of `proxy_delegate`; `none` for the closing brace. -/
def proxyLine : Parse (Option (List Text)) :=
  loop env (fun words => do
    let (token, yytext) ← yylex
    if token = some (.op [';']) then pure (.inr (some words))
    else if token = some (.op ['}']) then
      if words = [] then pure (.inr none) else peExpected
    else
      let word := match token with
        | some (.string txt) => txt
        | _ => yytext
      pure (.inl (words ++ [word]))) []

/-- `names_to_str`. -/
def namesToStr (words : List Text) : Text :=
  if words = [] then "UNKNOWN".toList else ([' '].intercalate words).take 4095

/-- `proxy_delegate`; the context is the list of plugins. -/
def proxyDelegate (_ : List DOption) (_ : Text) (_ : Bool) : Parse (List DOption) := do
  expOp '{'
  loop env (fun options => do
    match ← proxyLine env with
    | some words => pure (.inl (options ++ [{ name := namesToStr words, value := none }]))
    | none => pure (.inr options)) []

/-- `parse_proxy_options`. -/
def parseProxyOptions (proxyPlugins : List DOption) : Parse (List DOption × List DOption) := do
  expOp '{'
  parseOptionsLoop env env.proxyOptionsCtx (some (proxyDelegate env)) proxyPlugins

/-- `check_deprecated_alias`. -/
def checkDeprecatedAlias (name : Text) : Text :=
  if name = "outdate-peer".toList then "fence-peer".toList
  else if name = "rate".toList then "resync-rate".toList
  else if name = "after".toList then "resync-after".toList
  else name

/-- `parse_options_syncer`: each option goes to the list of the first table that has it. -/
def parseOptionsSyncer (res : Resource) : Parse Resource :=
  loop env (fun res => do
    let (token, yytext) ← yylex
    if token = some (.op ['}']) then pure (.inr res)
    else do
      let text := checkDeprecatedAlias yytext
      match findField env.showNetOptionsCtx text, findField env.attachCmdCtx text,
        findField env.resourceOptionsCtx text, findField env.peerDeviceOptionsCtx text with
      | (noPrefix, some field), _, _, _ => do
        let option ← parseOption field noPrefix true
        pure (.inl { res with netOptions := res.netOptions ++ [option] })
      | _, (noPrefix, some field), _, _ => do
        let option ← parseOption field noPrefix true
        pure (.inl { res with diskOptions := res.diskOptions ++ [option] })
      | _, _, (noPrefix, some field), _ => do
        let option ← parseOption field noPrefix true
        pure (.inl { res with resOptions := res.resOptions ++ [option] })
      | _, _, _, (noPrefix, some field) => do
        let option ← parseOption field noPrefix true
        pure (.inl { res with pdOptions := res.pdOptions ++ [option] })
      | _, _, _, _ => peExpected) res

end Env

end DrbdUtils.Adm.Parser
