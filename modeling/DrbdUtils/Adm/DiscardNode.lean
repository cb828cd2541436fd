import DrbdUtils.Adm.PostParse

/-!
# discard-node-*

`after-sb-0pri discard-node-X` between the configuration and the two nodes of a connection:
`set_me_in_resource()`, the net options of `expand_common()`, `validate_resource()` and
`convert_discard_opt()` of `drbdadm_postparse.c`, run on each node with its own `hostname`.

* `optValue_convertDiscardOpt` — what a node makes of the option.
* `discardNode_iff` — when the two nodes agree on who discards its data.
-/

set_option autoImplicit false

namespace DrbdUtils.Adm.PostParse

/-! ## The program -/

def afterSb0pri : Text := "after-sb-0pri".toList

def discardNode : Text := "discard-node-".toList

/-- What `validate_resource` finds wrong. -/
inductive ValidateError where
  | noHostSection
  | missingOn (hostname : Text)
  | nodenameNotKnown (value : Text)
  /-- Some have a `proxy` section and some not: `on` sections, or `host` statements of a path. -/
  | proxyInSome (hosts : List Bool)
  deriving DecidableEq, Repr

/-- `host_name_known`. -/
def hostNameKnown (res : Resource) (name : Text) : Bool :=
  res.allHosts.any (hostnameInList name ·.onHosts)

def proxyErrors (sect : List Bool) : List ValidateError :=
  if sect.all id || sect.all (!·) then [] else [.proxyInSome sect]

/-- `ensure_proxy_sections`. -/
def ensureProxySections (res : Resource) : List ValidateError :=
  proxyErrors (res.allHosts.map (·.proxyCompatOnly)) ++
    res.connections.flatMap fun conn => conn.paths.flatMap fun path =>
      proxyErrors (path.hnameAddressPairs.map (·.proxy))

/-- The check of the name in `after-sb-0pri`. -/
def validateDiscard (res : Resource) : List ValidateError :=
  match optValue res.netOptions afterSb0pri with
  | some (some value) =>
    if discardNode <+: value ∧ hostNameKnown res (value.drop 13) = false then
      [.nodenameNotKnown value]
    else []
  | _ => []

/-- `validate_resource`. -/
def validateResource (hostname : Text) (res : Resource) : List ValidateError :=
  (if res.allHosts = [] then [.noHostSection] else []) ++
    if res.ignore then []
    else
      (if res.me = none then [.missingOn hostname] else []) ++ validateDiscard res ++
        ensureProxySections res

/-- What `convert_discard_opt` makes of a value. -/
def discardValue (hostname value : Text) : Text :=
  if discardNode <+: value then
    if hostname = value.drop 13 then "discard-local".toList else "discard-remote".toList
  else value

/-- `convert_discard_opt`: the first option of the name is rewritten. -/
def convertDiscardOpt (hostname : Text) : List DOption → List DOption
  | [] => []
  | opt :: netOptions =>
    if opt.name = afterSb0pri then
      { opt with value := opt.value.map (discardValue hostname) } :: netOptions
    else opt :: convertDiscardOpt hostname netOptions

/-- The host sections that `set_me_in_resource` takes for this node. -/
def mySections (hostname : Text) (allHosts : List HostInfo) : List Nat :=
  (List.range allHosts.length).filter fun i =>
    match allHosts[i]? with
    | some host =>
      host.onHosts ≠ [] ∧
        (hostnameInList hostname host.onHosts ∨ host.onHosts.head? = some "_this_host".toList)
    | none => false

/-- `set_me_in_resource`, for hosts with names. -/
def setMeInResource (hostname : Text) (res : Resource) : Resource :=
  match (mySections hostname res.allHosts).getLast? with
  | some me => { res with me := some me }
  | none => { res with ignore := true }

/-- `set_me_in_resource` leaves `config_valid` set. -/
def SetMeValid (hostname : Text) (res : Resource) : Prop :=
  (mySections hostname res.allHosts).length ≤ 1 ∧
    (res.ignore = true → mySections hostname res.allHosts = [])

instance (hostname : Text) (res : Resource) : Decidable (SetMeValid hostname res) :=
  inferInstanceAs (Decidable (_ ∧ _))

section Run

-- `is_equal` for net options, and what `convert_after_option` leaves of `config_valid`
variable (isEqual : DOption → DOption → Bool) (afterValid : Resource → Bool)

/-- The net options in `expand_common`. -/
def expandNet (res : Resource) : Resource :=
  let netOptions := (expandOpts (some isEqual) res.templateNetOptions res.netOptions).1
  { res with
    netOptions := netOptions
    connections := res.connections.map fun conn =>
      { conn with netOptions := (expandOpts (some isEqual) netOptions conn.netOptions).1 } }

/-- The reports of `expandNet`. -/
def expandNetReports (res : Resource) : List Ambiguous :=
  let expanded := expandOpts (some isEqual) res.templateNetOptions res.netOptions
  expanded.2 ++ res.connections.flatMap fun conn =>
    (expandOpts (some isEqual) expanded.1 conn.netOptions).2

/-- The turn of `global_validate_maybe_expand_die_if_invalid` for a resource; `none` where it exits. -/
def validateMaybeExpand (hostname : Text) (res : Resource) : Option Resource :=
  if validateResource hostname res = [] ∧ afterValid res = true then
    some { res with
      netOptions := convertDiscardOpt hostname res.netOptions
      connections := res.connections.map fun conn =>
        { conn with netOptions := convertDiscardOpt hostname conn.netOptions } }
  else none

/-- What a node makes of a resource of the configuration; `none` where `config_valid` is cleared. -/
def resourceOn (hostname : Text) (res : Resource) : Option Resource :=
  let mine := setMeInResource hostname res
  if SetMeValid hostname res ∧ expandNetReports isEqual mine = [] then
    validateMaybeExpand afterValid hostname (expandNet isEqual mine)
  else none

/-- What a node makes of the configuration. -/
def configOn (hostname : Text) : List Resource → Option (List Resource)
  | [] => some []
  | res :: config =>
    match resourceOn isEqual afterValid hostname res, configOn hostname config with
    | some out, some rest => some (out :: rest)
    | _, _ => none

/-- `after-sb-0pri` of a connection with what it inherits. -/
def writtenFor (res : Resource) (conn : Connection) : Option (Option Text) :=
  (optValue conn.netOptions afterSb0pri).or
    ((optValue res.netOptions afterSb0pri).or (optValue res.templateNetOptions afterSb0pri))

end Run

/-- `after-sb-0pri` of a connection of a run. -/
def settingOf (out : List Resource) (i j : Nat) : Option (Option Text) := do
  let res ← out[i]?
  let conn ← res.connections[j]?
  optValue conn.netOptions afterSb0pri

/-- Of two nodes, the one that is the host `x` discards its data, and the other one does not. -/
def OneDiscards (allHosts : List HostInfo) (x : Text) (a b : Nat)
    (settingA settingB : Option (Option Text)) : Prop :=
  (findHostInfoByName allHosts x = some a ∧
      settingA = some (some "discard-local".toList) ∧
      settingB = some (some "discard-remote".toList)) ∨
    (findHostInfoByName allHosts x = some b ∧
      settingB = some (some "discard-local".toList) ∧
      settingA = some (some "discard-remote".toList))

/-! ## The option on one node -/

theorem optValue_convertDiscardOpt (hostname : Text) (netOptions : List DOption) :
    optValue (convertDiscardOpt hostname netOptions) afterSb0pri =
      (optValue netOptions afterSb0pri).map (Option.map (discardValue hostname)) := by
  induction netOptions with
  | nil => rfl
  | cons opt netOptions ih =>
    rw [convertDiscardOpt]
    by_cases hname : opt.name = afterSb0pri
    · simp [optValue, findOpt, hname]
    · simpa [optValue, findOpt, hname] using ih

theorem discardValue_discardNode (hostname x : Text) :
    discardValue hostname (discardNode ++ x) =
      if hostname = x then "discard-local".toList else "discard-remote".toList := by
  unfold discardValue
  rw [if_pos (List.prefix_append ..), show (13 : Nat) = discardNode.length from rfl, List.drop_left]

section Run

variable {isEqual : DOption → DOption → Bool} {afterValid : Resource → Bool} {hostname : Text}

theorem configOn_getElem? {config out : List Resource} {i : Nat} {res : Resource}
    (h : configOn isEqual afterValid hostname config = some out)
    (hres : config[i]? = some res) :
    ∃ r, out[i]? = some r ∧ resourceOn isEqual afterValid hostname res = some r := by
  induction config generalizing out i with
  | nil => cases hres
  | cons head config ih =>
    rw [configOn] at h
    split at h
    · next r rest hhead hrest =>
      cases h
      cases i with
      | zero =>
        cases hres
        exact ⟨r, rfl, hhead⟩
      | succ i =>
        obtain ⟨r', hget, hon⟩ := ih hrest hres
        exact ⟨r', hget, hon⟩
    · cases h

theorem setMeInResource_eq (hostname : Text) (res : Resource) :
    ∃ me ignore, setMeInResource hostname res = { res with me := me, ignore := ignore } := by
  unfold setMeInResource
  split
  · exact ⟨_, _, rfl⟩
  · exact ⟨_, _, rfl⟩

/-- A node that accepts a resource makes of each connection's option what `discardValue` says. -/
theorem resourceOn_connection {res r : Resource} {j : Nat} {conn : Connection}
    (h : resourceOn isEqual afterValid hostname res = some r)
    (hconn : res.connections[j]? = some conn) :
    ∃ c, r.connections[j]? = some c ∧
      optValue c.netOptions afterSb0pri =
        (writtenFor res conn).map (Option.map (discardValue hostname)) := by
  obtain ⟨me, ignore, hmine⟩ := setMeInResource_eq hostname res
  unfold resourceOn validateMaybeExpand at h
  rw [hmine] at h
  dsimp only at h
  split at h
  · split at h
    · cases h
      simp only [expandNet, List.map_map, List.getElem?_map, hconn, Option.map_some]
      refine ⟨_, rfl, ?_⟩
      simp only [Function.comp_apply, optValue_convertDiscardOpt, optValue_expandOpts]
      rfl
    · cases h
  · cases h

/-- A node that accepts a resource is one of its hosts. -/
theorem resourceOn_setMeValid {res r : Resource}
    (h : resourceOn isEqual afterValid hostname res = some r) :
    SetMeValid hostname res := by
  unfold resourceOn at h
  dsimp only at h
  split at h
  · next hvalid => exact hvalid.1
  · cases h

end Run

/-! ## Two nodes -/

theorem mem_mySections {hostname : Text} {allHosts : List HostInfo} {i : Nat} {host : HostInfo}
    (hi : allHosts[i]? = some host) (hname : hostnameInList hostname host.onHosts = true) :
    i ∈ mySections hostname allHosts := by
  have hlt := (List.getElem?_eq_some_iff.1 hi).1
  have hne : host.onHosts ≠ [] := by
    rintro hnil
    rw [hnil] at hname
    cases hname
  simp only [mySections, List.mem_filter, List.mem_range, hi, hname]
  exact ⟨hlt, by simpa using hne⟩

/-- A hostname that one section matches is the name of no other host. -/
theorem eq_of_setMeValid {hostname : Text} {res : Resource} (h : SetMeValid hostname res) {i k : Nat}
    {host host' : HostInfo} (hi : res.allHosts[i]? = some host) (hk : res.allHosts[k]? = some host')
    (hname : hostnameInList hostname host.onHosts = true)
    (hname' : hostnameInList hostname host'.onHosts = true) : i = k := by
  have hmem := mem_mySections hi hname
  have hmem' := mem_mySections hk hname'
  obtain ⟨hlen, -⟩ := h
  cases hlist : mySections hostname res.allHosts with
  | nil =>
    rw [hlist] at hmem
    cases hmem
  | cons first rest =>
    rw [hlist] at hmem hmem' hlen
    have hrest : rest = [] := List.eq_nil_of_length_eq_zero (by simpa using hlen)
    rw [hrest, List.mem_singleton] at hmem hmem'
    rw [hmem, hmem']

theorem findHostInfoByName_of_setMeValid {hostname : Text} {res : Resource}
    (h : SetMeValid hostname res) {i : Nat} {host : HostInfo} (hi : res.allHosts[i]? = some host)
    (hname : hostnameInList hostname host.onHosts = true) :
    findHostInfoByName res.allHosts hostname = some i := by
  cases hfind : findHostInfoByName res.allHosts hostname with
  | none =>
    have hnone := List.findIdx?_eq_none_iff.1 hfind host (List.mem_of_getElem? hi)
    rw [hname] at hnone
    cases hnone
  | some k =>
    obtain ⟨hk, hkname, -⟩ := List.findIdx?_eq_some_iff_getElem.1 hfind
    rw [eq_of_setMeValid h hi (List.getElem?_eq_getElem hk) hname hkname]

/-- The two nodes agree exactly when the option spells the name of one of them as that node does. -/
theorem discardNode_iff (isEqual : DOption → DOption → Bool) (afterValid : Resource → Bool)
    (config outA outB : List Resource) (hostnameA hostnameB : Text)
    (hA : configOn isEqual afterValid hostnameA config = some outA)
    (hB : configOn isEqual afterValid hostnameB config = some outB)
    (i j a b : Nat) (res : Resource) (conn : Connection) (hostA hostB : HostInfo) (x : Text)
    (hres : config[i]? = some res) (hconn : res.connections[j]? = some conn)
    (ha : res.allHosts[a]? = some hostA) (hb : res.allHosts[b]? = some hostB) (hab : a ≠ b)
    (hnameA : hostnameInList hostnameA hostA.onHosts = true)
    (hnameB : hostnameInList hostnameB hostB.onHosts = true)
    (hwritten : writtenFor res conn = some (some (discardNode ++ x))) :
    OneDiscards res.allHosts x a b (settingOf outA i j) (settingOf outB i j) ↔
      x = hostnameA ∨ x = hostnameB := by
  obtain ⟨rA, hrA, honA⟩ := configOn_getElem? hA hres
  obtain ⟨rB, hrB, honB⟩ := configOn_getElem? hB hres
  obtain ⟨cA, hcA, hvA⟩ := resourceOn_connection honA hconn
  obtain ⟨cB, hcB, hvB⟩ := resourceOn_connection honB hconn
  have hvalidA := resourceOn_setMeValid honA
  have hvalidB := resourceOn_setMeValid honB
  have hsettingA : settingOf outA i j =
      some (some (if hostnameA = x then "discard-local".toList else "discard-remote".toList)) := by
    simp only [settingOf, hrA, hcA, Option.bind_eq_bind, Option.bind_some, hvA, hwritten,
      Option.map_some, discardValue_discardNode]
  have hsettingB : settingOf outB i j =
      some (some (if hostnameB = x then "discard-local".toList else "discard-remote".toList)) := by
    simp only [settingOf, hrB, hcB, Option.bind_eq_bind, Option.bind_some, hvB, hwritten,
      Option.map_some, discardValue_discardNode]
  have hne : hostnameA ≠ hostnameB := by
    rintro rfl
    exact hab (eq_of_setMeValid hvalidA ha hb hnameA hnameB)
  have hdiff : "discard-local".toList ≠ "discard-remote".toList := by decide
  rw [hsettingA, hsettingB]
  constructor
  · rintro (⟨-, hlocal, -⟩ | ⟨-, hlocal, -⟩)
    · by_cases h : hostnameA = x
      · exact Or.inl h.symm
      · rw [if_neg h] at hlocal
        exact absurd (Option.some.inj (Option.some.inj hlocal)).symm hdiff
    · by_cases h : hostnameB = x
      · exact Or.inr h.symm
      · rw [if_neg h] at hlocal
        exact absurd (Option.some.inj (Option.some.inj hlocal)).symm hdiff
  · rintro (rfl | rfl)
    · exact Or.inl ⟨findHostInfoByName_of_setMeValid hvalidA ha hnameA, by rw [if_pos rfl],
        by rw [if_neg hne.symm]⟩
    · exact Or.inr ⟨findHostInfoByName_of_setMeValid hvalidB hb hnameB, by rw [if_pos rfl],
        by rw [if_neg hne]⟩

/-- Two hosts with short names; the option names the first one in full or not. -/
def aliceAndBob (x : Text) : Resource where
  allHosts := [{ onHosts := ["alice".toList] }, { onHosts := ["bob".toList] }]
  connections := [{ paths := [{ hnameAddressPairs :=
    [{ name := "alice".toList, hostInfo := some 0 }, { name := "bob".toList, hostInfo := some 1 }] }] }]
  netOptions := [{ name := afterSb0pri, value := some (discardNode ++ x) }]

/-- What a node of `aliceAndBob` ends up with. -/
def aliceAndBobOn (hostname x : Text) : List Resource :=
  (configOn (fun a b => a.value == b.value) (fun _ => true) hostname [aliceAndBob x]).getD []

theorem discardNode_iff_alice :
    OneDiscards (aliceAndBob "alice".toList).allHosts "alice".toList 0 1
        (settingOf (aliceAndBobOn "alice".toList "alice".toList) 0 0)
        (settingOf (aliceAndBobOn "bob".toList "alice".toList) 0 0) ↔
      "alice".toList = "alice".toList ∨ "alice".toList = "bob".toList :=
  discardNode_iff (fun a b => a.value == b.value) (fun _ => true) [aliceAndBob "alice".toList]
    (aliceAndBobOn "alice".toList "alice".toList) (aliceAndBobOn "bob".toList "alice".toList)
    "alice".toList "bob".toList (by decide) (by decide) 0 0 0 1 (aliceAndBob "alice".toList) _ _ _
    "alice".toList rfl rfl rfl rfl (by decide) (by decide) (by decide) rfl

/-- Both nodes accept the name "alice", and both wait for the other one to discard its data. -/
theorem discardNode_both_remote :
    hostNameKnown (aliceAndBob "alice".toList) "alice".toList = true ∧
      configOn (fun a b => a.value == b.value) (fun _ => true) "alice.example.com".toList
        [aliceAndBob "alice".toList] =
          some (aliceAndBobOn "alice.example.com".toList "alice".toList) ∧
      configOn (fun a b => a.value == b.value) (fun _ => true) "bob.example.com".toList
        [aliceAndBob "alice".toList] =
          some (aliceAndBobOn "bob.example.com".toList "alice".toList) ∧
      settingOf (aliceAndBobOn "alice.example.com".toList "alice".toList) 0 0 =
        some (some "discard-remote".toList) ∧
      settingOf (aliceAndBobOn "bob.example.com".toList "alice".toList) 0 0 =
        some (some "discard-remote".toList) ∧
      ¬OneDiscards (aliceAndBob "alice".toList).allHosts "alice".toList 0 1
        (settingOf (aliceAndBobOn "alice.example.com".toList "alice".toList) 0 0)
        (settingOf (aliceAndBobOn "bob.example.com".toList "alice".toList) 0 0) := by
  refine ⟨by decide, by decide, by decide, by decide, by decide, ?_⟩
  unfold OneDiscards
  decide

end DrbdUtils.Adm.PostParse
