import Mathlib.Data.List.Basic

/-!
# Resources between parser and commands

What `drbdadm_postparse.c` works on: hosts and their names, connections, meshes, lists of options,
with `hostnames_equal()`, `find_host_info_by_name()`, `find_opt()` and `expand_opts()`.

* `hostnamesEqual_comm` — names match in both directions.
* `findOpt_expandOpts` — an option that is there stays, one that is missing is inherited.
-/

set_option autoImplicit false

namespace DrbdUtils.Adm.PostParse

abbrev Text := List Char

/-! ## Data -/

/-- `struct d_option`, as far as it is used after parsing. -/
structure DOption where
  name : Text
  value : Option Text
  inherited : Bool := false
  deriving DecidableEq, Repr

/-- `struct d_address`. -/
structure DAddress where
  af : Text
  addr : Text
  port : Text
  isLocalAddress : Bool := false
  deriving DecidableEq, Repr

/-- `struct d_host_info`; a host is pointed to by its place in `all_hosts`. -/
structure HostInfo where
  onHosts : List Text
  address : Option DAddress := none
  proxyCompatOnly : Bool := false
  deriving DecidableEq, Repr

/-- `struct hname_address`. -/
structure HnameAddress where
  name : Text
  address : Option DAddress := none
  hostInfo : Option Nat := none
  /-- There is a `proxy` section. -/
  proxy : Bool := false
  byAddress : Bool := false
  deriving DecidableEq, Repr

/-- `struct path`. -/
structure Path where
  hnameAddressPairs : List HnameAddress
  implicit : Bool := false
  deriving DecidableEq, Repr

/-- `struct connection`. -/
structure Connection where
  paths : List Path
  netOptions : List DOption := []
  implicit : Bool := false
  deriving DecidableEq, Repr

/-- `struct mesh`. -/
structure Mesh where
  hosts : List Text
  netOptions : List DOption := []
  deriving DecidableEq, Repr

/-- `struct d_resource`. -/
structure Resource where
  name : Text := []
  allHosts : List HostInfo
  connections : List Connection := []
  meshes : List Mesh := []
  netOptions : List DOption := []
  /-- The net options of `template`, or of the `common` section. -/
  templateNetOptions : List DOption := []
  me : Option Nat := none
  ignore : Bool := false
  deriving DecidableEq, Repr

/-! ## Names of hosts -/

/-- What `strcasecmp` compares. -/
def lower (s : Text) : Text := s.map Char.toLower

/-- The text in front of the first dot. -/
def hostPart (s : Text) : Text := s.takeWhile (· ≠ '.')

/-- `hostnames_equal`: two fully qualified names are compared as a whole, otherwise the parts in front
    of the dots. -/
def hostnamesEqual (a b : Text) : Bool :=
  if '.' ∈ a ∧ '.' ∈ b then lower a == lower b else lower (hostPart a) == lower (hostPart b)

/-- `hostname_in_list`. -/
def hostnameInList (name : Text) (names : List Text) : Bool :=
  names.any (hostnamesEqual · name)

/-- `find_host_info_by_name`: the first host with such a name. -/
def findHostInfoByName (allHosts : List HostInfo) (name : Text) : Option Nat :=
  allHosts.findIdx? (hostnameInList name ·.onHosts)

theorem hostnamesEqual_refl (a : Text) : hostnamesEqual a a = true := by
  unfold hostnamesEqual
  split <;> exact beq_self_eq_true _

theorem hostnamesEqual_comm (a b : Text) : hostnamesEqual a b = hostnamesEqual b a := by
  unfold hostnamesEqual
  by_cases h : '.' ∈ a ∧ '.' ∈ b
  · rw [if_pos h, if_pos h.symm, Bool.beq_comm]
  · rw [if_neg h, if_neg fun hba => h hba.symm, Bool.beq_comm]

/-! ## Options -/

/-- `find_opt`. -/
def findOpt (base : List DOption) (name : Text) : Option DOption :=
  base.find? (·.name = name)

/-- The message about an ambiguous inheritance. -/
structure Ambiguous where
  name : Text
  existing : Option Text
  inherited : Option Text
  deriving DecidableEq, Repr

/-- What is reported when an option meets another one of its name.  `isEqual` is `is_equal` in the
    context of the options; the wildcard context has none. -/
def ambiguity (isEqual : Option (DOption → DOption → Bool)) (existing option : DOption) :
    List Ambiguous :=
  match isEqual with
  | some eq =>
    if existing.inherited && !eq existing option then
      [⟨option.name, existing.value, option.value⟩]
    else []
  | none => []

/-- One turn of the loop of `expand_opts`. -/
def expandOpt (isEqual : Option (DOption → DOption → Bool)) (st : List DOption × List Ambiguous)
    (option : DOption) : List DOption × List Ambiguous :=
  match findOpt st.1 option.name with
  | none => ({ option with inherited := true } :: st.1, st.2)
  | some existing => (st.1, st.2 ++ ambiguity isEqual existing option)

/-- `expand_opts`: the options afterwards, and what was reported. -/
def expandOpts (isEqual : Option (DOption → DOption → Bool)) (common options : List DOption) :
    List DOption × List Ambiguous :=
  common.foldl (expandOpt isEqual) (options, [])

section Options

variable {isEqual : Option (DOption → DOption → Bool)}

/-- One option of the list in front is inherited, unless there is one of its name. -/
theorem findOpt_expandOpt (st : List DOption × List Ambiguous) (option : DOption) (name : Text) :
    findOpt (expandOpt isEqual st option).1 name =
      (findOpt st.1 name).or
        (if option.name = name then some { option with inherited := true } else none) := by
  unfold expandOpt
  cases hfind : findOpt st.1 option.name with
  | none =>
    dsimp only
    by_cases hname : option.name = name
    · rw [if_pos hname, ← hname, hfind]
      simp [findOpt]
    · rw [if_neg hname, Option.or_none]
      exact List.find?_cons_of_neg (by simpa using hname)
  | some existing =>
    dsimp only
    by_cases hname : option.name = name
    · rw [← hname, hfind, Option.some_or]
    · rw [if_neg hname, Option.or_none]

/-- The options keep what they have and inherit the first of each name they lack. -/
theorem findOpt_foldl_expandOpt (common : List DOption) (st : List DOption × List Ambiguous)
    (name : Text) :
    findOpt (common.foldl (expandOpt isEqual) st).1 name =
      (findOpt st.1 name).or
        ((findOpt common name).map fun o => { o with inherited := true }) := by
  induction common generalizing st with
  | nil => simp [findOpt]
  | cons option common ih =>
    rw [List.foldl_cons, ih, findOpt_expandOpt, Option.or_assoc]
    congr 1
    unfold findOpt
    rw [List.find?_cons]
    by_cases hname : option.name = name
    · simp [hname]
    · simp [hname]

theorem findOpt_expandOpts (common options : List DOption) (name : Text) :
    findOpt (expandOpts isEqual common options).1 name =
      (findOpt options name).or
        ((findOpt common name).map fun o => { o with inherited := true }) :=
  findOpt_foldl_expandOpt common (options, []) name

end Options

/-- The value of an option, where it has one. -/
def optValue (options : List DOption) (name : Text) : Option (Option Text) :=
  (findOpt options name).map (·.value)

theorem optValue_expandOpts {isEqual : Option (DOption → DOption → Bool)}
    (common options : List DOption) (name : Text) :
    optValue (expandOpts isEqual common options).1 name =
      (optValue options name).or (optValue common name) := by
  unfold optValue
  rw [findOpt_expandOpts]
  cases findOpt options name with
  | some o => rfl
  | none =>
    rw [Option.none_or, Option.map_map]
    rfl

end DrbdUtils.Adm.PostParse
