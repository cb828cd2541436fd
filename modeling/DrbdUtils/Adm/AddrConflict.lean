import DrbdUtils.Adm.PostParse
import DrbdUtils.Lib.CString
import DrbdUtils.Lib.SearchTree

/-!
# Address conflicts

`check_addr_conflict()` of `drbdadm_postparse.c` with `addresses_cmp()`: a search tree of the endpoints
that were seen, each with its resource.

* `totalPreorderOn_iff` — on which endpoints `addressesCmp` is an order.
* `Sound.visitResource` — what the tree knows of the resources that were visited.
* `conflictsFound_iff` — when every conflict is found, in whatever order.
-/

set_option autoImplicit false

namespace DrbdUtils.Adm.PostParse

open CString SearchTree

/-! ## Comparing addresses -/

/-- Both texts are addresses, and the same one. -/
def ptonMatch (pton : Text → Option (List Nat)) (addr1 addr2 : Text) : Bool :=
  match pton addr1, pton addr2 with
  | some v, some w => v == w
  | _, _ => false

/-- `ipv4_addresses_match`. -/
def ipv4AddressesMatch (addr1 addr2 : Text) : Bool := ptonMatch inetPton4 addr1 addr2

/-- `ipv6_addresses_match`. -/
def ipv6AddressesMatch (addr1 addr2 : Text) : Bool := ptonMatch inetPton6 addr1 addr2

/-- `ips_match` of `addresses_cmp`. -/
def ipsMatch (addr1 addr2 : DAddress) : Bool :=
  if lower addr1.af = "ipv4".toList ∧ lower addr2.af = "ipv4".toList then
    ipv4AddressesMatch addr1.addr addr2.addr
  else if lower addr1.af = "ipv6".toList ∧ lower addr2.af = "ipv6".toList then
    ipv6AddressesMatch addr1.addr addr2.addr
  else false

/-- `addresses_cmp`. -/
def addressesCmp (addr1 addr2 : DAddress) : Int :=
  let result := if ipsMatch addr1 addr2 then 0 else strcmp addr1.addr addr2.addr
  if result = 0 then
    let result := strcmp addr1.port addr2.port
    if result = 0 then strcmp addr1.af addr2.af else result
  else result

/-- `addresses_equal`. -/
def addressesEqual (addr1 addr2 : DAddress) : Bool := addressesCmp addr1 addr2 == 0

/-! ## The program -/

/-- The address of an endpoint: its own one, or that of its host.  Where neither has one,
    `config_valid` is cleared before. -/
def endpointAddr (res : Resource) (ha : HnameAddress) : DAddress :=
  (ha.address.or ((ha.hostInfo.bind (res.allHosts[·]?)).bind (·.address))).getD ⟨[], [], [], false⟩

def Resource.paths (res : Resource) : List Path := res.connections.flatMap (·.paths)

/-- The place of a `struct hname_address`: resource, path, endpoint. -/
abbrev Place := Nat × Nat × Nat

/-- `struct addrtree_entry`. -/
structure AddrtreeEntry where
  da : DAddress
  res : Nat
  deriving DecidableEq, Repr

/-- `addrtree_key_cmp`. -/
def addrtreeKeyCmp (e1 e2 : AddrtreeEntry) : Int := addressesCmp e1.da e2.da

/-- `find_hname_addr_in_res`. -/
def findHnameAddrInRes (resources : List Resource) (r : Nat) (addr : DAddress) : Option Place :=
  match resources[r]? with
  | none => none
  | some res =>
    (res.paths.zipIdx.flatMap fun (path, p) => path.hnameAddressPairs.zipIdx.map fun (ha, k) =>
      (ha, (r, p, k))).findSome? fun (ha, place) =>
        if addressesEqual addr (endpointAddr res ha) then some place else none

/-- What `check_addr_conflict` works with.  `addr` holds the slots below `i`: the next slot is only
    read once `i` is behind it. -/
structure ConflictState where
  addrtree : SearchTree AddrtreeEntry := .nil
  conflicts : List Place := []
  configValid : Bool
  addr : List DAddress := []

section Program

variable (resources : List Resource)

/-- The innermost loop, for one endpoint. -/
def visitEndpoint (res : Resource) (r p : Nat) (st : ConflictState) (ha : HnameAddress × Nat) :
    ConflictState :=
  let x := endpointAddr res ha.1
  let e : AddrtreeEntry := ⟨x, r⟩
  if x.isLocalAddress then st
  else
    match tfind addrtreeKeyCmp e st.addrtree with
    | some ep =>
      if ep.res ≠ r then
        if (r, p, ha.2) ∈ st.conflicts then st
        else
          match findHnameAddrInRes resources ep.res x with
          | none => st
          | some place =>
            if place ∈ st.conflicts then st
            else
              { st with
                conflicts := place :: (r, p, ha.2) :: st.conflicts
                configValid := false
                addr := st.addr ++ [x] }
      else { st with addr := st.addr ++ [x] }
    | none => { st with addrtree := tsearch addrtreeKeyCmp e st.addrtree, addr := st.addr ++ [x] }

/-- The two endpoints of a path are not the same. -/
def checkBothEndpoints (st : ConflictState) : ConflictState :=
  match st.addr with
  | [x, y] => if addressesEqual x y && !x.isLocalAddress then { st with configValid := false } else st
  | _ => st

def visitPath (res : Resource) (r : Nat) (st : ConflictState) (path : Path × Nat) : ConflictState :=
  checkBothEndpoints
    (path.1.hnameAddressPairs.zipIdx.foldl (visitEndpoint resources res r path.2) { st with addr := [] })

def visitResource (st : ConflictState) (res : Resource × Nat) : ConflictState :=
  res.1.paths.zipIdx.foldl (visitPath resources res.1 res.2) st

/-- `check_addr_conflict`: `config_valid` afterwards. -/
def checkAddrConflict (configValid : Bool) : Bool :=
  (resources.zipIdx.foldl (visitResource resources) { configValid := configValid }).configValid

end Program

/-! ## What conflicts are -/

/-- The endpoints of a path that are no loopback addresses. -/
def Path.endpoints (res : Resource) (path : Path) : List DAddress :=
  (path.hnameAddressPairs.map (endpointAddr res)).filter (!·.isLocalAddress)

def Resource.endpoints (res : Resource) : List DAddress := res.paths.flatMap (·.endpoints res)

structure NoConflict (resources : List Resource) : Prop where
  /-- No endpoint occurs in two resources. -/
  across : resources.Pairwise fun res res' =>
    ∀ x ∈ res.endpoints, ∀ y ∈ res'.endpoints, addressesEqual x y = false
  /-- The two endpoints of a path differ. -/
  path : ∀ res ∈ resources, ∀ path ∈ res.paths, ∀ x y, path.endpoints res = [x, y] →
    addressesEqual x y = false

/-- The same resources with the same paths, in another order. -/
def Reordered (resources resources' : List Resource) : Prop :=
  ∃ l, l.Perm resources ∧
    List.Forall₂ (fun res res' => res'.allHosts = res.allHosts ∧ res'.paths.Perm res.paths) l resources'

/-- All endpoints that are compared. -/
def IsEndpoint (resources : List Resource) (x : DAddress) : Prop :=
  ∃ res ∈ resources, x ∈ res.endpoints

/-- Conflicts are found in every order, by a comparison that is an order. -/
structure ConflictsFound (resources : List Resource) : Prop where
  preorder : TotalPreorderOn addressesCmp (IsEndpoint resources)
  equal : ∀ x y, IsEndpoint resources x → IsEndpoint resources y →
    (addressesCmp x y = 0 ↔ addressesEqual x y = true)
  found : ∀ resources' configValid, Reordered resources resources' →
    checkAddrConflict resources' configValid = true → NoConflict resources

/-- No address is spelled between two spellings of another one, unless these are in the same order
    by their ports and families. -/
def NoneBetween (s : DAddress → Prop) : Prop :=
  ∀ x m y, s x → s m → s y → ipsMatch x y = true → ipsMatch x m = false →
    strcmp x.addr m.addr < 0 → strcmp m.addr y.addr < 0 → addressesCmp x y < 0

/-- What the parser takes: an IPv6 address, and only it, comes with the family `ipv6`. -/
def FamilySpelled (s : DAddress → Prop) : Prop :=
  ∀ x y, s x → s y → x.addr = y.addr → (lower x.af = "ipv6".toList ↔ lower y.af = "ipv6".toList)

/-! ## The comparison -/

theorem ipsMatch_comm (x y : DAddress) : ipsMatch x y = ipsMatch y x := by
  have hmatch (pton : Text → Option (List Nat)) (s t : Text) : ptonMatch pton s t = ptonMatch pton t s := by
    unfold ptonMatch
    cases pton s <;> cases pton t <;> simp [Bool.beq_comm]
  simp only [ipsMatch, ipv4AddressesMatch, ipv6AddressesMatch, hmatch _ x.addr, and_comm]

theorem ptonMatch_iff (pton : Text → Option (List Nat)) (s t : Text) :
    ptonMatch pton s t = true ↔ ∃ v, pton s = some v ∧ pton t = some v := by
  unfold ptonMatch
  split
  · next v w hv hw =>
    rw [beq_iff_eq, hv, hw]
    constructor
    · rintro rfl
      exact ⟨v, rfl, rfl⟩
    · rintro ⟨u, hu, hu'⟩
      exact (Option.some.inj hu).trans (Option.some.inj hu').symm
  · next hnone =>
    simp only [Bool.false_eq_true, false_iff]
    rintro ⟨v, hv, hw⟩
    exact hnone v v hv hw

/-- Two addresses match in one of the two families, and both are read as the same. -/
theorem ipsMatch_iff (x y : DAddress) :
    ipsMatch x y = true ↔
      (lower x.af = "ipv4".toList ∧ lower y.af = "ipv4".toList ∧
        ∃ v, inetPton4 x.addr = some v ∧ inetPton4 y.addr = some v) ∨
      (lower x.af = "ipv6".toList ∧ lower y.af = "ipv6".toList ∧
        ∃ v, inetPton6 x.addr = some v ∧ inetPton6 y.addr = some v) := by
  have hne : "ipv4".toList ≠ "ipv6".toList := by decide
  rw [← ptonMatch_iff, ← ptonMatch_iff]
  unfold ipsMatch ipv4AddressesMatch ipv6AddressesMatch
  split
  · next h4 =>
    have hnot : ¬(lower x.af = "ipv6".toList) := fun h6 => hne (h4.1.symm.trans h6)
    constructor
    · exact fun h => Or.inl ⟨h4.1, h4.2, h⟩
    · rintro (⟨-, -, h⟩ | ⟨h6, -⟩)
      · exact h
      · exact absurd h6 hnot
  · next h4 =>
    split
    · next h6 =>
      constructor
      · exact fun h => Or.inr ⟨h6.1, h6.2, h⟩
      · rintro (⟨hx, hy, -⟩ | ⟨-, -, h⟩)
        · exact absurd ⟨hx, hy⟩ h4
        · exact h
    · next h6 =>
      constructor
      · exact fun h => absurd h Bool.false_ne_true
      · rintro (⟨hx, hy, -⟩ | ⟨hx, hy, -⟩)
        · exact absurd ⟨hx, hy⟩ h4
        · exact absurd ⟨hx, hy⟩ h6

theorem ipsMatch_trans {x y z : DAddress} (hxy : ipsMatch x y = true) (hyz : ipsMatch y z = true) :
    ipsMatch x z = true := by
  have hne : "ipv4".toList ≠ "ipv6".toList := by decide
  rw [ipsMatch_iff] at *
  rcases hxy with ⟨hx, hy, v, hvx, hvy⟩ | ⟨hx, hy, v, hvx, hvy⟩
  · rcases hyz with ⟨-, hz, w, hwy, hwz⟩ | ⟨hy', -⟩
    · rw [hvy] at hwy
      cases hwy
      exact Or.inl ⟨hx, hz, v, hvx, hwz⟩
    · exact absurd (hy.symm.trans hy') hne
  · rcases hyz with ⟨hy', -⟩ | ⟨-, hz, w, hwy, hwz⟩
    · exact absurd (hy'.symm.trans hy) hne
    · rw [hvy] at hwy
      cases hwy
      exact Or.inr ⟨hx, hz, v, hvx, hwz⟩

/-- The order by port and family. -/
def portAfCmp (x y : DAddress) : Int :=
  if strcmp x.port y.port = 0 then strcmp x.af y.af else strcmp x.port y.port

theorem portAfCmp_swap (x y : DAddress) : portAfCmp y x = -portAfCmp x y := by
  unfold portAfCmp
  rw [strcmp_swap x.port y.port, strcmp_swap x.af y.af]
  split <;> split <;> omega

theorem portAfCmp_trans {x y z : DAddress} (hxy : portAfCmp x y ≤ 0) (hyz : portAfCmp y z ≤ 0) :
    portAfCmp x z ≤ 0 := by
  unfold portAfCmp at *
  by_cases hxyp : strcmp x.port y.port = 0
  · rw [if_pos hxyp] at hxy
    rw [strcmp_eq_zero.1 hxyp]
    by_cases hyzp : strcmp y.port z.port = 0
    · rw [if_pos hyzp] at hyz ⊢
      exact strcmp_trans hxy hyz
    · rwa [if_neg hyzp] at hyz ⊢
  · rw [if_neg hxyp] at hxy
    have hyzp : strcmp y.port z.port ≤ 0 := by
      by_cases h : strcmp y.port z.port = 0
      · omega
      · rwa [if_neg h] at hyz
    have hlt := strcmp_trans_lt (by omega : strcmp x.port y.port < 0) hyzp
    rw [if_neg (by omega)]
    omega

/-- What decides where the addresses match. -/
theorem addressesCmp_of_match {x y : DAddress} (h : ipsMatch x y = true) :
    addressesCmp x y = portAfCmp x y := by
  simp only [addressesCmp, portAfCmp, h, if_true]

theorem addressesCmp_of_not_match {x y : DAddress} (h : ipsMatch x y = false) :
    addressesCmp x y =
      if strcmp x.addr y.addr = 0 then portAfCmp x y else strcmp x.addr y.addr := by
  simp only [addressesCmp, portAfCmp, h, Bool.false_eq_true, if_false]

theorem addressesCmp_swap (x y : DAddress) : addressesCmp y x = -addressesCmp x y := by
  cases h : ipsMatch x y with
  | true => rw [addressesCmp_of_match h, addressesCmp_of_match (ipsMatch_comm x y ▸ h), portAfCmp_swap]
  | false =>
    rw [addressesCmp_of_not_match h, addressesCmp_of_not_match (ipsMatch_comm x y ▸ h),
      portAfCmp_swap x y, strcmp_swap x.addr y.addr]
    split <;> split <;> omega

theorem addressesEqual_iff (x y : DAddress) : addressesEqual x y = true ↔ addressesCmp x y = 0 :=
  beq_iff_eq

/-- Where an address matches one and is spelled like another one that it does not match, it has one
    spelling only. -/
theorem addr_eq_of_match {s : DAddress → Prop} (hfamily : FamilySpelled s) {x m z : DAddress}
    (hx : s x) (hz : s z) (hmatch : ipsMatch x m = true) (haddr : x.addr = z.addr)
    (hno : ipsMatch x z = false) : x.addr = m.addr := by
  rcases (ipsMatch_iff x m).1 hmatch with ⟨-, -, v, hvx, hvm⟩ | ⟨h6, -, v, hvx, -⟩
  · exact inetPton4_inj hvx hvm
  · have hz6 := (hfamily x z hx hz haddr).1 h6
    have hyes := (ipsMatch_iff x z).2 (Or.inr ⟨h6, hz6, v, hvx, haddr ▸ hvx⟩)
    rw [hno] at hyes
    cases hyes

section Order

variable {s : DAddress → Prop} {x m y : DAddress}

theorem strcmp_le_of_cmp (h : ipsMatch x y = false) (hle : addressesCmp x y ≤ 0) :
    strcmp x.addr y.addr < 0 ∨ x.addr = y.addr ∧ portAfCmp x y ≤ 0 := by
  rw [addressesCmp_of_not_match h] at hle
  split at hle
  · next hzero => exact Or.inr ⟨strcmp_eq_zero.1 hzero, hle⟩
  · exact Or.inl (by omega)

theorem cmp_le_of_strcmp (h : ipsMatch x y = false)
    (hle : strcmp x.addr y.addr < 0 ∨ x.addr = y.addr ∧ portAfCmp x y ≤ 0) :
    addressesCmp x y ≤ 0 := by
  rw [addressesCmp_of_not_match h]
  rcases hle with hlt | ⟨heq, hle⟩
  · rw [if_neg (by omega)]
    omega
  · rwa [if_pos (strcmp_eq_zero.2 heq)]

/-- The first two have one address, the third one another. -/
theorem cmp_trans_left (hfamily : FamilySpelled s) (hnone : NoneBetween s) (hx : s x) (hm : s m)
    (hy : s y) (hxm : ipsMatch x m = true) (hmy : ipsMatch m y = false) (hle : addressesCmp x m ≤ 0)
    (hle' : addressesCmp m y ≤ 0) : addressesCmp x y ≤ 0 := by
  have hmx : ipsMatch m x = true := ipsMatch_comm x m ▸ hxm
  have hxy : ipsMatch x y = false := by
    by_contra hcon
    rw [ipsMatch_trans hmx (by simpa using hcon)] at hmy
    cases hmy
  have hport := hle
  rw [addressesCmp_of_match hxm] at hport
  refine cmp_le_of_strcmp hxy ?_
  rcases strcmp_le_of_cmp hmy hle' with hlt | ⟨haddr, hport'⟩
  · rcases Int.lt_trichotomy (strcmp x.addr y.addr) 0 with hneg | hzero | hpos
    · exact Or.inl hneg
    · have heq := addr_eq_of_match hfamily hx hy hxm (strcmp_eq_zero.1 hzero) hxy
      rw [← heq] at hlt
      omega
    · have hswap := strcmp_swap x.addr y.addr
      have hbetween := hnone m y x hm hy hx hmx hmy hlt (by omega)
      have := addressesCmp_swap x m
      omega
  · have heq := addr_eq_of_match hfamily hm hy hmx haddr hmy
    exact Or.inr ⟨heq.symm.trans haddr, portAfCmp_trans hport hport'⟩

/-- The last two have one address, the first one another. -/
theorem cmp_trans_right (hfamily : FamilySpelled s) (hnone : NoneBetween s) (hx : s x) (hm : s m)
    (hy : s y) (hxm : ipsMatch x m = false) (hmy : ipsMatch m y = true) (hle : addressesCmp x m ≤ 0)
    (hle' : addressesCmp m y ≤ 0) : addressesCmp x y ≤ 0 := by
  have hym : ipsMatch y m = true := ipsMatch_comm m y ▸ hmy
  have hyx : ipsMatch y x = false := by
    by_contra hcon
    rw [ipsMatch_comm, ipsMatch_trans hmy (by simpa using hcon)] at hxm
    cases hxm
  have hmx : ipsMatch m x = false := ipsMatch_comm x m ▸ hxm
  have hport := hle'
  rw [addressesCmp_of_match hmy] at hport
  refine cmp_le_of_strcmp (ipsMatch_comm y x ▸ hyx) ?_
  rcases strcmp_le_of_cmp hxm hle with hlt | ⟨haddr, hport'⟩
  · rcases Int.lt_trichotomy (strcmp x.addr y.addr) 0 with hneg | hzero | hpos
    · exact Or.inl hneg
    · have heq := addr_eq_of_match hfamily hy hx hym (strcmp_eq_zero.1 hzero).symm hyx
      rw [← heq] at hlt
      omega
    · have hswap := strcmp_swap x.addr y.addr
      have hbetween := hnone y x m hy hx hm hym hyx (by omega) hlt
      have := addressesCmp_swap m y
      omega
  · have heq := addr_eq_of_match hfamily hm hx hmy haddr.symm hmx
    exact Or.inr ⟨haddr.trans heq, portAfCmp_trans hport' hport⟩

/-- The second one has another address than the other two. -/
theorem cmp_trans_outer (hfamily : FamilySpelled s) (hnone : NoneBetween s) (hx : s x) (hm : s m)
    (hy : s y) (hxm : ipsMatch x m = false) (hmy : ipsMatch m y = false) (hle : addressesCmp x m ≤ 0)
    (hle' : addressesCmp m y ≤ 0) : addressesCmp x y ≤ 0 := by
  have hfirst := strcmp_le_of_cmp hxm hle
  have hsecond := strcmp_le_of_cmp hmy hle'
  cases hxy : ipsMatch x y with
  | false =>
    refine cmp_le_of_strcmp hxy ?_
    rcases hfirst with hlt | ⟨haddr, hport⟩
    · rcases hsecond with hlt' | ⟨haddr', -⟩
      · exact Or.inl (strcmp_trans_lt hlt (Int.le_of_lt hlt'))
      · exact Or.inl (haddr' ▸ hlt)
    · rcases hsecond with hlt' | ⟨haddr', hport'⟩
      · exact Or.inl (haddr ▸ hlt')
      · exact Or.inr ⟨haddr.trans haddr', portAfCmp_trans hport hport'⟩
  | true =>
    have hyx : ipsMatch y x = true := ipsMatch_comm x y ▸ hxy
    have hym : ipsMatch y m = false := ipsMatch_comm m y ▸ hmy
    rcases hfirst with hlt | ⟨haddr, hport⟩
    · rcases hsecond with hlt' | ⟨haddr', -⟩
      · exact Int.le_of_lt (hnone x m y hx hm hy hxy hxm hlt hlt')
      · have heq := addr_eq_of_match hfamily hy hm hyx haddr'.symm hym
        rw [haddr', ← heq, strcmp_self] at hlt
        omega
    · have heq := addr_eq_of_match hfamily hx hm hxy haddr hxm
      rcases hsecond with hlt' | ⟨haddr', hport'⟩
      · rw [← haddr, ← heq, strcmp_self] at hlt'
        omega
      · rw [addressesCmp_of_match hxy]
        exact portAfCmp_trans hport hport'

/-- The comparison is an order on the endpoints exactly when no address is between two spellings. -/
theorem totalPreorderOn_iff (hfamily : FamilySpelled s) :
    TotalPreorderOn addressesCmp s ↔ NoneBetween s := by
  constructor
  · intro h x m y hx hm hy hxy hxm hlt hlt'
    have hmy : ipsMatch m y = false := by
      by_contra hcon
      have hym : ipsMatch y m = true := by rw [ipsMatch_comm]; simpa using hcon
      rw [ipsMatch_trans hxy hym] at hxm
      cases hxm
    refine h.lt_trans hx hm hy ?_ ?_
    · rw [addressesCmp_of_not_match hxm, if_neg (by omega)]
      exact hlt
    · rw [addressesCmp_of_not_match hmy, if_neg (by omega)]
      exact hlt'
  · intro hnone
    refine ⟨fun x y _ _ => ?_, fun x m y hx hm hy hle hle' => ?_⟩
    · have := addressesCmp_swap x y
      omega
    · cases hxm : ipsMatch x m with
      | true =>
        cases hmy : ipsMatch m y with
        | true =>
          rw [addressesCmp_of_match hxm] at hle
          rw [addressesCmp_of_match hmy] at hle'
          rw [addressesCmp_of_match (ipsMatch_trans hxm hmy)]
          exact portAfCmp_trans hle hle'
        | false => exact cmp_trans_left hfamily hnone hx hm hy hxm hmy hle hle'
      | false =>
        cases hmy : ipsMatch m y with
        | true => exact cmp_trans_right hfamily hnone hx hm hy hxm hmy hle hle'
        | false => exact cmp_trans_outer hfamily hnone hx hm hy hxm hmy hle hle'

end Order

/-! ## The loops -/

/-- An entry is an endpoint of its resource. -/
def EntryOf (resources : List Resource) (e : AddrtreeEntry) : Prop :=
  ∃ res, resources[e.res]? = some res ∧ e.da ∈ res.endpoints

/-- What is known while `config_valid` is set: the tree has an equal entry of the same resource for
    each endpoint that was visited. -/
structure Sound (done : List AddrtreeEntry) (st : ConflictState) : Prop where
  ordered : Ordered addrtreeKeyCmp st.addrtree
  mem : ∀ t, Mem t st.addrtree → t ∈ done
  covered : ∀ e ∈ done, ∃ t, Mem t st.addrtree ∧ addrtreeKeyCmp e t = 0 ∧ t.res = e.res
  conflicts : st.conflicts = []

section Loops

variable {resources : List Resource}

theorem findHnameAddrInRes_ne_none {r : Nat} {res : Resource} {x y : DAddress}
    (hres : resources[r]? = some res) (hy : y ∈ res.endpoints) (hxy : addressesEqual x y = true) :
    findHnameAddrInRes resources r x ≠ none := by
  obtain ⟨path, hpath, hmem⟩ := List.mem_flatMap.1 hy
  obtain ⟨ha, hha, rfl⟩ := List.mem_map.1 (List.mem_filter.1 hmem).1
  obtain ⟨p, hp⟩ := List.mem_iff_getElem?.1 hpath
  obtain ⟨k, hk⟩ := List.mem_iff_getElem?.1 hha
  unfold findHnameAddrInRes
  rw [hres]
  intro hnone
  have hall := List.findSome?_eq_none_iff.1 hnone (ha, (r, p, k))
    (List.mem_flatMap.2 ⟨(path, p), List.mem_zipIdx_iff_getElem?.2 hp,
      List.mem_map.2 ⟨(ha, k), List.mem_zipIdx_iff_getElem?.2 hk, rfl⟩⟩)
  simp [hxy] at hall

theorem configValid_of_visitEndpoint {res : Resource} {r p : Nat} {st : ConflictState}
    {ha : HnameAddress × Nat}
    (h : (visitEndpoint resources res r p st ha).configValid = true) : st.configValid = true := by
  unfold visitEndpoint at h
  dsimp only at h
  split at h
  · exact h
  · split at h
    · split at h
      · split at h
        · exact h
        · split at h
          · exact h
          · split at h
            · exact h
            · cases h
      · exact h
    · exact h

theorem configValid_of_checkBothEndpoints {st : ConflictState}
    (h : (checkBothEndpoints st).configValid = true) :
    st.configValid = true ∧ checkBothEndpoints st = st := by
  unfold checkBothEndpoints at *
  split at h
  · split at h
    · cases h
    · next hif => exact ⟨h, if_neg hif⟩
  · exact ⟨h, rfl⟩

/-- A loop that keeps `config_valid` only if each turn does. -/
theorem configValid_of_foldl {β : Type} {f : ConflictState → β → ConflictState}
    (hf : ∀ st b, (f st b).configValid = true → st.configValid = true) {l : List β}
    {st : ConflictState} (h : (l.foldl f st).configValid = true) : st.configValid = true := by
  induction l generalizing st with
  | nil => exact h
  | cons b l ih => exact hf st b (ih h)

theorem configValid_of_visitPath {res : Resource} {r : Nat} {st : ConflictState} {path : Path × Nat}
    (h : (visitPath resources res r st path).configValid = true) : st.configValid = true :=
  @configValid_of_foldl _ (visitEndpoint resources res r path.2)
    (fun _ _ => configValid_of_visitEndpoint) _ { st with addr := [] }
    (configValid_of_checkBothEndpoints h).1

theorem configValid_of_visitResource {st : ConflictState} {res : Resource × Nat}
    (h : (visitResource resources st res).configValid = true) : st.configValid = true :=
  configValid_of_foldl (fun _ _ => configValid_of_visitPath) h

/-- The comparison of entries is an order where that of the endpoints is one. -/
theorem totalPreorderOn_entries (hcmp : TotalPreorderOn addressesCmp (IsEndpoint resources)) :
    TotalPreorderOn addrtreeKeyCmp (EntryOf resources) := by
  have hend (e : AddrtreeEntry) (he : EntryOf resources e) : IsEndpoint resources e.da := by
    obtain ⟨res, hres, hmem⟩ := he
    exact ⟨res, List.mem_of_getElem? hres, hmem⟩
  exact ⟨fun a b ha hb => hcmp.swap a.da b.da (hend a ha) (hend b hb),
    fun a b c ha hb hc => hcmp.trans a.da b.da c.da (hend a ha) (hend b hb) (hend c hc)⟩

/-- An endpoint is entered, or found as one of its own resource, or `config_valid` is cleared. -/
theorem Sound.visitEndpoint (hcmp : TotalPreorderOn addrtreeKeyCmp (EntryOf resources))
    {done : List AddrtreeEntry} (hdone : ∀ e ∈ done, EntryOf resources e) {st : ConflictState}
    (h : Sound done st) {res : Resource} {r p : Nat} (ha : HnameAddress × Nat)
    (hres : resources[r]? = some res)
    (hmem : (endpointAddr res ha.1).isLocalAddress = false → endpointAddr res ha.1 ∈ res.endpoints)
    (hvalid : (visitEndpoint resources res r p st ha).configValid = true) :
    Sound (done ++ ([endpointAddr res ha.1].filter (!·.isLocalAddress)).map (⟨·, r⟩))
        (visitEndpoint resources res r p st ha) ∧
      (visitEndpoint resources res r p st ha).addr =
        st.addr ++ [endpointAddr res ha.1].filter (!·.isLocalAddress) := by
  have htree : ∀ t, Mem t st.addrtree → EntryOf resources t := fun t ht => hdone t (h.mem t ht)
  unfold PostParse.visitEndpoint at *
  dsimp only at *
  cases hlocal : (endpointAddr res ha.1).isLocalAddress with
  | true => simpa [hlocal] using h
  | false =>
    have hentry : EntryOf resources ⟨endpointAddr res ha.1, r⟩ := ⟨res, hres, hmem hlocal⟩
    have hfilter : [endpointAddr res ha.1].filter (!·.isLocalAddress) = [endpointAddr res ha.1] := by
      simp [hlocal]
    simp only [hlocal, Bool.false_eq_true, if_false] at hvalid
    rw [hfilter]
    simp only [Bool.false_eq_true, if_false, List.map_cons, List.map_nil]
    cases hfind : tfind addrtreeKeyCmp ⟨endpointAddr res ha.1, r⟩ st.addrtree with
    | none =>
      refine ⟨⟨h.ordered.tsearch hcmp hentry htree, fun t ht => ?_, fun e he => ?_, h.conflicts⟩, rfl⟩
      · rcases mem_tsearch ht with rfl | ht
        · exact List.mem_append_right _ (List.mem_singleton_self _)
        · exact List.mem_append_left _ (h.mem t ht)
      · rcases List.mem_append.1 he with he | he
        · obtain ⟨t, ht, hzero, hsame⟩ := h.covered e he
          exact ⟨t, mem_tsearch_of_mem ht, hzero, hsame⟩
        · rw [List.mem_singleton.1 he]
          refine ⟨_, mem_tsearch_self hfind, ?_, rfl⟩
          have hswap := addressesCmp_swap (endpointAddr res ha.1) (endpointAddr res ha.1)
          simp only [addrtreeKeyCmp]
          omega
    | some ep =>
      obtain ⟨hep, hzero⟩ := mem_of_tfind hfind
      obtain ⟨res', hres', hmem'⟩ := htree ep hep
      rw [hfind] at hvalid
      dsimp only at hvalid ⊢
      by_cases hne : ep.res ≠ r
      · -- the entry of another resource is found again there, and reported
        exfalso
        have hsome := findHnameAddrInRes_ne_none hres' hmem' ((addressesEqual_iff _ _).2 hzero)
        rw [if_pos hne, h.conflicts, if_neg (List.not_mem_nil)] at hvalid
        split at hvalid
        · next hnone => exact hsome hnone
        · rw [if_neg (List.not_mem_nil)] at hvalid
          cases hvalid
      · rw [if_neg hne]
        refine ⟨⟨h.ordered, fun t ht => List.mem_append_left _ (h.mem t ht), fun e he => ?_,
          h.conflicts⟩, rfl⟩
        rcases List.mem_append.1 he with he | he
        · exact h.covered e he
        · rw [List.mem_singleton.1 he]
          exact ⟨ep, hep, hzero, not_not.1 hne⟩

/-- The endpoints of a list are entered one after the other. -/
theorem Sound.endpoints (hcmp : TotalPreorderOn addrtreeKeyCmp (EntryOf resources))
    {res : Resource} {r p : Nat} (hres : resources[r]? = some res)
    {l : List (HnameAddress × Nat)}
    (hmem : ∀ ha ∈ l, (endpointAddr res ha.1).isLocalAddress = false →
      endpointAddr res ha.1 ∈ res.endpoints)
    {done : List AddrtreeEntry} (hdone : ∀ e ∈ done, EntryOf resources e) {st : ConflictState}
    (h : Sound done st)
    (hvalid : (l.foldl (PostParse.visitEndpoint resources res r p) st).configValid = true) :
    Sound (done ++ ((l.map (endpointAddr res ·.1)).filter (!·.isLocalAddress)).map (⟨·, r⟩))
        (l.foldl (PostParse.visitEndpoint resources res r p) st) ∧
      (l.foldl (PostParse.visitEndpoint resources res r p) st).addr =
        st.addr ++ (l.map (endpointAddr res ·.1)).filter (!·.isLocalAddress) := by
  induction l generalizing done st with
  | nil => simpa using h
  | cons ha l ih =>
    rw [List.foldl_cons] at hvalid ⊢
    have hhead := hmem ha (List.mem_cons_self ..)
    have hrest := fun ha' hha' => hmem ha' (List.mem_cons_of_mem _ hha')
    obtain ⟨hsound, haddr⟩ := h.visitEndpoint hcmp hdone ha hres hhead
      (configValid_of_foldl (fun _ _ => configValid_of_visitEndpoint) hvalid)
    have hdone' : ∀ e ∈ done ++ ([endpointAddr res ha.1].filter (!·.isLocalAddress)).map (⟨·, r⟩),
        EntryOf resources e := by
      intro e he
      rcases List.mem_append.1 he with he | he
      · exact hdone e he
      · obtain ⟨x, hx, rfl⟩ := List.mem_map.1 he
        obtain ⟨hx, hlocal⟩ := List.mem_filter.1 hx
        rw [List.mem_singleton] at hx
        rw [hx] at hlocal ⊢
        exact ⟨res, hres, hhead (by simpa using hlocal)⟩
    obtain ⟨hsound', haddr'⟩ := ih hrest hdone' hsound hvalid
    have hsplit : ((ha :: l).map (endpointAddr res ·.1)).filter (!·.isLocalAddress) =
        [endpointAddr res ha.1].filter (!·.isLocalAddress) ++
          (l.map (endpointAddr res ·.1)).filter (!·.isLocalAddress) := by
      rw [List.map_cons, ← List.filter_append]
      rfl
    rw [List.append_assoc] at hsound'
    rw [hsplit, List.map_append, haddr', haddr, List.append_assoc]
    exact ⟨hsound', rfl⟩

/-- A loop whose turns enter what they visit. -/
theorem Sound.foldl {β : Type} {f : ConflictState → β → ConflictState} {new : β → List AddrtreeEntry}
    {good : β → Prop} {l : List β}
    (hvalid : ∀ st b, (f st b).configValid = true → st.configValid = true)
    (hnew : ∀ b ∈ l, ∀ e ∈ new b, EntryOf resources e)
    (hstep : ∀ b ∈ l, ∀ done st, (∀ e ∈ done, EntryOf resources e) → Sound done st →
      (f st b).configValid = true → Sound (done ++ new b) (f st b) ∧ good b)
    {done : List AddrtreeEntry} (hdone : ∀ e ∈ done, EntryOf resources e) {st : ConflictState}
    (h : Sound done st) (hrun : (l.foldl f st).configValid = true) :
    Sound (done ++ l.flatMap new) (l.foldl f st) ∧ ∀ b ∈ l, good b := by
  induction l generalizing done st with
  | nil => simpa using h
  | cons b l ih =>
    rw [List.foldl_cons] at hrun ⊢
    obtain ⟨hsound, hgood⟩ := hstep b (List.mem_cons_self ..) done st hdone h
      (configValid_of_foldl hvalid hrun)
    have hdone' : ∀ e ∈ done ++ new b, EntryOf resources e := fun e he =>
      (List.mem_append.1 he).elim (hdone e) (hnew b (List.mem_cons_self ..) e)
    obtain ⟨hsound', hgood'⟩ := ih (fun b' hb' => hnew b' (List.mem_cons_of_mem _ hb'))
      (fun b' hb' => hstep b' (List.mem_cons_of_mem _ hb')) hdone' hsound hrun
    rw [List.flatMap_cons, ← List.append_assoc]
    refine ⟨hsound', fun b' hb' => ?_⟩
    rcases List.mem_cons.1 hb' with rfl | hb'
    · exact hgood
    · exact hgood' b' hb'

theorem endpoints_subset {res : Resource} {path : Path} (hpath : path ∈ res.paths) {x : DAddress}
    (hx : x ∈ path.endpoints res) : x ∈ res.endpoints :=
  List.mem_flatMap.2 ⟨path, hpath, hx⟩

/-- The two endpoints of a path are compared when both were entered. -/
theorem Sound.visitPath (hcmp : TotalPreorderOn addrtreeKeyCmp (EntryOf resources))
    {res : Resource} {r : Nat} (hres : resources[r]? = some res) {path : Path × Nat}
    (hpath : path.1 ∈ res.paths) {done : List AddrtreeEntry}
    (hdone : ∀ e ∈ done, EntryOf resources e) {st : ConflictState} (h : Sound done st)
    (hvalid : (visitPath resources res r st path).configValid = true) :
    Sound (done ++ (path.1.endpoints res).map (⟨·, r⟩)) (visitPath resources res r st path) ∧
      ∀ x y, path.1.endpoints res = [x, y] → addressesEqual x y = false := by
  obtain ⟨hrun, hsame⟩ := configValid_of_checkBothEndpoints hvalid
  have hfst : (path.1.hnameAddressPairs.zipIdx.map (endpointAddr res ·.1)) =
      path.1.hnameAddressPairs.map (endpointAddr res) := by
    rw [← List.zipIdx_map_fst 0 path.1.hnameAddressPairs, List.map_map, List.zipIdx_map_fst]
    rfl
  have hstart : Sound done { st with addr := [] } := ⟨h.ordered, h.mem, h.covered, h.conflicts⟩
  obtain ⟨hsound, haddr⟩ := Sound.endpoints hcmp hres
    (fun ha hha hlocal => endpoints_subset hpath (List.mem_filter.2
      ⟨List.mem_map_of_mem (List.fst_mem_of_mem_zipIdx hha), by simp [hlocal]⟩)) hdone hstart hrun
  rw [hfst] at hsound haddr
  rw [List.nil_append] at haddr
  unfold PostParse.visitPath
  rw [hsame]
  refine ⟨hsound, fun x y hxy => ?_⟩
  have haddr' := haddr.trans hxy
  have hlocal : x.isLocalAddress = false := by
    have hmem : x ∈ path.1.endpoints res := hxy ▸ List.mem_cons_self ..
    simpa using (List.mem_filter.1 hmem).2
  unfold PostParse.visitPath checkBothEndpoints at hvalid
  rw [haddr'] at hvalid
  dsimp only at hvalid
  split at hvalid
  · cases hvalid
  · next hif => simpa [hlocal] using hif

theorem Sound.visitResource (hcmp : TotalPreorderOn addrtreeKeyCmp (EntryOf resources))
    {res : Resource × Nat} (hres : resources[res.2]? = some res.1) {done : List AddrtreeEntry}
    (hdone : ∀ e ∈ done, EntryOf resources e) {st : ConflictState} (h : Sound done st)
    (hvalid : (visitResource resources st res).configValid = true) :
    Sound (done ++ res.1.endpoints.map (⟨·, res.2⟩)) (visitResource resources st res) ∧
      ∀ path ∈ res.1.paths, ∀ x y, path.endpoints res.1 = [x, y] → addressesEqual x y = false := by
  obtain ⟨hsound, hgood⟩ := Sound.foldl (l := res.1.paths.zipIdx)
    (fun _ _ => configValid_of_visitPath)
    (fun path hpath e he => by
      obtain ⟨x, hx, rfl⟩ := List.mem_map.1 he
      exact ⟨res.1, hres, endpoints_subset (List.fst_mem_of_mem_zipIdx hpath) hx⟩)
    (fun path hpath done st hdone h hvalid =>
      Sound.visitPath hcmp hres (List.fst_mem_of_mem_zipIdx hpath) hdone h hvalid) hdone h hvalid
  have hentries : res.1.paths.zipIdx.flatMap (fun path => (path.1.endpoints res.1).map
      fun x => (⟨x, res.2⟩ : AddrtreeEntry)) = res.1.endpoints.map (⟨·, res.2⟩) := by
    unfold Resource.endpoints
    rw [List.map_flatMap, ← List.flatMap_map (f := Prod.fst)
      (g := fun path : Path => (path.endpoints res.1).map fun x => (⟨x, res.2⟩ : AddrtreeEntry)),
      List.zipIdx_map_fst]
  rw [hentries] at hsound
  refine ⟨hsound, fun path hpath => ?_⟩
  obtain ⟨p, hp⟩ := List.mem_iff_getElem?.1 hpath
  exact hgood (path, p) (List.mem_zipIdx_iff_getElem?.2 hp)

/-- Where the comparison is an order, nothing is overlooked. -/
theorem noConflict_of_checkAddrConflict
    (hcmp : TotalPreorderOn addressesCmp (IsEndpoint resources)) {configValid : Bool}
    (h : checkAddrConflict resources configValid = true) : NoConflict resources := by
  have hcmp' := totalPreorderOn_entries hcmp
  have hstart : Sound [] { configValid := configValid } :=
    ⟨trivial, fun _ ht => ht.elim, fun _ he => (List.not_mem_nil he).elim, rfl⟩
  obtain ⟨hsound, hgood⟩ := Sound.foldl (l := resources.zipIdx)
    (fun _ _ => configValid_of_visitResource)
    (fun res hres e he => by
      obtain ⟨x, hx, rfl⟩ := List.mem_map.1 he
      exact ⟨res.1, List.mem_zipIdx_iff_getElem?.1 hres, hx⟩)
    (fun res hres done st hdone h hvalid =>
      Sound.visitResource hcmp' (List.mem_zipIdx_iff_getElem?.1 hres) hdone h hvalid)
    (fun _ he => (List.not_mem_nil he).elim) hstart h
  rw [List.nil_append] at hsound
  have hentry (e : AddrtreeEntry) (he : e ∈ resources.zipIdx.flatMap fun res =>
      res.1.endpoints.map fun x => (⟨x, res.2⟩ : AddrtreeEntry)) : EntryOf resources e := by
    obtain ⟨res, hres, he⟩ := List.mem_flatMap.1 he
    obtain ⟨x, hx, rfl⟩ := List.mem_map.1 he
    exact ⟨res.1, List.mem_zipIdx_iff_getElem?.1 hres, hx⟩
  have hdone (i : Nat) (hi : i < resources.length) (x : DAddress)
      (hx : x ∈ resources[i].endpoints) : (⟨x, i⟩ : AddrtreeEntry) ∈ resources.zipIdx.flatMap
        fun res => res.1.endpoints.map fun x => (⟨x, res.2⟩ : AddrtreeEntry) :=
    List.mem_flatMap.2 ⟨(resources[i], i), List.mem_zipIdx_iff_getElem?.2
      (List.getElem?_eq_getElem hi), List.mem_map.2 ⟨x, hx, rfl⟩⟩
  refine ⟨?_, fun res hres path hpath => ?_⟩
  · rw [List.pairwise_iff_getElem]
    intro i j hi hj hij x hx y hy
    by_contra hcon
    have hzero := (addressesEqual_iff x y).1 (by simpa using hcon)
    obtain ⟨t, ht, hxt, hti⟩ := hsound.covered _ (hdone i hi x hx)
    obtain ⟨u, hu, hyu, huj⟩ := hsound.covered _ (hdone j hj y hy)
    have hte := hentry t (hsound.mem t ht)
    have hue := hentry u (hsound.mem u hu)
    have hxe := hentry _ (hdone i hi x hx)
    have hye := hentry _ (hdone j hj y hy)
    have htx := (hcmp'.eq_zero_comm hxe hte).1 hxt
    have hty := hcmp'.eq_zero_trans hte hxe hye htx hzero
    have htu := hsound.ordered.eq_of_mem hcmp' (fun b hb => hentry b (hsound.mem b hb)) ht hu
      (hcmp'.eq_zero_trans hte hye hue hty hyu)
    rw [htu, huj] at hti
    exact absurd hti (Nat.ne_of_gt hij)
  · obtain ⟨r, hr⟩ := List.mem_iff_getElem?.1 hres
    exact hgood (res, r) (List.mem_zipIdx_iff_getElem?.2 hr) path hpath

end Loops

/-! ## Every order -/

section Reordered

variable {resources resources' : List Resource}

theorem endpoints_of_reordered {res res' : Resource} (hhosts : res'.allHosts = res.allHosts)
    (hpaths : res'.paths.Perm res.paths) (path : Path) :
    path.endpoints res' = path.endpoints res := by
  have haddr : endpointAddr res' = endpointAddr res := by
    funext ha
    unfold endpointAddr
    rw [hhosts]
  unfold Path.endpoints
  rw [haddr]

theorem mem_endpoints_of_reordered {res res' : Resource} (hhosts : res'.allHosts = res.allHosts)
    (hpaths : res'.paths.Perm res.paths) (x : DAddress) :
    x ∈ res'.endpoints ↔ x ∈ res.endpoints := by
  unfold Resource.endpoints
  simp only [List.mem_flatMap, hpaths.mem_iff, endpoints_of_reordered hhosts hpaths]

theorem Reordered.exists_mem (h : Reordered resources resources') {res : Resource}
    (hres : res ∈ resources) :
    ∃ res' ∈ resources', res'.allHosts = res.allHosts ∧ res'.paths.Perm res.paths := by
  obtain ⟨l, hperm, hall⟩ := h
  replace hres := hperm.mem_iff.2 hres
  clear hperm
  induction hall with
  | nil => cases hres
  | cons hhead htail ih =>
    rcases List.mem_cons.1 hres with rfl | hres
    · exact ⟨_, List.mem_cons_self .., hhead⟩
    · obtain ⟨res', hmem, hsame⟩ := ih hres
      exact ⟨res', List.mem_cons_of_mem _ hmem, hsame⟩

theorem Reordered.exists_mem_right (h : Reordered resources resources') {res' : Resource}
    (hres : res' ∈ resources') :
    ∃ res ∈ resources, res'.allHosts = res.allHosts ∧ res'.paths.Perm res.paths := by
  obtain ⟨l, hperm, hall⟩ := h
  suffices hl : ∃ res ∈ l, res'.allHosts = res.allHosts ∧ res'.paths.Perm res.paths by
    obtain ⟨res, hmem, hsame⟩ := hl
    exact ⟨res, hperm.mem_iff.1 hmem, hsame⟩
  clear hperm
  induction hall with
  | nil => cases hres
  | cons hhead htail ih =>
    rcases List.mem_cons.1 hres with rfl | hres
    · exact ⟨_, List.mem_cons_self .., hhead⟩
    · obtain ⟨res, hmem, hsame⟩ := ih hres
      exact ⟨res, List.mem_cons_of_mem _ hmem, hsame⟩

theorem Reordered.isEndpoint (h : Reordered resources resources') {x : DAddress}
    (hx : IsEndpoint resources' x) : IsEndpoint resources x := by
  obtain ⟨res', hres', hmem⟩ := hx
  obtain ⟨res, hres, hhosts, hpaths⟩ := h.exists_mem_right hres'
  exact ⟨res, hres, (mem_endpoints_of_reordered hhosts hpaths x).1 hmem⟩

/-- Conflicts do not depend on the order. -/
theorem Reordered.noConflict (h : Reordered resources resources') (hno : NoConflict resources') :
    NoConflict resources := by
  refine ⟨?_, fun res hres path hpath x y hxy => ?_⟩
  · obtain ⟨l, hperm, hall⟩ := h
    have hsymm : Symmetric fun res res' : Resource =>
        ∀ x ∈ res.endpoints, ∀ y ∈ res'.endpoints, addressesEqual x y = false := by
      intro res res' hall y hy x hx
      have hxy := hall x hx y hy
      rw [← Bool.not_eq_true, addressesEqual_iff] at hxy ⊢
      have := addressesCmp_swap x y
      omega
    refine (hperm.pairwise_iff fun hres => hsymm hres).1 ?_
    have hacross := hno.across
    clear hno hperm
    induction hall with
    | nil => exact List.Pairwise.nil
    | @cons res res' l l' hhead htail ih =>
      obtain ⟨hfirst, hrest⟩ := List.pairwise_cons.1 hacross
      refine List.pairwise_cons.2 ⟨fun other hother x hx y hy => ?_, ih hrest⟩
      obtain ⟨other', hother', hhosts, hpaths⟩ :=
        Reordered.exists_mem ⟨l, List.Perm.refl l, htail⟩ hother
      exact hfirst other' hother' x ((mem_endpoints_of_reordered hhead.1 hhead.2 x).2 hx) y
        ((mem_endpoints_of_reordered hhosts hpaths y).2 hy)
  · obtain ⟨res', hres', hhosts, hpaths⟩ := h.exists_mem hres
    refine hno.path res' hres' path (hpaths.mem_iff.2 hpath) x y ?_
    rw [endpoints_of_reordered hhosts hpaths, hxy]

end Reordered

/-- Every conflict is found in every order exactly when no address is spelled between two spellings
    of another one. -/
theorem conflictsFound_iff (resources : List Resource)
    (hfamily : FamilySpelled (IsEndpoint resources)) :
    ConflictsFound resources ↔ NoneBetween (IsEndpoint resources) := by
  constructor
  · exact fun h => (totalPreorderOn_iff hfamily).1 h.preorder
  · intro hnone
    have hcmp := (totalPreorderOn_iff hfamily).2 hnone
    refine ⟨hcmp, fun x y _ _ => (addressesEqual_iff x y).symm, ?_⟩
    intro resources' configValid hreordered hcheck
    exact hreordered.noConflict (noConflict_of_checkAddrConflict
      (hcmp.mono fun _ => hreordered.isEndpoint) hcheck)

/-- A resource with one connection between two addresses. -/
def twoEndpoints (addr1 addr2 : String) : Resource where
  allHosts := [{ onHosts := ["alpha".toList] }, { onHosts := ["bravo".toList] }]
  connections := [{ paths := [{ hnameAddressPairs :=
    [{ name := "alpha".toList, hostInfo := some 0
       address := some ⟨"ipv6".toList, addr1.toList, "7788".toList, false⟩ },
     { name := "bravo".toList, hostInfo := some 1
       address := some ⟨"ipv6".toList, addr2.toList, "7788".toList, false⟩ }] }] }]

theorem conflictsFound_iff_two :
    ConflictsFound [twoEndpoints "2001:db8::1" "2001:db8::2"] ↔
      NoneBetween (IsEndpoint [twoEndpoints "2001:db8::1" "2001:db8::2"]) :=
  conflictsFound_iff [twoEndpoints "2001:db8::1" "2001:db8::2"] (by
    rintro x y ⟨res, hres, hx⟩ ⟨res', hres', hy⟩ -
    rw [List.mem_singleton] at hres hres'
    rw [hres] at hx
    rw [hres'] at hy
    have hall : ∀ z ∈ (twoEndpoints "2001:db8::1" "2001:db8::2").endpoints,
        lower z.af = "ipv6".toList := by
      decide
    exact ⟨fun _ => hall y hy, fun _ => hall x hx⟩)

/-- One endpoint in two resources, with an address of a third one between its two spellings. -/
def sameEndpointTwice : List Resource :=
  [twoEndpoints "2001:5::1" "2001:e::1", twoEndpoints "2001:0db8::1" "2001:e::2",
    twoEndpoints "2001:db8::1" "2001:e::3"]

/-- The conflict is overlooked. -/
theorem checkAddrConflict_overlooks :
    checkAddrConflict sameEndpointTwice true = true ∧ ¬NoConflict sameEndpointTwice := by
  refine ⟨by decide, fun h => ?_⟩
  have hacross := h.across
  unfold sameEndpointTwice at hacross
  simp only [List.pairwise_cons] at hacross
  have hno := hacross.2.1 _ (List.mem_singleton_self _)
    ⟨"ipv6".toList, "2001:0db8::1".toList, "7788".toList, false⟩ (by decide)
    ⟨"ipv6".toList, "2001:db8::1".toList, "7788".toList, false⟩ (by decide)
  exact absurd hno (by decide)

end DrbdUtils.Adm.PostParse
