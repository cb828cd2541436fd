import DrbdUtils.Meta.ActivityLog

/-!
# Implicit node ids

Configurations of DRBD 8 name no node ids.  drbdadm derives them from the addresses of the two hosts
(`generate_implicit_node_id()` and its caller in `drbdadm_postparse.c`), and so does drbdsetup when
`connect` or `disconnect` is called with addresses (`compare_addr()` and
`drbd8_compat_get_my_node_id()` in `drbdsetup_compat84.c`).  drbdadm hashes the bare addresses and
gives 0 to the greater hash; drbdsetup hashes the whole arguments and gives 1 to it.

* `implicitNodeIds_swap` — the order of the host sections does not matter.
* `ArgStyle.nodeIds_eq` — what drbdsetup derives, however the arguments are written.
* `nodeIdsAgree_iff` — when drbdadm and drbdsetup derive the same ones.
-/

set_option autoImplicit false

namespace DrbdUtils.Adm

open BlockDevice Meta

/-! ## Model -/

/-- The bytes of a text in ASCII. -/
def bytes (s : String) : List Byte := s.toList.map fun c => BitVec.ofNat 8 c.toNat

/-- The address families of an address. -/
inductive AddressFamily where
  | ipv4 | ipv6 | ssocks | sdp
  deriving DecidableEq

def AddressFamily.text : AddressFamily → String
  | .ipv4 => "ipv4" | .ipv6 => "ipv6" | .ssocks => "ssocks" | .sdp => "sdp"

/-- The address of a host section. -/
structure Endpoint where
  af : AddressFamily
  addr : List Byte
  port : List Byte

/-- `ssprintf_addr`: the text of an address on the command line of drbdsetup. -/
def Endpoint.text (e : Endpoint) : List Byte :=
  if e.af = .ipv6 then bytes e.af.text ++ (bytes ":[" ++ e.addr ++ bytes "]:" ++ e.port)
  else bytes e.af.text ++ (bytes ":" ++ e.addr ++ bytes ":" ++ e.port)

/-- A hash is stored in an `int`. -/
def addrHash (s : List Byte) : Int := (crc32c 0x1a656f21 s).toInt

/-- A host of an implicit connection, with the outside address of its proxy. -/
structure HostSection where
  address : Endpoint
  proxyOutside : Option (List Byte) := none

/-- `generate_implicit_node_id`: the ids of the two hosts. -/
def generateImplicitNodeId (hash₀ hash₁ : Int) : Option (Nat × Nat) :=
  if hash₀ > hash₁ then some (0, 1)
  else if hash₀ < hash₁ then some (1, 0)
  else none

/-- The end of `_set_host_info_in_host_address_pairs`: the hosts of a path in their order.  If the
    hashes are equal, the outside addresses of the proxies are taken, up to the first host without
    a proxy; `none` is "BAD LUCK". -/
def implicitNodeIds (host₀ host₁ : HostSection) : Option (Nat × Nat) :=
  let hash₀ := addrHash host₀.address.addr
  let hash₁ := addrHash host₁.address.addr
  match generateImplicitNodeId hash₀ hash₁ with
  | some ids => some ids
  | none =>
    match host₀.proxyOutside, host₁.proxyOutside with
    | none, _ => generateImplicitNodeId hash₀ hash₁
    | some p, none => generateImplicitNodeId (addrHash p) hash₁
    | some p, some q => generateImplicitNodeId (addrHash p) (addrHash q)

/-- `compare_addr`; `none` when the program exits. -/
def compareAddr (myAddr peerAddr : List Byte) : Option Nat :=
  if addrHash myAddr = addrHash peerAddr then none
  else some (if addrHash myAddr > addrHash peerAddr then 1 else 0)

/-- `drbd8_compat_get_my_node_id`.  For an argument that starts with `peer:` the pointer to the
    caller's variable is advanced in place of the address, and what is read next lies behind that
    variable: there is no result. -/
def drbd8CompatGetMyNodeId (myArg peerArg : List Byte) : Option Nat :=
  let myAddr := if (bytes "local:").isPrefixOf myArg then myArg.drop 6 else myArg
  if (bytes "peer:").isPrefixOf peerArg then none
  else compareAddr myAddr peerArg

/-- The ids that `connect` and `disconnect` use for this node and for the peer. -/
def compatNodeIds (myArg peerArg : List Byte) : Option (Nat × Nat) :=
  (drbd8CompatGetMyNodeId myArg peerArg).map fun my => (my, if my = 0 then 1 else 0)

/-- How the addresses are written on the command line of a node. -/
structure ArgStyle where
  localLead : Bool := false
  peerLead : Bool := false

/-- The ids that drbdsetup derives on the node of the first endpoint. -/
def ArgStyle.nodeIds (st : ArgStyle) (me peer : Endpoint) : Option (Nat × Nat) :=
  compatNodeIds (if st.localLead then bytes "local:" ++ me.text else me.text)
    (if st.peerLead then bytes "peer:" ++ peer.text else peer.text)

/-! ## drbdadm -/

theorem generateImplicitNodeId_swap (hash₀ hash₁ : Int) :
    generateImplicitNodeId hash₁ hash₀ = (generateImplicitNodeId hash₀ hash₁).map Prod.swap := by
  unfold generateImplicitNodeId
  rcases lt_trichotomy hash₀ hash₁ with h | h | h
  · rw [if_pos h, if_neg (by omega), if_pos h]
    rfl
  · subst h
    simp
  · rw [if_neg (by omega), if_pos h, if_pos h]
    rfl

theorem implicitNodeIds_of_ne {a b : HostSection}
    (h : addrHash a.address.addr ≠ addrHash b.address.addr) :
    implicitNodeIds a b = some (if addrHash a.address.addr > addrHash b.address.addr then (0, 1)
      else (1, 0)) := by
  unfold implicitNodeIds generateImplicitNodeId
  dsimp only
  rcases lt_or_gt_of_ne h with hlt | hgt
  · rw [if_neg (by omega), if_pos hlt, if_neg (by omega)]
  · rw [if_pos hgt, if_pos hgt]

/-- The order of the host sections does not matter. -/
theorem implicitNodeIds_swap {a b : HostSection}
    (h : addrHash a.address.addr ≠ addrHash b.address.addr) :
    implicitNodeIds b a = (implicitNodeIds a b).map Prod.swap := by
  rw [implicitNodeIds_of_ne h, implicitNodeIds_of_ne h.symm]
  rcases lt_or_gt_of_ne h with hlt | hgt
  · rw [if_pos hlt, if_neg (by omega)]
    rfl
  · rw [if_neg (by omega), if_pos hgt]
    rfl

/-! ## drbdsetup -/

/-- The text of an address starts with the letter of its family. -/
theorem Endpoint.text_head (e : Endpoint) : ∃ c t, e.text = c :: t ∧ c ≠ 108 ∧ c ≠ 112 := by
  have haf : ∃ c t, bytes e.af.text = c :: t ∧ c ≠ 108 ∧ c ≠ 112 := by
    cases e.af with
    | ipv4 => exact ⟨105, [112, 118, 52], by decide, by decide, by decide⟩
    | ipv6 => exact ⟨105, [112, 118, 54], by decide, by decide, by decide⟩
    | ssocks => exact ⟨115, [115, 111, 99, 107, 115], by decide, by decide, by decide⟩
    | sdp => exact ⟨115, [100, 112], by decide, by decide, by decide⟩
  obtain ⟨c, t, hc, h⟩ := haf
  unfold Endpoint.text
  rw [hc]
  split
  · exact ⟨c, _, rfl, h⟩
  · exact ⟨c, _, rfl, h⟩

theorem Endpoint.text_lead (e : Endpoint) :
    (bytes "local:").isPrefixOf e.text = false ∧ (bytes "peer:").isPrefixOf e.text = false := by
  have hlocal : bytes "local:" = [108, 111, 99, 97, 108, 58] := by decide
  have hpeer : bytes "peer:" = [112, 101, 101, 114, 58] := by decide
  obtain ⟨c, t, ht, hl, hp⟩ := e.text_head
  rw [hlocal, hpeer, ht, List.isPrefixOf_cons_cons, List.isPrefixOf_cons_cons, beq_false_of_ne hl.symm,
    beq_false_of_ne hp.symm]
  exact ⟨rfl, rfl⟩

theorem isPrefixOf_append (l t : List Byte) : l.isPrefixOf (l ++ t) = true := by
  rw [List.isPrefixOf_iff_prefix]
  exact List.prefix_append l t

theorem ArgStyle.nodeIds_eq (st : ArgStyle) (me peer : Endpoint) :
    st.nodeIds me peer = if st.peerLead then none
      else (compareAddr me.text peer.text).map fun my => (my, if my = 0 then 1 else 0) := by
  unfold ArgStyle.nodeIds compatNodeIds drbd8CompatGetMyNodeId
  have hmy : (if (bytes "local:").isPrefixOf (if st.localLead = true then bytes "local:" ++ me.text
      else me.text) = true then (if st.localLead = true then bytes "local:" ++ me.text
      else me.text).drop 6 else if st.localLead = true then bytes "local:" ++ me.text else me.text) =
      me.text := by
    cases st.localLead with
    | true =>
      rw [if_pos rfl, if_pos (isPrefixOf_append _ _)]
      rfl
    | false => rw [if_neg Bool.false_ne_true, if_neg (by rw [me.text_lead.1]; simp)]
  dsimp only
  rw [hmy]
  cases hp : st.peerLead with
  | true =>
    rw [if_pos rfl, if_pos (isPrefixOf_append _ _), if_pos rfl]
    rfl
  | false => rw [if_neg Bool.false_ne_true, if_neg (by rw [peer.text_lead.2]; simp),
      if_neg Bool.false_ne_true]

theorem compareAddr_of_ne {x y : List Byte} (h : addrHash x ≠ addrHash y) :
    (compareAddr x y).map (fun my => (my, if my = 0 then 1 else 0)) =
      some (if addrHash x > addrHash y then (1, 0) else (0, 1)) := by
  unfold compareAddr
  rw [if_neg h]
  split <;> rfl

/-! ## Both -/

/-- Exactly one side is 0, the order of the host sections does not matter, and drbdsetup derives the
    ids of drbdadm on either node. -/
def NodeIdsAgree (a b : HostSection) (onA onB : ArgStyle) : Prop :=
  ∃ i j, (i = 0 ∧ j = 1 ∨ i = 1 ∧ j = 0) ∧ implicitNodeIds a b = some (i, j) ∧
    implicitNodeIds b a = some (j, i) ∧ onA.nodeIds a.address b.address = some (i, j) ∧
    onB.nodeIds b.address a.address = some (j, i)

/-- **Node ids.**  For all pairs of hosts whose addresses have different hashes, however the arguments
    are written on either node: what drbdadm derives does not depend on the order of the host
    sections, and drbdsetup derives the same if and only if no argument is written with `peer:` and
    the hashes of the arguments are ordered opposite to the hashes of the addresses. -/
theorem nodeIdsAgree_iff (a b : HostSection) (onA onB : ArgStyle)
    (h : addrHash a.address.addr ≠ addrHash b.address.addr) :
    implicitNodeIds b a = (implicitNodeIds a b).map Prod.swap ∧
    (NodeIdsAgree a b onA onB ↔ onA.peerLead = false ∧ onB.peerLead = false ∧
      ((addrHash a.address.addr > addrHash b.address.addr ∧
          addrHash a.address.text < addrHash b.address.text) ∨
        (addrHash a.address.addr < addrHash b.address.addr ∧
          addrHash a.address.text > addrHash b.address.text))) := by
  refine ⟨implicitNodeIds_swap h, ?_⟩
  unfold NodeIdsAgree
  rw [implicitNodeIds_swap h, implicitNodeIds_of_ne h, ArgStyle.nodeIds_eq, ArgStyle.nodeIds_eq]
  cases hA : onA.peerLead with
  | true => simp
  | false =>
    cases hB : onB.peerLead with
    | true => simp
    | false =>
      by_cases ht : addrHash a.address.text = addrHash b.address.text
      · simp [compareAddr, ht]
      · rw [if_neg Bool.false_ne_true, if_neg Bool.false_ne_true, compareAddr_of_ne ht,
          compareAddr_of_ne (Ne.symm ht)]
        rcases lt_or_gt_of_ne h with hlt | hgt
        · rcases lt_or_gt_of_ne ht with tlt | tgt
          · rw [if_neg (by omega), if_neg (by omega), if_pos tlt]
            simp
            omega
          · rw [if_neg (by omega), if_pos tgt, if_neg (by omega)]
            simp
            omega
        · rcases lt_or_gt_of_ne ht with tlt | tgt
          · rw [if_pos hgt, if_neg (by omega), if_pos tlt]
            simp
            omega
          · rw [if_pos hgt, if_pos tgt, if_neg (by omega)]
            simp
            omega

/-! ### Two hosts -/

/-- The address `10.0.0.n`, port 7789. -/
def host10 (n : String) : HostSection :=
  { address := ⟨.ipv4, bytes "10.0.0." ++ bytes n, bytes "7789"⟩ }

/-- 10.0.0.1 is node 0 for drbdadm and node 1 for drbdsetup. -/
theorem nodeIds_disagree : addrHash (host10 "1").address.addr ≠ addrHash (host10 "2").address.addr ∧
    implicitNodeIds (host10 "1") (host10 "2") = some (0, 1) ∧
    ArgStyle.nodeIds {} (host10 "1").address (host10 "2").address = some (1, 0) ∧
    ¬NodeIdsAgree (host10 "1") (host10 "2") {} {} := by
  have h₁ : implicitNodeIds (host10 "1") (host10 "2") = some (0, 1) := by decide +kernel
  have h₂ : ArgStyle.nodeIds {} (host10 "1").address (host10 "2").address = some (1, 0) := by
    decide +kernel
  refine ⟨by decide +kernel, h₁, h₂, ?_⟩
  rintro ⟨i, j, _, hi, _, hi', _⟩
  rw [h₁] at hi
  rw [h₂] at hi'
  cases hi
  cases hi'

/-- For 10.0.0.1 and 10.0.0.4 they agree. -/
theorem nodeIdsAgree_iff_1_4 : NodeIdsAgree (host10 "1") (host10 "4") {} { localLead := true } :=
  (nodeIdsAgree_iff _ _ _ _ (by decide +kernel)).2.2
    ⟨rfl, rfl, .inl ⟨by decide +kernel, by decide +kernel⟩⟩

end DrbdUtils.Adm
