import DrbdUtils.Genl.DrbdGenl

/-!
# Receiving messages

A datagram contains messages, each with a header that says how long it is, and each message contains the
attributes of structs.  The message is parsed once, then functions of several structs are called for it;
each of them removes flags in the memory of the message.

* `runCalls_eq` — the calls for one message do not disturb one another.
* `recvMsgs_eq`, `recvMsgs_members` — a whole datagram, with whatever bytes.
-/

set_option autoImplicit false

namespace DrbdUtils.Genl

/-! ## Memory outside of a range -/

/-- Only bytes from `lo` up to `hi` have been changed. -/
structure SameOutside (lo hi : Nat) (mem mem' : Mem) : Prop where
  length_eq : mem'.length = mem.length
  take_eq : mem'.take lo = mem.take lo
  drop_eq : mem'.drop hi = mem.drop hi

section SameOutside

variable {lo hi lo' hi' p q : Nat} {mem mem' mem'' : Mem} {pre post r r' : List (BitVec 8)}

theorem SameOutside.refl (lo hi : Nat) (mem : Mem) : SameOutside lo hi mem mem := ⟨rfl, rfl, rfl⟩

theorem SameOutside.trans (h : SameOutside lo hi mem mem') (h' : SameOutside lo hi mem' mem'') :
    SameOutside lo hi mem mem'' :=
  ⟨h'.1.trans h.1, h'.2.trans h.2, h'.3.trans h.3⟩

theorem SameOutside.mono (h : SameOutside lo hi mem mem') (hlo : lo' ≤ lo) (hhi : hi ≤ hi') :
    SameOutside lo' hi' mem mem' := by
  refine ⟨h.length_eq, ?_, ?_⟩
  · have htake := congrArg (List.take lo') h.take_eq
    rwa [List.take_take, List.take_take, Nat.min_eq_left hlo] at htake
  · have hdrop := congrArg (List.drop (hi' - hi)) h.drop_eq
    rwa [List.drop_drop, List.drop_drop, Nat.add_sub_of_le hhi] at hdrop

theorem sameOutside_append (h : r'.length = r.length) :
    SameOutside pre.length (pre.length + r.length) (pre ++ r ++ post) (pre ++ r' ++ post) := by
  refine ⟨?_, ?_, ?_⟩
  · simp only [List.length_append, h]
  · rw [List.append_assoc, List.append_assoc, List.take_left, List.take_left]
  · have hlen : pre.length + r.length = (pre ++ r).length := List.length_append.symm
    have hlen' : pre.length + r.length = (pre ++ r').length := by rw [List.length_append, h]
    conv => lhs; rw [hlen']
    rw [List.drop_left, hlen, List.drop_left]

/-- What is outside of the range is as before. -/
theorem SameOutside.holds (h : SameOutside lo hi mem mem') (hout : p + r.length ≤ lo ∨ hi ≤ p)
    (hr : Holds mem p r) : Holds mem' p r := by
  obtain ⟨hlen, heq⟩ := hr
  refine ⟨by rw [h.length_eq]; exact hlen, ?_⟩
  rcases hout with hlo | hhi
  · have htake : ∀ m : Mem, ((m.take lo).drop p).take r.length = (m.drop p).take r.length := by
      intro m
      rw [List.drop_take, List.take_take, Nat.min_eq_left (by omega)]
    rw [← htake, h.take_eq, htake, heq]
  · have hdrop : ∀ m : Mem, (m.drop hi).drop (p - hi) = m.drop p := by
      intro m
      rw [List.drop_drop, Nat.add_sub_of_le hhi]
    rw [← hdrop, h.drop_eq, hdrop, heq]

theorem holds_split (h : Holds mem p r) : ∃ pre post, mem = pre ++ r ++ post ∧ pre.length = p := by
  obtain ⟨hlen, heq⟩ := h
  refine ⟨mem.take p, (mem.drop p).drop r.length, ?_, List.length_take_of_le (by omega)⟩
  rw [List.append_assoc]
  conv => rhs; arg 2; arg 1; rw [← heq]
  rw [List.take_append_drop, List.take_append_drop]

/-- Where a range has been changed, there are as many bytes as before. -/
theorem SameOutside.exists_append {k : Nat} {m : List (BitVec 8)}
    (h : SameOutside (pre.length + k) (pre.length + m.length) (pre ++ m ++ post) mem') (hk : k ≤ m.length) :
    ∃ m', mem' = pre ++ m' ++ post ∧ m'.length = m.length ∧ m'.take k = m.take k := by
  have hlen := h.length_eq
  simp only [List.length_append] at hlen
  have htake : mem'.take (pre.length + k) = pre ++ m.take k := by
    rw [h.take_eq, List.append_assoc, List.take_length_add_append, List.take_append_of_le_length hk]
  have hdrop : mem'.drop (pre.length + m.length) = post := by
    rw [h.drop_eq, ← List.length_append, List.drop_left]
  have hsplit : mem' = pre ++ (m.take k ++ (mem'.drop (pre.length + k)).take (m.length - k)) ++ post := by
    have hmid : (mem'.drop (pre.length + k)).drop (m.length - k) = post := by
      rw [List.drop_drop, show pre.length + k + (m.length - k) = pre.length + m.length by omega, hdrop]
    rw [← List.append_assoc, ← htake, List.append_assoc]
    conv => rhs; arg 2; arg 2; rw [← hmid]
    rw [List.take_append_drop, List.take_append_drop]
  have hk' : (m.take k).length = k := List.length_take_of_le hk
  refine ⟨_, hsplit, ?_, ?_⟩
  · rw [List.length_append, hk', List.length_take, List.length_drop]
    omega
  · rw [List.take_append_of_le_length hk'.ge, List.take_take, Nat.min_self]

end SameOutside

/-! ## Several calls for one message -/

/-- `s_name ## _from_attrs`, or `s_name ## _from_attrs_for_change` if invariants are excluded. -/
structure Call where
  sd : GenlStruct
  excludeInvariants : Bool
  s : Members

/-- The calls for a struct among the first ones. -/
def earlier (calls : List Call) (i t : Nat) : Nat := (calls.take i).countP fun c => c.sd.tagNumber = t

section Calls

variable [Host]

def runCalls (attrs : Table) : List Call → Mem × Table →
    Option ((Mem × Table) × List (Members × Except NlaError Unit))
  | [], st => some (st, [])
  | c :: calls, st => do
    let (st, result) ← fromAttrs c.sd c.excludeInvariants attrs st c.s
    let (st, results) ← runCalls attrs calls st
    return (st, result :: results)

/-- What has become of an attribute after `n` calls. -/
structure AfterCalls (maxtype n : Nat) (r r' : List (BitVec 8)) : Prop where
  isRecord : nlaFormat.IsRecord r'
  length_eq : r'.length = r.length
  same : ∀ pos, List.Forall₂ Same (attrsIn pos r) (attrsIn pos r')
  count : ∀ pos, refusedCount maxtype (attrsIn pos r') = refusedCount maxtype (attrsIn pos r) - n

/-- The table points to attributes of the types, which are in the memory and do not overlap. -/
structure Pointed (lo hi : Nat) (recs : List (Nat × List (BitVec 8))) (attrs : Table) : Prop where
  isRecord : ∀ x ∈ recs, nlaFormat.IsRecord x.2
  inside : ∀ x ∈ recs, lo ≤ x.1 ∧ x.1 + x.2.length ≤ hi
  disjoint : recs.Pairwise fun x y => x.1 + x.2.length ≤ y.1
  table : ∀ t p, attrs t = some p → ∃ r, (p, r) ∈ recs ∧ attrType r = t

/-- The attributes of the structs of a schema after calls; `cnt` says how many there were for a type. -/
def CallsDone (schema : GenlSchema) (recs : List (Nat × List (BitVec 8))) (attrs : Table) (mem : Mem)
    (cnt : Nat → Nat) : Prop :=
  ∀ sd ∈ schema.structs, ∀ p r, attrs sd.tagNumber = some p → (p, r) ∈ recs →
    ∃ r', Holds mem p r' ∧ AfterCalls sd.maxtype (cnt sd.tagNumber) r r'

/-- What a call returns that has `n` calls for the same struct before it. -/
def CallAnswer (recs : List (Nat × List (BitVec 8))) (attrs : Table) (n : Nat) (c : Call) (s' : Members)
    (e : Except NlaError Unit) : Prop :=
  match attrs c.sd.tagNumber with
  | none => s' = c.s ∧ e = .error .nomsg
  | some p => ∀ r, (p, r) ∈ recs → Answer c.sd c.excludeInvariants (attrsIn p r) n c.s s' e

variable {schema : GenlSchema} {lo hi : Nat} {recs : List (Nat × List (BitVec 8))} {attrs : Table}
  {mem : Mem} {ntb : Table}

theorem AfterCalls.zero {maxtype : Nat} {r : List (BitVec 8)} (h : nlaFormat.IsRecord r) :
    AfterCalls maxtype 0 r r :=
  ⟨h, rfl, fun _ => List.forall₂_same.2 fun _ _ => ⟨rfl, rfl, rfl⟩, fun _ => rfl⟩

theorem Same.trans {x y z : Nat × List (BitVec 8)} (h : Same x y) (h' : Same y z) : Same x z :=
  ⟨h.1.trans h'.1, h.2.1.trans h'.2.1, h.2.2.trans h'.2.2⟩

theorem forall₂_same_trans {recs₁ recs₂ recs₃ : List (Nat × List (BitVec 8))}
    (h : List.Forall₂ Same recs₁ recs₂) (h' : List.Forall₂ Same recs₂ recs₃) :
    List.Forall₂ Same recs₁ recs₃ := by
  induction h generalizing recs₃ with
  | nil =>
    cases h'
    exact .nil
  | cons hx _ ih =>
    cases h' with
    | cons hy htail => exact .cons (hx.trans hy) (ih htail)

theorem AfterCalls.succ {maxtype n : Nat} {r r' r'' : List (BitVec 8)} (h : AfterCalls maxtype n r r')
    (hswept : Swept maxtype r' r'') : AfterCalls maxtype (n + 1) r r'' := by
  refine ⟨hswept.isRecord, hswept.length_eq.trans h.length_eq, fun pos => ?_, fun pos => ?_⟩
  · have hsame := sweep_same maxtype (length_of_mem_attrsIn (r := r') pos)
    rw [← hswept.attrs_eq] at hsame
    exact forall₂_same_trans (h.same pos) hsame
  · have hcount := refusedCount_sweep maxtype (length_of_mem_attrsIn (r := r') pos)
    have hcount' := h.count pos
    rw [← hswept.attrs_eq] at hcount
    omega

theorem Pointed.unique (h : Pointed lo hi recs attrs) {p : Nat} {r r' : List (BitVec 8)} (hr : (p, r) ∈ recs)
    (hr' : (p, r') ∈ recs) : r = r' := by
  by_contra hne
  have hlen : 4 ≤ r.length := (h.isRecord _ hr).hdr_le
  have hlen' : 4 ≤ r'.length := (h.isRecord _ hr').hdr_le
  have hapart := RecordStream.Format.apart_of_pairwise h.disjoint hr hr' fun heq => hne (Prod.mk.inj heq).2
  simp only at hapart
  omega

/-- The attributes of two types are at different places, and apart. -/
theorem Pointed.apart (h : Pointed lo hi recs attrs) {t t' p p' : Nat} {r r' : List (BitVec 8)}
    (ht : attrs t = some p) (hr : (p, r) ∈ recs) (ht' : attrs t' = some p') (hr' : (p', r') ∈ recs)
    (hne : t ≠ t') : p + r.length ≤ p' ∨ p' + r'.length ≤ p := by
  have hunique : ∀ t p r, attrs t = some p → (p, r) ∈ recs → attrType r = t := by
    intro t p r ht hr
    obtain ⟨r', hr', htype⟩ := h.table t p ht
    rw [h.unique hr hr', htype]
  apply RecordStream.Format.apart_of_pairwise h.disjoint hr hr'
  intro heq
  apply hne
  rw [← hunique t p r ht hr, ← hunique t' p' r' ht' hr', (Prod.mk.inj heq).2]

/-- **One call**: it is answered as if only the calls for the same struct had been before it, and the
    attributes of the other structs are as before. -/
theorem call_step (h : Pointed lo hi recs attrs) {cnt : Nat → Nat}
    (hdone : CallsDone schema recs attrs mem cnt) {c : Call} (hc : c.sd ∈ schema.structs) (ntb : Table) :
    ∃ mem' ntb' s' e, fromAttrs c.sd c.excludeInvariants attrs (mem, ntb) c.s = some ((mem', ntb'), s', e) ∧
      SameOutside lo hi mem mem' ∧ CallAnswer recs attrs (cnt c.sd.tagNumber) c s' e ∧
      CallsDone schema recs attrs mem' (Function.update cnt c.sd.tagNumber (cnt c.sd.tagNumber + 1)) := by
  cases hattrs : attrs c.sd.tagNumber with
  | none =>
    refine ⟨mem, ntb, c.s, .error .nomsg, ?_, .refl _ _ _, ?_, ?_⟩
    · rw [fromAttrs, hattrs]
    · rw [CallAnswer, hattrs]
      exact ⟨rfl, rfl⟩
    · intro sd hsd p r hp hr
      have hne : sd.tagNumber ≠ c.sd.tagNumber := by
        intro heq
        rw [heq, hattrs] at hp
        cases hp
      rw [Function.update_of_ne hne]
      exact hdone sd hsd p r hp hr
  | some p =>
    obtain ⟨r, hmem, -⟩ := h.table _ _ hattrs
    obtain ⟨r', hholds, hafter⟩ := hdone c.sd hc p r hattrs hmem
    obtain ⟨pre, post, rfl, rfl⟩ := holds_split hholds
    obtain ⟨r'', ntb', s', e, hswept, hrun, hanswer⟩ :=
      fromAttrs_eq (schema.wf c.sd hc) hafter.isRecord hattrs c.excludeInvariants ntb c.s
    have hinside := h.inside _ hmem
    have hsame : SameOutside pre.length (pre.length + r'.length) (pre ++ r' ++ post) (pre ++ r'' ++ post) :=
      sameOutside_append hswept.length_eq
    refine ⟨pre ++ r'' ++ post, ntb', s', e, hrun, ?_, ?_, ?_⟩
    · apply hsame.mono hinside.1
      rw [hafter.length_eq]
      exact hinside.2
    · rw [CallAnswer, hattrs]
      intro x hx
      rw [h.unique hx hmem]
      exact hanswer.of_same (hafter.same _) (hafter.count _)
    · intro sd hsd q x hq hx
      by_cases htag : sd.tagNumber = c.sd.tagNumber
      · -- the struct of the call
        obtain rfl : sd = c.sd := List.inj_on_of_nodup_map schema.nodup hsd hc htag
        rw [hattrs] at hq
        obtain rfl := Option.some.inj hq
        rw [h.unique hx hmem, Function.update_self]
        exact ⟨r'', holds_append pre r'' post, hafter.succ hswept⟩
      · obtain ⟨x', hx', hafter'⟩ := hdone sd hsd q x hq hx
        have hapart := h.apart hq hx hattrs hmem htag
        rw [Function.update_of_ne htag]
        refine ⟨x', hsame.holds ?_ hx', hafter'⟩
        rw [hafter'.length_eq, hafter.length_eq]
        exact hapart

/-- **Calls do not disturb one another**: each is answered from the attribute of its struct, and it matters
    only how many calls for the same struct were before it. -/
theorem runCalls_eq (h : Pointed lo hi recs attrs) {cnt : Nat → Nat}
    (hdone : CallsDone schema recs attrs mem cnt) {calls : List Call}
    (hcalls : ∀ c ∈ calls, c.sd ∈ schema.structs) (ntb : Table) :
    ∃ mem' ntb' results, runCalls attrs calls (mem, ntb) = some ((mem', ntb'), results) ∧
      SameOutside lo hi mem mem' ∧ results.length = calls.length ∧
      ∀ i c s' e, calls[i]? = some c → results[i]? = some (s', e) →
        CallAnswer recs attrs (cnt c.sd.tagNumber + earlier calls i c.sd.tagNumber) c s' e := by
  induction calls generalizing mem ntb cnt with
  | nil => exact ⟨mem, ntb, [], rfl, .refl _ _ _, rfl, by simp⟩
  | cons c calls ih =>
    obtain ⟨mem₁, ntb₁, s₁, e₁, hcall, hsame₁, hanswer, hdone₁⟩ := call_step h hdone (hcalls c (by simp)) ntb
    obtain ⟨mem', ntb', results, hrun, hsame, hlen, hanswers⟩ :=
      ih hdone₁ (fun c' hc' => hcalls c' (by simp [hc'])) ntb₁
    refine ⟨mem', ntb', (s₁, e₁) :: results, ?_, hsame₁.trans hsame, by rw [List.length_cons, hlen]; rfl, ?_⟩
    · simp only [runCalls, hcall, hrun, Option.bind_eq_bind, Option.bind_some]
      rfl
    · intro i c' s' e hc' hresult
      cases i with
      | zero =>
        rw [List.getElem?_cons_zero] at hc' hresult
        obtain rfl := Option.some.inj hc'
        obtain ⟨rfl, rfl⟩ := Prod.mk.inj (Option.some.inj hresult)
        exact hanswer
      | succ i =>
        rw [List.getElem?_cons_succ] at hc' hresult
        have hanswer' := hanswers i c' s' e hc' hresult
        rw [earlier, List.take_succ_cons, List.countP_cons, ← earlier]
        by_cases htag : c'.sd.tagNumber = c.sd.tagNumber
        · rw [htag, Function.update_self] at hanswer'
          rw [htag, decide_eq_true rfl, if_pos rfl]
          rwa [Nat.add_comm (earlier calls i _), ← Nat.add_assoc]
        · rw [Function.update_of_ne htag] at hanswer'
          rwa [decide_eq_false (Ne.symm htag), if_neg Bool.false_ne_true, Nat.add_zero]

end Calls

/-! ## One message -/

def NLMSG_HDRLEN : Nat := 16

def GENL_HDRLEN : Nat := 4

def NLMSG_MIN_TYPE : Nat := 16

def GENL_ID_CTRL : Nat := 16

theorem nlmsgHdrlen_pos : 0 < NLMSG_HDRLEN := Nat.succ_pos 15

namespace GenlSchema

variable (schema : GenlSchema)

def maxtype : Nat := (schema.structs.map GenlStruct.tagNumber).foldr max 0

/-- The array `drbd_tla_nl_policy`. -/
def tlaNlPolicy : List NlaPolicy := (List.range (schema.maxtype + 1)).map fun i =>
  if i ∈ schema.structs.map GenlStruct.tagNumber then { type := .nested } else {}

theorem maxtype_lt_length : schema.maxtype < schema.tlaNlPolicy.length := by
  rw [tlaNlPolicy, List.length_map, List.length_range]
  exact Nat.lt_succ_self _

end GenlSchema

def nlmsgAttrdata (nlh hdrlen : Nat) : Nat := nlh + NLMSG_HDRLEN + nlaAlign hdrlen

/-- A notification with `helper_name` and `helper_status`, and a message that is not for the family. -/
def helperDatagram : Mem :=
  [48, 0, 0, 0, 30, 0, 0, 0, 1, 0, 0, 0, 0, 0, 0, 0, 40, 1, 0, 0, 0, 0, 0, 0, 101, 0, 0, 0,
    20, 0, 24, 128, 7, 0, 1, 64, 111, 107, 0, 0, 8, 0, 2, 64, 5, 0, 0, 0,
    16, 0, 0, 0, 3, 0, 0, 0, 1, 0, 0, 0, 0, 0, 0, 0]

def helperCalls : List Call := [⟨drbdHelperInfo, false, ⟨fun _ => 0, fun _ => List.replicate 32 0, fun _ => 0⟩⟩]

theorem helperCalls_mem : ∀ c ∈ helperCalls, c.sd ∈ drbdGenl.structs := by
  simp [helperCalls, drbdGenl, drbdGenlStructs]

section Message

variable [Host]

/-- `nlh->nlmsg_len`. -/
def nlmsgLenField (mem : Mem) (nlh : Nat) : Option Nat := (read mem nlh 4).map hostValue

/-- `nlh->nlmsg_type`. -/
def nlmsgType (mem : Mem) (nlh : Nat) : Option Nat := (read mem (nlh + 4) 2).map hostValue

def nlmsgAttrlen (mem : Mem) (nlh hdrlen : Nat) : Option Int :=
  (nlmsgLenField mem nlh).map fun (len : Nat) => (len : Int) - NLMSG_HDRLEN - nlaAlign hdrlen

def nlmsgOk (mem : Mem) (nlh : Nat) (remaining : Int) : Option Bool :=
  if remaining < 16 then some false
  else (nlmsgLenField mem nlh).map fun (len : Nat) => decide (16 ≤ len ∧ (len : Int) ≤ remaining)

def drbdTlaParse (schema : GenlSchema) (hdrsize : Nat) (mem : Mem) (nlh : Nat) :
    Option (Table × Except NlaError Unit) := do
  let len ← nlmsgAttrlen mem nlh (GENL_HDRLEN + hdrsize)
  nlaParse mem schema.maxtype (nlmsgAttrdata nlh (GENL_HDRLEN + hdrsize)) len (some schema.tlaNlPolicy)

/-- The results of the calls for a message, if it is valid. -/
abbrev MsgResult := Except NlaError (List (Members × Except NlaError Unit))

/-- The message is parsed; if it is valid, the calls are made. -/
def recvMsg (schema : GenlSchema) (hdrsize : Nat) (calls : List Call) (nlh : Nat) (st : Mem × Table) :
    Option ((Mem × Table) × MsgResult) := do
  let (attrs, err) ← drbdTlaParse schema hdrsize st.1 nlh
  match err with
  | .error err => return (st, .error err)
  | .ok () =>
    let (st, results) ← runCalls attrs calls st
    return (st, .ok results)

theorem lengthOf_msgHeader (l : List (BitVec 8)) :
    hostValue ((l.take NLMSG_HDRLEN).take 4) = hostValue (l.take 4) := by
  rw [List.take_take]
  rfl

/-- The format of messages. -/
def nlmsgFormat : RecordStream.Format (BitVec 8) where
  hdr := NLMSG_HDRLEN
  hdr_pos := nlmsgHdrlen_pos
  align := nlaAlign
  le_align := le_nlaAlign
  lengthOf l := hostValue (l.take 4)
  lengthOf_take := lengthOf_msgHeader

/-- The attributes of a message, which is given with its place. -/
def msgAttrs (hdrsize : Nat) (msg : Nat × List (BitVec 8)) : List (Nat × List (BitVec 8)) :=
  nlaFormat.walk (nlmsgAttrdata msg.1 (GENL_HDRLEN + hdrsize))
    (msg.2.drop (NLMSG_HDRLEN + nlaAlign (GENL_HDRLEN + hdrsize)))

/-- Each attribute of the message is accepted. -/
def MsgValid (schema : GenlSchema) (hdrsize : Nat) (msg : Nat × List (BitVec 8)) : Prop :=
  ∀ x ∈ msgAttrs hdrsize msg, admits schema.maxtype (some schema.tlaNlPolicy) x.2 = true

instance (schema : GenlSchema) (hdrsize : Nat) (msg : Nat × List (BitVec 8)) :
    Decidable (MsgValid schema hdrsize msg) :=
  inferInstanceAs (Decidable (∀ x ∈ msgAttrs hdrsize msg, _))

/-- The answers to the calls for a message. -/
def MsgAnswer (schema : GenlSchema) (hdrsize : Nat) (msg : Nat × List (BitVec 8)) (calls : List Call)
    (result : MsgResult) : Prop :=
  if MsgValid schema hdrsize msg then
    ∃ results, result = .ok results ∧ results.length = calls.length ∧
      ∀ i c s' e, calls[i]? = some c → results[i]? = some (s', e) →
        CallAnswer (msgAttrs hdrsize msg) (tableOf schema.maxtype (msgAttrs hdrsize msg))
          (earlier calls i c.sd.tagNumber) c s' e
  else ∃ err, result = .error err

section One

variable {schema : GenlSchema} {hdrsize p : Nat} {mem : Mem} {ntb : Table} {m : List (BitVec 8)}
  {calls : List Call}

theorem nlmsgLenField_of_holds (h : Holds mem p m) (hm : nlmsgFormat.IsRecord m) :
    nlmsgLenField mem p = some m.length := by
  have hhdr : 16 ≤ m.length := hm.hdr_le
  have hread := read_of_holds (i := 0) (n := 4) h (by omega)
  rw [Nat.add_zero, List.drop_zero] at hread
  rw [nlmsgLenField, hread, Option.map_some]
  exact congrArg some hm.lengthOf_eq

/-- The attributes of a message are those of its memory. -/
theorem attrsAt_eq_msgAttrs (h : Holds mem p m) (hdrsize : Nat) :
    attrsAt mem (nlmsgAttrdata p (GENL_HDRLEN + hdrsize))
      ((m.length : Int) - NLMSG_HDRLEN - nlaAlign (GENL_HDRLEN + hdrsize)) = msgAttrs hdrsize (p, m) := by
  obtain ⟨k, hk⟩ : ∃ k, k = NLMSG_HDRLEN + nlaAlign (GENL_HDRLEN + hdrsize) := ⟨_, rfl⟩
  have hplace : nlmsgAttrdata p (GENL_HDRLEN + hdrsize) = p + k := by
    rw [nlmsgAttrdata, hk, Nat.add_assoc]
  have hlen : ((m.length : Int) - NLMSG_HDRLEN - nlaAlign (GENL_HDRLEN + hdrsize)).toNat = m.length - k := by
    omega
  have hregion : (mem.drop (p + k)).take (m.length - k) = m.drop k := by
    conv => rhs; rw [← h.2]
    rw [List.drop_take, List.drop_drop]
  rw [attrsAt, msgAttrs, hlen, ← hk, hplace, hregion]

/-- **One message**: nothing outside of it is read or changed, and the calls are answered from its
    attributes. -/
theorem recvMsg_eq (h : Holds mem p m) (hm : nlmsgFormat.IsRecord m)
    (hcalls : ∀ c ∈ calls, c.sd ∈ schema.structs) (ntb : Table) :
    ∃ mem' ntb' result, recvMsg schema hdrsize calls p (mem, ntb) = some ((mem', ntb'), result) ∧
      SameOutside (p + NLMSG_HDRLEN) (p + m.length) mem mem' ∧
      MsgAnswer schema hdrsize (p, m) calls result := by
  obtain ⟨head, hhead⟩ : ∃ head, head = nlmsgAttrdata p (GENL_HDRLEN + hdrsize) := ⟨_, rfl⟩
  obtain ⟨len, hlen⟩ : ∃ len, len = (m.length : Int) - NLMSG_HDRLEN - nlaAlign (GENL_HDRLEN + hdrsize) :=
    ⟨_, rfl⟩
  have hend : 0 < len → head + len.toNat = p + m.length := by
    rw [hhead, nlmsgAttrdata]
    omega
  have hin : 0 < len → head + len.toNat ≤ mem.length := fun hpos => by
    rw [hend hpos]
    exact h.1
  have hattrs := attrsAt_eq_msgAttrs h hdrsize
  rw [← hhead, ← hlen] at hattrs
  have hpolicy : ∀ pol, some schema.tlaNlPolicy = some pol → schema.maxtype < pol.length := by
    rintro pol ⟨⟩
    exact schema.maxtype_lt_length
  obtain ⟨e, hparse, hok⟩ := nlaParse_eq hpolicy hin
  have htla : drbdTlaParse schema hdrsize mem p = nlaParse mem schema.maxtype head len
      (some schema.tlaNlPolicy) := by
    rw [drbdTlaParse, nlmsgAttrlen, nlmsgLenField_of_holds h hm, hhead, hlen]
    rfl
  rw [hattrs] at hparse hok
  rw [recvMsg, htla, hparse, Option.bind_eq_bind, Option.bind_some]
  cases e with
  | error err =>
    have hinvalid : ¬MsgValid schema hdrsize (p, m) := fun hvalid => by
      cases hok.2 hvalid
    refine ⟨mem, ntb, .error err, rfl, .refl _ _ _, ?_⟩
    rw [MsgAnswer, if_neg hinvalid]
    exact ⟨err, rfl⟩
  | ok u =>
    have hvalid : MsgValid schema hdrsize (p, m) := hok.1 rfl
    rw [List.takeWhile_eq_self_iff.2 hvalid]
    have hrecs : ∀ x ∈ msgAttrs hdrsize (p, m), Holds mem x.1 x.2 ∧ nlaFormat.IsRecord x.2 ∧ head ≤ x.1 ∧
        x.1 + x.2.length ≤ p + m.length := by
      intro x hx
      rw [← hattrs] at hx
      obtain ⟨hholds, hrec, hle, hle'⟩ := holds_of_mem_attrsAt hin hx
      have hhdr : 4 ≤ x.2.length := hrec.hdr_le
      exact ⟨hholds, hrec, hle, by omega⟩
    have hpointed : Pointed head (p + m.length) (msgAttrs hdrsize (p, m))
        (tableOf schema.maxtype (msgAttrs hdrsize (p, m))) := by
      refine ⟨fun x hx => (hrecs x hx).2.1, fun x hx => (hrecs x hx).2.2, ?_, fun t q hq => ?_⟩
      · exact RecordStream.Format.walk_disjoint
      · exact (mem_of_tableOf hq).2.2
    have hdone : CallsDone schema (msgAttrs hdrsize (p, m)) (tableOf schema.maxtype (msgAttrs hdrsize (p, m)))
        mem fun _ => 0 := fun sd _ q r _ hr =>
      ⟨r, (hrecs _ hr).1, AfterCalls.zero (hrecs _ hr).2.1⟩
    obtain ⟨mem', ntb', results, hrun, hsame, hlength, hanswers⟩ := runCalls_eq hpointed hdone hcalls ntb
    refine ⟨mem', ntb', .ok results, ?_, hsame.mono ?_ (Nat.le_refl _), ?_⟩
    · simp only [hrun, Option.bind_eq_bind, Option.bind_some]
      rfl
    · rw [hhead, nlmsgAttrdata]
      exact Nat.le_add_right _ _
    · rw [MsgAnswer, if_pos hvalid]
      refine ⟨results, rfl, hlength, fun i c s' e hc hresult => ?_⟩
      have hanswer := hanswers i c s' e hc hresult
      rwa [Nat.zero_add] at hanswer

end One

/-! ## A datagram -/

/-- The messages that are not for the family. -/
def ignored (familyId type : Nat) : Bool :=
  type < NLMSG_MIN_TYPE || type = GENL_ID_CTRL || type ≠ familyId

/-- The type of a message that is given by its bytes. -/
def msgType (m : List (BitVec 8)) : Nat := hostValue ((m.drop 4).take 2)

/-- One turn of the loop: is there a result? -/
def recvFamilyMsg (schema : GenlSchema) (familyId hdrsize : Nat) (calls : List Call) (nlh : Nat)
    (st : Mem × Table) : Option ((Mem × Table) × Option MsgResult) := do
  let type ← nlmsgType st.1 nlh
  if ignored familyId type then return (st, none)
  let (st, result) ← recvMsg schema hdrsize calls nlh st
  return (st, some result)

/-- `nlmsg_for_each_msg`, up to the first message that is not valid; `handler` has the calls that are made
    for a message. -/
def recvMsgs (schema : GenlSchema) (familyId hdrsize : Nat) (handler : Nat → List Call) :
    Nat → Nat → Int → Mem × Table → Option ((Mem × Table) × List MsgResult)
  | 0, _, _, _ => none
  | turns + 1, nlh, rem, st => do
    if ← nlmsgOk st.1 nlh rem then
      let (st, result) ← recvFamilyMsg schema familyId hdrsize (handler nlh) nlh st
      match result with
      | some (.error err) => return (st, [.error err])
      | result =>
        -- `nlmsg_next`
        let len ← nlmsgLenField st.1 nlh
        let (st, results) ← recvMsgs schema familyId hdrsize handler turns (nlh + nlaAlign len)
          (rem - nlaAlign len) st
        return (st, result.toList ++ results)
    else return (st, [])

/-- The messages that are for the family. -/
def familyMsgs (familyId : Nat) (msgs : List (Nat × List (BitVec 8))) : List (Nat × List (BitVec 8)) :=
  msgs.filter fun x => !ignored familyId (msgType x.2)

/-- The results for messages, up to the first one that is not valid. -/
def Handled (schema : GenlSchema) (hdrsize : Nat) (handler : Nat → List Call) :
    List (Nat × List (BitVec 8)) → List MsgResult → Prop
  | [], results => results = []
  | x :: msgs, results => ∃ result rest, results = result :: rest ∧
      MsgAnswer schema hdrsize x (handler x.1) result ∧
        if MsgValid schema hdrsize x then Handled schema hdrsize handler msgs rest else rest = []

section Datagram

variable {schema : GenlSchema} {familyId hdrsize nlh turns : Nat} {rem : Int} {handler : Nat → List Call}
  {mem : Mem} {ntb : Table} {pre region post m : List (BitVec 8)}

theorem nlmsgOk_append (hrem : rem.toNat = region.length) (hnlh : 16 ≤ rem → nlh = pre.length) :
    nlmsgOk (pre ++ region ++ post) nlh rem = some (decide (nlmsgFormat.Ok region)) := by
  rw [nlmsgOk]
  split
  · next hlt =>
    have hnot : ¬nlmsgFormat.Ok region := by
      rintro ⟨hhdr, -, -⟩
      have h16 : 16 ≤ region.length := hhdr
      omega
    rw [decide_eq_false hnot]
  · next hge =>
    have hread := read_of_holds (i := 0) (n := 4) (holds_append pre region post) (by omega)
    rw [Nat.add_zero, List.drop_zero] at hread
    have hlengthOf : nlmsgFormat.lengthOf region = hostValue (region.take 4) := rfl
    have hhdr : nlmsgFormat.hdr = 16 := rfl
    rw [hnlh (by omega), nlmsgLenField, hread, Option.map_some, Option.map_some]
    refine congrArg some (decide_eq_decide.2 ?_)
    rw [RecordStream.Format.Ok, hlengthOf, hhdr]
    omega

theorem nlmsgType_append (h : 16 ≤ region.length) :
    nlmsgType (pre ++ region ++ post) pre.length = some (msgType region) := by
  rw [nlmsgType, read_of_holds (holds_append pre region post) (by omega), Option.map_some, msgType]

theorem msgType_append (h : 16 ≤ m.length) (tail : List (BitVec 8)) : msgType (m ++ tail) = msgType m := by
  have hlen : 2 ≤ (m.drop 4).length := by
    rw [List.length_drop]
    omega
  rw [msgType, List.drop_append_of_le_length (by omega), List.take_append_of_le_length hlen, ← msgType]

theorem handled_of_valid {msgs : List (Nat × List (BitVec 8))} {x : Nat × List (BitVec 8)} {result : MsgResult}
    {results : List MsgResult} (hanswer : MsgAnswer schema hdrsize x (handler x.1) result)
    (hvalid : MsgValid schema hdrsize x) (hhandled : Handled schema hdrsize handler msgs results) :
    Handled schema hdrsize handler (x :: msgs) (result :: results) := by
  refine ⟨result, results, rfl, hanswer, ?_⟩
  rw [if_pos hvalid]
  exact hhandled

/-- One turn changes the memory of its message only. -/
theorem recvFamilyMsg_append (familyId hdrsize : Nat) (pre post : List (BitVec 8)) {calls : List Call}
    (hm : nlmsgFormat.IsRecord m) (hcalls : ∀ c ∈ calls, c.sd ∈ schema.structs) (ntb : Table) :
    ∃ m' ntb' result, recvFamilyMsg schema familyId hdrsize calls pre.length (pre ++ m ++ post, ntb) =
        some ((pre ++ m' ++ post, ntb'), result) ∧ nlmsgFormat.IsRecord m' ∧ m'.length = m.length ∧
      if ignored familyId (msgType m) then result = none
      else ∃ res, result = some res ∧ MsgAnswer schema hdrsize (pre.length, m) calls res := by
  have h16 : NLMSG_HDRLEN ≤ m.length := hm.hdr_le
  rw [recvFamilyMsg, nlmsgType_append h16, Option.bind_eq_bind, Option.bind_some]
  by_cases hignored : ignored familyId (msgType m) = true
  · refine ⟨m, ntb, none, ?_, hm, rfl, ?_⟩
    · rw [if_pos hignored]
      rfl
    · rw [if_pos hignored]
  · obtain ⟨mem', ntb', result, hrun, hsame, hanswer⟩ :=
      recvMsg_eq (holds_append pre m post) hm hcalls ntb
    obtain ⟨m', rfl, hlen, htake⟩ := hsame.exists_append h16
    refine ⟨m', ntb', some result, ?_, ⟨?_, ?_⟩, hlen, ?_⟩
    · rw [if_neg hignored, hrun]
      rfl
    · rw [hlen]
      exact hm.hdr_le
    · rw [hlen, ← hm.lengthOf_eq, ← nlmsgFormat.lengthOf_take, ← nlmsgFormat.lengthOf_take m]
      exact congrArg nlmsgFormat.lengthOf htake
    · rw [if_neg hignored]
      exact ⟨result, rfl, hanswer⟩

/-- **The loop handles the messages in order**, and each in its own memory. -/
theorem recvMsgs_append (familyId hdrsize : Nat) (pre post : List (BitVec 8))
    (hrem : rem.toNat = region.length) (hnlh : 16 ≤ rem → nlh = pre.length)
    (hturns : region.length < turns) (hcalls : ∀ nlh, ∀ c ∈ handler nlh, c.sd ∈ schema.structs)
    (ntb : Table) :
    ∃ region' ntb' results, recvMsgs schema familyId hdrsize handler turns nlh rem
        (pre ++ region ++ post, ntb) = some ((pre ++ region' ++ post, ntb'), results) ∧
      region'.length = region.length ∧
      Handled schema hdrsize handler (familyMsgs familyId (nlmsgFormat.walk nlh region)) results := by
  induction turns generalizing pre region nlh rem ntb with
  | zero => omega
  | succ turns ih =>
    simp only [recvMsgs, nlmsgOk_append hrem hnlh, Option.bind_eq_bind, Option.bind_some]
    by_cases hok : nlmsgFormat.Ok region
    · have h16 : 16 ≤ region.length := hok.1
      obtain rfl := hnlh (by omega)
      obtain ⟨m, gap, rest, rfl, hm, hshort, hrem', hgap, hwalk⟩ :=
        RecordStream.Format.next_parts hok hrem
      have hm16 : 16 ≤ m.length := hm.hdr_le
      have hmem : pre ++ (m ++ (gap ++ rest)) ++ post = pre ++ m ++ (gap ++ rest ++ post) := by
        simp only [List.append_assoc]
      obtain ⟨m', ntb₁, result, hturn, hm', hlen, hresult⟩ := recvFamilyMsg_append familyId hdrsize pre
        (gap ++ rest ++ post) hm (hcalls pre.length) ntb
      have hlenField : nlmsgLenField (pre ++ m' ++ (gap ++ rest ++ post)) pre.length = some m.length := by
        rw [nlmsgLenField_of_holds (holds_append pre m' _) hm', hlen]
      have hnlh' : 16 ≤ rem - (nlaAlign m.length : Int) →
          pre.length + nlaAlign m.length = (pre ++ (m' ++ gap)).length := by
        intro h
        have heq : m.length + gap.length = nlaAlign m.length :=
          hgap (Int.lt_of_lt_of_le (by omega : (0 : Int) < 16) h)
        rw [List.length_append, List.length_append, hlen]
        omega
      have hmem' : pre ++ m' ++ (gap ++ rest ++ post) = pre ++ (m' ++ gap) ++ rest ++ post := by
        simp only [List.append_assoc]
      have hrem : (rem - (nlaAlign m.length : Int)).toNat = rest.length := hrem'
      obtain ⟨rest', ntb', results, hrun, hlen', hhandled⟩ := ih (pre ++ (m' ++ gap)) hrem hnlh' (by omega) ntb₁
      rw [← hmem'] at hrun
      simp only [decide_eq_true hok, if_true, hmem, hturn, Option.bind_some,
        hwalk _ m rest hm rfl rfl, familyMsgs, List.filter_cons]
      have hlength : (m' ++ (gap ++ rest')).length = (m ++ (gap ++ rest)).length := by
        simp only [List.length_append, hlen, hlen']
      have hregion : pre ++ (m' ++ gap) ++ rest' ++ post = pre ++ (m' ++ (gap ++ rest')) ++ post := by
        simp only [List.append_assoc]
      by_cases hignored : ignored familyId (msgType m) = true
      · rw [if_pos hignored] at hresult
        refine ⟨m' ++ (gap ++ rest'), ntb', results, ?_, hlength, ?_⟩
        · simp only [hresult, hlenField, hrun, Option.bind_some, hregion]
          rfl
        · rw [if_neg (by simp [hignored])]
          exact hhandled
      · rw [if_neg hignored] at hresult
        obtain ⟨res, rfl, hanswer⟩ := hresult
        rw [if_pos (by simp [hignored])]
        by_cases hvalid : MsgValid schema hdrsize (pre.length, m)
        · have hok := hanswer
          rw [MsgAnswer, if_pos hvalid] at hok
          obtain ⟨rs, rfl, -⟩ := hok
          refine ⟨m' ++ (gap ++ rest'), ntb', .ok rs :: results, ?_, hlength, ?_⟩
          · simp only [hlenField, hrun, Option.bind_some, hregion]
            rfl
          · exact handled_of_valid hanswer hvalid hhandled
        · have herror := hanswer
          rw [MsgAnswer, if_neg hvalid] at herror
          obtain ⟨err, rfl⟩ := herror
          refine ⟨m' ++ (gap ++ rest), ntb₁, [.error err], ?_, ?_, ?_⟩
          · simp only [List.append_assoc]
            rfl
          · simp only [List.length_append, hlen]
          · refine ⟨.error err, [], rfl, hanswer, ?_⟩
            rw [if_neg hvalid]
    · rw [decide_eq_false hok, RecordStream.Format.walk_of_not_ok hok]
      exact ⟨region, ntb, [], rfl, rfl, rfl⟩

theorem recvMsgs_take (familyId hdrsize : Nat) {n : Nat} (hn : n ≤ mem.length)
    (hcalls : ∀ nlh, ∀ c ∈ handler nlh, c.sd ∈ schema.structs) (ntb : Table) :
    ∃ region' ntb' results, recvMsgs schema familyId hdrsize handler (n + 1) 0 n (mem, ntb) =
        some ((region' ++ mem.drop n, ntb'), results) ∧ region'.length = (mem.take n).length ∧
      Handled schema hdrsize handler (familyMsgs familyId (nlmsgFormat.walk 0 (mem.take n))) results := by
  have hlen : (mem.take n).length = n := List.length_take_of_le hn
  have hmem : [] ++ mem.take n ++ mem.drop n = mem := List.take_append_drop n mem
  have hrem : (n : Int).toNat = (mem.take n).length := by
    rw [hlen, Int.toNat_natCast]
  have hturns : (mem.take n).length < n + 1 := by
    rw [hlen]
    exact Nat.lt_succ_self n
  have happend := recvMsgs_append familyId hdrsize [] (mem.drop n) hrem (fun _ => rfl) hturns hcalls ntb
  rwa [hmem] at happend

theorem exists_of_handled {msgs : List (Nat × List (BitVec 8))} {results : List MsgResult}
    (h : Handled schema hdrsize handler msgs results) {k : Nat} {result : MsgResult}
    (hk : results[k]? = some result) :
    ∃ x, msgs[k]? = some x ∧ MsgAnswer schema hdrsize x (handler x.1) result := by
  induction msgs generalizing results k with
  | nil =>
    rw [Handled] at h
    rw [h] at hk
    cases hk
  | cons x msgs ih =>
    obtain ⟨result', rest, rfl, hanswer, hrest⟩ := h
    cases k with
    | zero =>
      obtain rfl := Option.some.inj hk
      exact ⟨x, rfl, hanswer⟩
    | succ k =>
      rw [List.getElem?_cons_succ] at hk
      split at hrest
      · exact ih hrest hk
      · rw [hrest] at hk
        cases hk

/-- A call leaves members that can be used. -/
theorem CallAnswer.members {recs : List (Nat × List (BitVec 8))} {maxtype n : Nat} {c : Call} {s' : Members}
    {e : Except NlaError Unit} (hc : c.sd ∈ schema.structs)
    (h : CallAnswer recs (tableOf maxtype recs) n c s' e) :
    (∀ a ∉ c.sd.fields.map GenlField.attrNr, s'.Agree c.s a) ∧
      ∀ f ∈ c.sd.fields, s'.Agree c.s f.attrNr ∨ (f.Sized c.s → f.Ok s') := by
  rw [CallAnswer] at h
  cases htable : tableOf maxtype recs c.sd.tagNumber with
  | none =>
    rw [htable] at h
    obtain ⟨rfl, -⟩ := h
    exact ⟨fun a _ => .refl _ a, fun f _ => .inl (.refl _ _)⟩
  | some p =>
    rw [htable] at h
    obtain ⟨-, -, r, hr, -⟩ := mem_of_tableOf htable
    exact (h r hr).members (schema.wf c.sd hc)

/-- **What is received can be used**, whatever a datagram contains: of each struct that a call was made for,
    a member is as before, or it is a number of its type, a string that ends inside of its array, or data
    inside of its array; nothing else is changed. -/
theorem recvMsgs_members {n : Nat} (hn : n ≤ mem.length)
    (hcalls : ∀ nlh, ∀ c ∈ handler nlh, c.sd ∈ schema.structs) (ntb : Table) :
    ∃ st' results, recvMsgs schema familyId hdrsize handler (n + 1) 0 n (mem, ntb) = some (st', results) ∧
      ∀ (k : Nat) (rs : List (Members × Except NlaError Unit)), results[k]? = some (.ok rs) →
        ∃ x, (familyMsgs familyId (nlmsgFormat.walk 0 (mem.take n)))[k]? = some x ∧
          rs.length = (handler x.1).length ∧
          ∀ (i : Nat) (c : Call) (s' : Members) (e : Except NlaError Unit), (handler x.1)[i]? = some c →
            rs[i]? = some (s', e) →
              (∀ a ∉ c.sd.fields.map GenlField.attrNr, s'.Agree c.s a) ∧
                ∀ f ∈ c.sd.fields, s'.Agree c.s f.attrNr ∨ (f.Sized c.s → f.Ok s') := by
  obtain ⟨region', ntb', results, hrun, -, hhandled⟩ := recvMsgs_take familyId hdrsize hn hcalls ntb
  refine ⟨_, results, hrun, fun k rs hrs => ?_⟩
  obtain ⟨x, hx, hanswer⟩ := exists_of_handled hhandled hrs
  rw [MsgAnswer] at hanswer
  split at hanswer
  · obtain ⟨rs', hok, hlen, hanswers⟩ := hanswer
    obtain rfl := Except.ok.inj hok
    refine ⟨x, hx, hlen, fun i c s' e hc hresult => ?_⟩
    exact (hanswers i c s' e hc hresult).members (hcalls x.1 c (List.mem_of_getElem? hc))
  · obtain ⟨err, herror⟩ := hanswer
    cases herror

omit [Host] in
theorem recvMsgs_members_helper : ∃ st' results, @recvMsgs littleEndian drbdGenl 30 8 (fun _ => helperCalls)
      65 0 64 (helperDatagram, fun _ => none) = some (st', results) ∧
    ∀ (k : Nat) (rs : List (Members × Except NlaError Unit)), results[k]? = some (.ok rs) →
      ∃ x, (@familyMsgs littleEndian 30 ((@nlmsgFormat littleEndian).walk 0 helperDatagram))[k]? = some x ∧
        rs.length = helperCalls.length ∧
        ∀ (i : Nat) (c : Call) (s' : Members) (e : Except NlaError Unit), helperCalls[i]? = some c →
          rs[i]? = some (s', e) →
            (∀ a ∉ c.sd.fields.map GenlField.attrNr, s'.Agree c.s a) ∧
              ∀ f ∈ c.sd.fields, s'.Agree c.s f.attrNr ∨ (f.Sized c.s → f.Ok s') :=
  @recvMsgs_members littleEndian drbdGenl 30 8 (fun _ => helperCalls) helperDatagram 64 (by decide)
    (fun _ => helperCalls_mem) fun _ => none

end Datagram

end Message

end DrbdUtils.Genl
