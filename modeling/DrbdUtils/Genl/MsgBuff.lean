import DrbdUtils.Genl.NlaStream

/-!
# Building messages

`struct msg_buff` of `libgenl.h`, and the functions that put attributes into it.  A message never grows
beyond its end; an attribute that does not fit is left out.  Attributes are nested by putting others
between `nla_nest_start` and `nla_nest_end`, which corrects the length of the container.  What `msg_put`
reserves is given with the bytes that are written there; the attributes are shorter than 64 KiB, so that
`nla_len` holds their lengths.

* `putCalls_eq` — what calls put into a message: the attributes that fit, each with those inside of it.
* `putCalls_found` — they are found again in the message.
-/

set_option autoImplicit false

namespace DrbdUtils.Genl

/-! ## Message buffers -/

structure MsgBuff where
  /-- From `data` up to `tail`. -/
  data : List (BitVec 8)
  /-- From `data` up to `end`. -/
  size : Nat
  length_le : data.length ≤ size

namespace MsgBuff

theorem length_nil_le (size : Nat) : ([] : List (BitVec 8)).length ≤ size := Nat.zero_le _

def msgNew (size : Nat) : MsgBuff := ⟨[], size, length_nil_le size⟩

def msgTailroom (m : MsgBuff) : Nat := m.size - m.data.length

theorem length_append_le {m : MsgBuff} {bytes : List (BitVec 8)} (h : bytes.length ≤ m.msgTailroom) :
    (m.data ++ bytes).length ≤ m.size := by
  have hle := m.length_le
  rw [msgTailroom] at h
  rw [List.length_append]
  omega

/-- There is no result where `BUG_ON` stops the program. -/
def msgPut (m : MsgBuff) (bytes : List (BitVec 8)) : Option MsgBuff :=
  if h : bytes.length ≤ m.msgTailroom then some ⟨m.data ++ bytes, m.size, length_append_le h⟩ else none

theorem msgPut_eq {m : MsgBuff} {bytes : List (BitVec 8)} (h : bytes.length ≤ m.msgTailroom) :
    ∃ m', m.msgPut bytes = some m' ∧ m'.data = m.data ++ bytes ∧ m'.size = m.size :=
  ⟨_, dif_pos h, rfl, rfl⟩

end MsgBuff

theorem MsgBuff.msgTailroom_append {m m' : MsgBuff} {bytes : List (BitVec 8)} (hdata : m'.data = m.data ++ bytes)
    (hsize : m'.size = m.size) : m'.msgTailroom = m.msgTailroom - bytes.length := by
  rw [MsgBuff.msgTailroom, MsgBuff.msgTailroom, hdata, hsize, List.length_append]
  omega

def nlaAttrSize (payload : Nat) : Nat := NLA_HDRLEN + payload

def nlaTotalSize (payload : Nat) : Nat := nlaAlign (nlaAttrSize payload)

/-- `NLA_F_NESTED` -/
def NLA_F_NESTED : Nat := 2 ^ 15

theorem length_replace_le {m : MsgBuff} {start : Nat} {len : List (BitVec 8)}
    (h : start + len.length ≤ m.data.length) :
    (m.data.take start ++ len ++ m.data.drop (start + len.length)).length ≤ m.size := by
  have hle := m.length_le
  simp only [List.length_append, List.length_take, List.length_drop]
  omega

/-- Calls that put attributes, in this order; the calls `sub` are made between `nla_nest_start` and
    `nla_nest_end`. -/
inductive PutCalls where
  | done
  | put (attrtype : Nat) (data : List (BitVec 8)) (calls : PutCalls)
  | nest (attrtype : Nat) (sub : PutCalls) (calls : PutCalls)

/-- The calls that find enough room, and the room behind them; none if a container does not. -/
def PutCalls.fit : PutCalls → Nat → Option (PutCalls × Nat)
  | .done, room => some (.done, room)
  | .put attrtype data calls, room =>
    if nlaTotalSize data.length ≤ room then
      (calls.fit (room - nlaTotalSize data.length)).map fun x => (.put attrtype data x.1, x.2)
    else calls.fit room
  | .nest attrtype sub calls, room =>
    if NLA_HDRLEN ≤ room then
      (sub.fit (room - NLA_HDRLEN)).bind fun x =>
        (calls.fit x.2).map fun y => (.nest attrtype x.1 y.1, y.2)
    else none

theorem nested_mod (attrtype : Nat) : (attrtype ||| NLA_F_NESTED) % 2 ^ 14 = attrtype % 2 ^ 14 := by
  rw [Nat.or_mod_two_pow, NLA_F_NESTED, show 2 ^ 15 % 2 ^ 14 = 0 from rfl, Nat.or_zero]

section Put

variable [Host]

/-- `__nla_put`, with the padding that `__nla_reserve` adds. -/
def putAttr (m : MsgBuff) (attrtype : Nat) (data : List (BitVec 8)) : Option MsgBuff :=
  m.msgPut (hostBytes 2 (nlaAttrSize data.length) ++ hostBytes 2 attrtype ++ data ++
    List.replicate (nlaTotalSize data.length - nlaAttrSize data.length) 0)

def nlaPut (m : MsgBuff) (attrtype : Nat) (data : List (BitVec 8)) :
    Option (MsgBuff × Except NlaError Unit) :=
  if m.msgTailroom < nlaTotalSize data.length then some (m, .error .msgsize)
  else (putAttr m attrtype data).map fun m => (m, .ok ())

/-- The container that is started, or `NULL`. -/
def nlaNestStart (m : MsgBuff) (attrtype : Nat) : Option (MsgBuff × Option Nat) := do
  let start := m.data.length
  let (m, err) ← nlaPut m (attrtype ||| NLA_F_NESTED) []
  match err with
  | .error _ => return (m, none)
  | .ok () => return (m, some start)

/-- The length of the container is corrected. -/
def nlaNestEnd (m : MsgBuff) (start : Nat) : Option MsgBuff :=
  let len := hostBytes 2 (m.data.length - start)
  if h : start + len.length ≤ m.data.length then
    some ⟨m.data.take start ++ len ++ m.data.drop (start + len.length), m.size, length_replace_le h⟩
  else none

/-! ## Calls -/

/-- Errors of `nla_put` are ignored, and `NULL` as a container is not. -/
def putCalls : PutCalls → MsgBuff → Option MsgBuff
  | .done, m => some m
  | .put attrtype data calls, m => do
    let (m, _) ← nlaPut m attrtype data
    putCalls calls m
  | .nest attrtype sub calls, m => do
    let (m, start) ← nlaNestStart m attrtype
    let start ← start
    let m ← putCalls sub m
    let m ← nlaNestEnd m start
    putCalls calls m

/-! ## What is put -/

/-- The bytes of an attribute. -/
def attrBytes (attrtype : Nat) (data : List (BitVec 8)) : List (BitVec 8) :=
  hostBytes 2 (nlaAttrSize data.length) ++ hostBytes 2 attrtype ++ data

/-- The attributes that the calls are about. -/
def PutCalls.attrs : PutCalls → List (List (BitVec 8))
  | .done => []
  | .put attrtype data calls => attrBytes attrtype data :: calls.attrs
  | .nest attrtype sub calls =>
    attrBytes (attrtype ||| NLA_F_NESTED) (nlaFormat.pack 0 sub.attrs) :: calls.attrs

end Put

section Attrs

variable [Host] {attrtype : Nat} {data : List (BitVec 8)} {m : MsgBuff}

theorem length_attrBytes : (attrBytes attrtype data).length = nlaAttrSize data.length := by
  simp only [attrBytes, List.length_append, length_hostBytes, nlaAttrSize, NLA_HDRLEN]

theorem isRecord_attrBytes (h : nlaAttrSize data.length < 2 ^ 16) :
    nlaFormat.IsRecord (attrBytes attrtype data) := by
  refine ⟨?_, ?_⟩
  · rw [length_attrBytes]
    exact Nat.le_add_right _ _
  · have hlen := length_hostBytes 2 (nlaAttrSize data.length)
    have htake : (attrBytes attrtype data).take 2 = hostBytes 2 (nlaAttrSize data.length) := by
      rw [attrBytes, List.append_assoc, List.take_append_of_le_length hlen.ge, List.take_of_length_le hlen.le]
    rw [length_attrBytes]
    exact (congrArg hostValue htake).trans ((hostValue_hostBytes _ _).trans (Nat.mod_eq_of_lt h))

/-- The type with its flags. -/
theorem typeField_attrBytes :
    hostValue (((attrBytes attrtype data).drop 2).take 2) = attrtype % 2 ^ 16 := by
  have hlen := length_hostBytes 2 (nlaAttrSize data.length)
  have hlen' := length_hostBytes 2 attrtype
  have htype : ((attrBytes attrtype data).drop 2).take 2 = hostBytes 2 attrtype := by
    rw [attrBytes, List.append_assoc]
    conv => lhs; arg 2; arg 1; rw [← hlen]
    rw [List.drop_left, List.take_append_of_le_length hlen'.ge, List.take_of_length_le hlen'.le]
  exact (congrArg hostValue htype).trans (hostValue_hostBytes 2 attrtype)

theorem attrType_attrBytes : attrType (attrBytes attrtype data) = attrtype % 2 ^ 14 := by
  rw [attrType, typeField_attrBytes]
  omega

theorem attrPayload_attrBytes : attrPayload (attrBytes attrtype data) = data := by
  have hlen : (hostBytes 2 (nlaAttrSize data.length) ++ hostBytes 2 attrtype).length = NLA_HDRLEN := by
    rw [List.length_append, length_hostBytes, length_hostBytes]
    rfl
  rw [attrPayload, attrBytes, ← hlen, List.drop_left]

/-! ## Calls and attributes -/

theorem dvd_length_pack (recs : List (List (BitVec 8))) : 4 ∣ (nlaFormat.pack 0 recs).length := by
  induction recs with
  | nil => exact Nat.dvd_zero 4
  | cons r recs ih =>
    rw [RecordStream.Format.length_pack_cons]
    exact Nat.dvd_add (Nat.dvd_mul_left 4 _) ih

theorem padded_attrBytes : nlaFormat.padded 0 (attrBytes attrtype data) = attrBytes attrtype data ++
    List.replicate (nlaTotalSize data.length - nlaAttrSize data.length) 0 := by
  rw [RecordStream.Format.padded, length_attrBytes]
  rfl

/-- A container needs no padding. -/
theorem padded_nest (recs : List (List (BitVec 8))) :
    nlaFormat.padded 0 (attrBytes attrtype (nlaFormat.pack 0 recs)) =
      attrBytes attrtype (nlaFormat.pack 0 recs) := by
  obtain ⟨k, hk⟩ := dvd_length_pack recs
  have hpad : nlaTotalSize (nlaFormat.pack 0 recs).length - nlaAttrSize (nlaFormat.pack 0 recs).length = 0 := by
    rw [nlaTotalSize, nlaAttrSize, nlaAlign, NLA_HDRLEN, hk]
    omega
  rw [padded_attrBytes, hpad, List.replicate_zero, List.append_nil]

theorem nlaPut_of_le (attrtype : Nat) (h : nlaTotalSize data.length ≤ m.msgTailroom) :
    ∃ m', nlaPut m attrtype data = some (m', .ok ()) ∧
      m'.data = m.data ++ nlaFormat.padded 0 (attrBytes attrtype data) ∧ m'.size = m.size := by
  have hlen : (attrBytes attrtype data ++
      List.replicate (nlaTotalSize data.length - nlaAttrSize data.length) 0).length =
        nlaTotalSize data.length := by
    rw [← padded_attrBytes, RecordStream.Format.length_padded, length_attrBytes]
    rfl
  obtain ⟨m', hput, hdata, hsize⟩ := MsgBuff.msgPut_eq (by rw [hlen]; exact h)
  refine ⟨m', ?_, by rw [hdata, padded_attrBytes], hsize⟩
  rw [nlaPut, if_neg (Nat.not_lt.2 h), putAttr, ← attrBytes, hput]
  rfl

theorem nlaNestStart_of_le (attrtype : Nat) (h : NLA_HDRLEN ≤ m.msgTailroom) :
    ∃ m', nlaNestStart m attrtype = some (m', some m.data.length) ∧
      m'.data = m.data ++ attrBytes (attrtype ||| NLA_F_NESTED) [] ∧ m'.size = m.size := by
  have hroom : nlaTotalSize ([] : List (BitVec 8)).length ≤ m.msgTailroom := h
  obtain ⟨m', hput, hdata, hsize⟩ := nlaPut_of_le (attrtype ||| NLA_F_NESTED) hroom
  refine ⟨m', ?_, by rw [hdata]; exact congrArg _ (padded_nest []), hsize⟩
  rw [nlaNestStart, hput]
  rfl

theorem nlaNestStart_of_lt (h : m.msgTailroom < NLA_HDRLEN) :
    nlaNestStart m attrtype = some (m, none) := by
  have hfull : m.msgTailroom < nlaTotalSize ([] : List (BitVec 8)).length := h
  rw [nlaNestStart, nlaPut, if_pos hfull]
  rfl

/-- The container gets the length of what is inside of it. -/
theorem nlaNestEnd_eq {front recs : List (BitVec 8)} (hdata : m.data = front ++ attrBytes attrtype [] ++ recs) :
    ∃ m', nlaNestEnd m front.length = some m' ∧ m'.data = front ++ attrBytes attrtype recs ∧
      m'.size = m.size ∧ m'.msgTailroom = m.msgTailroom := by
  have hlen : m.data.length = front.length + nlaAttrSize recs.length := by
    rw [hdata, List.length_append, List.length_append, length_attrBytes, nlaAttrSize, nlaAttrSize,
      List.length_nil]
    omega
  have hdata' : m.data = front ++ (hostBytes 2 (nlaAttrSize 0) ++ (hostBytes 2 attrtype ++ recs)) := by
    rw [hdata, attrBytes]
    simp only [List.append_assoc, List.append_nil, List.length_nil]
  have hdrop : m.data.drop (front.length + 2) = hostBytes 2 attrtype ++ recs := by
    rw [hdata', List.drop_length_add_append]
    conv => lhs; arg 1; rw [← length_hostBytes 2 (nlaAttrSize 0)]
    rw [List.drop_left]
  have htake : m.data.take front.length = front := by rw [hdata', List.take_left]
  have hle : front.length + (hostBytes 2 (m.data.length - front.length)).length ≤ m.data.length := by
    rw [length_hostBytes, hlen, nlaAttrSize, NLA_HDRLEN]
    omega
  have heq : m.data.take front.length ++ hostBytes 2 (m.data.length - front.length) ++
      m.data.drop (front.length + (hostBytes 2 (m.data.length - front.length)).length) =
        front ++ attrBytes attrtype recs := by
    rw [length_hostBytes, hdrop, htake, hlen, Nat.add_sub_cancel_left, attrBytes]
    simp only [List.append_assoc]
  have hlen' : (m.data.take front.length ++ hostBytes 2 (m.data.length - front.length) ++
      m.data.drop (front.length + (hostBytes 2 (m.data.length - front.length)).length)).length =
        m.data.length := by
    rw [heq, List.length_append, length_attrBytes, hlen]
  exact ⟨_, dif_pos hle, heq, rfl, congrArg (m.size - ·) hlen'⟩

/-- **What calls put into a message**: the attributes that fit, padded, behind what it has. -/
theorem putCalls_eq (calls : PutCalls) (m : MsgBuff) :
    match calls.fit m.msgTailroom with
    | none => putCalls calls m = none
    | some (kept, room) => ∃ m', putCalls calls m = some m' ∧ m'.size = m.size ∧
        m'.msgTailroom = room ∧ m'.data = m.data ++ nlaFormat.pack 0 kept.attrs := by
  induction calls generalizing m with
  | done => exact ⟨m, rfl, rfl, rfl, by simp [PutCalls.attrs]⟩
  | put attrtype data calls ih =>
    rw [PutCalls.fit, putCalls]
    by_cases hfit : nlaTotalSize data.length ≤ m.msgTailroom
    · obtain ⟨m1, hput, hdata1, hsize1⟩ := nlaPut_of_le attrtype hfit
      have hroom : m1.msgTailroom = m.msgTailroom - nlaTotalSize data.length := by
        rw [MsgBuff.msgTailroom_append hdata1 hsize1, RecordStream.Format.length_padded, length_attrBytes]
        rfl
      have ih := ih m1
      rw [hroom] at ih
      rw [if_pos hfit, hput]
      cases hcalls : calls.fit (m.msgTailroom - nlaTotalSize data.length) with
      | none =>
        rw [hcalls] at ih
        exact ih
      | some x =>
        rw [hcalls] at ih
        obtain ⟨m', hrun, hsize, htail, hdata⟩ := ih
        refine ⟨m', hrun, hsize.trans hsize1, htail, ?_⟩
        rw [hdata, hdata1, PutCalls.attrs, RecordStream.Format.pack_cons, List.append_assoc]
    · have hput : nlaPut m attrtype data = some (m, .error .msgsize) := if_pos (Nat.lt_of_not_le hfit)
      rw [if_neg hfit, hput]
      exact ih m
  | nest attrtype sub calls ihsub ih =>
    rw [PutCalls.fit, putCalls]
    by_cases hfit : NLA_HDRLEN ≤ m.msgTailroom
    · obtain ⟨m1, hstart, hdata1, hsize1⟩ := nlaNestStart_of_le attrtype hfit
      have hroom1 : m1.msgTailroom = m.msgTailroom - NLA_HDRLEN := by
        rw [MsgBuff.msgTailroom_append hdata1 hsize1, length_attrBytes]
        rfl
      have ihsub := ihsub m1
      rw [hroom1] at ihsub
      rw [if_pos hfit, hstart]
      cases hsub : sub.fit (m.msgTailroom - NLA_HDRLEN) with
      | none =>
        rw [hsub] at ihsub
        simp only [Option.bind_eq_bind, Option.bind_some, ihsub, Option.bind_none]
      | some x =>
        rw [hsub] at ihsub
        obtain ⟨m2, hrun2, hsize2, htail2, hdata2⟩ := ihsub
        rw [hdata1] at hdata2
        obtain ⟨m3, hend, hdata3, hsize3, htail3⟩ := nlaNestEnd_eq hdata2
        have ih := ih m3
        rw [htail3, htail2] at ih
        simp only [Option.bind_eq_bind, Option.bind_some, hrun2, hend]
        cases hcalls : calls.fit x.2 with
        | none =>
          rw [hcalls] at ih
          exact ih
        | some y =>
          rw [hcalls] at ih
          obtain ⟨m', hrun, hsize, htail, hdata⟩ := ih
          refine ⟨m', hrun, by rw [hsize, hsize3, hsize2, hsize1], htail, ?_⟩
          rw [hdata, hdata3, PutCalls.attrs, RecordStream.Format.pack_cons, padded_nest, List.append_assoc]
    · rw [if_neg hfit, nlaNestStart_of_lt (Nat.lt_of_not_le hfit)]
      rfl

/-! ## Reading the message -/

/-- The calls are found in these attributes, those inside of a container in the container. -/
def PutCalls.Found : PutCalls → List (Nat × List (BitVec 8)) → Prop
  | .done, recs => recs = []
  | .put attrtype data calls, recs =>
    ∃ x rest, recs = x :: rest ∧ attrType x.2 = attrtype % 2 ^ 14 ∧ attrPayload x.2 = data ∧ calls.Found rest
  | .nest attrtype sub calls, recs =>
    ∃ x rest, recs = x :: rest ∧ attrType x.2 = attrtype % 2 ^ 14 ∧ sub.Found (attrsIn x.1 x.2) ∧
      calls.Found rest

theorem attrSize_le_pack {recs : List (List (BitVec 8))} (h : attrBytes attrtype data ∈ recs) :
    nlaAttrSize data.length ≤ (nlaFormat.pack 0 recs).length := by
  have hle : (attrBytes attrtype data).length ≤ (nlaFormat.pack 0 recs).length :=
    RecordStream.Format.length_le_pack h
  rwa [length_attrBytes] at hle

theorem isRecord_attrs {calls : PutCalls} (h : (nlaFormat.pack 0 calls.attrs).length < 2 ^ 16) :
    ∀ r ∈ calls.attrs, nlaFormat.IsRecord r := by
  induction calls with
  | done => simp [PutCalls.attrs]
  | put attrtype data calls ih =>
    rw [PutCalls.attrs] at h ⊢
    rw [List.forall_mem_cons]
    refine ⟨isRecord_attrBytes (Nat.lt_of_le_of_lt (attrSize_le_pack List.mem_cons_self) h), ih ?_⟩
    rw [RecordStream.Format.length_pack_cons] at h
    omega
  | nest attrtype sub calls _ ih =>
    rw [PutCalls.attrs] at h ⊢
    rw [List.forall_mem_cons]
    refine ⟨isRecord_attrBytes (Nat.lt_of_le_of_lt (attrSize_le_pack List.mem_cons_self) h), ih ?_⟩
    rw [RecordStream.Format.length_pack_cons] at h
    omega

theorem found_attrs {calls : PutCalls} (h : (nlaFormat.pack 0 calls.attrs).length < 2 ^ 16) (pos : Nat) :
    calls.Found (nlaFormat.place pos calls.attrs) := by
  induction calls generalizing pos with
  | done => rfl
  | put attrtype data calls ih =>
    rw [PutCalls.attrs] at h ⊢
    refine ⟨_, _, rfl, attrType_attrBytes, attrPayload_attrBytes, ih ?_ _⟩
    rw [RecordStream.Format.length_pack_cons] at h
    omega
  | nest attrtype sub calls ihsub ih =>
    rw [PutCalls.attrs] at h ⊢
    have hsub : (nlaFormat.pack 0 sub.attrs).length < 2 ^ 16 := by
      have hle := Nat.lt_of_le_of_lt (attrSize_le_pack List.mem_cons_self) h
      rw [nlaAttrSize] at hle
      omega
    refine ⟨_, _, rfl, attrType_attrBytes.trans (nested_mod _), ?_, ih ?_ _⟩
    · rw [attrsIn, attrPayload_attrBytes, RecordStream.Format.walk_pack_nil (isRecord_attrs hsub)]
      exact ihsub hsub _
    · rw [RecordStream.Format.length_pack_cons] at h
      omega

/-- What needs no more than the room is put. -/
theorem fit_of_le {calls : PutCalls} {room : Nat} (h : (nlaFormat.pack 0 calls.attrs).length ≤ room) :
    calls.fit room = some (calls, room - (nlaFormat.pack 0 calls.attrs).length) := by
  induction calls generalizing room with
  | done => simp [PutCalls.fit, PutCalls.attrs]
  | put attrtype data calls ih =>
    rw [PutCalls.attrs, RecordStream.Format.length_pack_cons, length_attrBytes] at h ⊢
    have hsize : nlaFormat.align (nlaAttrSize data.length) = nlaTotalSize data.length := rfl
    rw [hsize] at h ⊢
    rw [PutCalls.fit, if_pos (by omega), ih (by omega), Option.map_some, Nat.sub_sub]
  | nest attrtype sub calls ihsub ih =>
    have hlen : (nlaFormat.pack 0 (PutCalls.nest attrtype sub calls).attrs).length =
        NLA_HDRLEN + (nlaFormat.pack 0 sub.attrs).length + (nlaFormat.pack 0 calls.attrs).length := by
      rw [PutCalls.attrs, RecordStream.Format.pack_cons, padded_nest, List.length_append, length_attrBytes,
        nlaAttrSize]
    rw [hlen] at h ⊢
    rw [PutCalls.fit, if_pos (by omega), ihsub (by omega), Option.bind_some, ih (by omega), Option.map_some]
    congr 2
    omega

/-- **Messages are read as they were built.**  Behind what the message had, there are the attributes of
    the calls that found room, and inside of each container those of the calls that were made for it; if
    there is room for all, all are found.  The calls fail only where a container cannot be started. -/
theorem putCalls_found (calls : PutCalls) (m : MsgBuff) (hsize : m.size < 2 ^ 16) :
    (putCalls calls m = none ↔ calls.fit m.msgTailroom = none) ∧
      ∀ kept room, calls.fit m.msgTailroom = some (kept, room) → ∃ m', putCalls calls m = some m' ∧
        m'.data.take m.data.length = m.data ∧ m'.msgTailroom = room ∧
        kept.Found (attrsAt m'.data m.data.length (m'.data.length - m.data.length)) ∧
        ((nlaFormat.pack 0 calls.attrs).length ≤ m.msgTailroom → kept = calls) := by
  have hput := putCalls_eq calls m
  cases hfit : calls.fit m.msgTailroom with
  | none =>
    rw [hfit] at hput
    exact ⟨by simp [hput], fun kept room h => by cases h⟩
  | some x =>
    obtain ⟨kept', room'⟩ := x
    rw [hfit] at hput
    obtain ⟨m', hrun, hsize', htail, hdata⟩ := hput
    refine ⟨by simp [hrun], fun kept room h => ?_⟩
    obtain ⟨rfl, rfl⟩ := Prod.mk.inj (Option.some.inj h)
    refine ⟨m', hrun, by rw [hdata, List.take_left], htail, ?_, fun hle => ?_⟩
    · have hlen : (nlaFormat.pack 0 kept'.attrs).length < 2 ^ 16 := by
        have hle := m'.length_le
        rw [hdata, List.length_append] at hle
        omega
      have hregion : (m'.data.drop m.data.length).take
          ((m'.data.length : Int) - m.data.length).toNat = nlaFormat.pack 0 kept'.attrs := by
        rw [hdata, List.drop_left, List.length_append]
        exact List.take_of_length_le (by omega)
      rw [attrsAt, hregion, RecordStream.Format.walk_pack_nil (isRecord_attrs hlen)]
      exact found_attrs hlen _
    · rw [fit_of_le hle] at hfit
      exact (Prod.mk.inj (Option.some.inj hfit)).1.symm

omit [Host] in
/-- A container with one attribute in it. -/
theorem putCalls_found_nest : ∃ m', @putCalls littleEndian (.nest 5 (.put 1 [1, 2, 3] .done) .done)
      (MsgBuff.msgNew 64) = some m' ∧ m'.msgTailroom = 52 ∧
    @PutCalls.Found littleEndian (.nest 5 (.put 1 [1, 2, 3] .done) .done)
      (@attrsAt littleEndian m'.data 0 m'.data.length) := by
  obtain ⟨-, hfound⟩ := @putCalls_found littleEndian (.nest 5 (.put 1 [1, 2, 3] .done) .done)
    (MsgBuff.msgNew 64) (by decide)
  obtain ⟨m', hrun, -, hroom, hattrs, -⟩ := hfound (.nest 5 (.put 1 [1, 2, 3] .done) .done) 52 rfl
  refine ⟨m', hrun, hroom, ?_⟩
  simpa [MsgBuff.msgNew] using hattrs

end Attrs

end DrbdUtils.Genl
