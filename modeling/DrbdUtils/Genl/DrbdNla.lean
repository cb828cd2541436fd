import Mathlib.Data.Nat.Bitwise
import DrbdUtils.Genl.NlaStream

/-!
# Mandatory attributes

`drbd_nla.c`: a flag in the type of an attribute says that it must not be ignored.  The flags are removed
in the memory of the message before its attributes are parsed, up to the first attribute that has the flag
and is not known.

* `drbdNlaParseNested_eq` — what a call returns, and how it changes the memory.
* `parseTimes_eq` — of several calls for one message, as many are refused as it has unknown mandatory
  attributes.
-/

set_option autoImplicit false

namespace DrbdUtils.Genl

/-! ## Functions -/

def write (mem : Mem) (p : Nat) (bytes : List (BitVec 8)) : Option Mem :=
  if p + bytes.length ≤ mem.length then some (mem.take p ++ bytes ++ mem.drop (p + bytes.length))
  else none

/-- `DRBD_GENLA_F_MANDATORY` is `1 << DRBD_GENLA_F_MANDATORY_BIT`. -/
def DRBD_GENLA_F_MANDATORY_BIT : Nat := 14

theorem take_drop_parts {a t b : List (BitVec 8)} (ha : a.length = 2) (ht : t.length = 2) :
    (a ++ t ++ b).take 2 = a ∧ ((a ++ t ++ b).drop 2).take 2 = t ∧ (a ++ t ++ b).drop 4 = b := by
  refine ⟨?_, ?_, ?_⟩
  · rw [List.append_assoc, ← ha, List.take_left]
  · rw [List.append_assoc, ← ha, List.drop_left, ha, ← ht, List.take_left]
  · have h4 : (a ++ t).length = 4 := by rw [List.length_append, ha, ht]
    rw [← h4, List.drop_left]

theorem write_inside (pre r post new : List (BitVec 8)) {i : Nat} (h : i + new.length ≤ r.length) :
    write (pre ++ r ++ post) (pre.length + i) new =
      some (pre ++ (r.take i ++ new ++ r.drop (i + new.length)) ++ post) := by
  rw [write, if_pos (by simp only [List.length_append]; omega), Nat.add_assoc, List.append_assoc pre r,
    List.take_length_add_append, List.drop_length_add_append, List.take_append_of_le_length (by omega),
    List.drop_append_of_le_length h]
  simp only [List.append_assoc]

theorem holds_append (pre r post : List (BitVec 8)) : Holds (pre ++ r ++ post) pre.length r := by
  refine ⟨by simp, ?_⟩
  rw [List.append_assoc, List.drop_left, List.take_left]

section Mandatory

variable [Host]

/-- The body of the loop: the flag is removed; is the attribute refused? -/
def checkMandatoryAttr (mem : Mem) (nla maxtype : Nat) : Option (Mem × Bool) := do
  let type ← nlaTypeField mem nla
  if type.testBit DRBD_GENLA_F_MANDATORY_BIT then
    let mem ← write mem (nla + 2) (hostBytes 2 (type - 2 ^ DRBD_GENLA_F_MANDATORY_BIT))
    let type ← nlaType mem nla
    return (mem, decide (type > maxtype))
  else return (mem, false)

/-- The loop of `drbd_nla_check_mandatory`. -/
def checkMandatoryAttrs (maxtype : Nat) : Nat → Mem → Nat → Int → Option (Mem × Except NlaError Unit)
  | 0, _, _, _ => none
  | turns + 1, mem, nla, rem => do
    if ← nlaOk mem nla rem then
      let (mem, refused) ← checkMandatoryAttr mem nla maxtype
      if refused then return (mem, .error .opnotsupp)
      let len ← nlaLenField mem nla
      checkMandatoryAttrs maxtype turns mem (nla + nlaAlign len) (rem - nlaAlign len)
    else return (mem, .ok ())

def drbdNlaCheckMandatory (mem : Mem) (maxtype nla : Nat) : Option (Mem × Except NlaError Unit) := do
  let len ← nlaLen mem nla
  checkMandatoryAttrs maxtype (len.toNat + 1) mem (nlaData nla) len

/-- After an error of `drbd_nla_check_mandatory`, the table is not touched. -/
def drbdNlaParseNested (mem : Mem) (tb : Table) (maxtype nla : Nat) (policy : Option (List NlaPolicy)) :
    Option (Mem × Table × Except NlaError Unit) := do
  let (mem, err) ← drbdNlaCheckMandatory mem maxtype nla
  match err with
  | .error err => return (mem, tb, .error err)
  | .ok () =>
    let (tb, err) ← nlaParseNested mem maxtype nla policy
    return (mem, tb, err)

/-- An error of `drbd_nla_check_mandatory` is ignored. -/
def drbdNlaFindNested (mem : Mem) (maxtype nla attrtype : Nat) : Option (Mem × Option Nat) := do
  let (mem, _) ← drbdNlaCheckMandatory mem maxtype nla
  let len ← nlaLen mem nla
  return (mem, ← nlaFind mem (nlaData nla) len attrtype)

/-! ## Removing the flag -/

/-- The type of an attribute, with its flags. -/
def rawType (r : List (BitVec 8)) : Nat := hostValue ((r.drop 2).take 2)

def marked (r : List (BitVec 8)) : Bool := (rawType r).testBit DRBD_GENLA_F_MANDATORY_BIT

/-- An attribute without the flag. -/
def unmark (r : List (BitVec 8)) : List (BitVec 8) :=
  if marked r then r.take 2 ++ hostBytes 2 (rawType r - 2 ^ DRBD_GENLA_F_MANDATORY_BIT) ++ r.drop 4 else r

/-- A mandatory attribute that is not known. -/
def refused (maxtype : Nat) (r : List (BitVec 8)) : Bool := marked r && decide (maxtype < attrType r)

/-- What is left of the flags: those behind the first attribute that is refused. -/
def sweep (maxtype : Nat) : List (Nat × List (BitVec 8)) → List (Nat × List (BitVec 8))
  | [] => []
  | x :: recs => (x.1, unmark x.2) :: if refused maxtype x.2 then recs else sweep maxtype recs

section Unmark

variable {r : List (BitVec 8)}

theorem marked_iff : marked r = true ↔ rawType r / 2 ^ 14 % 2 = 1 := by
  rw [marked, Nat.testBit_eq_decide_div_mod_eq, decide_eq_true_iff]
  rfl

theorem rawType_lt : rawType r < 2 ^ 16 := by
  have hlen : ((r.drop 2).take 2).length ≤ 2 := by
    rw [List.length_take]
    omega
  have hpow : 256 ^ ((r.drop 2).take 2).length ≤ 256 ^ 2 := Nat.pow_le_pow_right (by omega) hlen
  have hlt : rawType r < 256 ^ ((r.drop 2).take 2).length := hostValue_lt _
  omega

theorem unmark_eq (h : 4 ≤ r.length) : ∃ t, unmark r = r.take 2 ++ t ++ r.drop 4 ∧ t.length = 2 ∧
    hostValue t = if marked r then rawType r - 2 ^ 14 else rawType r := by
  rw [unmark]
  split
  · refine ⟨_, rfl, length_hostBytes _ _, ?_⟩
    have hlt := rawType_lt (r := r)
    rw [hostValue_hostBytes, show 256 ^ 2 = 2 ^ 16 from rfl,
      Nat.mod_eq_of_lt (Nat.lt_of_le_of_lt (Nat.sub_le _ _) hlt)]
    rfl
  · refine ⟨(r.drop 2).take 2, ?_, ?_, rfl⟩
    · have h4 : (r.drop 2).drop 2 = r.drop 4 := List.drop_drop
      rw [List.append_assoc, ← h4, List.take_append_drop, List.take_append_drop]
    · rw [List.length_take, List.length_drop]
      omega

theorem unmark_spec (h : 4 ≤ r.length) :
    (unmark r).length = r.length ∧ (unmark r).take 2 = r.take 2 ∧ (unmark r).drop 4 = r.drop 4 ∧
      rawType (unmark r) = if marked r then rawType r - 2 ^ 14 else rawType r := by
  obtain ⟨t, heq, ht, hvalue⟩ := unmark_eq h
  have ha : (r.take 2).length = 2 := List.length_take_of_le (by omega)
  obtain ⟨htake, htype, hdrop⟩ := take_drop_parts (b := r.drop 4) ha ht
  rw [← heq] at htake htype hdrop
  refine ⟨?_, htake, hdrop, ?_⟩
  · rw [heq, List.length_append, List.length_append, ha, ht, List.length_drop]
    omega
  · rw [rawType, htype, hvalue]

theorem attrType_unmark (h : 4 ≤ r.length) : attrType (unmark r) = attrType r := by
  have htype := (unmark_spec h).2.2.2
  have hm := marked_iff (r := r)
  rw [attrType, ← rawType, htype, attrType, ← rawType]
  split
  · next hmark =>
    rw [hm] at hmark
    omega
  · rfl

theorem attrPayload_unmark (h : 4 ≤ r.length) : attrPayload (unmark r) = attrPayload r :=
  (unmark_spec h).2.2.1

theorem not_marked_unmark (h : 4 ≤ r.length) : marked (unmark r) = false := by
  have htype := (unmark_spec h).2.2.2
  have hlt := rawType_lt (r := r)
  rw [← Bool.not_eq_true, marked_iff, htype]
  have hm := marked_iff (r := r)
  split
  · next hmark =>
    rw [hm] at hmark
    omega
  · next hmark =>
    rw [hm] at hmark
    exact hmark

theorem rawType_append (h : 4 ≤ r.length) (tail : List (BitVec 8)) :
    rawType (r ++ tail) = rawType r := by
  have hlen : 2 ≤ (r.drop 2).length := by
    rw [List.length_drop]
    omega
  rw [rawType, List.drop_append_of_le_length (by omega), List.take_append_of_le_length hlen, ← rawType]

theorem unmark_append (h : 4 ≤ r.length) (tail : List (BitVec 8)) :
    unmark (r ++ tail) = unmark r ++ tail := by
  rw [unmark, unmark, marked, rawType_append h, ← marked]
  split
  · rw [List.take_append_of_le_length (by omega), List.drop_append_of_le_length h, ← List.append_assoc]
  · rfl

theorem refused_append {maxtype : Nat} (h : 4 ≤ r.length) (tail : List (BitVec 8)) :
    refused maxtype (r ++ tail) = refused maxtype r := by
  rw [refused, marked, attrType, ← rawType, rawType_append h, rawType, ← attrType, ← rawType, ← marked, refused]

theorem isRecord_unmark (h : nlaFormat.IsRecord r) : nlaFormat.IsRecord (unmark r) := by
  have h4 : 4 ≤ r.length := h.hdr_le
  obtain ⟨hlen, htake, -, -⟩ := unmark_spec h4
  refine ⟨by rw [hlen]; exact h.hdr_le, ?_⟩
  rw [hlen, ← h.lengthOf_eq]
  exact congrArg hostValue htake

end Unmark

/-! ## The loop -/

section Region

variable {maxtype turns nla : Nat} {rem : Int} {pre region post : List (BitVec 8)}

theorem nlaTypeField_append (h : 4 ≤ region.length) :
    nlaTypeField (pre ++ region ++ post) pre.length = some (rawType region) := by
  rw [nlaTypeField, read_of_holds (holds_append pre region post) (by omega), Option.map_some, rawType]

theorem nlaLenField_append (h : 4 ≤ region.length) :
    nlaLenField (pre ++ region ++ post) pre.length = some (nlaFormat.lengthOf region) := by
  have hread := read_of_holds (i := 0) (n := 2) (holds_append pre region post) (by omega)
  rw [Nat.add_zero, List.drop_zero] at hread
  rw [nlaLenField, hread, Option.map_some]
  rfl

/-- The body removes the flag of the first attribute of the region. -/
theorem checkMandatoryAttr_eq (h : 4 ≤ region.length) :
    checkMandatoryAttr (pre ++ region ++ post) pre.length maxtype =
      some (pre ++ unmark region ++ post, refused maxtype region) := by
  rw [checkMandatoryAttr, nlaTypeField_append h, Option.bind_eq_bind, Option.bind_some, ← marked]
  by_cases hmark : marked region = true
  · have hlen := length_hostBytes 2 (rawType region - 2 ^ DRBD_GENLA_F_MANDATORY_BIT)
    have hwrite := write_inside (i := 2) pre region post
      (hostBytes 2 (rawType region - 2 ^ DRBD_GENLA_F_MANDATORY_BIT)) (by omega)
    have hunmark : pre ++ (region.take 2 ++ hostBytes 2 (rawType region - 2 ^ DRBD_GENLA_F_MANDATORY_BIT) ++
        region.drop (2 + (hostBytes 2 (rawType region - 2 ^ DRBD_GENLA_F_MANDATORY_BIT)).length)) ++ post =
          pre ++ unmark region ++ post := by
      rw [unmark, if_pos hmark, hlen]
    have htype : nlaType (pre ++ unmark region ++ post) pre.length = some (attrType region) := by
      rw [nlaType, nlaTypeField_append (by rw [(unmark_spec h).1]; exact h), Option.map_some, ← attrType_unmark h]
      rfl
    rw [if_pos hmark, hwrite, hunmark, Option.bind_eq_bind, Option.bind_some, htype, refused, hmark,
      Bool.true_and]
    rfl
  · rw [if_neg hmark, unmark, if_neg hmark, refused, Bool.eq_false_of_not_eq_true hmark, Bool.false_and]
    rfl

theorem sweep_cons (x : Nat × List (BitVec 8)) (recs : List (Nat × List (BitVec 8))) :
    sweep maxtype (x :: recs) =
      (x.1, unmark x.2) :: if refused maxtype x.2 then recs else sweep maxtype recs := rfl

theorem nlaOk_append (hrem : rem.toNat = region.length) (hnla : 4 ≤ rem → nla = pre.length) :
    nlaOk (pre ++ region ++ post) nla rem = some (decide (nlaFormat.Ok region)) := by
  have hregion : ((pre ++ region ++ post).drop pre.length).take rem.toNat = region := by
    rw [hrem, List.append_assoc, List.drop_left, List.take_left]
  by_cases h4 : 4 ≤ rem
  · rw [hnla h4, nlaOk_eq fun _ => by rw [hrem]; simp, hregion]
  · have hnot : ¬nlaFormat.Ok region := by
      rintro ⟨hhdr, -, -⟩
      have hlen : 4 ≤ region.length := hhdr
      omega
    rw [nlaOk, if_pos (by omega), decide_eq_false hnot]

/-- **The loop removes the flags**, in the memory of the region only, up to the first attribute that is
    refused. -/
theorem checkMandatoryAttrs_eq (hrem : rem.toNat = region.length) (hnla : 4 ≤ rem → nla = pre.length)
    (hturns : region.length < turns) :
    ∃ region' e, checkMandatoryAttrs maxtype turns (pre ++ region ++ post) nla rem =
        some (pre ++ region' ++ post, e) ∧ region'.length = region.length ∧
      (∀ pos, nlaFormat.walk pos region' = sweep maxtype (nlaFormat.walk pos region)) ∧
      (∀ pos, e = if (nlaFormat.walk pos region).any (fun x => refused maxtype x.2) then
        .error .opnotsupp else .ok ()) := by
  induction turns generalizing pre region nla rem with
  | zero => omega
  | succ turns ih =>
    rw [checkMandatoryAttrs, nlaOk_append hrem hnla, Option.bind_eq_bind, Option.bind_some]
    by_cases hok : nlaFormat.Ok region
    · have h4 : 4 ≤ region.length := hok.1
      obtain rfl := hnla (by omega)
      obtain ⟨r, gap, rest, rfl, hr, hshort, hrem', hgap, hwalk⟩ :=
        RecordStream.Format.next_parts hok hrem
      have hr4 : 4 ≤ r.length := hr.hdr_le
      obtain ⟨hlen, -, -, -⟩ := unmark_spec hr4
      have hwalk0 := fun pos => hwalk pos r rest hr rfl rfl
      have hlenField : nlaLenField (pre ++ unmark (r ++ (gap ++ rest)) ++ post) pre.length = some r.length := by
        rw [unmark_append hr4, nlaLenField_append (by rw [List.length_append, hlen]; omega),
          RecordStream.Format.lengthOf_append (isRecord_unmark hr), hlen]
      rw [decide_eq_true hok, if_pos rfl, checkMandatoryAttr_eq h4, refused_append hr4]
      by_cases href : refused maxtype r = true
      · refine ⟨unmark (r ++ (gap ++ rest)), .error .opnotsupp, by simp only [href]; rfl, ?_, fun pos => ?_,
          fun pos => ?_⟩
        · simp only [unmark_append hr4, List.length_append, hlen]
        · rw [unmark_append hr4, hwalk pos _ rest (isRecord_unmark hr) hlen rfl, hwalk0, sweep_cons, if_pos href]
        · rw [hwalk0, List.any_cons, href, Bool.true_or, if_pos rfl]
      · have hnla' : 4 ≤ rem - (nlaAlign r.length : Int) →
            pre.length + nlaAlign r.length = (pre ++ (unmark r ++ gap)).length := by
          intro h
          have heq : r.length + gap.length = nlaAlign r.length :=
            hgap (Int.lt_of_lt_of_le (by omega : (0 : Int) < 4) h)
          rw [List.length_append, List.length_append, hlen]
          omega
        have hmem : pre ++ unmark (r ++ (gap ++ rest)) ++ post =
            pre ++ (unmark r ++ gap) ++ rest ++ post := by
          rw [unmark_append hr4]
          simp only [List.append_assoc]
        have hrem : (rem - (nlaAlign r.length : Int)).toNat = rest.length := hrem'
        obtain ⟨rest', e, hrun, hlen', hwalk', he⟩ := ih hrem hnla' (by omega)
        refine ⟨unmark r ++ (gap ++ rest'), e, ?_, ?_, fun pos => ?_, fun pos => ?_⟩
        · simp only [Bool.eq_false_of_not_eq_true href, Option.bind_eq_bind, Option.bind_some, hlenField]
          rw [hmem, if_neg Bool.false_ne_true, hrun]
          simp only [List.append_assoc]
        · simp only [List.length_append, hlen, hlen']
        · rw [hwalk pos _ rest' (isRecord_unmark hr) hlen hlen', hwalk', hwalk0, sweep_cons, if_neg href]
        · rw [hwalk0, List.any_cons, Bool.eq_false_of_not_eq_true href, Bool.false_or]
          exact he _
    · refine ⟨region, .ok (), by rw [decide_eq_false hok]; rfl, rfl, fun pos => ?_, fun pos => ?_⟩
      · rw [RecordStream.Format.walk_of_not_ok hok]
        rfl
      · rw [RecordStream.Format.walk_of_not_ok hok]
        rfl

end Region

/-! ## One call -/

/-- `r'` is `r` after a call: only flags have been removed. -/
structure Swept (maxtype : Nat) (r r' : List (BitVec 8)) : Prop where
  isRecord : nlaFormat.IsRecord r'
  length_eq : r'.length = r.length
  take_eq : r'.take NLA_HDRLEN = r.take NLA_HDRLEN
  attrs_eq : ∀ pos, attrsIn pos r' = sweep maxtype (attrsIn pos r)

/-- The same place, type and payload. -/
def Same (x y : Nat × List (BitVec 8)) : Prop :=
  x.1 = y.1 ∧ attrType x.2 = attrType y.2 ∧ attrPayload x.2 = attrPayload y.2

section Call

variable {maxtype : Nat} {pre post r : List (BitVec 8)} {recs recs' : List (Nat × List (BitVec 8))}

theorem drbdNlaCheckMandatory_eq (maxtype : Nat) (pre post : List (BitVec 8)) (hr : nlaFormat.IsRecord r) :
    ∃ r', Swept maxtype r r' ∧
      drbdNlaCheckMandatory (pre ++ r ++ post) maxtype pre.length = some (pre ++ r' ++ post,
        if (attrsIn pre.length r).any (fun x => refused maxtype x.2) then .error .opnotsupp else .ok ()) := by
  have h4 : NLA_HDRLEN ≤ r.length := hr.hdr_le
  have hhdr : (r.take NLA_HDRLEN).length = NLA_HDRLEN := List.length_take_of_le h4
  have hsplit : r.take NLA_HDRLEN ++ attrPayload r = r := List.take_append_drop ..
  have hmem : pre ++ r ++ post = pre ++ r.take NLA_HDRLEN ++ attrPayload r ++ post := by
    rw [List.append_assoc pre (r.take NLA_HDRLEN), hsplit]
  have hlen := nlaLen_of_holds (holds_append pre r post) hr
  have hplace : nlaData pre.length = (pre ++ r.take NLA_HDRLEN).length := by
    rw [List.length_append, hhdr, nlaData]
  have hloop : ∃ region' e, checkMandatoryAttrs maxtype ((attrPayload r).length + 1)
        (pre ++ r.take NLA_HDRLEN ++ attrPayload r ++ post) (nlaData pre.length) (attrPayload r).length =
          some (pre ++ r.take NLA_HDRLEN ++ region' ++ post, e) ∧
      region'.length = (attrPayload r).length ∧
      (∀ pos, nlaFormat.walk pos region' = sweep maxtype (nlaFormat.walk pos (attrPayload r))) ∧
      (∀ pos, e = if (nlaFormat.walk pos (attrPayload r)).any (fun x => refused maxtype x.2) then
        .error .opnotsupp else .ok ()) :=
    checkMandatoryAttrs_eq (Int.toNat_natCast _) (fun _ => hplace) (Nat.lt_succ_self _)
  obtain ⟨region', e, hrun, hlength, hwalk, he⟩ := hloop
  have hdrop : attrPayload (r.take NLA_HDRLEN ++ region') = region' := by
    rw [attrPayload]
    conv => lhs; arg 1; rw [← hhdr]
    rw [List.drop_left]
  have htake : (r.take NLA_HDRLEN ++ region').take NLA_HDRLEN = r.take NLA_HDRLEN := by
    rw [List.take_append_of_le_length hhdr.ge, List.take_take, Nat.min_self]
  have hlength' : (r.take NLA_HDRLEN ++ region').length = r.length := by
    rw [List.length_append, hlength, ← List.length_append, hsplit]
  refine ⟨r.take NLA_HDRLEN ++ region', ⟨⟨?_, ?_⟩, hlength', htake, fun pos => ?_⟩, ?_⟩
  · rw [hlength']
    exact hr.hdr_le
  · rw [hlength', ← hr.lengthOf_eq, ← nlaFormat.lengthOf_take]
    exact (congrArg _ htake).trans (nlaFormat.lengthOf_take r)
  · rw [attrsIn, hdrop, hwalk, attrsIn]
  · rw [drbdNlaCheckMandatory, hlen, Option.bind_eq_bind, Option.bind_some, hmem, Int.toNat_natCast, hrun,
      he (nlaData pre.length), attrsIn]
    simp only [List.append_assoc]

theorem sweep_same (maxtype : Nat) (h : ∀ x ∈ recs, 4 ≤ x.2.length) :
    List.Forall₂ Same recs (sweep maxtype recs) := by
  induction recs with
  | nil => exact .nil
  | cons x recs ih =>
    have h4 := h x (by simp)
    refine .cons ⟨rfl, (attrType_unmark h4).symm, (attrPayload_unmark h4).symm⟩ ?_
    split
    · exact List.forall₂_same.2 fun y _ => ⟨rfl, rfl, rfl⟩
    · exact ih fun y hy => h y (by simp [hy])

theorem Same.admits_eq {x y : Nat × List (BitVec 8)} (h : Same x y)
    (policy : Option (List NlaPolicy)) : admits maxtype policy x.2 = admits maxtype policy y.2 := by
  cases policy with
  | none => rfl
  | some policy => rw [admits, admits, h.2.1, h.2.2]

theorem takeWhile_same (maxtype : Nat) (h : List.Forall₂ Same recs recs') (policy : Option (List NlaPolicy)) :
    List.Forall₂ Same (recs.takeWhile fun x => admits maxtype policy x.2)
      (recs'.takeWhile fun x => admits maxtype policy x.2) := by
  induction h with
  | nil => exact .nil
  | cons hx _ ih =>
    rw [List.takeWhile_cons, List.takeWhile_cons, hx.admits_eq]
    split
    · exact .cons hx ih
    · exact .nil

theorem tableOf_same (maxtype : Nat) (h : List.Forall₂ Same recs recs') :
    tableOf maxtype recs = tableOf maxtype recs' := by
  induction h with
  | nil => rfl
  | cons hx _ ih =>
    funext t
    rw [tableOf_cons, tableOf_cons, ih, hx.1, hx.2.1]

theorem all_admits_same (maxtype : Nat) (h : List.Forall₂ Same recs recs') (policy : Option (List NlaPolicy)) :
    (∀ x ∈ recs, admits maxtype policy x.2 = true) ↔ ∀ x ∈ recs', admits maxtype policy x.2 = true := by
  induction h with
  | nil => simp
  | cons hx _ ih => rw [List.forall_mem_cons, List.forall_mem_cons, hx.admits_eq, ih]

theorem length_of_mem_attrsIn (pos : Nat) : ∀ x ∈ attrsIn pos r, 4 ≤ x.2.length := fun _ hx =>
  (RecordStream.Format.walk_inside hx).1.hdr_le

theorem attrsAt_append (hr : nlaFormat.IsRecord r) :
    attrsAt (pre ++ r ++ post) (nlaData pre.length) (attrPayload r).length = attrsIn pre.length r := by
  have hhdr : (r.take NLA_HDRLEN).length = NLA_HDRLEN := List.length_take_of_le hr.hdr_le
  have hplace : nlaData pre.length = (pre ++ r.take NLA_HDRLEN).length := by
    rw [List.length_append, hhdr, nlaData]
  have hmem : pre ++ r ++ post = pre ++ r.take NLA_HDRLEN ++ (attrPayload r ++ post) := by
    simp only [List.append_assoc]
    rw [← List.append_assoc (r.take NLA_HDRLEN), attrPayload, List.take_append_drop]
  rw [attrsAt, attrsIn, hmem, hplace, List.drop_left, Int.toNat_natCast, List.take_left]

/-- **What a call returns**: with a mandatory attribute that is not known it is refused, and the table
    is as before; else it is the table of the attributes. -/
theorem drbdNlaParseNested_eq (pre post : List (BitVec 8)) (hr : nlaFormat.IsRecord r)
    {policy : Option (List NlaPolicy)}
    (hpolicy : ∀ pol, policy = some pol → maxtype < pol.length) (tb : Table) :
    ∃ r', Swept maxtype r r' ∧ if (attrsIn pre.length r).any (fun x => refused maxtype x.2) then
        drbdNlaParseNested (pre ++ r ++ post) tb maxtype pre.length policy =
          some (pre ++ r' ++ post, tb, .error .opnotsupp)
      else ∃ e, drbdNlaParseNested (pre ++ r ++ post) tb maxtype pre.length policy =
          some (pre ++ r' ++ post, tableOf maxtype ((attrsIn pre.length r).takeWhile
            fun x => admits maxtype policy x.2), e) ∧
        (e = .ok () ↔ ∀ x ∈ attrsIn pre.length r, admits maxtype policy x.2 = true) := by
  obtain ⟨r', hswept, hcheck⟩ := drbdNlaCheckMandatory_eq maxtype pre post hr
  refine ⟨r', hswept, ?_⟩
  rw [drbdNlaParseNested, hcheck, Option.bind_eq_bind, Option.bind_some]
  split
  · rfl
  · have hlen := nlaLen_of_holds (holds_append pre r' post) hswept.isRecord
    have hin : nlaData pre.length + ((attrPayload r').length : Int).toNat ≤ (pre ++ r' ++ post).length := by
      have hpayload := length_attrPayload hswept.isRecord
      rw [nlaData, Int.toNat_natCast, List.length_append, List.length_append]
      omega
    obtain ⟨e, hparse, hok⟩ := nlaParse_eq hpolicy (fun _ => hin)
    have hsame := sweep_same maxtype (length_of_mem_attrsIn (r := r) pre.length)
    rw [attrsAt_append hswept.isRecord, hswept.attrs_eq] at hparse hok
    rw [← tableOf_same maxtype (takeWhile_same maxtype hsame policy)] at hparse
    rw [← all_admits_same maxtype hsame policy] at hok
    refine ⟨e, ?_, hok⟩
    simp only [nlaParseNested, hlen, Option.bind_eq_bind, Option.bind_some, hparse]
    rfl

/-! ## Several calls -/

/-- Calls for one attribute, one after the other, with one table. -/
def parseTimes (maxtype nla : Nat) (policy : Option (List NlaPolicy)) :
    Nat → Mem → Table → Option (Mem × List (Table × Except NlaError Unit))
  | 0, mem, _ => some (mem, [])
  | n + 1, mem, tb => do
    let (mem, tb, err) ← drbdNlaParseNested mem tb maxtype nla policy
    let (mem, results) ← parseTimes maxtype nla policy n mem tb
    return (mem, (tb, err) :: results)

def refusedCount (maxtype : Nat) (recs : List (Nat × List (BitVec 8))) : Nat :=
  recs.countP fun x => refused maxtype x.2

theorem refused_unmark {x : List (BitVec 8)} (h : 4 ≤ x.length) : refused maxtype (unmark x) = false := by
  rw [refused, not_marked_unmark h, Bool.false_and]

theorem refusedCount_sweep (maxtype : Nat) (h : ∀ x ∈ recs, 4 ≤ x.2.length) :
    refusedCount maxtype (sweep maxtype recs) = refusedCount maxtype recs - 1 := by
  induction recs with
  | nil => rfl
  | cons x recs ih =>
    have h4 := h x (by simp)
    have ih := ih fun y hy => h y (by simp [hy])
    rw [refusedCount] at ih
    rw [sweep, refusedCount, List.countP_cons_of_neg (by simp [refused_unmark h4]), refusedCount]
    by_cases href : refused maxtype x.2 = true
    · rw [if_pos href, List.countP_cons_of_pos (by simpa using href), Nat.add_sub_cancel]
    · rw [if_neg href, ih, List.countP_cons_of_neg (by simpa using href), refusedCount]

theorem any_refused_iff : recs.any (fun x => refused maxtype x.2) = true ↔ 0 < refusedCount maxtype recs := by
  rw [refusedCount, List.countP_pos_iff, List.any_eq_true]

/-- **How often a message is refused.**  Each mandatory attribute that is not known is the reason for one
    refusal only, because its flag is removed then; the calls after these return the same table as if
    none had been mandatory. -/
theorem parseTimes_eq (hr : nlaFormat.IsRecord r) {policy : Option (List NlaPolicy)}
    (hpolicy : ∀ pol, policy = some pol → maxtype < pol.length) (n : Nat) (tb : Table) :
    ∃ (mem' : Mem) (errs : List (Except NlaError Unit)),
      parseTimes maxtype pre.length policy n (pre ++ r ++ post) tb = some (mem',
        List.replicate (min n (refusedCount maxtype (attrsIn pre.length r))) (tb, .error .opnotsupp) ++
          errs.map fun e => (tableOf maxtype ((attrsIn pre.length r).takeWhile
            fun x => admits maxtype policy x.2), e)) ∧
      errs.length = n - refusedCount maxtype (attrsIn pre.length r) ∧
      ∀ e ∈ errs, e = .ok () ↔ ∀ x ∈ attrsIn pre.length r, admits maxtype policy x.2 = true := by
  induction n generalizing r tb with
  | zero =>
    refine ⟨pre ++ r ++ post, [], ?_, ?_, by simp⟩
    · rw [parseTimes, Nat.zero_min]
      rfl
    · rw [Nat.zero_sub, List.length_nil]
  | succ n ih =>
    obtain ⟨r', hswept, hcall⟩ := drbdNlaParseNested_eq pre post hr hpolicy tb
    have hlength := length_of_mem_attrsIn (r := r) pre.length
    have hcount := refusedCount_sweep maxtype hlength
    have hsame := sweep_same maxtype hlength
    rw [← hswept.attrs_eq] at hcount hsame
    have hok' := all_admits_same maxtype hsame policy
    have htable := tableOf_same maxtype (takeWhile_same maxtype hsame policy)
    split at hcall
    · next hany =>
      rw [any_refused_iff] at hany
      obtain ⟨mem', errs, hrun, hlen, herrs⟩ := ih hswept.isRecord tb
      rw [← htable, hcount] at hrun
      rw [hcount] at hlen
      refine ⟨mem', errs, ?_, by omega, fun e he => (herrs e he).trans hok'.symm⟩
      obtain ⟨k, hk⟩ : ∃ k, refusedCount maxtype (attrsIn pre.length r) = k + 1 :=
        ⟨refusedCount maxtype (attrsIn pre.length r) - 1, by omega⟩
      rw [hk, Nat.add_sub_cancel] at hrun
      simp only [parseTimes, hcall, hrun, Option.bind_eq_bind, Option.bind_some, Option.pure_def]
      rw [hk, show min (n + 1) (k + 1) = min n k + 1 by omega, List.replicate_succ, List.cons_append]
    · next hany =>
      rw [any_refused_iff] at hany
      obtain ⟨e, hcall, hok⟩ := hcall
      have hk : refusedCount maxtype (attrsIn pre.length r) = 0 := by omega
      obtain ⟨mem', errs, hrun, hlen, herrs⟩ := ih hswept.isRecord
        (tableOf maxtype ((attrsIn pre.length r).takeWhile fun x => admits maxtype policy x.2))
      rw [← htable, hcount, hk, Nat.zero_sub, Nat.min_zero] at hrun
      rw [hcount, hk] at hlen
      refine ⟨mem', e :: errs, ?_, by rw [List.length_cons]; omega, ?_⟩
      · simp only [parseTimes, hcall, hrun, Option.bind_eq_bind, Option.bind_some, Option.pure_def]
        rw [hk, Nat.min_zero]
        rfl
      · rw [List.forall_mem_cons]
        exact ⟨hok, fun e he => (herrs e he).trans hok'.symm⟩

omit [Host] in
/-- The attribute of type 5 is mandatory and not known. -/
theorem parseTimes_eq_two : ∃ (mem' : Mem) (errs : List (Except NlaError Unit)),
    @parseTimes littleEndian 3 0 none 2 [8, 0, 1, 0, 4, 0, 5, 64] (fun _ => none) = some (mem',
      List.replicate (min 2 (@refusedCount littleEndian 3 (@attrsIn littleEndian 0 [8, 0, 1, 0, 4, 0, 5, 64])))
        (fun _ => none, .error .opnotsupp) ++
        errs.map fun e => (@tableOf littleEndian 3 ((@attrsIn littleEndian 0 [8, 0, 1, 0, 4, 0, 5, 64]).takeWhile
          fun x => @admits littleEndian 3 none x.2), e)) := by
  obtain ⟨mem', errs, hrun, -, -⟩ := @parseTimes_eq littleEndian 3 [] [] [8, 0, 1, 0, 4, 0, 5, 64]
    ⟨by decide, by decide⟩ none (by simp) 2 fun _ => none
  exact ⟨mem', errs, hrun⟩

end Call

end Mandatory

end DrbdUtils.Genl
