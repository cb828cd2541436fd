import Mathlib.Data.List.MinMax
import DrbdUtils.Genl.DrbdNla

/-!
# Structs in messages

The functions that `genl_magic_func.h` generates for each struct of a schema.  A struct is an attribute of
the message, and each of its members is an attribute inside of it.  The schema is given as data, so that
each function is written once; the members of a struct are given by the numbers of their attributes, and
numbers by their bits.

* `assignFields_eq`, `decodeFields_spec` — the members that are assigned, and the ones that keep their values.
* `fromAttrs_eq` — what a call of `from_attrs` returns.
-/

set_option autoImplicit false

namespace DrbdUtils.Genl

/-! ## Schemas -/

def DRBD_F_REQUIRED : Nat := 1

def DRBD_F_SENSITIVE : Nat := 2

def DRBD_F_INVARIANT : Nat := 4

def DRBD_GENLA_F_MANDATORY : Nat := 2 ^ DRBD_GENLA_F_MANDATORY_BIT

inductive NumType where
  | flg
  | u8
  | u16
  | u32
  | s32
  | u64
  deriving DecidableEq, Repr

def NumType.size : NumType → Nat
  | .flg => 1
  | .u8 => 1
  | .u16 => 2
  | .u32 => 4
  | .s32 => 4
  | .u64 => 8

def NumType.nlaType : NumType → NlaPolicyType
  | .flg => .u8
  | .u8 => .u8
  | .u16 => .u16
  | .u32 => .u32
  | .s32 => .u32
  | .u64 => .u64

/-- `__field`, and `__array` for strings and for binary data. -/
inductive FieldKind where
  | num (type : NumType)
  | str (maxlen : Nat)
  | bin (maxlen : Nat)
  deriving DecidableEq, Repr

/-- `len` is a `__u16`. -/
def FieldKind.policy : FieldKind → NlaPolicy
  | .num type => { type := type.nlaType }
  | .str maxlen => { type := .nulString, len := (maxlen + (2 ^ 16 - 1)) % 2 ^ 16 }
  | .bin maxlen => { type := .binary, len := maxlen % 2 ^ 16 }

/-- The size of the array. -/
def FieldKind.maxlen : FieldKind → Nat
  | .num _ => 0
  | .str maxlen => maxlen
  | .bin maxlen => maxlen

structure GenlField where
  attrNr : Nat
  attrFlag : Nat
  name : String
  kind : FieldKind

namespace GenlField

variable (f : GenlField)

def required : Bool := f.attrFlag &&& DRBD_F_REQUIRED ≠ 0

def invariant : Bool := f.attrFlag &&& DRBD_F_INVARIANT ≠ 0

end GenlField

section Fields

variable (attrNr attrFlag : Nat) (name : String)

def flgField : GenlField := ⟨attrNr, attrFlag, name, .num .flg⟩

def u32Field : GenlField := ⟨attrNr, attrFlag, name, .num .u32⟩

def s32Field : GenlField := ⟨attrNr, attrFlag, name, .num .s32⟩

def u64Field : GenlField := ⟨attrNr, attrFlag, name, .num .u64⟩

def strField (maxlen : Nat) : GenlField := ⟨attrNr, attrFlag, name, .str maxlen⟩

def binField (maxlen : Nat) : GenlField := ⟨attrNr, attrFlag, name, .bin maxlen⟩

end Fields

structure GenlStruct where
  tagNumber : Nat
  sName : String
  fields : List GenlField

namespace GenlStruct

variable (sd : GenlStruct)

/-- What is asserted at compile time, and that the numbers begin at 1 and the sizes fit in the policies. -/
def Wf : Prop :=
  sd.fields ≠ [] ∧ (sd.fields.map GenlField.attrNr).Nodup ∧
    ∀ f ∈ sd.fields, 0 < f.attrNr ∧ f.attrNr < 128 ∧ f.kind.maxlen < 2 ^ 16

instance : Decidable sd.Wf := inferInstanceAs (Decidable (_ ∧ _ ∧ _))

def maxtype : Nat := (sd.fields.map GenlField.attrNr).foldr max 0

/-- The array `s_name ## _nl_policy`; numbers without a field are `NLA_UNSPEC`. -/
def nlPolicy : List NlaPolicy := (List.range (sd.maxtype + 1)).map fun i =>
  ((sd.fields.find? fun f => f.attrNr = i).map fun f => f.kind.policy).getD {}

end GenlStruct

/-- The structs of a schema, with what is asserted at compile time; the numbers are types of attributes. -/
structure GenlSchema where
  structs : List GenlStruct
  wf : ∀ sd ∈ structs, sd.Wf
  nodup : (structs.map GenlStruct.tagNumber).Nodup
  tagNumber_ok : ∀ sd ∈ structs, 0 < sd.tagNumber ∧ sd.tagNumber < 2 ^ 14

/-! ## Members -/

/-- The members of a struct: numbers, and arrays with their lengths. -/
structure Members where
  num : Nat → Nat
  data : Nat → List (BitVec 8)
  len : Nat → Nat

namespace Members

variable (s : Members) (a : Nat)

def setNum (v : Nat) : Members := { s with num := Function.update s.num a v }

def setArray (data : List (BitVec 8)) (len : Nat) : Members :=
  { s with data := Function.update s.data a data, len := Function.update s.len a len }

/-- The two structs have the same member. -/
def Agree (s s' : Members) (a : Nat) : Prop :=
  s.num a = s'.num a ∧ s.data a = s'.data a ∧ s.len a = s'.len a

variable {s a} {b : Nat} {s' s'' : Members}

theorem Agree.refl (s : Members) (a : Nat) : s.Agree s a := ⟨rfl, rfl, rfl⟩

theorem Agree.symm (h : s.Agree s' a) : s'.Agree s a := ⟨h.1.symm, h.2.1.symm, h.2.2.symm⟩

theorem Agree.trans (h : s.Agree s' a) (h' : s'.Agree s'' a) : s.Agree s'' a :=
  ⟨h.1.trans h'.1, h.2.1.trans h'.2.1, h.2.2.trans h'.2.2⟩

theorem setNum_agree (v : Nat) (h : b ≠ a) : (s.setNum a v).Agree s b :=
  ⟨Function.update_of_ne h _ _, rfl, rfl⟩

theorem setArray_agree (data : List (BitVec 8)) (len : Nat) (h : b ≠ a) : (s.setArray a data len).Agree s b :=
  ⟨rfl, Function.update_of_ne h _ _, Function.update_of_ne h _ _⟩

end Members

/-- The array has its size. -/
def GenlField.Sized (f : GenlField) (s : Members) : Prop :=
  match f.kind with
  | .num _ => True
  | kind => (s.data f.attrNr).length = kind.maxlen

/-- A member that can be used: a number of the type, a string that is terminated in its array and is
    filled up with zeros, data inside of its array.  A string of one byte has no limit in its policy. -/
def GenlField.Ok (f : GenlField) (s : Members) : Prop :=
  match f.kind with
  | .num type => s.num f.attrNr < 256 ^ type.size
  | .str maxlen => (s.data f.attrNr).length = maxlen ∧ (1 < maxlen → s.len f.attrNr < maxlen ∧
      (s.data f.attrNr).drop (s.len f.attrNr) = List.replicate (maxlen - s.len f.attrNr) 0)
  | .bin maxlen => (s.data f.attrNr).length = maxlen ∧ s.len f.attrNr ≤ maxlen

theorem GenlField.ok_agree {f : GenlField} {s s' : Members} (h : s.Agree s' f.attrNr) : f.Ok s ↔ f.Ok s' := by
  obtain ⟨hnum, hdata, hlen⟩ := h
  rw [Ok, Ok, hnum, hdata, hlen]

/-! ## Functions -/

section FromAttrs

variable [Host]

/-- `nla_get_u8` up to `nla_get_u64`. -/
def NumType.get (type : NumType) (mem : Mem) (nla : Nat) : Option Nat :=
  match type with
  | .u64 => nlaGetU64 mem nla
  | type => nlaGet type.size mem nla

/-- The `assignment` of a field. -/
def assignField (mem : Mem) (nla : Nat) (f : GenlField) (s : Members) : Option Members := do
  match f.kind with
  | .num type => return s.setNum f.attrNr (← type.get mem nla)
  | .str maxlen =>
    let (data, len) ← nlaStrlcpy mem nla maxlen
    return s.setArray f.attrNr data len.toNat
  | .bin maxlen =>
    let (data, len) ← nlaMemcpy mem (s.data f.attrNr) nla maxlen
    return s.setArray f.attrNr data len.toNat

/-- The `s_fields` of a function: `__assign` for one field after the other. -/
def assignFields (excludeInvariants : Bool) (mem : Mem) (ntb : Table) :
    List GenlField → Members → Option (Members × Except NlaError Unit)
  | [], s => some (s, .ok ())
  | f :: fields, s =>
    match ntb f.attrNr with
    | some nla =>
      if excludeInvariants && f.invariant then some (s, .error .exist)
      else do assignFields excludeInvariants mem ntb fields (← assignField mem nla f s)
    | none =>
      if excludeInvariants && f.invariant then assignFields excludeInvariants mem ntb fields s
      else if f.required then some (s, .error .nomsg)
      else assignFields excludeInvariants mem ntb fields s

/-- `__ ## s_name ## _from_attrs`, with the memory of the message and the table `nested_attr_tb`. -/
def fromAttrs (sd : GenlStruct) (excludeInvariants : Bool) (attrs : Table) (st : Mem × Table) (s : Members) :
    Option ((Mem × Table) × Members × Except NlaError Unit) :=
  match attrs sd.tagNumber with
  | none => some (st, s, .error .nomsg)
  | some tla => do
    let (mem, ntb, err) ← drbdNlaParseNested st.1 st.2 sd.maxtype tla (some sd.nlPolicy)
    match err with
    | .error err => return ((mem, ntb), s, .error err)
    | .ok () =>
      let (s, err) ← assignFields excludeInvariants mem ntb sd.fields s
      return ((mem, ntb), s, err)

end FromAttrs

/-! ## Policies -/

section Policy

variable {sd : GenlStruct} {f : GenlField}

theorem nlaAttrMinlen_nlaType (type : NumType) : nlaAttrMinlen type.nlaType = type.size := by
  cases type <;> rfl

theorem GenlStruct.attrNr_le_maxtype (hf : f ∈ sd.fields) : f.attrNr ≤ sd.maxtype :=
  List.le_max_of_le' 0 (List.mem_map_of_mem hf) (Nat.le_refl _)

theorem GenlStruct.maxtype_lt_length (sd : GenlStruct) : sd.maxtype < sd.nlPolicy.length := by
  rw [nlPolicy, List.length_map, List.length_range]
  exact Nat.lt_succ_self _

theorem find?_attrNr {fields : List GenlField} (hnodup : (fields.map GenlField.attrNr).Nodup)
    (hf : f ∈ fields) : (fields.find? fun g => g.attrNr = f.attrNr) = some f := by
  induction fields with
  | nil => cases hf
  | cons g fields ih =>
    rw [List.map_cons, List.nodup_cons] at hnodup
    rcases List.mem_cons.1 hf with rfl | hf
    · rw [List.find?_cons_of_pos (by simp)]
    · have hne : g.attrNr ≠ f.attrNr := fun h => hnodup.1 (h ▸ List.mem_map_of_mem hf)
      rw [List.find?_cons_of_neg (by simpa using hne), ih hnodup.2 hf]

theorem GenlStruct.nlPolicy_getElem? (hwf : sd.Wf) (hf : f ∈ sd.fields) :
    sd.nlPolicy[f.attrNr]? = some f.kind.policy := by
  have hlt : f.attrNr < sd.maxtype + 1 := Nat.lt_succ_of_le (attrNr_le_maxtype hf)
  rw [nlPolicy, List.getElem?_map, List.getElem?_range hlt, Option.map_some, find?_attrNr hwf.2.1 hf]
  rfl

end Policy

/-! ## Decoding -/

section Decode

variable [Host]

/-- A member that gets the value of a payload. -/
def GenlField.decode (f : GenlField) (d : List (BitVec 8)) (s : Members) : Members :=
  match f.kind with
  | .num type => s.setNum f.attrNr (hostValue (d.take type.size))
  | .str maxlen => s.setArray f.attrNr ((stripNul d).take (maxlen - 1) ++
      List.replicate (maxlen - ((stripNul d).take (maxlen - 1)).length) 0) (stripNul d).length
  | .bin maxlen => s.setArray f.attrNr (d.take maxlen ++ (s.data f.attrNr).drop (min maxlen d.length))
      (min maxlen d.length)

/-- Why a field stops a function, if it does. -/
def GenlField.stops (f : GenlField) (excludeInvariants present : Bool) : Option NlaError :=
  if excludeInvariants && f.invariant then if present then some .exist else none
  else if !present && f.required then some .nomsg else none

/-- The members that payloads have values for, up to the first field that stops the function. -/
def decodeFields (excludeInvariants : Bool) (pay : Nat → Option (List (BitVec 8))) :
    List GenlField → Members → Members × Except NlaError Unit
  | [], s => (s, .ok ())
  | f :: fields, s =>
    match f.stops excludeInvariants (pay f.attrNr).isSome with
    | some err => (s, .error err)
    | none => decodeFields excludeInvariants pay fields ((pay f.attrNr).elim s fun d => f.decode d s)

variable {mem : Mem} {nla : Nat} {r : List (BitVec 8)} {f : GenlField} {s : Members}

theorem NumType.get_of_holds {type : NumType} (h : Holds mem nla r) (hr : nlaFormat.IsRecord r)
    (hlen : type.size ≤ (attrPayload r).length) :
    type.get mem nla = some (hostValue ((attrPayload r).take type.size)) := by
  cases type with
  | u64 => exact nlaGetU64_of_holds h hr hlen
  | _ => exact nlaGet_of_holds h hr hlen

theorem size_le_of_accepts {type : NumType} {d : List (BitVec 8)}
    (h : (FieldKind.num type).policy.accepts d = true) : type.size ≤ d.length := by
  have hlong : (FieldKind.num type).policy.longEnough d = true := by
    cases type <;> exact h
  have hmin := nlaAttrMinlen_nlaType type
  rw [NlaPolicy.longEnough, decide_eq_true_iff] at hlong
  rwa [← hmin]

theorem assignField_eq (h : Holds mem nla r) (hr : nlaFormat.IsRecord r)
    (haccepts : f.kind.policy.accepts (attrPayload r) = true) (s : Members) :
    assignField mem nla f s = some (f.decode (attrPayload r) s) := by
  rw [assignField, GenlField.decode]
  cases hkind : f.kind with
  | num type =>
    rw [hkind] at haccepts
    have hget := NumType.get_of_holds h hr (size_le_of_accepts haccepts)
    simp only [hget]
    rfl
  | str maxlen =>
    have hcopy := nlaStrlcpy_of_holds h hr maxlen
    simp only [hcopy]
    rfl
  | bin maxlen =>
    have hcopy := nlaMemcpy_of_holds h hr (s.data f.attrNr) maxlen
    simp only [hcopy]
    rfl

/-- What an entry of the table points to: the payload, which the policy accepts. -/
def EntryOf (mem : Mem) (f : GenlField) (pay : Option (List (BitVec 8))) : Option Nat → Prop
  | none => pay = none
  | some nla => ∃ r, Holds mem nla r ∧ nlaFormat.IsRecord r ∧ pay = some (attrPayload r) ∧
      f.kind.policy.accepts (attrPayload r) = true

/-- **The fields of a function** read attributes only, and assign what these say. -/
theorem assignFields_eq {ntb : Table} {pay : Nat → Option (List (BitVec 8))} {fields : List GenlField}
    (h : ∀ f ∈ fields, EntryOf mem f (pay f.attrNr) (ntb f.attrNr)) (excludeInvariants : Bool) (s : Members) :
    assignFields excludeInvariants mem ntb fields s = some (decodeFields excludeInvariants pay fields s) := by
  induction fields generalizing s with
  | nil => rfl
  | cons f fields ih =>
    have hf := h f (by simp)
    have ih := ih fun g hg => h g (by simp [hg])
    rw [assignFields, decodeFields, GenlField.stops]
    cases hntb : ntb f.attrNr with
    | none =>
      rw [hntb] at hf
      rw [show pay f.attrNr = none from hf]
      by_cases hinv : (excludeInvariants && f.invariant) = true
      · simp only [if_pos hinv, Option.isSome_none, Bool.false_eq_true, if_false]
        exact ih s
      · by_cases hreq : f.required = true
        · simp [hinv, hreq]
        · simp only [hinv, hreq, Option.isSome_none, Bool.not_false, Bool.and_false, Bool.false_eq_true,
            if_false]
          exact ih s
    | some nla =>
      rw [hntb] at hf
      obtain ⟨r, hholds, hr, hpay, haccepts⟩ := hf
      rw [hpay]
      by_cases hinv : (excludeInvariants && f.invariant) = true
      · simp [hinv]
      · simp only [hinv, Option.isSome_some, Bool.not_true, Bool.false_and, Bool.false_eq_true, if_false,
          assignField_eq hholds hr haccepts s]
        exact ih _

/-! ## Members after a function -/

section Members

variable {a : Nat} {s' : Members}

/-- The other members keep their values. -/
theorem GenlField.decode_agree_of_ne (d : List (BitVec 8)) (s : Members) (h : a ≠ f.attrNr) :
    (f.decode d s).Agree s a := by
  rw [decode]
  split
  · exact Members.setNum_agree _ h
  · exact Members.setArray_agree _ _ h
  · exact Members.setArray_agree _ _ h

theorem GenlField.decode_agree (d : List (BitVec 8)) (h : s.Agree s' f.attrNr) :
    (f.decode d s).Agree (f.decode d s') f.attrNr := by
  obtain ⟨hnum, hdata, hlen⟩ := h
  rw [decode, decode]
  split
  · simp only [Members.Agree, Members.setNum, Function.update_self, hdata, hlen, and_self]
  · simp only [Members.Agree, Members.setArray, Function.update_self, hnum, and_self]
  · simp only [Members.Agree, Members.setArray, Function.update_self, hnum, hdata, and_self]

/-- **What a function changes**: a field that has a payload gets its value if no field up to it stops the
    function; all other members keep theirs. -/
theorem decodeFields_spec (pay : Nat → Option (List (BitVec 8))) {fields : List GenlField}
    (hnodup : (fields.map GenlField.attrNr).Nodup) (excludeInvariants : Bool) (s : Members) :
    (∀ a ∉ fields.map GenlField.attrNr, (decodeFields excludeInvariants pay fields s).1.Agree s a) ∧
      (∀ f ∈ fields, (decodeFields excludeInvariants pay fields s).1.Agree s f.attrNr ∨
        ∃ d, pay f.attrNr = some d ∧
          (decodeFields excludeInvariants pay fields s).1.Agree (f.decode d s) f.attrNr) ∧
      ((decodeFields excludeInvariants pay fields s).2 = .ok () ↔
        ∀ f ∈ fields, f.stops excludeInvariants (pay f.attrNr).isSome = none) ∧
      ((decodeFields excludeInvariants pay fields s).2 = .ok () → ∀ f ∈ fields, ∀ d,
        pay f.attrNr = some d →
          (decodeFields excludeInvariants pay fields s).1.Agree (f.decode d s) f.attrNr) := by
  induction fields generalizing s with
  | nil => exact ⟨fun a _ => .refl s a, by simp, by simp [decodeFields], by simp⟩
  | cons f fields ih =>
    rw [List.map_cons, List.nodup_cons] at hnodup
    rw [decodeFields]
    cases hstops : f.stops excludeInvariants (pay f.attrNr).isSome with
    | some err =>
      refine ⟨fun a _ => .refl s a, fun g _ => .inl (.refl s _), ?_, fun h => by cases h⟩
      constructor
      · intro h
        cases h
      · intro h
        rw [h f (by simp)] at hstops
        cases hstops
    | none =>
      obtain ⟨hframe, hmembers, hok, hall⟩ :=
        ih hnodup.2 ((pay f.attrNr).elim s fun d => f.decode d s)
      -- the first field does not change the other members
      have hother : ∀ a, a ≠ f.attrNr → ((pay f.attrNr).elim s fun d => f.decode d s).Agree s a := by
        intro a ha
        cases pay f.attrNr with
        | none => exact .refl s a
        | some d => exact GenlField.decode_agree_of_ne d s ha
      have hne : ∀ g ∈ fields, g.attrNr ≠ f.attrNr := fun g hg h =>
        hnodup.1 (h ▸ List.mem_map_of_mem hg)
      have hfirst := hframe f.attrNr hnodup.1
      refine ⟨fun a ha => ?_, fun g hg => ?_, ?_, fun h g hg d hd => ?_⟩
      · rw [List.map_cons, List.mem_cons, not_or] at ha
        exact (hframe a ha.2).trans (hother a ha.1)
      · rcases List.mem_cons.1 hg with rfl | hg
        · cases hpay : pay g.attrNr with
          | none =>
            rw [hpay] at hfirst
            exact .inl hfirst
          | some d =>
            rw [hpay] at hfirst
            exact .inr ⟨d, rfl, hfirst⟩
        · rcases hmembers g hg with hkeep | ⟨d, hd, hdecode⟩
          · exact .inl (hkeep.trans (hother _ (hne g hg)))
          · exact .inr ⟨d, hd, hdecode.trans (GenlField.decode_agree d (hother _ (hne g hg)))⟩
      · rw [List.forall_mem_cons, hok]
        exact ⟨fun h => ⟨hstops, h⟩, fun h => h.2⟩
      · rcases List.mem_cons.1 hg with rfl | hg
        · rw [hd] at hfirst
          rw [hd]
          exact hfirst
        · exact (hall h g hg d hd).trans (GenlField.decode_agree d (hother _ (hne g hg)))

/-! ## Well-formed members -/

theorem length_stripNul_le {maxlen : Nat} {d : List (BitVec 8)} (hmin : 1 < maxlen) (hmax : maxlen < 2 ^ 16)
    (h : (FieldKind.str maxlen).policy.accepts d = true) : (stripNul d).length ≤ maxlen - 1 := by
  have hlen : (maxlen + (2 ^ 16 - 1)) % 2 ^ 16 = maxlen - 1 := by omega
  simp only [NlaPolicy.accepts, FieldKind.policy, hlen, Bool.and_eq_true, NlaPolicy.fits,
    decide_eq_true_eq] at h
  omega

/-- **What is decoded can be used**, if the policy accepts it. -/
theorem GenlField.ok_decode {d : List (BitVec 8)} (hsized : f.Sized s) (hmax : f.kind.maxlen < 2 ^ 16)
    (h : f.kind.policy.accepts d = true) : f.Ok (f.decode d s) := by
  rw [Ok, decode]
  rw [Sized] at hsized
  cases hkind : f.kind with
  | num type =>
    have hlt := hostValue_lt (d.take type.size)
    have hlen : (d.take type.size).length ≤ type.size := List.length_take_le _ _
    have hpow : 256 ^ (d.take type.size).length ≤ 256 ^ type.size := Nat.pow_le_pow_right (by omega) hlen
    simp only [Members.setNum, Function.update_self]
    omega
  | str maxlen =>
    simp only [Members.setArray, Function.update_self]
    have hlen : ((stripNul d).take (maxlen - 1)).length ≤ maxlen - 1 := List.length_take_le _ _
    refine ⟨?_, fun hmin => ?_⟩
    · rw [List.length_append, List.length_replicate]
      omega
    · rw [hkind] at h hmax
      have hle := length_stripNul_le hmin hmax h
      refine ⟨by omega, ?_⟩
      rw [List.take_of_length_le hle, List.drop_left]
  | bin maxlen =>
    rw [hkind] at hsized
    have hdata : (s.data f.attrNr).length = maxlen := hsized
    simp only [Members.setArray, Function.update_self]
    refine ⟨?_, Nat.min_le_left _ _⟩
    rw [List.length_append, List.length_take, List.length_drop, hdata]
    omega

end Members

/-! ## One call -/

section Call

variable {recs recs' : List (Nat × List (BitVec 8))} {sd : GenlStruct}

/-- The payload of the last attribute of a type. -/
def payloadOf (recs : List (Nat × List (BitVec 8))) (t : Nat) : Option (List (BitVec 8)) :=
  (recs.filter fun x => attrType x.2 = t).getLast?.map fun x => attrPayload x.2

/-- What a call returns for a struct with these attributes after `n` calls before: `s` becomes `s'`. -/
def Answer (sd : GenlStruct) (excludeInvariants : Bool) (recs : List (Nat × List (BitVec 8))) (n : Nat)
    (s s' : Members) (e : Except NlaError Unit) : Prop :=
  if n < refusedCount sd.maxtype recs then s' = s ∧ e = .error .opnotsupp
  else if ∀ x ∈ recs, admits sd.maxtype (some sd.nlPolicy) x.2 = true then
    (s', e) = decodeFields excludeInvariants (payloadOf recs) sd.fields s
  else s' = s ∧ ∃ err, e = .error err

theorem exists_same (h : List.Forall₂ Same recs recs') {x : Nat × List (BitVec 8)} (hx : x ∈ recs) :
    ∃ y ∈ recs', Same x y := by
  induction h with
  | nil => cases hx
  | cons hsame _ ih =>
    rcases List.mem_cons.1 hx with rfl | hx
    · exact ⟨_, by simp, hsame⟩
    · obtain ⟨y, hy, hxy⟩ := ih hx
      exact ⟨y, by simp [hy], hxy⟩

theorem payloadOf_cons (x : Nat × List (BitVec 8)) (t : Nat) :
    payloadOf (x :: recs) t =
      (payloadOf recs t).or (if attrType x.2 = t then some (attrPayload x.2) else none) := by
  rw [payloadOf, payloadOf, List.filter_cons]
  by_cases hx : attrType x.2 = t
  · rw [if_pos (by simpa using hx), List.getLast?_cons, if_pos hx]
    cases (recs.filter fun x => attrType x.2 = t).getLast? <;> rfl
  · rw [if_neg (by simpa using hx), if_neg hx, Option.or_none]

theorem payloadOf_same (h : List.Forall₂ Same recs recs') : payloadOf recs = payloadOf recs' := by
  induction h with
  | nil => rfl
  | cons hx _ ih =>
    funext t
    rw [payloadOf_cons, payloadOf_cons, ih, hx.2.1, hx.2.2]

/-- The table of the attributes of a struct, in the memory after the flags were removed. -/
theorem entryOf_tableOf {pre post r r' : List (BitVec 8)} (hwf : sd.Wf) (hswept : Swept sd.maxtype r r')
    (hall : ∀ x ∈ attrsIn pre.length r, admits sd.maxtype (some sd.nlPolicy) x.2 = true) (hf : f ∈ sd.fields) :
    EntryOf (pre ++ r' ++ post) f (payloadOf (attrsIn pre.length r) f.attrNr)
      (tableOf sd.maxtype (attrsIn pre.length r) f.attrNr) := by
  have hle := GenlStruct.attrNr_le_maxtype hf
  have hpos := (hwf.2.2 f hf).1
  rw [tableOf, if_pos ⟨hpos, hle⟩, payloadOf]
  cases hlast : ((attrsIn pre.length r).filter fun x => attrType x.2 = f.attrNr).getLast? with
  | none => rfl
  | some x =>
    have hmem := List.mem_of_getLast? hlast
    rw [List.mem_filter, decide_eq_true_iff] at hmem
    obtain ⟨hx, htype⟩ := hmem
    have hsame := sweep_same sd.maxtype (length_of_mem_attrsIn (r := r) pre.length)
    rw [← hswept.attrs_eq] at hsame
    obtain ⟨y, hy, hplace, -, hpayload⟩ := exists_same hsame hx
    have hin : nlaData pre.length + ((attrPayload r').length : Int).toNat ≤ (pre ++ r' ++ post).length := by
      have hlen := length_attrPayload hswept.isRecord
      rw [nlaData, Int.toNat_natCast, List.length_append, List.length_append]
      omega
    have hattrs : attrsAt (pre ++ r' ++ post) (nlaData pre.length) (attrPayload r').length =
        attrsIn pre.length r' := attrsAt_append hswept.isRecord
    rw [← hattrs] at hy
    obtain ⟨hholds, hrec, -, -⟩ := holds_of_mem_attrsAt (fun _ => hin) hy
    refine ⟨y.2, hplace ▸ hholds, hrec, congrArg some hpayload, ?_⟩
    have haccepts := accepts_of_admits (hall x hx) (htype ▸ hpos) (htype ▸ hle)
      (htype ▸ GenlStruct.nlPolicy_getElem? hwf hf)
    rwa [← hpayload]

/-- **What a call of `from_attrs` returns**, for whatever bytes the attribute of the struct has. -/
theorem fromAttrs_eq {pre post r : List (BitVec 8)} {attrs : Table} (hwf : sd.Wf)
    (hr : nlaFormat.IsRecord r) (hattrs : attrs sd.tagNumber = some pre.length) (excludeInvariants : Bool)
    (ntb : Table) (s : Members) :
    ∃ r' ntb' s' e, Swept sd.maxtype r r' ∧
      fromAttrs sd excludeInvariants attrs (pre ++ r ++ post, ntb) s =
        some ((pre ++ r' ++ post, ntb'), s', e) ∧
      Answer sd excludeInvariants (attrsIn pre.length r) 0 s s' e := by
  have hpolicy : ∀ pol, some sd.nlPolicy = some pol → sd.maxtype < pol.length := by
    rintro pol ⟨⟩
    exact sd.maxtype_lt_length
  obtain ⟨r', hswept, hcall⟩ := drbdNlaParseNested_eq pre post hr hpolicy ntb
  simp only [fromAttrs, hattrs, Answer, ← any_refused_iff]
  split at hcall
  · next hany =>
    refine ⟨r', ntb, s, .error .opnotsupp, hswept, ?_, ?_⟩
    · simp only [hcall, Option.bind_eq_bind, Option.bind_some]
      rfl
    · rw [if_pos hany]
      exact ⟨rfl, rfl⟩
  · next hany =>
    obtain ⟨e, hcall, hok⟩ := hcall
    obtain ⟨tb, htb⟩ : ∃ tb, tb = tableOf sd.maxtype ((attrsIn pre.length r).takeWhile fun x =>
      admits sd.maxtype (some sd.nlPolicy) x.2) := ⟨_, rfl⟩
    rw [← htb] at hcall
    cases e with
    | error err =>
      have hall : ¬∀ x ∈ attrsIn pre.length r, admits sd.maxtype (some sd.nlPolicy) x.2 = true := fun h => by
        cases hok.2 h
      refine ⟨r', tb, s, .error err, hswept, ?_, ?_⟩
      · simp only [hcall, Option.bind_eq_bind, Option.bind_some]
        rfl
      · rw [if_neg hany, if_neg hall]
        exact ⟨rfl, err, rfl⟩
    | ok u =>
      have hall := hok.1 rfl
      have htake : ((attrsIn pre.length r).takeWhile fun x => admits sd.maxtype (some sd.nlPolicy) x.2) =
          attrsIn pre.length r := List.takeWhile_eq_self_iff.2 hall
      have hentries : ∀ f ∈ sd.fields, EntryOf (pre ++ r' ++ post) f
          (payloadOf (attrsIn pre.length r) f.attrNr) (tb f.attrNr) := by
        rw [htb, htake]
        exact fun f hf => entryOf_tableOf hwf hswept hall hf
      have hfields := assignFields_eq hentries excludeInvariants s
      obtain ⟨s', e, hdecode⟩ : ∃ s' e, decodeFields excludeInvariants (payloadOf (attrsIn pre.length r))
          sd.fields s = (s', e) := ⟨_, _, rfl⟩
      refine ⟨r', tb, s', e, hswept, ?_, ?_⟩
      · simp only [hcall, hfields, hdecode, Option.bind_eq_bind, Option.bind_some]
        rfl
      · rw [if_neg hany, if_pos hall, hdecode]

/-- The attributes may be those after other calls. -/
theorem Answer.of_same {excludeInvariants : Bool} {n : Nat} {s' : Members} {e : Except NlaError Unit}
    (h : Answer sd excludeInvariants recs' 0 s s' e) (hsame : List.Forall₂ Same recs recs')
    (hcount : refusedCount sd.maxtype recs' = refusedCount sd.maxtype recs - n) :
    Answer sd excludeInvariants recs n s s' e := by
  have hrefused : 0 < refusedCount sd.maxtype recs' ↔ n < refusedCount sd.maxtype recs := by omega
  rwa [Answer, if_congr hrefused rfl rfl, ← payloadOf_same hsame,
    if_congr (all_admits_same sd.maxtype hsame (some sd.nlPolicy)).symm rfl rfl, ← Answer] at h

theorem accepts_of_payloadOf {d : List (BitVec 8)} (hwf : sd.Wf) (hf : f ∈ sd.fields)
    (hall : ∀ x ∈ recs, admits sd.maxtype (some sd.nlPolicy) x.2 = true)
    (hd : payloadOf recs f.attrNr = some d) : f.kind.policy.accepts d = true := by
  obtain ⟨x, hx, rfl⟩ := Option.map_eq_some_iff.1 hd
  have hmem := List.mem_of_getLast? hx
  rw [List.mem_filter, decide_eq_true_iff] at hmem
  obtain ⟨hmem, htype⟩ := hmem
  exact accepts_of_admits (hall x hmem) (htype ▸ (hwf.2.2 f hf).1)
    (htype ▸ GenlStruct.attrNr_le_maxtype hf) (htype ▸ GenlStruct.nlPolicy_getElem? hwf hf)

/-- **The struct after a call**, whether it failed or not: each member can be used, or is as before. -/
theorem Answer.members {excludeInvariants : Bool} {n : Nat} {s' : Members} {e : Except NlaError Unit}
    (hwf : sd.Wf) (h : Answer sd excludeInvariants recs n s s' e) :
    (∀ a ∉ sd.fields.map GenlField.attrNr, s'.Agree s a) ∧
      ∀ f ∈ sd.fields, s'.Agree s f.attrNr ∨ (f.Sized s → f.Ok s') := by
  have hkeep : (∀ a ∉ sd.fields.map GenlField.attrNr, s.Agree s a) ∧
      ∀ f ∈ sd.fields, s.Agree s f.attrNr ∨ (f.Sized s → f.Ok s) :=
    ⟨fun a _ => .refl s a, fun f _ => .inl (.refl s _)⟩
  rw [Answer] at h
  split at h
  · obtain ⟨rfl, -⟩ := h
    exact hkeep
  · split at h
    · next hall =>
      obtain ⟨hframe, hmembers, -, -⟩ :=
        decodeFields_spec (payloadOf recs) hwf.2.1 excludeInvariants s
      rw [← h] at hframe hmembers
      refine ⟨hframe, fun f hf => ?_⟩
      rcases hmembers f hf with hagree | ⟨d, hd, hagree⟩
      · exact .inl hagree
      · refine .inr fun hsized => ?_
        rw [GenlField.ok_agree hagree]
        exact GenlField.ok_decode hsized (hwf.2.2 f hf).2.2 (accepts_of_payloadOf hwf hf hall hd)
    · obtain ⟨rfl, -⟩ := h
      exact hkeep

end Call

end Decode

end DrbdUtils.Genl
