import Mathlib.Logic.Function.Basic
import DrbdUtils.Lib.LittleEndian

/-!
# Netlink attributes

Streams of attributes as `libgenl.h` and `libnla.c` read them: a header with the length and the type, the
payload, and padding up to the next multiple of 4.  Pointers are places in a memory that is a list of
bytes; a read outside of it has no result.  The constants of `linux/netlink.h` are those of the copy in
`windrbd-compat-headers`, and what is written to `stderr` is left out.

* `nlaForEachAttr` — the loop over a stream.
* `validateNla`, `nlaParse`, `nlaFind` — policies, and the table of the attributes.
* `nlaGet`, `nlaMemcpy`, `nlaStrlcpy` — reading payloads.
-/

set_option autoImplicit false

namespace DrbdUtils.Genl

open LittleEndian

/-! ## Memory -/

/-- The order of the bytes of the machine. -/
class Host where
  bigEndian : Bool

@[reducible] def littleEndian : Host := ⟨false⟩

section Host

variable [Host]

def hostBytes (n v : Nat) : List (BitVec 8) :=
  if Host.bigEndian then (toBytes n v).reverse else toBytes n v

def hostValue (bytes : List (BitVec 8)) : Nat :=
  ofBytes (if Host.bigEndian then bytes.reverse else bytes)

@[simp] theorem length_hostBytes (n v : Nat) : (hostBytes n v).length = n := by
  rw [hostBytes]
  split <;> simp

theorem hostValue_hostBytes (n v : Nat) : hostValue (hostBytes n v) = v % 256 ^ n := by
  rw [hostValue, hostBytes]
  split <;> simp [ofBytes_toBytes]

theorem hostValue_lt (bytes : List (BitVec 8)) : hostValue bytes < 256 ^ bytes.length := by
  rw [hostValue]
  split
  · rw [← List.length_reverse]
    exact ofBytes_lt _
  · exact ofBytes_lt _

end Host

abbrev Mem := List (BitVec 8)

def read (mem : Mem) (p n : Nat) : Option (List (BitVec 8)) :=
  if p + n ≤ mem.length then some ((mem.drop p).take n) else none

/-- The bytes `r` are at `p`. -/
def Holds (mem : Mem) (p : Nat) (r : List (BitVec 8)) : Prop :=
  p + r.length ≤ mem.length ∧ (mem.drop p).take r.length = r

theorem read_of_holds {mem : Mem} {p i n : Nat} {r : List (BitVec 8)} (h : Holds mem p r)
    (hin : i + n ≤ r.length) : read mem (p + i) n = some ((r.drop i).take n) := by
  obtain ⟨hlen, heq⟩ := h
  have hr : (r.drop i).take n = ((mem.drop p).drop i).take n := by
    rw [← heq, List.drop_take, List.take_take, Nat.min_eq_left (by omega)]
  rw [read, if_pos (by omega), hr, List.drop_drop]

/-! ## Attributes -/

def NLA_HDRLEN : Nat := 4

/-- `NLA_ALIGN`, as well as `NLMSG_ALIGN`. -/
def nlaAlign (len : Nat) : Nat := (len + 3) / 4 * 4

theorem le_nlaAlign (len : Nat) : len ≤ nlaAlign len := by
  rw [nlaAlign]
  omega

def nlaData (nla : Nat) : Nat := nla + NLA_HDRLEN

/-! ## Policies -/

inductive NlaPolicyType where
  | unspec
  | u8
  | u16
  | u32
  | u64
  | string
  | flag
  | msecs
  | nested
  | nestedCompat
  | nulString
  | binary
  deriving DecidableEq, Repr

structure NlaPolicy where
  type : NlaPolicyType := .unspec
  len : Nat := 0

/-- The errors that the functions return. -/
inductive NlaError where
  | range
  | inval
  | opnotsupp
  | nomsg
  | exist
  | msgsize
  deriving DecidableEq, Repr

/-- `nla_attr_minlen`. -/
def nlaAttrMinlen : NlaPolicyType → Nat
  | .u8 => 1
  | .u16 => 2
  | .u32 => 4
  | .u64 => 8
  | .nested => NLA_HDRLEN
  | _ => 0

/-- A read of a length that may be negative. -/
def readInt (mem : Mem) (p : Nat) (n : Int) : Option (List (BitVec 8)) :=
  if n < 0 then none else read mem p n.toNat

/-- The end of `validate_nla`, behind `default`. -/
def validateMinlen (pt : NlaPolicy) (attrlen : Int) : Except NlaError Unit :=
  let minlen := if pt.len ≠ 0 then pt.len else nlaAttrMinlen pt.type
  if attrlen < minlen then .error .range else .ok ()

/-- `case NLA_STRING`. -/
def validateString (mem : Mem) (nla : Nat) (pt : NlaPolicy) (attrlen : Int) :
    Option (Except NlaError Unit) := do
  if attrlen < 1 then return .error .range
  if pt.len = 0 then return .ok ()
  let last ← read mem (nlaData nla + (attrlen - 1).toNat) 1
  let attrlen := if last = [0] then attrlen - 1 else attrlen
  return if attrlen > pt.len then .error .range else .ok ()

/-- The array `tb`. -/
abbrev Table := Nat → Option Nat

section Attributes

variable [Host]

/-- `nla->nla_len`. -/
def nlaLenField (mem : Mem) (nla : Nat) : Option Nat := (read mem nla 2).map hostValue

/-- `nla->nla_type`. -/
def nlaTypeField (mem : Mem) (nla : Nat) : Option Nat := (read mem (nla + 2) 2).map hostValue

/-- `NLA_TYPE_MASK` takes the two highest bits away. -/
def nlaType (mem : Mem) (nla : Nat) : Option Nat := (nlaTypeField mem nla).map (· % 2 ^ 14)

def nlaLen (mem : Mem) (nla : Nat) : Option Int :=
  (nlaLenField mem nla).map fun (len : Nat) => (len : Int) - NLA_HDRLEN

def nlaOk (mem : Mem) (nla : Nat) (remaining : Int) : Option Bool :=
  if remaining < 4 then some false
  else (nlaLenField mem nla).map fun (len : Nat) => decide (4 ≤ len ∧ (len : Int) ≤ remaining)

/-- `nla_for_each_attr`; the body goes on with a state, or leaves the loop. -/
def nlaForEachAttr {σ ρ : Type} (mem : Mem) (body : Nat → σ → Option (σ ⊕ ρ)) :
    Nat → Nat → Int → σ → Option (σ ⊕ ρ)
  | 0, _, _, _ => none
  | turns + 1, nla, rem, s => do
    if ← nlaOk mem nla rem then
      match ← body nla s with
      | .inl s =>
        -- `nla_next`
        let len ← nlaLenField mem nla
        nlaForEachAttr mem body turns (nla + nlaAlign len) (rem - nlaAlign len) s
      | .inr r => return .inr r
    else return .inl s

def validateNla (mem : Mem) (nla maxtype : Nat) (policy : List NlaPolicy) :
    Option (Except NlaError Unit) := do
  let attrlen ← nlaLen mem nla
  let type ← nlaType mem nla
  if type = 0 ∨ maxtype < type then return .ok ()
  let pt ← policy[type]?
  match pt.type with
  | .flag => return if 0 < attrlen then .error .range else .ok ()
  | .nulString =>
    let minlen := if pt.len ≠ 0 then min attrlen (pt.len + 1) else attrlen
    if minlen = 0 then return .error .inval
    let data ← readInt mem (nlaData nla) minlen
    if 0 ∉ data then return .error .inval
    validateString mem nla pt attrlen
  | .string => validateString mem nla pt attrlen
  | .binary => return if pt.len ≠ 0 ∧ attrlen > pt.len then .error .range else .ok ()
  | .nestedCompat =>
    if attrlen < pt.len then return .error .range
    if attrlen < nlaAlign pt.len then return .ok ()
    if attrlen < nlaAlign pt.len + NLA_HDRLEN then return .error .range
    let len ← nlaLen mem (nlaData nla + nlaAlign pt.len)
    return if attrlen < nlaAlign pt.len + NLA_HDRLEN + len then .error .range else .ok ()
  | .nested => return if attrlen = 0 then .ok () else validateMinlen pt attrlen
  | _ => return validateMinlen pt attrlen

/-! ## Parsing -/

/-- A loop over a stream of `len` bytes. -/
def nlaForEach {σ ρ : Type} (mem : Mem) (body : Nat → σ → Option (σ ⊕ ρ)) (head : Nat) (len : Int)
    (s : σ) : Option (σ ⊕ ρ) :=
  nlaForEachAttr mem body (len.toNat + 1) head len s

def nlaValidate (mem : Mem) (head : Nat) (len : Int) (maxtype : Nat) (policy : List NlaPolicy) :
    Option (Except NlaError Unit) := do
  match ← nlaForEach mem (fun nla (_ : Unit) => do
    match ← validateNla mem nla maxtype policy with
    | .error err => return .inr err
    | .ok () => return .inl ()) head len () with
  | .inl () => return .ok ()
  | .inr err => return .error err

/-- What `nla_parse` does with one attribute. -/
def nlaParseAttr (mem : Mem) (maxtype : Nat) (policy : Option (List NlaPolicy)) (nla : Nat)
    (tb : Table) : Option (Table ⊕ (Table × NlaError)) := do
  let type ← nlaType mem nla
  if 0 < type ∧ type ≤ maxtype then
    match policy with
    | some policy =>
      match ← validateNla mem nla maxtype policy with
      | .error err => return .inr (tb, err)
      | .ok () => return .inl (Function.update tb type (some nla))
    | none => return .inl (Function.update tb type (some nla))
  else return .inl tb

def nlaParse (mem : Mem) (maxtype head : Nat) (len : Int) (policy : Option (List NlaPolicy)) :
    Option (Table × Except NlaError Unit) := do
  match ← nlaForEach mem (nlaParseAttr mem maxtype policy) head len fun _ => none with
  | .inl tb => return (tb, .ok ())
  | .inr (tb, err) => return (tb, .error err)

def nlaParseNested (mem : Mem) (maxtype nla : Nat) (policy : Option (List NlaPolicy)) :
    Option (Table × Except NlaError Unit) := do
  nlaParse mem maxtype (nlaData nla) (← nlaLen mem nla) policy

/-- The first attribute of a type. -/
def nlaFind (mem : Mem) (head : Nat) (len : Int) (attrtype : Nat) : Option (Option Nat) := do
  match ← nlaForEach mem (fun nla (_ : Unit) => do
    return if (← nlaType mem nla) = attrtype then .inr nla else .inl ()) head len () with
  | .inl () => return none
  | .inr nla => return some nla

/-! ## Payloads -/

/-- `nla_get_u8`, `nla_get_u16` and `nla_get_u32`, for `n` bytes. -/
def nlaGet (n : Nat) (mem : Mem) (nla : Nat) : Option Nat := (read mem (nlaData nla) n).map hostValue

/-- `nla_memcpy`, with what is at `dest` afterwards. -/
def nlaMemcpy (mem : Mem) (dest : List (BitVec 8)) (src : Nat) (count : Nat) :
    Option (List (BitVec 8) × Int) := do
  let minlen := min (count : Int) (← nlaLen mem src)
  let data ← readInt mem (nlaData src) minlen
  return (data ++ dest.drop data.length, minlen)

/-- `nla_get_u64`; bytes of `tmp` that were not written have no value. -/
def nlaGetU64 (mem : Mem) (nla : Nat) : Option Nat := do
  let (tmp, minlen) ← nlaMemcpy mem [] nla 8
  if minlen < 8 then none else return hostValue tmp

/-- `nla_strlcpy`, with what is in the buffer afterwards. -/
def nlaStrlcpy (mem : Mem) (nla dstsize : Nat) : Option (List (BitVec 8) × Int) := do
  let srclen ← nlaLen mem nla
  let last ← (if 0 < srclen then read mem (nlaData nla + (srclen - 1).toNat) 1 else some [])
  let srclen := if last = [0] then srclen - 1 else srclen
  let len := if srclen ≥ dstsize then (dstsize : Int) - 1 else srclen
  let src ← (if 0 < dstsize then readInt mem (nlaData nla) len else some [])
  return (src ++ List.replicate (dstsize - src.length) 0, srclen)

end Attributes

end DrbdUtils.Genl
