import Mathlib.Data.List.TakeWhile
import DrbdUtils.Genl.Nlattr
import DrbdUtils.Lib.RecordStream

/-!
# What is parsed of a stream of attributes

The attributes of a stream are those that `RecordStream` finds; a policy accepts payloads.

* `nlaForEachAttr_eq` — the loop visits the attributes of the stream, and reads nothing else.
* `validateNla_eq` — what a policy accepts.
* `nlaParse_eq`, `nlaParse_inside` — parsing any bytes.
-/

set_option autoImplicit false

namespace DrbdUtils.Genl

/-! ## Payloads and policies -/

/-- A string without the NUL at its end. -/
def stripNul (d : List (BitVec 8)) : List (BitVec 8) :=
  if d.getLast? = some 0 then d.dropLast else d

theorem stripNul_isPrefix (d : List (BitVec 8)) : stripNul d <+: d := by
  rw [stripNul]
  split
  · exact List.dropLast_prefix d
  · exact List.prefix_rfl

def NlaPolicy.fits (pt : NlaPolicy) (d : List (BitVec 8)) : Bool :=
  decide (pt.len = 0 ∨ (stripNul d).length ≤ pt.len)

def NlaPolicy.longEnough (pt : NlaPolicy) (d : List (BitVec 8)) : Bool :=
  decide ((if pt.len ≠ 0 then pt.len else nlaAttrMinlen pt.type) ≤ d.length)

/-- The error code of a test. -/
theorem ite_error_iff {c : Prop} [Decidable c] {e : NlaError} :
    (if c then .error e else .ok () : Except NlaError Unit) = .ok () ↔ ¬c := by
  split <;> simp [*]

theorem validateMinlen_iff {pt : NlaPolicy} {d : List (BitVec 8)} :
    validateMinlen pt d.length = .ok () ↔ pt.longEnough d = true := by
  rw [validateMinlen, NlaPolicy.longEnough, decide_eq_true_iff]
  exact ite_error_iff.trans (by omega)

theorem stripNul_concat (d : List (BitVec 8)) (last : BitVec 8) :
    stripNul (d ++ [last]) = if last = 0 then d else d ++ [last] := by
  simp [stripNul]

theorem nlaHdrlen_pos : 0 < NLA_HDRLEN := Nat.succ_pos 3

/-- The body at one place after the other. -/
def visit {σ ρ : Type} (body : Nat → σ → Option (σ ⊕ ρ)) : List Nat → σ → Option (σ ⊕ ρ)
  | [], s => some (.inl s)
  | nla :: places, s =>
    (body nla s).bind fun
      | .inl s => visit body places s
      | .inr r => some (.inr r)

/-- The payload of an attribute that is given by its bytes. -/
def attrPayload (r : List (BitVec 8)) : List (BitVec 8) := r.drop NLA_HDRLEN

section Attributes

variable [Host]

/-! ## Streams of attributes -/

theorem lengthOf_header (l : List (BitVec 8)) :
    hostValue ((l.take NLA_HDRLEN).take 2) = hostValue (l.take 2) := by
  rw [List.take_take]
  rfl

/-- The format of attributes. -/
def nlaFormat : RecordStream.Format (BitVec 8) where
  hdr := NLA_HDRLEN
  hdr_pos := nlaHdrlen_pos
  align := nlaAlign
  le_align := le_nlaAlign
  lengthOf l := hostValue (l.take 2)
  lengthOf_take := lengthOf_header

/-- The attributes of a stream of `len` bytes, with their places. -/
def attrsAt (mem : Mem) (head : Nat) (len : Int) : List (Nat × List (BitVec 8)) :=
  nlaFormat.walk head ((mem.drop head).take len.toNat)

/-- The attributes of an attribute at `pos`. -/
def attrsIn (pos : Nat) (r : List (BitVec 8)) : List (Nat × List (BitVec 8)) :=
  nlaFormat.walk (nlaData pos) (attrPayload r)

/-- The type of an attribute that is given by its bytes. -/
def attrType (r : List (BitVec 8)) : Nat := hostValue ((r.drop 2).take 2) % 2 ^ 14

section Holds

variable {mem : Mem} {p i n head : Nat} {len rem : Int} {r : List (BitVec 8)}

theorem length_attrPayload (hr : nlaFormat.IsRecord r) : NLA_HDRLEN + (attrPayload r).length = r.length := by
  have h : NLA_HDRLEN ≤ r.length := hr.hdr_le
  rw [attrPayload, List.length_drop]
  omega

theorem nlaLenField_of_holds (h : Holds mem p r) (hr : nlaFormat.IsRecord r) :
    nlaLenField mem p = some r.length := by
  have hhdr : 4 ≤ r.length := hr.hdr_le
  have hread := read_of_holds (i := 0) (n := 2) h (by omega)
  rw [Nat.add_zero, List.drop_zero] at hread
  rw [nlaLenField, hread, Option.map_some]
  exact congrArg some hr.lengthOf_eq

theorem nlaLen_of_holds (h : Holds mem p r) (hr : nlaFormat.IsRecord r) :
    nlaLen mem p = some ((attrPayload r).length : Int) := by
  have hlen := length_attrPayload hr
  rw [nlaLen, nlaLenField_of_holds h hr, Option.map_some, ← hlen]
  simp

theorem nlaType_of_holds (h : Holds mem p r) (hr : nlaFormat.IsRecord r) :
    nlaType mem p = some (attrType r) := by
  have hhdr : 4 ≤ r.length := hr.hdr_le
  rw [nlaType, nlaTypeField, read_of_holds h (by omega), Option.map_some, Option.map_some, attrType]

/-- The payload is read inside of the attribute. -/
theorem read_payload (h : Holds mem p r) (hr : nlaFormat.IsRecord r)
    (hin : i + n ≤ (attrPayload r).length) :
    read mem (nlaData p + i) n = some (((attrPayload r).drop i).take n) := by
  have hlen := length_attrPayload hr
  rw [nlaData, Nat.add_assoc, read_of_holds h (by omega), attrPayload, List.drop_drop]

/-- The attributes of a stream are inside of it. -/
theorem holds_of_mem_attrsAt (hin : 0 < len → head + len.toNat ≤ mem.length) {x : Nat × List (BitVec 8)}
    (hx : x ∈ attrsAt mem head len) :
    Holds mem x.1 x.2 ∧ nlaFormat.IsRecord x.2 ∧ head ≤ x.1 ∧ x.1 + x.2.length ≤ head + len.toNat := by
  have hpos : 0 < len := by
    by_contra hpos
    rw [attrsAt, Int.toNat_of_nonpos (by omega), List.take_zero, RecordStream.Format.walk_nil] at hx
    cases hx
  have hin := hin hpos
  obtain ⟨hrec, hle, hend, htake⟩ := RecordStream.Format.walk_inside hx
  have hlen : ((mem.drop head).take len.toNat).length = len.toNat := by
    rw [List.length_take, List.length_drop]
    omega
  rw [hlen] at hend
  refine ⟨⟨by omega, ?_⟩, hrec, hle, hend⟩
  rw [List.drop_take, List.take_take, List.drop_drop, Nat.min_eq_left (by omega)] at htake
  rwa [show head + (x.1 - head) = x.1 by omega] at htake

/-! ## The loop -/

theorem nlaOk_eq (hin : 4 ≤ rem → head + rem.toNat ≤ mem.length) :
    nlaOk mem head rem = some (decide (nlaFormat.Ok ((mem.drop head).take rem.toNat))) := by
  rw [nlaOk]
  split
  · next hrem =>
    have hnot : ¬nlaFormat.Ok ((mem.drop head).take rem.toNat) := by
      rintro ⟨hhdr, -, -⟩
      have h4 : 4 ≤ ((mem.drop head).take rem.toNat).length := hhdr
      rw [List.length_take] at h4
      omega
    rw [decide_eq_false hnot]
  · next hrem =>
    have hin := hin (by omega)
    have hlen : ((mem.drop head).take rem.toNat).length = rem.toNat := by
      rw [List.length_take, List.length_drop]
      omega
    have htake : ((mem.drop head).take rem.toNat).take 2 = (mem.drop head).take 2 := by
      rw [List.take_take, Nat.min_eq_left (by omega)]
    have hlengthOf : nlaFormat.lengthOf ((mem.drop head).take rem.toNat) =
        hostValue ((mem.drop head).take 2) := congrArg hostValue htake
    rw [nlaLenField, read, if_pos (by omega), Option.map_some, Option.map_some]
    refine congrArg some (decide_eq_decide.2 ?_)
    rw [RecordStream.Format.Ok, hlengthOf, hlen]
    constructor
    · rintro ⟨h4, hle⟩
      exact ⟨show 4 ≤ rem.toNat by omega, h4, by omega⟩
    · rintro ⟨-, h4, hle⟩
      exact ⟨h4, by omega⟩

/-- **The loop visits the attributes of the stream** and reads nothing outside of it. -/
theorem nlaForEachAttr_eq {σ ρ : Type} {body : Nat → σ → Option (σ ⊕ ρ)} {turns : Nat} {s : σ}
    (hin : 4 ≤ rem → head + rem.toNat ≤ mem.length) (hturns : rem.toNat < turns) :
    nlaForEachAttr mem body turns head rem s = visit body ((attrsAt mem head rem).map Prod.fst) s := by
  induction turns generalizing head rem s with
  | zero => omega
  | succ turns ih =>
    rw [nlaForEachAttr, nlaOk_eq hin, Option.bind_eq_bind, Option.bind_some]
    by_cases hok : nlaFormat.Ok ((mem.drop head).take rem.toNat)
    · have h4 : 4 ≤ rem := by
        have h4 : 4 ≤ ((mem.drop head).take rem.toNat).length := hok.1
        rw [List.length_take] at h4
        omega
      have hmem := hin h4
      obtain ⟨n, hn⟩ : ∃ n, n = nlaFormat.lengthOf ((mem.drop head).take rem.toNat) := ⟨_, rfl⟩
      have hlen : nlaLenField mem head = some n := by
        have htake : ((mem.drop head).take rem.toNat).take 2 = (mem.drop head).take 2 := by
          rw [List.take_take, Nat.min_eq_left (by omega)]
        rw [nlaLenField, read, if_pos (by omega), Option.map_some, hn, ← htake]
        rfl
      have hge : 4 ≤ n := hn ▸ hok.2.1
      have hround := le_nlaAlign n
      have hnext : attrsAt mem head rem =
          (head, ((mem.drop head).take rem.toNat).take n) ::
            attrsAt mem (head + nlaAlign n) (rem - nlaAlign n) := by
        rw [attrsAt, RecordStream.Format.walk_of_ok hok, ← hn, List.drop_take, List.drop_drop, attrsAt,
          show (rem - (nlaAlign n : Int)).toNat = rem.toNat - nlaAlign n by omega]
        rfl
      rw [decide_eq_true hok, if_pos rfl, hnext, List.map_cons, visit]
      cases body head s with
      | none => rfl
      | some x =>
        cases x with
        | inl s =>
          simp only [Option.bind_some, hlen]
          exact ih (by omega) (by omega)
        | inr r => rfl
    · rw [decide_eq_false hok, if_neg Bool.false_ne_true, attrsAt,
        RecordStream.Format.walk_of_not_ok hok, List.map_nil, visit]
      rfl

theorem nlaForEach_eq {σ ρ : Type} {body : Nat → σ → Option (σ ⊕ ρ)} {s : σ}
    (hin : 0 < len → head + len.toNat ≤ mem.length) :
    nlaForEach mem body head len s = visit body ((attrsAt mem head len).map Prod.fst) s :=
  nlaForEachAttr_eq (fun h4 => hin (by omega)) (Nat.lt_succ_self _)

/-- A structure, and optionally an attribute behind it. -/
def NlaPolicy.compat (pt : NlaPolicy) (d : List (BitVec 8)) : Bool :=
  decide (pt.len ≤ d.length ∧ (d.length < nlaAlign pt.len ∨
    nlaAlign pt.len + NLA_HDRLEN ≤ d.length ∧
      nlaAlign pt.len + hostValue ((d.drop (nlaAlign pt.len)).take 2) ≤ d.length))

/-- The payloads that a policy accepts. -/
def NlaPolicy.accepts (pt : NlaPolicy) (d : List (BitVec 8)) : Bool :=
  match pt.type with
  | .flag => decide (d = [])
  | .nulString => (if pt.len ≠ 0 then d.take (pt.len + 1) else d).contains 0 && pt.fits d
  | .string => decide (d ≠ []) && pt.fits d
  | .binary => decide (pt.len = 0 ∨ d.length ≤ pt.len)
  | .nestedCompat => pt.compat d
  | .nested => decide (d = []) || pt.longEnough d
  | _ => pt.longEnough d

theorem validateString_eq (h : Holds mem p r) (hr : nlaFormat.IsRecord r) (pt : NlaPolicy) :
    ∃ e, validateString mem p pt (attrPayload r).length = some e ∧
      (e = .ok () ↔ attrPayload r ≠ [] ∧ pt.fits (attrPayload r) = true) := by
  rcases List.eq_nil_or_concat (attrPayload r) with hd | ⟨d, last, hd⟩
  · rw [hd]
    exact ⟨.error .range, rfl, by simp⟩
  · rw [List.concat_eq_append] at hd
    have hread : read mem (nlaData p + d.length) 1 = some [last] := by
      rw [read_payload h hr (by rw [hd, List.length_append, List.length_singleton]), hd, List.drop_left]
      rfl
    rw [validateString, hd, NlaPolicy.fits, stripNul_concat, List.length_append, List.length_singleton,
      if_neg (by omega)]
    by_cases hlen : pt.len = 0
    · exact ⟨.ok (), by rw [if_pos hlen]; rfl, by simp [hlen]⟩
    · rw [if_neg hlen, show ((d.length + 1 : Nat) - 1 : Int).toNat = d.length by omega, hread]
      refine ⟨_, rfl, ite_error_iff.trans ?_⟩
      simp only [List.cons.injEq, and_true, hlen, false_or, decide_eq_true_eq, ne_eq, List.append_eq_nil_iff,
        List.cons_ne_self, and_false, not_false_eq_true, true_and]
      split
      · omega
      · rw [List.length_append, List.length_singleton]
        omega

theorem readInt_payload (h : Holds mem p r) (hr : nlaFormat.IsRecord r)
    (hn : n ≤ (attrPayload r).length) :
    readInt mem (nlaData p) (n : Int) = some ((attrPayload r).take n) := by
  have hpayload := read_payload (i := 0) h hr (by omega : 0 + n ≤ (attrPayload r).length)
  rw [readInt, if_neg (by omega), Int.toNat_natCast, ← Nat.add_zero (nlaData p), hpayload, List.drop_zero]

/-- The part of a string where its NUL has to be. -/
theorem read_terminated (h : Holds mem p r) (hr : nlaFormat.IsRecord r) (len : Nat) :
    readInt mem (nlaData p) (if len ≠ 0 then min ((attrPayload r).length : Int) (len + 1)
      else (attrPayload r).length) =
      some (if len ≠ 0 then (attrPayload r).take (len + 1) else attrPayload r) := by
  split
  · have hmin := readInt_payload h hr (Nat.min_le_right (len + 1) (attrPayload r).length)
    rw [← List.take_eq_take_min] at hmin
    rw [← hmin]
    congr 1
    omega
  · rw [readInt_payload h hr (Nat.le_refl _), List.take_length]

theorem validateNla_eq (h : Holds mem p r) (hr : nlaFormat.IsRecord r) {maxtype : Nat}
    {policy : List NlaPolicy} {pt : NlaPolicy} (hpos : 0 < attrType r) (hle : attrType r ≤ maxtype)
    (hpt : policy[attrType r]? = some pt) :
    ∃ e, validateNla mem p maxtype policy = some e ∧
      (e = .ok () ↔ pt.accepts (attrPayload r) = true) := by
  have hlen := nlaLen_of_holds h hr
  have htype := nlaType_of_holds h hr
  have hknown : ¬(attrType r = 0 ∨ maxtype < attrType r) := by omega
  simp only [validateNla, hlen, htype, hpt, Option.bind_eq_bind, Option.bind_some, if_neg hknown,
    NlaPolicy.accepts]
  have hmin : ∀ e : Except NlaError Unit, e = validateMinlen pt (attrPayload r).length →
      (e = .ok () ↔ pt.longEnough (attrPayload r) = true) := by
    rintro e rfl
    exact validateMinlen_iff
  cases ht : pt.type with
  | flag =>
    refine ⟨_, rfl, ite_error_iff.trans ?_⟩
    simp
  | binary =>
    refine ⟨_, rfl, ite_error_iff.trans ?_⟩
    rw [decide_eq_true_iff]
    omega
  | string =>
    obtain ⟨e, he, hiff⟩ := validateString_eq h hr pt
    exact ⟨e, he, hiff.trans (by simp)⟩
  | nulString =>
    obtain ⟨e, he, hiff⟩ := validateString_eq h hr pt
    by_cases hd : attrPayload r = []
    · have hzero : (if pt.len ≠ 0 then min ((attrPayload r).length : Int) (pt.len + 1)
          else (attrPayload r).length) = 0 := by
        rw [hd, List.length_nil]
        split <;> omega
      exact ⟨.error .inval, by rw [if_pos hzero]; rfl, by simp [hd]⟩
    · have hne : 0 < (attrPayload r).length := List.length_pos_iff.2 hd
      have hread := read_terminated h hr pt.len
      have hpos' : (if pt.len ≠ 0 then min ((attrPayload r).length : Int) (pt.len + 1)
          else (attrPayload r).length) ≠ 0 := by
        split <;> omega
      simp only [if_neg hpos', hread, Option.bind_some]
      by_cases hz : 0 ∈ (if pt.len ≠ 0 then (attrPayload r).take (pt.len + 1) else attrPayload r)
      · refine ⟨e, ?_, by rw [hiff, List.contains_iff_mem.2 hz]; simp [hd]⟩
        rw [if_neg (not_not.2 hz)]
        exact he
      · have hno := mt List.contains_iff_mem.1 hz
        rw [Bool.not_eq_true] at hno
        refine ⟨.error .inval, ?_, by rw [hno]; simp⟩
        rw [if_pos hz]
        rfl
  | nestedCompat =>
    rw [NlaPolicy.compat, decide_eq_true_iff]
    by_cases h1 : ((attrPayload r).length : Int) < pt.len
    · exact ⟨.error .range, by rw [if_pos h1]; rfl, by simp; omega⟩
    · by_cases h2 : ((attrPayload r).length : Int) < nlaAlign pt.len
      · exact ⟨.ok (), by rw [if_neg h1, if_pos h2]; rfl, by simp; omega⟩
      · by_cases h3 : ((attrPayload r).length : Int) < nlaAlign pt.len + NLA_HDRLEN
        · exact ⟨.error .range, by rw [if_neg h1, if_neg h2, if_pos h3]; rfl, by simp; omega⟩
        · have hinner : nlaLen mem (nlaData p + nlaAlign pt.len) =
              some ((hostValue (((attrPayload r).drop (nlaAlign pt.len)).take 2) : Int) - NLA_HDRLEN) := by
            have hhdr : NLA_HDRLEN = 4 := rfl
            rw [nlaLen, nlaLenField, read_payload h hr (by omega)]
            rfl
          refine ⟨_, by rw [if_neg h1, if_neg h2, if_neg h3, hinner]; rfl, ite_error_iff.trans ?_⟩
          omega
  | nested =>
    by_cases hd : attrPayload r = []
    · exact ⟨.ok (), by simp [hd], by simp [hd]⟩
    · refine ⟨_, rfl, ?_⟩
      have hne : ((attrPayload r).length : Int) ≠ 0 := by
        rw [Ne, Int.natCast_eq_zero, List.length_eq_zero_iff]
        exact hd
      rw [if_neg hne, hmin _ rfl, decide_eq_false hd, Bool.false_or]
  | _ => exact ⟨_, rfl, hmin _ rfl⟩

theorem nlaGet_of_holds (h : Holds mem p r) (hr : nlaFormat.IsRecord r)
    (hn : n ≤ (attrPayload r).length) :
    nlaGet n mem p = some (hostValue ((attrPayload r).take n)) := by
  have hpayload := read_payload (i := 0) h hr (by omega : 0 + n ≤ (attrPayload r).length)
  rw [nlaGet, ← Nat.add_zero (nlaData p), hpayload, Option.map_some, List.drop_zero]

theorem nlaMemcpy_of_holds (h : Holds mem p r) (hr : nlaFormat.IsRecord r) (dest : List (BitVec 8))
    (count : Nat) :
    nlaMemcpy mem dest p count = some ((attrPayload r).take count ++
      dest.drop (min count (attrPayload r).length), ((min count (attrPayload r).length : Nat) : Int)) := by
  have hread := readInt_payload h hr (Nat.min_le_right count (attrPayload r).length)
  rw [← List.take_eq_take_min] at hread
  have hmin : min (count : Int) (attrPayload r).length = (min count (attrPayload r).length : Nat) := by omega
  rw [nlaMemcpy, nlaLen_of_holds h hr]
  simp only [Option.bind_eq_bind, Option.bind_some, hmin, hread]
  rw [List.length_take]
  rfl

theorem nlaGetU64_of_holds (h : Holds mem p r) (hr : nlaFormat.IsRecord r)
    (hn : 8 ≤ (attrPayload r).length) :
    nlaGetU64 mem p = some (hostValue ((attrPayload r).take 8)) := by
  rw [nlaGetU64, nlaMemcpy_of_holds h hr]
  simp only [Option.bind_eq_bind, Option.bind_some, List.drop_nil, List.append_nil]
  rw [if_neg (by omega)]
  rfl

/-- What is copied of a string: it ends with a NUL if there is room for one. -/
theorem nlaStrlcpy_of_holds (h : Holds mem p r) (hr : nlaFormat.IsRecord r) (dstsize : Nat) :
    nlaStrlcpy mem p dstsize = some ((stripNul (attrPayload r)).take (dstsize - 1) ++
      List.replicate (dstsize - ((stripNul (attrPayload r)).take (dstsize - 1)).length) 0,
      ((stripNul (attrPayload r)).length : Int)) := by
  obtain ⟨nul, hnul⟩ := stripNul_isPrefix (attrPayload r)
  obtain ⟨src, hsrc⟩ : ∃ src, src = stripNul (attrPayload r) := ⟨_, rfl⟩
  rw [← hsrc] at hnul ⊢
  -- the length without the NUL
  have hlast : ∃ last, (if 0 < ((attrPayload r).length : Int) then
        read mem (nlaData p + ((attrPayload r).length - 1 : Int).toNat) 1 else some []) = some last ∧
      (if last = [0] then ((attrPayload r).length : Int) - 1 else (attrPayload r).length) = src.length := by
    rcases List.eq_nil_or_concat (attrPayload r) with hd | ⟨d, last, hd⟩
    · refine ⟨[], by simp [hd], ?_⟩
      rw [hsrc, hd]
      rfl
    · rw [List.concat_eq_append] at hd
      refine ⟨[last], ?_, ?_⟩
      · rw [hd, List.length_append, List.length_singleton, if_pos (by omega),
          show ((d.length + 1 : Nat) - 1 : Int).toNat = d.length by omega,
          read_payload h hr (by rw [hd, List.length_append, List.length_singleton]), hd, List.drop_left]
        rfl
      · rw [hsrc, hd, stripNul_concat]
        simp only [List.cons.injEq, and_true, List.length_append, List.length_singleton]
        split
        · omega
        · simp
  obtain ⟨last, hread, hlen⟩ := hlast
  simp only [nlaStrlcpy, nlaLen_of_holds h hr, Option.bind_eq_bind, Option.bind_some, hread, hlen]
  by_cases hsize : 0 < dstsize
  · have hn : (if (src.length : Int) ≥ dstsize then (dstsize : Int) - 1 else src.length) =
        ((min (dstsize - 1) src.length : Nat) : Int) := by
      split <;> omega
    have hle : src.length ≤ (attrPayload r).length := by
      rw [← hnul, List.length_append]
      omega
    have htake : (attrPayload r).take (min (dstsize - 1) src.length) = src.take (dstsize - 1) := by
      rw [← hnul, List.take_append_of_le_length (by omega), ← List.take_eq_take_min]
    rw [if_pos hsize, hn, readInt_payload h hr (by omega), htake]
    rfl
  · obtain rfl : dstsize = 0 := by omega
    rw [if_neg hsize]
    simp

/-! ## What is parsed -/

/-- Attributes of an unknown type are not checked. -/
def admits (maxtype : Nat) (policy : Option (List NlaPolicy)) (r : List (BitVec 8)) : Bool :=
  match policy with
  | none => true
  | some policy =>
    decide (attrType r = 0 ∨ maxtype < attrType r) ||
      policy[attrType r]?.any fun pt => pt.accepts (attrPayload r)

/-- The last attribute of each type. -/
def tableOf (maxtype : Nat) (recs : List (Nat × List (BitVec 8))) : Table := fun t =>
  if 0 < t ∧ t ≤ maxtype then (recs.filter fun x => attrType x.2 = t).getLast?.map Prod.fst else none

theorem tableOf_cons (maxtype : Nat) (x : Nat × List (BitVec 8)) (recs : List (Nat × List (BitVec 8)))
    (t : Nat) :
    tableOf maxtype (x :: recs) t = (tableOf maxtype recs t).or
      (if 0 < t ∧ t ≤ maxtype ∧ attrType x.2 = t then some x.1 else none) := by
  rw [tableOf, tableOf]
  by_cases ht : 0 < t ∧ t ≤ maxtype
  · rw [if_pos ht, if_pos ht, List.filter_cons]
    by_cases hx : attrType x.2 = t
    · rw [if_pos (by simpa using hx), List.getLast?_cons, if_pos ⟨ht.1, ht.2, hx⟩]
      cases (recs.filter fun x => attrType x.2 = t).getLast? <;> rfl
    · rw [if_neg (by simpa using hx), if_neg fun h => hx h.2.2, Option.or_none]
  · rw [if_neg ht, if_neg ht, if_neg fun h => ht ⟨h.1, h.2.1⟩]
    rfl

theorem nlaParseAttr_eq (h : Holds mem p r) (hr : nlaFormat.IsRecord r) {maxtype : Nat}
    {policy : Option (List NlaPolicy)} (hpolicy : ∀ pol, policy = some pol → maxtype < pol.length)
    (tb : Table) :
    (admits maxtype policy r = true ∧ nlaParseAttr mem maxtype policy p tb = some (.inl fun t =>
      (if 0 < t ∧ t ≤ maxtype ∧ attrType r = t then some p else none).or (tb t))) ∨
    (admits maxtype policy r = false ∧
      ∃ err, nlaParseAttr mem maxtype policy p tb = some (.inr (tb, err))) := by
  simp only [nlaParseAttr, nlaType_of_holds h hr, Option.bind_eq_bind, Option.bind_some]
  by_cases hknown : 0 < attrType r ∧ attrType r ≤ maxtype
  · have hupdate : Function.update tb (attrType r) (some p) = fun t =>
        (if 0 < t ∧ t ≤ maxtype ∧ attrType r = t then some p else none).or (tb t) := by
      funext t
      by_cases ht : t = attrType r
      · subst ht
        rw [Function.update_self, if_pos ⟨hknown.1, hknown.2, rfl⟩]
        rfl
      · rw [Function.update_of_ne ht, if_neg fun h => ht h.2.2.symm]
        rfl
    rw [if_pos hknown]
    cases policy with
    | none => exact .inl ⟨rfl, by rw [← hupdate]; rfl⟩
    | some pol =>
      obtain ⟨pt, hpt⟩ : ∃ pt, pol[attrType r]? = some pt :=
        ⟨_, List.getElem?_eq_getElem (Nat.lt_of_le_of_lt hknown.2 (hpolicy pol rfl))⟩
      obtain ⟨e, he, hiff⟩ := validateNla_eq h hr hknown.1 hknown.2 hpt
      have hadmits : admits maxtype (some pol) r = pt.accepts (attrPayload r) := by
        rw [admits, decide_eq_false (by omega), Bool.false_or, hpt, Option.any_some]
      rw [hadmits]
      simp only [he, Option.bind_some]
      cases e with
      | ok u => exact .inl ⟨hiff.1 rfl, by rw [← hupdate]; rfl⟩
      | error err => exact .inr ⟨by simpa using hiff, err, rfl⟩
  · have hadmits : admits maxtype policy r = true := by
      cases policy with
      | none => rfl
      | some pol => rw [admits, decide_eq_true (by omega), Bool.true_or]
    refine .inl ⟨hadmits, ?_⟩
    have hkeep : tb = fun t => (if 0 < t ∧ t ≤ maxtype ∧ attrType r = t then some p else none).or (tb t) := by
      funext t
      have ht : ¬(0 < t ∧ t ≤ maxtype ∧ attrType r = t) := by omega
      rw [if_neg ht]
      rfl
    rw [if_neg hknown, ← hkeep]
    rfl

theorem visit_nlaParseAttr {recs : List (Nat × List (BitVec 8))} {maxtype : Nat}
    {policy : Option (List NlaPolicy)} (hpolicy : ∀ pol, policy = some pol → maxtype < pol.length)
    (hrecs : ∀ x ∈ recs, Holds mem x.1 x.2 ∧ nlaFormat.IsRecord x.2) (tb : Table) :
    ∃ tb', (∀ t, tb' t = (tableOf maxtype (recs.takeWhile fun x => admits maxtype policy x.2) t).or (tb t)) ∧
      ((∀ x ∈ recs, admits maxtype policy x.2 = true) ∧
          visit (nlaParseAttr mem maxtype policy) (recs.map Prod.fst) tb = some (.inl tb') ∨
        (¬∀ x ∈ recs, admits maxtype policy x.2 = true) ∧
          ∃ err, visit (nlaParseAttr mem maxtype policy) (recs.map Prod.fst) tb =
            some (.inr (tb', err))) := by
  induction recs generalizing tb with
  | nil =>
    refine ⟨tb, fun t => ?_, .inl ⟨by simp, rfl⟩⟩
    simp [tableOf]
  | cons x recs ih =>
    have hx := hrecs x (by simp)
    rw [List.map_cons, visit, List.forall_mem_cons, List.takeWhile_cons]
    rcases nlaParseAttr_eq hx.1 hx.2 hpolicy tb with ⟨hadmits, hattr⟩ | ⟨hadmits, err, hattr⟩
    · obtain ⟨tb', htb', hrun⟩ := ih (fun y hy => hrecs y (by simp [hy])) fun t =>
        (if 0 < t ∧ t ≤ maxtype ∧ attrType x.2 = t then some x.1 else none).or (tb t)
      refine ⟨tb', fun t => ?_, ?_⟩
      · rw [htb', if_pos hadmits, tableOf_cons, Option.or_assoc]
      · simp only [hadmits, true_and, hattr, Option.bind_some]
        exact hrun
    · refine ⟨tb, fun t => ?_, .inr ⟨fun h => ?_, err, by rw [hattr, Option.bind_some]⟩⟩
      · rw [if_neg (by simp [hadmits])]
        simp [tableOf]
      · rw [hadmits] at h
        cases h.1

/-- **Parsing any bytes** that are all there: nothing else is read; the result is an error exactly if an
    attribute of a known type violates its policy; and the table has the last attribute of each type, of
    those in front of the first violation. -/
theorem nlaParse_eq {maxtype : Nat} {policy : Option (List NlaPolicy)}
    (hpolicy : ∀ pol, policy = some pol → maxtype < pol.length)
    (hin : 0 < len → head + len.toNat ≤ mem.length) :
    ∃ e, nlaParse mem maxtype head len policy = some (tableOf maxtype
        ((attrsAt mem head len).takeWhile fun x => admits maxtype policy x.2), e) ∧
      (e = .ok () ↔ ∀ x ∈ attrsAt mem head len, admits maxtype policy x.2 = true) := by
  have hrecs : ∀ x ∈ attrsAt mem head len, Holds mem x.1 x.2 ∧ nlaFormat.IsRecord x.2 := fun x hx =>
    ⟨(holds_of_mem_attrsAt hin hx).1, (holds_of_mem_attrsAt hin hx).2.1⟩
  obtain ⟨tb, htb, hrun⟩ := visit_nlaParseAttr hpolicy hrecs fun _ => none
  obtain rfl : tb = tableOf maxtype _ := funext fun t => by rw [htb, Option.or_none]
  rw [nlaParse, nlaForEach_eq hin]
  rcases hrun with ⟨hall, hvisit⟩ | ⟨hall, err, hvisit⟩
  · exact ⟨.ok (), by rw [hvisit]; rfl, by simpa using hall⟩
  · exact ⟨.error err, by rw [hvisit]; rfl, by simpa using hall⟩

theorem mem_of_tableOf {recs : List (Nat × List (BitVec 8))} {maxtype t : Nat}
    (h : tableOf maxtype recs t = some p) :
    0 < t ∧ t ≤ maxtype ∧ ∃ r, (p, r) ∈ recs ∧ attrType r = t := by
  rw [tableOf] at h
  split at h
  · next ht =>
    obtain ⟨x, hx, rfl⟩ := Option.map_eq_some_iff.1 h
    have hmem := List.mem_of_getLast? hx
    rw [List.mem_filter] at hmem
    exact ⟨ht.1, ht.2, x.2, hmem.1, by simpa using hmem.2⟩
  · cases h

theorem accepts_of_admits {maxtype : Nat} {policy : List NlaPolicy} {pt : NlaPolicy}
    (h : admits maxtype (some policy) r = true) (hpos : 0 < attrType r) (hle : attrType r ≤ maxtype)
    (hpt : policy[attrType r]? = some pt) : pt.accepts (attrPayload r) = true := by
  rwa [admits, decide_eq_false (by omega), Bool.false_or, hpt, Option.any_some] at h

/-- **What the table points to**, whatever bytes were parsed, and even after an error: attributes inside
    of the stream, of the type, that their policies accept. -/
theorem nlaParse_inside {maxtype : Nat} {policy : Option (List NlaPolicy)}
    (hpolicy : ∀ pol, policy = some pol → maxtype < pol.length)
    (hin : 0 < len → head + len.toNat ≤ mem.length) :
    ∃ tb e, nlaParse mem maxtype head len policy = some (tb, e) ∧
      (e = .ok () ↔ ∀ x ∈ attrsAt mem head len, admits maxtype policy x.2 = true) ∧
      ∀ t nla, tb t = some nla → 0 < t ∧ t ≤ maxtype ∧ ∃ r, Holds mem nla r ∧ nlaFormat.IsRecord r ∧
        head ≤ nla ∧ nla + r.length ≤ head + len.toNat ∧ attrType r = t ∧
        ∀ pol pt, policy = some pol → pol[t]? = some pt → pt.accepts (attrPayload r) = true := by
  obtain ⟨e, hparse, hok⟩ := nlaParse_eq hpolicy hin
  refine ⟨_, e, hparse, hok, fun t nla ht => ?_⟩
  obtain ⟨hpos, hle, r, hmem, rfl⟩ := mem_of_tableOf ht
  have hadmits := List.mem_takeWhile_imp hmem
  obtain ⟨hholds, hrec, hge, hend⟩ := holds_of_mem_attrsAt hin ((List.takeWhile_sublist _).subset hmem)
  refine ⟨hpos, hle, r, hholds, hrec, hge, hend, rfl, ?_⟩
  rintro pol pt rfl hpt
  exact accepts_of_admits hadmits hpos hle hpt

omit [Host] in
theorem nlaParse_inside_one : ∃ tb e, @nlaParse littleEndian [8, 0, 1, 64, 7, 0, 0, 0] 1 0 8
      (some [{}, { type := .u32 }]) = some (tb, e) ∧
    ∀ t nla, tb t = some nla → 0 < t ∧ t ≤ 1 ∧ ∃ r, Holds [8, 0, 1, 64, 7, 0, 0, 0] nla r ∧
      nla + r.length ≤ 8 ∧ @attrType littleEndian r = t := by
  obtain ⟨tb, e, hparse, -, hinside⟩ := @nlaParse_inside littleEndian [8, 0, 1, 64, 7, 0, 0, 0] 0 8 1
    (some [{}, { type := .u32 }]) (by simp) (by simp)
  refine ⟨tb, e, hparse, fun t nla ht => ?_⟩
  obtain ⟨hpos, hle, r, hholds, -, -, hend, htype, -⟩ := hinside t nla ht
  rw [Nat.zero_add] at hend
  exact ⟨hpos, hle, r, hholds, hend, htype⟩

end Holds

end Attributes

end DrbdUtils.Genl
