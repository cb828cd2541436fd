import DrbdUtils.Lib.Lines
import DrbdUtils.Lib.Strtoul
import DrbdUtils.Meta.Format

/-!
# The argument of `--diskful-peers`

`node_mask_from_arg()` of `drbdmeta.c` reads a mask in hexadecimal digits behind "0x", or a list of
node ids.  Both go through `strtoll()`, and the bit of a node is shifted in an `int`.

* `nodeMaskLoop_list` — what is made of a list of items.
* `nodeMask_exact_iff` — which arguments are read as they are written, or refused.
-/

set_option autoImplicit false

namespace DrbdUtils.Meta

open Numerals

/-! ## The program -/

/-- `1<<tmp`, an `int`, in a `uint64_t`. -/
def nodeBit (tmp : Nat) : BitVec 64 := (1#32 <<< tmp).signExtend 64

/-- The loop of `node_mask_from_arg`; `none` when the process exits. -/
def nodeMaskLoop (base : Nat) (result : BitVec 64) (arg : List Char) : Option (BitVec 64) :=
  let tmp := (strtoll base arg).1
  if base ≠ 16 ∧ ¬(0 ≤ tmp ∧ tmp < DRBD_NODE_ID_MAX) then none
  else
    let result := if base = 16 then BitVec.ofInt 64 tmp else result ||| nodeBit tmp.toNat
    match _hend : (strtoll base arg).2 with
    | [] => some result
    | c :: rest => if c ≠ ',' ∨ base ≠ 10 then none else nodeMaskLoop base result rest
  termination_by arg.length
  decreasing_by
    have hle := strtoll_length_le base arg
    rw [_hend, List.length_cons] at hle
    omega

/-- `node_mask_from_arg`. -/
def nodeMaskFromArg : Option (List Char) → Option (BitVec 64)
  | none => some 0#64
  | some ('0' :: 'x' :: arg) => nodeMaskLoop 16 0#64 arg
  | some arg => nodeMaskLoop 10 0#64 arg

/-! ## What an argument means -/

/-- The bits of a mask are those of a list. -/
def MaskOf (ids : List Nat) (mask : BitVec 64) : Prop := ∀ k < 64, mask.getLsbD k = decide (k ∈ ids)

/-- A list of node ids in decimal digits. -/
def NodeList (arg : List Char) : Prop :=
  ∀ item ∈ arg.splitOn ',', Plain 10 item ∧ ofDigits 10 item < DRBD_NODE_ID_MAX

/-- **An argument means a mask**: a list of node ids, with exactly their bits, or the number behind
    "0x" in hexadecimal digits. -/
def MeansMask : List Char → BitVec 64 → Prop
  | '0' :: 'x' :: digits, mask =>
    Plain 16 digits ∧ ofDigits 16 digits < 2 ^ 64 ∧ mask = BitVec.ofNat 64 (ofDigits 16 digits)
  | arg, mask => NodeList arg ∧ MaskOf ((arg.splitOn ',').map (ofDigits 10)) mask

/-- An argument is read as what it means, and refused when it means nothing. -/
def ReadsMask (arg : List Char) : Prop :=
  ∀ mask, nodeMaskFromArg (some arg) = some mask ↔ MeansMask arg mask

/-- An item that the loop takes: nothing, or a node id behind white space and a sign. -/
def TakenItem (item : List Char) : Prop :=
  item = [] ∨ ∃ z, integer 10 item = some (z, []) ∧ 0 ≤ z ∧ z < DRBD_NODE_ID_MAX

/-- **The arguments that are read as they are written**, or refused. -/
def PlainMask : List Char → Prop
  | '0' :: 'x' :: digits =>
    (digits = [] ∨ ∃ z, integer 16 digits = some (z, [])) →
      Plain 16 digits ∧ ofDigits 16 digits < 2 ^ 63
  | arg =>
    (∀ item ∈ arg.splitOn ',', TakenItem item) →
      ∀ item ∈ arg.splitOn ',', Plain 10 item ∧ ofDigits 10 item ≠ 31

/-! ## Bits -/

section Bits

variable {tmp k : Nat} {ids : List Nat} {result mask mask' : BitVec 64}

theorem one_shiftLeft_getLsbD (hk : k < 32) : (1#32 <<< tmp).getLsbD k = decide (k = tmp) := by
  rw [BitVec.getLsbD_shiftLeft, BitVec.getLsbD_one, decide_eq_true hk, Bool.true_and,
    Bool.eq_iff_iff]
  simp only [Bool.and_eq_true, Bool.not_eq_true', decide_eq_false_iff_not, decide_eq_true_eq]
  omega

/-- The sign of the `int` is extended: node 31 has all bits from its own on. -/
theorem nodeBit_getLsbD (hk : k < 64) :
    (nodeBit tmp).getLsbD k = decide (k < 32 ∧ k = tmp ∨ tmp = 31 ∧ 32 ≤ k) := by
  unfold nodeBit
  rw [BitVec.getLsbD_signExtend, BitVec.msb_eq_getLsbD_last, decide_eq_true hk, Bool.true_and]
  split
  · next h =>
    rw [one_shiftLeft_getLsbD h, decide_eq_decide]
    omega
  · rw [one_shiftLeft_getLsbD (by decide), decide_eq_decide]
    omega

/-- The bits of a list of nodes. -/
def orBits (result : BitVec 64) (ids : List Nat) : BitVec 64 :=
  ids.foldl (fun result tmp => result ||| nodeBit tmp) result

theorem orBits_getLsbD :
    (orBits result ids).getLsbD k = (result.getLsbD k || ids.any fun tmp => (nodeBit tmp).getLsbD k) := by
  unfold orBits
  induction ids generalizing result with
  | nil => simp
  | cons tmp ids ih => rw [List.foldl_cons, ih, BitVec.getLsbD_or, List.any_cons, Bool.or_assoc]

theorem MaskOf.unique (h : MaskOf ids mask) (h' : MaskOf ids mask') : mask = mask' :=
  BitVec.eq_of_getLsbD_eq fun k hk => (h k hk).trans (h' k hk).symm

/-- Without node 31, the bits are those of the list. -/
theorem maskOf_orBits_iff (hids : ∀ id ∈ ids, id < DRBD_NODE_ID_MAX) :
    MaskOf ids (orBits 0#64 ids) ↔ 31 ∉ ids := by
  have hbits : ∀ k < 64, (orBits 0#64 ids).getLsbD k = decide (k ∈ ids ∨ 31 ∈ ids ∧ 32 ≤ k) := by
    intro k hk
    rw [orBits_getLsbD, BitVec.getLsbD_zero, Bool.false_or, Bool.eq_iff_iff, List.any_eq_true,
      decide_eq_true_eq]
    simp only [nodeBit_getLsbD hk, decide_eq_true_eq]
    constructor
    · rintro ⟨id, hid, ⟨-, rfl⟩ | ⟨rfl, hle⟩⟩
      · exact Or.inl hid
      · exact Or.inr ⟨hid, hle⟩
    · rintro (hid | ⟨hid, hle⟩)
      · exact ⟨k, hid, Or.inl ⟨hids k hid, rfl⟩⟩
      · exact ⟨31, hid, Or.inr ⟨rfl, hle⟩⟩
  constructor
  · intro hmask hid
    have hbit := (hbits 32 (by decide)).symm.trans (hmask 32 (by decide))
    rw [decide_eq_decide] at hbit
    exact absurd (hids 32 (hbit.1 (Or.inr ⟨hid, le_refl _⟩))) (lt_irrefl _)
  · intro hid k hk
    rw [hbits k hk, decide_eq_decide]
    exact or_iff_left fun h => hid h.1

end Bits

/-! ## Lists -/

section Lists

variable {base : Nat} {result mask : BitVec 64} {arg item tail endptr : List Char} {tmp z : Int}

theorem nodeMaskLoop_eq (h : strtoll base arg = (tmp, endptr)) :
    nodeMaskLoop base result arg =
      if base ≠ 16 ∧ ¬(0 ≤ tmp ∧ tmp < DRBD_NODE_ID_MAX) then none
      else
        let result := if base = 16 then BitVec.ofInt 64 tmp else result ||| nodeBit tmp.toNat
        match endptr with
        | [] => some result
        | c :: rest => if c ≠ ',' ∨ base ≠ 10 then none else nodeMaskLoop base result rest := by
  rw [nodeMaskLoop, h]
  cases endptr <;> rfl

/-- The node of an item. -/
def itemId (item : List Char) : Nat := ((integer 10 item).map fun p => p.1.toNat).getD 0

theorem integer_item (htail : ∀ c ∈ tail.head?, c = ',') :
    integer 10 (item ++ tail) = (integer 10 item).map fun p => (p.1, p.2 ++ tail) := by
  rw [integer_ten, integer_ten]
  refine numeral_append fun c hc => ?_
  rw [htail c hc]
  decide

theorem TakenItem.strtoll (h : TakenItem item) (tail : List Char)
    (htail : ∀ c ∈ tail.head?, c = ',') :
    strtoll 10 (item ++ tail) = ((itemId item : Int), tail) ∧ itemId item < DRBD_NODE_ID_MAX := by
  have htext := @integer_item item tail htail
  unfold itemId
  rcases h with rfl | ⟨z, hz, hpos, hlt⟩
  · have hnone : integer 10 [] = none := rfl
    rw [hnone] at htext
    exact ⟨strtoll_ten_none htext, by decide⟩
  · rw [hz] at htext ⊢
    rw [strtoll_of_integer htext]
    unfold LLONG_MIN LLONG_MAX
    unfold DRBD_NODE_ID_MAX at *
    simp only [Option.map_some, Option.getD_some, List.nil_append, Prod.mk.injEq, and_true]
    omega

theorem nodeMaskLoop_taken (h : TakenItem item) :
    nodeMaskLoop 10 result item = some (result ||| nodeBit (itemId item)) := by
  obtain ⟨hend, hlt⟩ := h.strtoll [] (by simp)
  rw [List.append_nil] at hend
  rw [nodeMaskLoop_eq hend, if_neg (by omega)]
  rfl

theorem nodeMaskLoop_taken_comma (h : TakenItem item) (rest : List Char) :
    nodeMaskLoop 10 result (item ++ ',' :: rest) =
      nodeMaskLoop 10 (result ||| nodeBit (itemId item)) rest := by
  obtain ⟨hend, hlt⟩ := h.strtoll (',' :: rest) (by simp)
  rw [nodeMaskLoop_eq hend, if_neg (by omega)]
  rfl

/-- An item that is not taken ends the process. -/
theorem nodeMaskLoop_refused (hcomma : ',' ∉ item) (h : ¬TakenItem item)
    (htail : ∀ c ∈ tail.head?, c = ',') : nodeMaskLoop 10 result (item ++ tail) = none := by
  have htext := @integer_item item tail htail
  have hend : ∀ c l tmp, c ≠ ',' → strtoll 10 (item ++ tail) = (tmp, c :: l) →
      nodeMaskLoop 10 result (item ++ tail) = none := by
    intro c l tmp hc heq
    rw [nodeMaskLoop_eq heq]
    split
    · rfl
    · exact if_pos (Or.inl hc)
  cases hz : integer 10 item with
  | none =>
    rw [hz] at htext
    obtain ⟨c, l, rfl⟩ := List.exists_cons_of_ne_nil fun hnil => h (Or.inl hnil)
    exact hend c (l ++ tail) 0 (by rintro rfl; exact hcomma List.mem_cons_self) (strtoll_ten_none htext)
  | some p =>
    obtain ⟨z, rest⟩ := p
    rw [hz, Option.map_some] at htext
    have hstrtoll := strtoll_of_integer htext
    cases rest with
    | nil =>
      rw [nodeMaskLoop_eq hstrtoll]
      refine if_pos ⟨by decide, fun hrange => h (Or.inr ⟨z, hz, ?_⟩)⟩
      unfold LLONG_MIN LLONG_MAX DRBD_NODE_ID_MAX at *
      omega
    | cons c rest =>
      refine hend c (rest ++ tail) _ ?_ hstrtoll
      rintro rfl
      exact hcomma ((integer_suffix hz).subset List.mem_cons_self)

/-- **A list is read item by item.** -/
theorem nodeMaskLoop_list (h : ∀ item ∈ arg.splitOn ',', TakenItem item) :
    nodeMaskLoop 10 result arg = some (orBits result ((arg.splitOn ',').map itemId)) := by
  induction arg using Lines.splitOn_induction ',' generalizing result with
  | last item hcomma =>
    rw [List.splitOn_eq_singleton hcomma] at h ⊢
    exact nodeMaskLoop_taken (h item List.mem_cons_self)
  | more item rest hcomma ih =>
    rw [List.splitOn_append_cons_self_of_not_mem hcomma] at h ⊢
    rw [nodeMaskLoop_taken_comma (h item List.mem_cons_self),
      ih fun item hitem => h item (List.mem_cons_of_mem _ hitem)]
    rfl

theorem nodeMaskLoop_list_refused (h : ¬∀ item ∈ arg.splitOn ',', TakenItem item) :
    nodeMaskLoop 10 result arg = none := by
  induction arg using Lines.splitOn_induction ',' generalizing result with
  | last item hcomma =>
    rw [List.splitOn_eq_singleton hcomma] at h
    have hnone := @nodeMaskLoop_refused result item [] hcomma (by simpa using h) (by simp)
    rwa [List.append_nil] at hnone
  | more item rest hcomma ih =>
    rw [List.splitOn_append_cons_self_of_not_mem hcomma, List.forall_mem_cons, not_and] at h
    by_cases hitem : TakenItem item
    · rw [nodeMaskLoop_taken_comma hitem]
      exact ih (h hitem)
    · exact nodeMaskLoop_refused hcomma hitem (by simp)

/-- A decimal number is an item. -/
theorem takenItem_of_plain (h : Plain 10 item) (hlt : ofDigits 10 item < DRBD_NODE_ID_MAX) :
    TakenItem item := Or.inr ⟨_, integer_plain h (by decide), by omega, by omega⟩

theorem itemId_plain (h : Plain 10 item) : itemId item = ofDigits 10 item := by
  rw [itemId, integer_plain h (by decide)]
  rfl

theorem TakenItem.lt (h : TakenItem item) : itemId item < DRBD_NODE_ID_MAX :=
  (h.strtoll [] (by simp)).2

/-- **Which lists are read as they are written.** -/
theorem list_exact_iff :
    (∀ mask, nodeMaskLoop 10 0#64 arg = some mask ↔
        NodeList arg ∧ MaskOf ((arg.splitOn ',').map (ofDigits 10)) mask) ↔
      ((∀ item ∈ arg.splitOn ',', TakenItem item) →
        ∀ item ∈ arg.splitOn ',', Plain 10 item ∧ ofDigits 10 item ≠ 31) := by
  have hplain (hlist : NodeList arg) :
      (arg.splitOn ',').map itemId = (arg.splitOn ',').map (ofDigits 10) :=
    List.map_congr_left fun item hitem => itemId_plain (hlist item hitem).1
  by_cases htaken : ∀ item ∈ arg.splitOn ',', TakenItem item
  · have hids : ∀ id ∈ (arg.splitOn ',').map itemId, id < DRBD_NODE_ID_MAX := by
      rintro id hid
      obtain ⟨item, hitem, rfl⟩ := List.mem_map.1 hid
      exact (htaken item hitem).lt
    rw [nodeMaskLoop_list htaken]
    constructor
    · intro hreads _ item hitem
      obtain ⟨hlist, hmask⟩ := (hreads _).1 rfl
      refine ⟨(hlist item hitem).1, fun h31 => ?_⟩
      rw [← hplain hlist, maskOf_orBits_iff hids, hplain hlist, ← h31] at hmask
      exact hmask (List.mem_map_of_mem hitem)
    · intro hcond mask
      have hitems := hcond htaken
      have hlist : NodeList arg := fun item hitem => by
        have hlt := (htaken item hitem).lt
        rw [itemId_plain (hitems item hitem).1] at hlt
        exact ⟨(hitems item hitem).1, hlt⟩
      have hmask : MaskOf ((arg.splitOn ',').map (ofDigits 10))
          (orBits 0#64 ((arg.splitOn ',').map itemId)) := by
        rw [← hplain hlist, maskOf_orBits_iff hids, hplain hlist, List.mem_map]
        rintro ⟨item, hitem, h31⟩
        exact (hitems item hitem).2 h31
      rw [Option.some.injEq]
      constructor
      · rintro rfl
        exact ⟨hlist, hmask⟩
      · rintro ⟨-, hmask'⟩
        exact hmask.unique hmask'
  · refine iff_of_true (fun mask => ?_) fun h => absurd h htaken
    rw [nodeMaskLoop_list_refused htaken]
    refine iff_of_false (by simp) fun h => htaken fun item hitem => ?_
    exact takenItem_of_plain (h.1 item hitem).1 (h.1 item hitem).2

end Lists

/-! ## Masks -/

section Masks

variable {result mask : BitVec 64} {arg digits : List Char}

theorem nodeMaskLoop_hex (h : digits = [] ∨ ∃ z, integer 16 digits = some (z, [])) :
    nodeMaskLoop 16 result digits = some (BitVec.ofInt 64 (strtoll 16 digits).1) := by
  have hend : (strtoll 16 digits).2 = [] := by
    rcases h with rfl | ⟨z, hz⟩
    · rfl
    · rw [strtoll_of_integer hz]
  rw [nodeMaskLoop_eq (Prod.ext rfl hend : strtoll 16 digits = ((strtoll 16 digits).1, []))]
  rfl

theorem nodeMaskLoop_hex_refused (h : ¬(digits = [] ∨ ∃ z, integer 16 digits = some (z, []))) :
    nodeMaskLoop 16 result digits = none := by
  cases hend : (strtoll 16 digits).2 with
  | nil =>
    refine absurd ?_ h
    cases hz : integer 16 digits with
    | none => exact Or.inl (strtoll_none_rest hz hend)
    | some p =>
      rw [strtoll_of_integer hz] at hend
      exact Or.inr ⟨p.1, congrArg some (Prod.ext rfl hend)⟩
  | cons c rest =>
    rw [nodeMaskLoop_eq (Prod.ext rfl hend : strtoll 16 digits = ((strtoll 16 digits).1, c :: rest)),
      if_neg (by simp)]
    exact if_pos (Or.inr (by decide))

/-- **Which numbers are read as they are written.** -/
theorem hex_exact_iff :
    (∀ mask, nodeMaskLoop 16 0#64 digits = some mask ↔
        Plain 16 digits ∧ ofDigits 16 digits < 2 ^ 64 ∧ mask = BitVec.ofNat 64 (ofDigits 16 digits)) ↔
      ((digits = [] ∨ ∃ z, integer 16 digits = some (z, [])) →
        Plain 16 digits ∧ ofDigits 16 digits < 2 ^ 63) := by
  by_cases htaken : digits = [] ∨ ∃ z, integer 16 digits = some (z, [])
  · have hvalue (h : Plain 16 digits) :
        (strtoll 16 digits).1 = min LLONG_MAX (ofDigits 16 digits : Int) := by
      rw [strtoll_of_integer (integer_plain h (by decide))]
      unfold LLONG_MIN LLONG_MAX
      dsimp only
      omega
    rw [nodeMaskLoop_hex htaken]
    constructor
    · intro hreads _
      obtain ⟨hplain, hlt, hmask⟩ := (hreads _).1 rfl
      refine ⟨hplain, ?_⟩
      rw [hvalue hplain] at hmask
      have hnat := congrArg BitVec.toNat hmask
      rw [BitVec.toNat_ofInt, BitVec.toNat_ofNat] at hnat
      unfold LLONG_MAX at hnat
      omega
    · intro hcond mask
      obtain ⟨hplain, hlt⟩ := hcond htaken
      have hmin : min LLONG_MAX (ofDigits 16 digits : Int) = ofDigits 16 digits := by
        unfold LLONG_MAX
        omega
      rw [hvalue hplain, hmin, BitVec.ofInt_natCast, Option.some.injEq]
      constructor
      · rintro rfl
        exact ⟨hplain, by omega, rfl⟩
      · rintro ⟨-, -, rfl⟩
        rfl
  · refine iff_of_true (fun mask => ?_) fun h => absurd h htaken
    rw [nodeMaskLoop_hex_refused htaken]
    exact iff_of_false (by simp) fun h => htaken (Or.inr ⟨_, integer_plain h.1 (by decide)⟩)

end Masks

/-! ## All arguments -/

/-- **An argument is read as what it means, or refused**, exactly if it is plain: a list that is
    taken has no empty item, white space or sign and no node 31, and a mask that is taken has digits
    only and is below `2 ^ 63`. -/
theorem nodeMask_exact_iff (arg : List Char) : ReadsMask arg ↔ PlainMask arg := by
  by_cases hhex : ∃ digits, arg = '0' :: 'x' :: digits
  · obtain ⟨digits, rfl⟩ := hhex
    exact hex_exact_iff
  · have hread : nodeMaskFromArg (some arg) = nodeMaskLoop 10 0#64 arg := by
      unfold nodeMaskFromArg
      split
      · next h => cases h
      · next digits h => exact absurd ⟨digits, Option.some.inj h⟩ hhex
      · next h => rw [Option.some.inj h]
    have hmeans (mask : BitVec 64) : MeansMask arg mask ↔
        NodeList arg ∧ MaskOf ((arg.splitOn ',').map (ofDigits 10)) mask := by
      unfold MeansMask
      split
      · next digits => exact absurd ⟨digits, rfl⟩ hhex
      · exact Iff.rfl
    unfold ReadsMask PlainMask
    simp only [hread, hmeans]
    split
    · next digits => exact absurd ⟨digits, rfl⟩ hhex
    · exact list_exact_iff

/-- Node 31 sets the bits of nodes that do not exist, the largest mask loses a bit, and the empty
    text is node 0. -/
theorem nodeMask_misread :
    (nodeMaskFromArg (some ['3', '1']) = some 0xffffffff80000000#64 ∧ ¬ReadsMask ['3', '1']) ∧
      (nodeMaskFromArg (some "0xffffffffffffffff".toList) = some 0x7fffffffffffffff#64 ∧
        ¬ReadsMask "0xffffffffffffffff".toList) ∧
      nodeMaskFromArg (some []) = some 1#64 ∧ ¬ReadsMask [] := by
  have hlast : nodeMaskFromArg (some ['3', '1']) = some 0xffffffff80000000#64 :=
    nodeMaskLoop_eq (by decide : strtoll 10 ['3', '1'] = (31, []))
  have hmax : nodeMaskFromArg (some "0xffffffffffffffff".toList) = some 0x7fffffffffffffff#64 :=
    nodeMaskLoop_eq (by decide +kernel : strtoll 16 "ffffffffffffffff".toList = (LLONG_MAX, []))
  have hempty : nodeMaskFromArg (some []) = some 1#64 :=
    nodeMaskLoop_eq (by decide : strtoll 10 [] = (0, []))
  refine ⟨⟨hlast, fun h => ?_⟩, ⟨hmax, fun h => ?_⟩, hempty, fun h => ?_⟩
  · obtain ⟨-, hmask⟩ : NodeList ['3', '1'] ∧ MaskOf [31] 0xffffffff80000000#64 := (h _).1 hlast
    exact absurd (hmask 32 (by decide)) (by decide)
  · obtain ⟨-, -, hmask⟩ := (h _).1 hmax
    exact absurd hmask (by decide +kernel)
  · obtain ⟨hlist, -⟩ : NodeList [] ∧ MaskOf [0] 1#64 := (h _).1 hempty
    exact (hlist [] List.mem_cons_self).1.ne_nil rfl

end DrbdUtils.Meta
