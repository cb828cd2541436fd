import Mathlib.Algebra.Group.Int.Defs
import DrbdUtils.Events2.ApplyEvent
import DrbdUtils.Lib.ReorderBuffer

/-!
# The order in which events2 applies messages

`print_event()` of `drbdsetup_events2.c`: messages are kept in a list and applied by their numbers
`nlmsg_seq`, as soon as the initial state is complete.  The list is kept as in the source, with a pointer
to the pointer at its end.  The tests of `ret_code`, which `generic_recv` makes before, and the second
parsing of a message that was parsed already are left out.

* `drain_eq` — the loop at the end of `print_event` takes from the list what is due.
* `runCalls_inOrder` — every stored message is applied at most once, by number, and kept as long as one
  of its predecessors has not arrived.
* `runCalls_eq_sorted` — where the message with the lowest number comes first, the order in which the
  others arrive does not matter.
-/

set_option autoImplicit false

namespace DrbdUtils.Events2

open Lib.ReorderBuffer

/-! ## State -/

abbrev EntryPtr := Nat

/-- `struct nlmsg_entry`, with the number of its message. -/
structure NlmsgEntry where
  next : Option EntryPtr := none
  seq : BitVec 32
  nlh : Notification

/-- The variables of `print_event`, the two flags, and the entries that exist.  `tailNext` is `none` where
    `tail_next` points to `stored_messages`, and else the entry whose `next` it points to. -/
structure EventQueue where
  initialState : Bool := true
  receiveUpdate : Bool := false
  nextSeq : BitVec 32 := 0
  nextSeqKnown : Bool := false
  storedMessages : Option EntryPtr := none
  tailNext : Option EntryPtr := none
  entries : EntryPtr → Option NlmsgEntry := fun _ => none
  nextPtr : EntryPtr := 0

/-- What is done, in this order. -/
inductive Applied where
  | immediate (n : Notification)
  | stored (seq : BitVec 32) (n : Notification)
  | initialStateDone
  | prepareUpdate
  | reset

/-- The same for the store. -/
def Applied.input : Applied → Input
  | .immediate n | .stored _ n => .notification n
  | .initialStateDone => .initialStateDone
  | .prepareUpdate => .prepareUpdate
  | .reset => .reset

/-- `seq_a_less_or_equal_b`; no result where the subtraction overflows. -/
def seqALessOrEqualB (a b : BitVec 32) : Option Bool :=
  let d := a.toInt - b.toInt
  if -2 ^ 31 ≤ d ∧ d < 2 ^ 31 then some (d ≤ 0) else none

namespace EventQueue

/-- Assign a pointer that is given by its place. -/
def setLink (s : EventQueue) (place target : Option EntryPtr) : Option EventQueue :=
  match place with
  | none => some { s with storedMessages := target }
  | some p => (s.entries p).map fun e =>
    { s with entries := Function.update s.entries p (some { e with next := target }) }

/-- The number of the first message is the first one to apply. -/
def noteSeq (s : EventQueue) (seq : BitVec 32) : EventQueue :=
  { s with nextSeq := if s.nextSeqKnown then s.nextSeq else seq, nextSeqKnown := true }

/-- `nlmsg_copy`, and the copy at the end of the list. -/
def store (s : EventQueue) (seq : BitVec 32) (n : Notification) : Option EventQueue := do
  let entry := s.nextPtr
  let s := { s with
    entries := Function.update s.entries entry (some { seq := seq, nlh := n })
    nextPtr := s.nextPtr + 1 }
  let s := s.noteSeq seq
  let s ← s.setLink s.tailNext (some entry)
  return { s with tailNext := some entry }

/-- An entry that is due is taken out of the list; `apply_stored_event` frees it. -/
def removeEntry (s : EventQueue) (iterPrevNext : Option EntryPtr) (p : EntryPtr) :
    Option EventQueue := do
  let e ← s.entries p
  let s := { s with
    tailNext := if s.tailNext = some p then iterPrevNext else s.tailNext
    nextSeq := if e.seq = s.nextSeq then s.nextSeq + 1 else s.nextSeq }
  let s ← s.setLink iterPrevNext e.next
  return { s with entries := Function.update s.entries p none }

/-- The loop of `print_event` up to `goto restart`, or to its end. -/
def takeDue : Nat → EventQueue → Option EntryPtr → Option EntryPtr →
    Option (Option (EventQueue × Applied))
  | _, _, _, none => some none
  | 0, _, _, some _ => none
  | turns + 1, s, iterPrevNext, some p => do
    let e ← s.entries p
    if ← seqALessOrEqualB e.seq s.nextSeq then
      let s ← s.removeEntry iterPrevNext p
      return some (s, .stored e.seq e.nlh)
    else
      takeDue turns s (some p) e.next

/-- The end of `print_event`, from `restart` on. -/
def drain : Nat → EventQueue → Option (EventQueue × List Applied)
  | 0, _ => none
  | turns + 1, s => do
    match ← takeDue turns s none s.storedMessages with
    | none => return (s, [])
    | some (s, a) =>
      let (s, l) ← drain turns s
      return (s, a :: l)

/-! ## Calls -/

/-- Calls of `print_event`, of `events2_prepare_update` and of `events2_reset`. -/
inductive Call where
  | initialStateDone
  | message (seq : BitVec 32) (n : Notification)
  | prepareUpdate
  | reset

def printEvent (turns : Nat) (s : EventQueue) : Call → Option (EventQueue × List Applied)
  | .initialStateDone => do
    let (s, l) ← drain turns { s with initialState := false, receiveUpdate := false }
    return (s, .initialStateDone :: l)
  | .message seq n =>
    match n.header with
    | none => some (s, [])
    | some (.exists, _) => some (s, [.immediate n])
    | some _ => do
      let s ← s.store seq n
      if s.initialState || s.receiveUpdate then return (s, []) else drain turns s
  | .prepareUpdate => some ({ s with receiveUpdate := true }, [.prepareUpdate])
  | .reset => some ({ s with initialState := true }, [.reset])

/-- Calls one after the other. -/
def runCalls (turns : Nat) : EventQueue → List Call → Option (EventQueue × List Applied)
  | s, [] => some (s, [])
  | s, c :: calls => do
    let (s, l) ← s.printEvent turns c
    let (s, l') ← runCalls turns s calls
    return (s, l ++ l')

/-! ## The list -/

/-- A message with its number. -/
abbrev Item := BitVec 32 × Notification

def Item.seqInt (x : Item) : Int := x.1.toInt

/-- Where a part of the list begins that ends in front of `fin`. -/
def firstOf (l : List (EntryPtr × Item)) (fin : Option EntryPtr) : Option EntryPtr :=
  (l.head?.map Prod.fst).or fin

/-- The entries of a part of the list; the last one points to `fin`. -/
def Links (entries : EntryPtr → Option NlmsgEntry) :
    List (EntryPtr × Item) → Option EntryPtr → Prop
  | [], _ => True
  | x :: l, fin => entries x.1 = some ⟨firstOf l fin, x.2.1, x.2.2⟩ ∧ Links entries l fin

/-- The entries spell the list `l`, `tail_next` points to its end, and no other entry exists. -/
structure Spells (s : EventQueue) (l : List (EntryPtr × Item)) : Prop where
  first_eq : s.storedMessages = firstOf l none
  links : Links s.entries l none
  tail_eq : s.tailNext = l.getLast?.map Prod.fst
  nodup : (l.map Prod.fst).Nodup
  fresh : ∀ x ∈ l, x.1 < s.nextPtr
  alive : ∀ p, s.entries p ≠ none → p ∈ l.map Prod.fst

theorem spells_nil : Spells {} [] where
  first_eq := rfl
  links := trivial
  tail_eq := rfl
  nodup := List.nodup_nil
  fresh x h := by simp at h
  alive p h := absurd rfl h

section Links

variable {entries entries' : EntryPtr → Option NlmsgEntry} {l l₁ l₂ : List (EntryPtr × Item)}
  {fin : Option EntryPtr} {s : EventQueue}

theorem firstOf_append : firstOf (l₁ ++ l₂) fin = firstOf l₁ (firstOf l₂ fin) := by
  cases l₁ <;> simp [firstOf]

theorem links_append :
    Links entries (l₁ ++ l₂) fin ↔ Links entries l₁ (firstOf l₂ fin) ∧ Links entries l₂ fin := by
  induction l₁ with
  | nil => simp [Links]
  | cons x l₁ ih =>
    rw [List.cons_append, Links, Links, ih, firstOf_append, and_assoc]

theorem Links.congr (h : Links entries l fin) (heq : ∀ p ∈ l.map Prod.fst, entries' p = entries p) :
    Links entries' l fin := by
  induction l with
  | nil => trivial
  | cons x l ih =>
    refine ⟨?_, ih h.2 fun p hp => heq p (by simp [hp])⟩
    rw [heq x.1 (by simp), h.1]

/-- The pointer behind `l₁` is assigned. -/
theorem setLink_links {old : Option EntryPtr} (hfirst : s.storedMessages = firstOf l₁ old)
    (hlinks : Links s.entries l₁ old) (hnd : (l₁.map Prod.fst).Nodup) (target : Option EntryPtr) :
    ∃ first e, s.setLink (l₁.getLast?.map Prod.fst) target =
        some { s with storedMessages := first, entries := e } ∧
      first = firstOf l₁ target ∧ Links e l₁ target ∧
      ∀ q, q ∉ l₁.map Prod.fst → e q = s.entries q := by
  rcases List.eq_nil_or_concat l₁ with rfl | ⟨l, x, rfl⟩
  · exact ⟨target, s.entries, rfl, rfl, trivial, fun q _ => rfl⟩
  · rw [List.concat_eq_append] at *
    rw [links_append] at hlinks
    rw [List.map_append, List.nodup_append] at hnd
    have hne : ∀ q ∈ l.map Prod.fst, q ≠ x.1 := fun q hq => hnd.2.2 q hq x.1 (by simp)
    refine ⟨s.storedMessages,
      Function.update s.entries x.1 (some ⟨target, x.2.1, x.2.2⟩), ?_, ?_, ?_, ?_⟩
    · rw [List.getLast?_concat, Option.map_some, setLink, hlinks.2.1]
      rfl
    · rw [hfirst, firstOf_append, firstOf_append]
      rfl
    · rw [links_append]
      refine ⟨hlinks.1.congr fun q hq => Function.update_of_ne (hne q hq) _ _, ?_, trivial⟩
      exact Function.update_self ..
    · intro q hq
      refine Function.update_of_ne ?_ _ _
      rintro rfl
      exact hq (by simp)

end Links

/-- **A copy at the end of the list.** -/
theorem store_spells {s : EventQueue} {l : List (EntryPtr × Item)} (h : Spells s l) (seq : BitVec 32)
    (n : Notification) :
    ∃ s', s.store seq n = some s' ∧ Spells s' (l ++ [(s.nextPtr, (seq, n))]) ∧
      s'.initialState = s.initialState ∧ s'.receiveUpdate = s.receiveUpdate ∧
      s'.nextSeqKnown = true ∧ s'.nextSeq = if s.nextSeqKnown then s.nextSeq else seq := by
  have hfresh : s.nextPtr ∉ l.map Prod.fst := by
    intro hmem
    obtain ⟨x, hx, heq⟩ := List.mem_map.1 hmem
    exact Nat.lt_irrefl _ (heq ▸ h.fresh x hx)
  have hother : ∀ q, q ∈ l.map Prod.fst →
      Function.update s.entries s.nextPtr (some { seq := seq, nlh := n }) q = s.entries q := by
    intro q hq
    refine Function.update_of_ne ?_ _ _
    rintro rfl
    exact hfresh hq
  obtain ⟨first, e, hset, hfirst, hlinks, hkeep⟩ := setLink_links (s := noteSeq { s with
      entries := Function.update s.entries s.nextPtr (some { seq := seq, nlh := n })
      nextPtr := s.nextPtr + 1 } seq) h.first_eq (h.links.congr hother) h.nodup (some s.nextPtr)
  have hnew : e s.nextPtr = some ⟨none, seq, n⟩ := by
    rw [hkeep _ hfresh]
    exact Function.update_self ..
  refine ⟨{ s with
    nextSeq := if s.nextSeqKnown then s.nextSeq else seq
    nextSeqKnown := true
    storedMessages := first
    tailNext := some s.nextPtr
    entries := e
    nextPtr := s.nextPtr + 1 }, ?_, ⟨?_, ?_, ?_, ?_, ?_, ?_⟩, rfl, rfl, rfl, rfl⟩
  · simp only [noteSeq, h.tail_eq] at hset
    simp only [store, noteSeq, h.tail_eq, hset, Option.bind_eq_bind, Option.bind_some, Option.pure_def]
  · rw [firstOf_append]
    exact hfirst
  · exact links_append.2 ⟨hlinks, hnew, trivial⟩
  · simp
  · rw [List.map_append, List.nodup_append]
    refine ⟨h.nodup, by simp, ?_⟩
    rintro q hq q' hq' rfl
    rw [List.map_singleton, List.mem_singleton] at hq'
    rw [hq'] at hq
    exact hfresh hq
  · intro x hx
    rcases List.mem_append.1 hx with hx | hx
    · exact Nat.lt_succ_of_lt (h.fresh x hx)
    · rw [List.mem_singleton.1 hx]
      exact Nat.lt_succ_self _
  · intro q hq
    rw [List.map_append, List.mem_append]
    by_cases hmem : q ∈ l.map Prod.fst
    · exact .inl hmem
    · refine .inr ?_
      by_contra hne
      have hq' : e q ≠ none := hq
      have hne' : q ≠ s.nextPtr := by simpa using hne
      rw [hkeep q hmem] at hq'
      change Function.update s.entries s.nextPtr _ q ≠ none at hq'
      rw [Function.update_of_ne hne'] at hq'
      exact hmem (h.alive q hq')

/-- **An entry is taken out of the list**, wherever it is. -/
theorem removeEntry_spells {s : EventQueue} {l₁ l₂ : List (EntryPtr × Item)} {x : EntryPtr × Item}
    (h : Spells s (l₁ ++ x :: l₂)) :
    ∃ s', s.removeEntry (l₁.getLast?.map Prod.fst) x.1 = some s' ∧ Spells s' (l₁ ++ l₂) ∧
      s'.initialState = s.initialState ∧ s'.receiveUpdate = s.receiveUpdate ∧
      s'.nextSeqKnown = s.nextSeqKnown ∧
      s'.nextSeq = if x.2.1 = s.nextSeq then s.nextSeq + 1 else s.nextSeq := by
  have hnd := h.nodup
  rw [List.map_append, List.map_cons, List.nodup_middle, List.nodup_cons, List.mem_append, not_or,
    ← List.map_append] at hnd
  obtain ⟨⟨hx₁, hx₂⟩, hnd⟩ := hnd
  have hl₁nd : (l₁.map Prod.fst).Nodup := (List.nodup_append.1 (List.map_append ▸ hnd)).1
  have hdisj : ∀ q ∈ l₂.map Prod.fst, q ∉ l₁.map Prod.fst := by
    rw [List.map_append, List.nodup_append] at hnd
    exact fun q hq hq' => hnd.2.2 q hq' q hq rfl
  obtain ⟨hlinks₁, hentry, hlinks₂⟩ := links_append.1 h.links
  have hfirst : s.storedMessages = firstOf l₁ (firstOf (x :: l₂) none) := by
    rw [h.first_eq, firstOf_append]
  obtain ⟨first, e, hset, hfirst', hlinks, hkeep⟩ := setLink_links (s := { s with
      tailNext := if s.tailNext = some x.1 then l₁.getLast?.map Prod.fst else s.tailNext
      nextSeq := if x.2.1 = s.nextSeq then s.nextSeq + 1 else s.nextSeq })
    hfirst hlinks₁ hl₁nd (firstOf l₂ none)
  have hfree : ∀ q, q ≠ x.1 → Function.update e x.1 none q = e q := fun q hq =>
    Function.update_of_ne hq _ _
  have hne : ∀ {l : List (EntryPtr × Item)} {q : EntryPtr}, x.1 ∉ l.map Prod.fst →
      q ∈ l.map Prod.fst → q ≠ x.1 := by
    rintro l q hx hq rfl
    exact hx hq
  refine ⟨{ s with
    tailNext := if s.tailNext = some x.1 then l₁.getLast?.map Prod.fst else s.tailNext
    nextSeq := if x.2.1 = s.nextSeq then s.nextSeq + 1 else s.nextSeq
    storedMessages := first
    entries := Function.update e x.1 none }, ?_, ⟨?_, ?_, ?_, hnd, ?_, ?_⟩, rfl, rfl, rfl, rfl⟩
  · simp only [removeEntry, hentry, Option.bind_eq_bind, Option.bind_some, hset, Option.pure_def]
  · rw [firstOf_append]
    exact hfirst'
  · refine links_append.2 ⟨hlinks.congr fun q hq => hfree q (hne hx₁ hq), hlinks₂.congr fun q hq => ?_⟩
    exact (hfree q (hne hx₂ hq)).trans (hkeep q (hdisj q hq))
  · change (if s.tailNext = some x.1 then _ else _) = _
    rw [h.tail_eq]
    cases l₂ with
    | nil => simp
    | cons y l₂ =>
      have hlast : (l₁ ++ x :: y :: l₂).getLast? = (l₁ ++ y :: l₂).getLast? := by simp
      rw [hlast, if_neg]
      intro heq
      obtain ⟨z, hz, hzx⟩ := Option.map_eq_some_iff.1 heq
      have hmem := List.mem_map_of_mem (f := Prod.fst) (List.mem_of_getLast? hz)
      rw [hzx, List.map_append, List.mem_append] at hmem
      exact hmem.elim hx₁ hx₂
  · intro y hy
    refine h.fresh y ?_
    rw [List.mem_append] at hy
    rw [List.mem_append, List.mem_cons]
    tauto
  · intro q hq
    change Function.update e x.1 none q ≠ none at hq
    by_cases hqx : q = x.1
    · subst hqx
      simp at hq
    · rw [hfree q hqx] at hq
      by_cases hmem : q ∈ l₁.map Prod.fst
      · rw [List.map_append]
        exact List.mem_append_left _ hmem
      · rw [hkeep q hmem] at hq
        have hin := h.alive q hq
        rw [List.map_append, List.map_cons, List.mem_append, List.mem_cons] at hin
        rw [List.map_append, List.mem_append]
        tauto

/-! ## The loop -/

@[simp] theorem firstOf_none (l : List (EntryPtr × Item)) : firstOf l none = l.head?.map Prod.fst := by
  simp [firstOf]

theorem seqALessOrEqualB_eq {a b : BitVec 32} (h : -2 ^ 31 ≤ a.toInt - b.toInt)
    (h' : a.toInt - b.toInt < 2 ^ 31) :
    seqALessOrEqualB a b = some (decide (a.toInt ≤ b.toInt)) := by
  have hle : a.toInt - b.toInt ≤ 0 ↔ a.toInt ≤ b.toInt := by omega
  rw [seqALessOrEqualB]
  simp only [if_pos (And.intro h h'), hle]

theorem toInt_succ {a : BitVec 32} (h : a.toInt < 2 ^ 31 - 1) : (a + 1).toInt = a.toInt + 1 := by
  have hlow := BitVec.le_toInt a
  rw [BitVec.toInt_add]
  exact Int.bmod_eq_of_le (by simp; omega) (by simp; omega)

/-- The loop goes on to the first entry that is due. -/
theorem takeDue_eq {s : EventQueue} (l₁ : List (EntryPtr × Item)) {l₂ : List (EntryPtr × Item)} {turns : Nat}
    (h : Spells s (l₁ ++ l₂))
    (hwindow : ∀ x ∈ l₂, -2 ^ 31 ≤ x.2.seqInt - s.nextSeq.toInt ∧
      x.2.seqInt - s.nextSeq.toInt < 2 ^ 31)
    (hturns : l₂.length ≤ turns) :
    (s.takeDue turns (l₁.getLast?.map Prod.fst) (l₂.head?.map Prod.fst) = some none ∧
        ∀ x ∈ l₂, s.nextSeq.toInt < x.2.seqInt) ∨
      ∃ a x b s', l₂ = a ++ x :: b ∧ (∀ y ∈ a, s.nextSeq.toInt < y.2.seqInt) ∧
        x.2.seqInt ≤ s.nextSeq.toInt ∧
        s.takeDue turns (l₁.getLast?.map Prod.fst) (l₂.head?.map Prod.fst) =
          some (some (s', .stored x.2.1 x.2.2)) ∧
        Spells s' (l₁ ++ (a ++ b)) ∧ s'.initialState = s.initialState ∧
        s'.receiveUpdate = s.receiveUpdate ∧ s'.nextSeqKnown = s.nextSeqKnown ∧
        s'.nextSeq = if x.2.1 = s.nextSeq then s.nextSeq + 1 else s.nextSeq := by
  induction l₂ generalizing l₁ turns with
  | nil => exact .inl ⟨by cases turns <;> rfl, by simp⟩
  | cons x l₂ ih =>
    obtain ⟨turns, rfl⟩ : ∃ k, turns = k + 1 := ⟨turns - 1, by simp at hturns; omega⟩
    have hentry := (links_append.1 h.links).2.1
    have hx := hwindow x (by simp)
    have hcmp := seqALessOrEqualB_eq hx.1 hx.2
    rw [List.head?_cons, Option.map_some, takeDue]
    simp only [hentry, firstOf_none, Option.bind_eq_bind, Option.bind_some, hcmp]
    by_cases hle : x.2.1.toInt ≤ s.nextSeq.toInt
    · obtain ⟨s', hs', hspells, hflags⟩ := removeEntry_spells h
      refine .inr ⟨[], x, l₂, s', rfl, by simp, hle, ?_, hspells, hflags⟩
      simp only [hle, decide_true, if_true, hs', Option.bind_some, Option.pure_def]
    · have hlast : (l₁ ++ [x]).getLast?.map Prod.fst = some x.1 := by simp
      have hspells : Spells s ((l₁ ++ [x]) ++ l₂) := by simpa using h
      simp only [hle, decide_false, Bool.false_eq_true, if_false]
      rw [← hlast]
      rcases ih (l₁ ++ [x]) hspells (fun y hy => hwindow y (by simp [hy])) (by simpa using hturns) with
        ⟨hnone, hlt⟩ | ⟨a, y, b, s', rfl, ha, hy, hsome, hs', hflags⟩
      · refine .inl ⟨hnone, fun y hy => ?_⟩
        rcases List.mem_cons.1 hy with rfl | hy
        · exact Int.not_le.1 hle
        · exact hlt y hy
      · refine .inr ⟨x :: a, y, b, s', rfl, fun z hz => ?_, hy, hsome, by simpa using hs', hflags⟩
        rcases List.mem_cons.1 hz with rfl | hz
        · exact Int.not_le.1 hle
        · exact ha z hz

/-- **The end of `print_event` releases what is due.** -/
theorem drain_eq {s : EventQueue} {l : List (EntryPtr × Item)} {turns : Nat} {lo hi : Int}
    (h : Spells s l) (hwindow : ∀ x ∈ l, lo ≤ x.2.seqInt ∧ x.2.seqInt ≤ hi)
    (hnext : lo ≤ s.nextSeq.toInt ∧ s.nextSeq.toInt ≤ hi + 1) (hspread : hi - lo < 2 ^ 31)
    (hhi : hi < 2 ^ 31 - 1) (hturns : l.length < turns) :
    ∃ s' out l', s.drain turns = some (s', out.map fun x => .stored x.1 x.2) ∧ Spells s' l' ∧
      Drains Item.seqInt s.nextSeq.toInt (l.map Prod.snd) out s'.nextSeq.toInt (l'.map Prod.snd) ∧
      s'.initialState = s.initialState ∧ s'.receiveUpdate = s.receiveUpdate ∧
      s'.nextSeqKnown = s.nextSeqKnown := by
  induction turns generalizing s l with
  | zero => omega
  | succ turns ih =>
    have hrange : ∀ x ∈ l, -2 ^ 31 ≤ x.2.seqInt - s.nextSeq.toInt ∧
        x.2.seqInt - s.nextSeq.toInt < 2 ^ 31 := by
      intro x hx
      have := hwindow x hx
      omega
    have hscan := takeDue_eq [] h hrange (Nat.lt_succ_iff.1 hturns)
    rw [List.getLast?_nil, Option.map_none, ← firstOf_none, ← h.first_eq] at hscan
    rcases hscan with ⟨hnone, hlt⟩ | ⟨a, x, b, s1, rfl, ha, hx, hsome, hs1, hinit, hupd, hknown, hseq⟩
    · refine ⟨s, [], l, ?_, h, .done ?_, rfl, rfl, rfl⟩
      · simp only [drain, hnone, Option.bind_eq_bind, Option.bind_some, Option.pure_def, List.map_nil]
      · intro x hx
        obtain ⟨y, hy, rfl⟩ := List.mem_map.1 hx
        exact hlt y hy
    · have hxw := hwindow x (by simp)
      have hint : s1.nextSeq.toInt =
          if x.2.seqInt = s.nextSeq.toInt then s.nextSeq.toInt + 1 else s.nextSeq.toInt := by
        rw [hseq]
        by_cases heq : x.2.1 = s.nextSeq
        · have hxs : x.2.seqInt = s.nextSeq.toInt := congrArg BitVec.toInt heq
          rw [if_pos heq, if_pos hxs, toInt_succ (by omega)]
        · have hxs : x.2.seqInt ≠ s.nextSeq.toInt := fun hxs => heq (BitVec.toInt_inj.1 hxs)
          rw [if_neg heq, if_neg hxs]
      have hnext1 : lo ≤ s1.nextSeq.toInt ∧ s1.nextSeq.toInt ≤ hi + 1 := by
        rw [hint]
        split <;> omega
      have hwindow1 : ∀ y ∈ a ++ b, lo ≤ y.2.seqInt ∧ y.2.seqInt ≤ hi := by
        intro y hy
        refine hwindow y ?_
        rw [List.mem_append] at hy
        rw [List.mem_append, List.mem_cons]
        tauto
      have hlen : (a ++ b).length < turns := by
        simp only [List.length_append, List.length_cons] at hturns ⊢
        omega
      obtain ⟨s', out, l', hrun, hs', hdrains, hflags⟩ := ih hs1 hwindow1 hnext1 hlen
      refine ⟨s', x.2 :: out, l', ?_, hs', ?_, by rw [← hinit, ← hupd, ← hknown]; exact hflags⟩
      · simp only [drain, hsome, hrun, Option.bind_eq_bind, Option.bind_some, Option.pure_def,
          List.map_cons]
      · rw [List.map_append, List.map_cons]
        refine .take (fun y hy => ?_) hx ?_
        · obtain ⟨z, hz, rfl⟩ := List.mem_map.1 hy
          exact ha z hz
        · rw [← hint, ← List.map_append]
          exact hdrains

/-! ## Runs -/

/-- The message that a call adds to the list. -/
def Call.item : Call → Option Item
  | .message seq n =>
    match n.header with
    | none | some (.exists, _) => none
    | some _ => some (seq, n)
  | .initialStateDone | .prepareUpdate | .reset => none

/-- The message that was taken from the list. -/
def Applied.item : Applied → Option Item
  | .stored seq n => some (seq, n)
  | _ => none

/-- The messages that have been added to the list. -/
def arrived (calls : List Call) : List Item := calls.filterMap Call.item

/-- The messages that have been taken from the list. -/
def released (out : List Applied) : List Item := out.filterMap Applied.item

/-- The messages of the list `l` are what is kept of those that have arrived. -/
structure Kept (s : EventQueue) (arr rel : List Item) (l : List (EntryPtr × Item)) : Prop where
  spells : Spells s l
  known_iff : s.nextSeqKnown = true ↔ arr ≠ []
  empty : arr = [] → l = [] ∧ rel = []
  inOrder : ∀ x rest, arr = x :: rest →
    InOrder Item.seqInt x.seqInt arr rel s.nextSeq.toInt (l.map Prod.snd)

/-- Outside of the initial state and of an update, nothing in the list is due. -/
def Drained (s : EventQueue) (l : List (EntryPtr × Item)) : Prop :=
  s.initialState = false → s.receiveUpdate = false → ∀ x ∈ l, s.nextSeq.toInt < x.2.seqInt

theorem Drained.lt_of_mem {s : EventQueue} {l : List (EntryPtr × Item)} (h : Drained s l)
    (hinit : s.initialState = false) (hupd : s.receiveUpdate = false) :
    ∀ z ∈ l.map Prod.snd, s.nextSeq.toInt < z.seqInt := by
  intro z hz
  obtain ⟨w, hw, rfl⟩ := List.mem_map.1 hz
  exact h hinit hupd w hw

theorem kept_nil : Kept {} [] [] [] where
  spells := spells_nil
  known_iff := by simp
  empty _ := ⟨rfl, rfl⟩
  inOrder x rest h := by simp at h

theorem released_stored (out : List Item) : released (out.map fun x => .stored x.1 x.2) = out := by
  rw [released, List.filterMap_map]
  exact List.filterMap_some

section Step

variable {s : EventQueue} {arr rel : List Item} {l : List (EntryPtr × Item)} {turns : Nat}
  {lo hi : Int}

theorem Kept.nextSeq_mem (h : Kept s arr rel l)
    (hwindow : ∀ x ∈ arr, lo ≤ x.seqInt ∧ x.seqInt ≤ hi)
    (hne : arr ≠ []) : lo ≤ s.nextSeq.toInt ∧ s.nextSeq.toInt ≤ hi + 1 := by
  obtain ⟨x, rest, rfl⟩ := List.exists_cons_of_ne_nil hne
  have hin := h.inOrder x rest rfl
  have hx := hwindow x (by simp)
  have hle := hin.first_le
  exact ⟨by omega, hin.next_le (fun y hy => (hwindow y hy).2) (by omega)⟩

/-- The end of `print_event` keeps the order. -/
theorem Kept.drain (h : Kept s arr rel l)
    (hwindow : ∀ x ∈ arr, lo ≤ x.seqInt ∧ x.seqInt ≤ hi) (hspread : hi - lo < 2 ^ 31)
    (hhi : hi < 2 ^ 31 - 1) (hd : (arr.map Prod.fst).Nodup) (hturns : arr.length < turns) :
    ∃ s' out l', s.drain turns = some (s', out.map fun x => .stored x.1 x.2) ∧
      Kept s' arr (rel ++ out) l' ∧ Drained s' l' ∧ s'.initialState = s.initialState ∧
      s'.receiveUpdate = s.receiveUpdate := by
  by_cases hne : arr = []
  · obtain ⟨rfl, rfl⟩ := h.empty hne
    obtain ⟨k, rfl⟩ : ∃ k, turns = k + 1 := ⟨turns - 1, by omega⟩
    refine ⟨s, [], [], ?_, h, fun _ _ x hx => by simp at hx, rfl, rfl⟩
    have hfirst : s.storedMessages = none := h.spells.first_eq
    rw [EventQueue.drain, hfirst]
    cases k <;> rfl
  · obtain ⟨x, rest, harr⟩ := List.exists_cons_of_ne_nil hne
    have hin := h.inOrder x rest harr
    have hlwindow : ∀ y ∈ l, lo ≤ y.2.seqInt ∧ y.2.seqInt ≤ hi := fun y hy =>
      hwindow y.2 (hin.sublist.subset (List.mem_map_of_mem hy))
    have hllen : l.length < turns := by
      have hle := hin.sublist.length_le
      rw [List.length_map] at hle
      omega
    have hdint : (arr.map Item.seqInt).Nodup := by
      have hinj : (arr.map Prod.fst).map BitVec.toInt = arr.map Item.seqInt := by
        rw [List.map_map]
        rfl
      rw [← hinj]
      exact hd.map fun a b hab => BitVec.toInt_inj.1 hab
    obtain ⟨s', out, l', hrun, hs', hdrains, hinit, hupd, hknown⟩ :=
      drain_eq h.spells hlwindow (h.nextSeq_mem hwindow hne) hspread hhi hllen
    refine ⟨s', out, l', hrun, ⟨hs', by rw [hknown]; exact h.known_iff, fun he => absurd he hne, ?_⟩, ?_,
      hinit, hupd⟩
    · intro y rest' harr'
      obtain ⟨rfl, rfl⟩ := List.cons.inj (harr.symm.trans harr')
      exact hin.drain hdint hdrains
    · intro _ _ y hy
      exact hdrains.lt_of_mem _ (List.mem_map_of_mem hy)

/-- A message is added to the list. -/
theorem Kept.store (h : Kept s arr rel l) (seq : BitVec 32) (n : Notification) :
    ∃ s', s.store seq n = some s' ∧ Kept s' (arr ++ [(seq, n)]) rel (l ++ [(s.nextPtr, (seq, n))]) := by
  obtain ⟨s', hs', hspells, -, -, hknown, hseq⟩ := store_spells h.spells seq n
  refine ⟨s', hs', hspells, by simp [hknown], by simp, fun x rest harr => ?_⟩
  rw [List.map_append, List.map_singleton]
  cases arr with
  | nil =>
    obtain ⟨rfl, rfl⟩ := h.empty rfl
    obtain ⟨rfl, rfl⟩ := List.cons.inj harr
    have hunknown : s.nextSeqKnown = false := by
      have := h.known_iff
      simpa using this
    rw [hseq, hunknown]
    exact (InOrder.start Item.seqInt _).arrive (seq, n)
  | cons y arr =>
    obtain ⟨rfl, rfl⟩ := List.cons.inj harr
    have hk : s.nextSeqKnown = true := h.known_iff.2 (by simp)
    rw [hseq, hk]
    exact (h.inOrder y arr rfl).arrive (seq, n)

theorem Kept.setFlags (h : Kept s arr rel l) (initialState receiveUpdate : Bool) :
    Kept { s with initialState := initialState, receiveUpdate := receiveUpdate } arr rel l :=
  ⟨⟨h.spells.first_eq, h.spells.links, h.spells.tail_eq, h.spells.nodup, h.spells.fresh,
    h.spells.alive⟩, h.known_iff, h.empty, h.inOrder⟩

theorem Call.item_message {seq : BitVec 32} {n : Notification} {t : NotificationType} {c : Bool}
    (hh : n.header = some (t, c)) (ht : t ≠ .exists) :
    Call.item (.message seq n) = some (seq, n) := by
  rw [Call.item, hh]
  cases t with
  | «exists» => exact absurd rfl ht
  | _ => rfl

theorem printEvent_message {seq : BitVec 32} {n : Notification} {t : NotificationType} {c : Bool}
    (hh : n.header = some (t, c)) (ht : t ≠ .exists) :
    s.printEvent turns (.message seq n) = (s.store seq n).bind fun s =>
      if s.initialState || s.receiveUpdate then some (s, []) else s.drain turns := by
  rw [EventQueue.printEvent, hh]
  cases t with
  | «exists» => exact absurd rfl ht
  | _ => rfl

/-- Every call keeps the order. -/
theorem Kept.printEvent (h : Kept s arr rel l) (hl : Drained s l) (c : Call)
    (hwindow : ∀ x ∈ arr ++ c.item.toList, lo ≤ x.seqInt ∧ x.seqInt ≤ hi) (hspread : hi - lo < 2 ^ 31)
    (hhi : hi < 2 ^ 31 - 1) (hd : ((arr ++ c.item.toList).map Prod.fst).Nodup)
    (hturns : (arr ++ c.item.toList).length < turns) :
    ∃ s' out l', s.printEvent turns c = some (s', out) ∧
      Kept s' (arr ++ c.item.toList) (rel ++ released out) l' ∧ Drained s' l' := by
  cases c with
  | initialStateDone =>
    have h0 := h.setFlags false false
    simp only [Call.item, Option.toList_none, List.append_nil] at hwindow hd hturns ⊢
    obtain ⟨s', out, l', hrun, hkept, hdrained, -, -⟩ := h0.drain hwindow hspread hhi hd hturns
    refine ⟨s', .initialStateDone :: out.map fun x => .stored x.1 x.2, l', ?_, ?_, hdrained⟩
    · rw [EventQueue.printEvent, hrun]
      rfl
    · rwa [released, List.filterMap_cons_none (by rfl), ← released, released_stored]
  | message seq n =>
    rcases hh : n.header with _ | ⟨t, cont⟩
    · have hitem : Call.item (.message seq n) = none := by rw [Call.item, hh]
      refine ⟨s, [], l, by rw [EventQueue.printEvent, hh], ?_, hl⟩
      rw [hitem, Option.toList_none, List.append_nil]
      simpa [released] using h
    · by_cases ht : t = .exists
      · subst ht
        have hitem : Call.item (.message seq n) = none := by rw [Call.item, hh]
        refine ⟨s, [.immediate n], l, by rw [EventQueue.printEvent, hh], ?_, hl⟩
        rw [hitem, Option.toList_none, List.append_nil]
        rw [show released [.immediate n] = [] from rfl, List.append_nil]
        exact h
      · rw [Call.item_message hh ht, Option.toList_some] at *
        obtain ⟨s1, hs1, hkept⟩ := h.store seq n
        rw [printEvent_message hh ht, hs1, Option.bind_some]
        split
        · next hflags =>
          refine ⟨s1, [], _, rfl, by simpa [released] using hkept, fun hi hu => ?_⟩
          simp [hi, hu] at hflags
        · obtain ⟨s', out, l', hrun, hkept', hdrained, -, -⟩ :=
            hkept.drain hwindow hspread hhi hd hturns
          exact ⟨s', _, l', hrun, by rwa [released_stored], hdrained⟩
  | prepareUpdate =>
    refine ⟨{ s with receiveUpdate := true }, [.prepareUpdate], l, rfl, ?_, fun _ hu => by cases hu⟩
    rw [show released [.prepareUpdate] = [] from rfl, List.append_nil, Call.item, Option.toList_none,
      List.append_nil]
    exact h.setFlags s.initialState true
  | reset =>
    refine ⟨{ s with initialState := true }, [.reset], l, rfl, ?_, fun hi => by cases hi⟩
    rw [show released [.reset] = [] from rfl, List.append_nil, Call.item, Option.toList_none,
      List.append_nil]
    exact h.setFlags true s.receiveUpdate

end Step

/-- Runs keep the order. -/
theorem runCalls_kept {s : EventQueue} {arr rel : List Item} {l : List (EntryPtr × Item)}
    {turns : Nat} {lo hi : Int} {calls : List Call} (h : Kept s arr rel l) (hl : Drained s l)
    (hwindow : ∀ x ∈ arr ++ arrived calls, lo ≤ x.seqInt ∧ x.seqInt ≤ hi) (hspread : hi - lo < 2 ^ 31)
    (hhi : hi < 2 ^ 31 - 1) (hd : ((arr ++ arrived calls).map Prod.fst).Nodup)
    (hturns : (arr ++ arrived calls).length < turns) :
    ∃ s' out l', s.runCalls turns calls = some (s', out) ∧
      Kept s' (arr ++ arrived calls) (rel ++ released out) l' ∧ Drained s' l' := by
  induction calls generalizing s arr rel l with
  | nil => exact ⟨s, [], l, rfl, by simpa [arrived, released] using h, hl⟩
  | cons c calls ih =>
    have hsplit : arr ++ arrived (c :: calls) = arr ++ c.item.toList ++ arrived calls := by
      rw [arrived, arrived, List.filterMap_cons]
      cases c.item <;> simp
    rw [hsplit] at hwindow hd hturns ⊢
    have hdc : ((arr ++ c.item.toList).map Prod.fst).Nodup := by
      rw [List.map_append] at hd
      exact (List.nodup_append.1 hd).1
    have hturnsc : (arr ++ c.item.toList).length < turns := by
      rw [List.length_append] at hturns
      omega
    obtain ⟨s1, out1, l1, hrun1, hkept1, hdrained1⟩ :=
      h.printEvent hl c (fun x hx => hwindow x (List.mem_append_left _ hx)) hspread hhi hdc hturnsc
    obtain ⟨s', out, l', hrun, hkept, hdrained⟩ := ih hkept1 hdrained1 hwindow hd hturns
    refine ⟨s', out1 ++ out, l', ?_, ?_, hdrained⟩
    · simp only [runCalls, hrun1, hrun, Option.bind_eq_bind, Option.bind_some, Option.pure_def]
    · rw [released, List.filterMap_append, ← List.append_assoc]
      exact hkept

/-- **Every message is applied at most once and by number.**  The messages in the list and the applied
    ones are those that have arrived; those that are not before the first one are applied without a gap;
    and outside of the initial state and of an update, the list has exactly the messages that wait for
    one that has not arrived.  The numbers may pass from `2 ^ 32 - 1` to `0`, but not to `2 ^ 31`, where
    the subtraction in the comparison would overflow. -/
theorem runCalls_inOrder {turns : Nat} {lo hi : Int} {calls : List Call}
    (hwindow : ∀ x ∈ arrived calls, lo ≤ x.seqInt ∧ x.seqInt ≤ hi) (hspread : hi - lo < 2 ^ 31)
    (hhi : hi < 2 ^ 31 - 1) (hd : ((arrived calls).map Prod.fst).Nodup)
    (hturns : (arrived calls).length < turns) :
    ∃ s out l, ({} : EventQueue).runCalls turns calls = some (s, out) ∧ Spells s l ∧
      (released out ++ l.map Prod.snd).Perm (arrived calls) ∧
      (l.map Prod.snd).Sublist (arrived calls) ∧
      ∀ x rest, arrived calls = x :: rest →
        ((released out).filter fun y => x.seqInt ≤ y.seqInt).map Item.seqInt =
          (List.range (s.nextSeq.toInt - x.seqInt).toNat).map (fun i : Nat => x.seqInt + i) ∧
        (s.initialState = false → s.receiveUpdate = false → ∀ y ∈ arrived calls,
          y ∈ l.map Prod.snd ↔ ∃ i, x.seqInt ≤ i ∧ i < y.seqInt ∧ ∀ z ∈ arrived calls, z.seqInt ≠ i) := by
  obtain ⟨s, out, l, hrun, hkept, hdrained⟩ :=
    runCalls_kept kept_nil (fun hi => by cases hi) hwindow hspread hhi hd hturns
  rw [List.nil_append, List.nil_append] at hkept
  refine ⟨s, out, l, hrun, hkept.spells, ?_, ?_, fun x rest hx => ?_⟩
  · cases harr : arrived calls with
    | nil =>
      obtain ⟨rfl, hrel⟩ := hkept.empty harr
      simp [hrel]
    | cons x rest => exact harr ▸ (hkept.inOrder x rest harr).perm
  · cases harr : arrived calls with
    | nil =>
      obtain ⟨rfl, -⟩ := hkept.empty harr
      simp
    | cons x rest => exact harr ▸ (hkept.inOrder x rest harr).sublist
  · have hin := hkept.inOrder x rest hx
    exact ⟨hin.order, fun hi hu y hy => hin.mem_iff_missing (hdrained.lt_of_mem hi hu) hy⟩

/-- A change of a resource. -/
def changeMessage : Notification where
  header := some (.change, false)
  cmd := .resourceState
  ctx := none

theorem runCalls_inOrder_five_seven_six :
    ∃ s out l, ({} : EventQueue).runCalls 4 [.initialStateDone, .message 5 changeMessage,
        .message 7 changeMessage, .message 6 changeMessage] = some (s, out) ∧ Spells s l ∧
      (released out ++ l.map Prod.snd).Perm
        [(5, changeMessage), (7, changeMessage), (6, changeMessage)] := by
  have harrived : arrived [.initialStateDone, .message 5 changeMessage, .message 7 changeMessage,
      .message 6 changeMessage] = [(5, changeMessage), (7, changeMessage), (6, changeMessage)] := rfl
  have hwindow : ∀ x ∈ arrived [.initialStateDone, .message 5 changeMessage, .message 7 changeMessage,
      .message 6 changeMessage], (5 : Int) ≤ x.seqInt ∧ x.seqInt ≤ 7 := by
    rw [harrived]
    simp [Item.seqInt]
  have hturns : (arrived [.initialStateDone, .message 5 changeMessage, .message 7 changeMessage,
      .message 6 changeMessage]).length < 4 := by rw [harrived]; simp
  obtain ⟨s, out, l, hrun, hspells, hperm, -, -⟩ := runCalls_inOrder hwindow (by decide) (by decide)
    (by rw [harrived]; decide) hturns
  exact ⟨s, out, l, hrun, hspells, harrived ▸ hperm⟩

/-- The call with a message that is not an `exists` message. -/
def Item.call (x : Item) : Call := .message x.1 x.2

end EventQueue

end DrbdUtils.Events2
