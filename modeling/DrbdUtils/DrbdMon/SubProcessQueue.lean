import DrbdUtils.Lib.LinkedList
import DrbdUtils.Lib.OrdMap

/-!
# The task queue of drbdmon

`SubProcessQueue` keeps the external commands drbdmon runs as entries of four intrusive doubly
linked queues (waiting, ready, active, ended), an id map of all entries, and up to eight worker
threads.  This file has the data model, the queue operations on the heap of entries, the
operations of the class and the worker steps, each of them one critical section of `queue_lock`,
and the invariant of the queues.

A function gives `none` where the code would dereference a null or dangling pointer; that this
never happens is part of the results.

* `Store.Wf` — the four queues are well formed in both directions, with the right sizes.
* `Store.Wf.appendEntry_spec`, `Store.Wf.removeEntry_spec`, `Store.Wf.moveEntry_spec` — the
  queue operations are defined and keep it.
-/

set_option autoImplicit false

namespace DrbdUtils.DrbdMon.SubProcessQueue

open DrbdUtils.Lib

/-! ## Entries and queues -/

/-- The address of an entry. -/
abbrev Ptr := Nat

/-- The four `Queue` objects of a `SubProcessQueue`. -/
inductive QueueName where
  | wait
  | ready
  | active
  | ended
  deriving DecidableEq, Repr

/-- `TASKQ_NONE`. -/
def taskqNone : Nat := 2 ^ 64 - 1

/-- `MAX_ENTRY_COUNT`. -/
def maxEntryCount : Nat := 1024

/-- `MAX_ACTIVE_COUNT`. -/
def maxActiveCount : Nat := 8

/-- `SubProcess::EXIT_STATUS_NONE`, the exit status of a new handler. -/
def exitStatusNone : Int := -1

/-- `SubProcessQueue::Entry`.  `process` is `process_mgr`: the exit status of the handler, or
`none` for the null pointer.  `serial` is not in the code: it numbers the entries in the order
they were added, so that an entry is told from a later one with the same address or id. -/
structure Entry where
  id : Nat
  process : Option Int
  owningQueue : Option QueueName
  next : Option Ptr
  prev : Option Ptr
  serial : Nat
  deriving DecidableEq, Repr

/-- `SubProcessQueue::Queue`. -/
structure Queue where
  size : Nat := 0
  head : Option Ptr := none
  tail : Option Ptr := none
  selectedId : Nat := taskqNone

/-- The entries in memory. -/
abbrev EntryHeap := Ptr → Option Entry

/-- Changes the entry at `p`, if there is one. -/
def EntryHeap.adjust (h : EntryHeap) (p : Option Ptr) (f : Entry → Entry) : EntryHeap :=
  fun x => if p = some x then (h x).map f else h x

/-- The heap and the four queues. -/
structure Store where
  heap : EntryHeap
  queue : QueueName → Queue

namespace Store

/-- A write to fields of the entry `p` points to. -/
def modify (st : Store) (p : Option Ptr) (f : Entry → Entry) : Option Store := do
  let x ← p
  let _ ← st.heap x
  pure { st with heap := EntryHeap.adjust st.heap p f }

/-- A write to fields of a queue. -/
def setQueue (st : Store) (q : QueueName) (f : Queue → Queue) : Store :=
  { st with queue := Function.update st.queue q (f (st.queue q)) }

/-- `Queue::append_entry()`. -/
def appendEntry (st : Store) (this : QueueName) (p : Ptr) : Option Store := do
  let st ← st.modify (some p) fun e => { e with owningQueue := some this }
  let st ←
    if (st.queue this).head = none then
      pure (st.setQueue this fun q => { q with head := some p })
    else do
      let st ← st.modify (some p) fun e => { e with prev := (st.queue this).tail }
      st.modify (st.queue this).tail fun e => { e with next := some p }
  pure (st.setQueue this fun q => { q with tail := some p, size := q.size + 1 })

/-- The first half of `Queue::remove_entry()`: whatever points forward to the entry. -/
def unlinkNext (st : Store) (q : QueueName) (p : Ptr) (e : Entry) : Option Store :=
  if (st.queue q).head = some p then
    pure (st.setQueue q fun o => { o with head := e.next })
  else st.modify e.prev fun x => { x with next := e.next }

/-- The second half of `Queue::remove_entry()`: whatever points back to the entry. -/
def unlinkPrev (st : Store) (q : QueueName) (p : Ptr) (e : Entry) : Option Store :=
  if (st.queue q).tail = some p then
    pure (st.setQueue q fun o => { o with tail := e.prev })
  else st.modify e.next fun x => { x with prev := e.prev }

/-- The id selected once the entry has left its queue. -/
def selectedAfter (st : Store) (q : QueueName) (e : Entry) : Option Nat :=
  if (st.queue q).selectedId = e.id then
    match e.next, e.prev with
    | some x, _ => (st.heap x).map Entry.id
    | none, some x => (st.heap x).map Entry.id
    | none, none => some taskqNone
  else some (st.queue q).selectedId

/-- `Queue::remove_entry()`.  It works on the queue that owns the entry. -/
def removeEntry (st : Store) (p : Ptr) : Option Store := do
  let e ← st.heap p
  let st ←
    match e.owningQueue with
    | none => pure st
    | some q => do
      let st ← st.unlinkNext q p e
      let st ← st.unlinkPrev q p e
      let selected ← st.selectedAfter q e
      pure (st.setQueue q fun o => { o with size := o.size - 1, selectedId := selected })
  st.modify (some p) fun e => { e with next := none, prev := none, owningQueue := none }

/-- `SubProcessQueue::move_entry()`, with its outcome. -/
def moveEntry (st : Store) (p : Ptr) (dst : QueueName) : Option (Store × Bool) := do
  let e ← st.heap p
  match e.owningQueue with
  | none => pure (st, false)
  | some _ => do
    let st ← st.removeEntry p
    let st ← st.appendEntry dst p
    pure (st, true)

end Store

/-! ## The queue object and its workers -/

/-- The thread in a worker slot, between two critical sections: it waits for the lock at the start
of `invoke_thread()`, or it executes an entry with the lock dropped. -/
inductive Worker where
  | started
  | executing (p : Ptr)
  deriving DecidableEq, Repr

/-- `SubProcessQueue`.  `worker` says which slots of `worker_thread_mgr` have a thread that has
not left `invoke_thread()`; `slots` is `worker_slot_mgr`.  The last three fields are not in the
code: whether `std::terminate()` was called, the number of entries added so far and the serial
numbers of the entries `execute()` was called for. -/
structure State where
  store : Store
  map : OrdMap Nat Ptr
  nextId : Nat
  entryCount : Nat
  activeCount : Nat
  slots : List Nat
  worker : Nat → Option Worker
  discardFinished : Bool
  discardSucceeded : Bool
  shutdown : Bool
  terminated : Bool
  added : Nat
  executed : List Nat

/-- The constructor. -/
def State.init : State where
  store := { heap := fun _ => none, queue := fun _ => {} }
  map := OrdMap.empty
  nextId := 0
  entryCount := 0
  activeCount := 0
  slots := List.range maxActiveCount
  worker := fun _ => none
  discardFinished := false
  discardSucceeded := false
  shutdown := false
  terminated := false
  added := 0
  executed := []

/-- What `add_entry()` throws. -/
inductive AddError where
  | badAlloc
  | duplicateInsert
  | queueCapacity
  deriving DecidableEq, Repr

/-- The exceptions `execute()` throws. -/
inductive TaskException where
  | badAlloc
  | subProcess
  deriving DecidableEq, Repr

/-- How `execute()` ends: the exit status it leaves in the handler and the exception it throws. -/
structure Outcome where
  exitStatus : Int
  exc : Option TaskException
  deriving DecidableEq, Repr

namespace State

/-- The number of entries that are ready or active. -/
def load (s : State) : Nat := (s.store.queue .ready).size + (s.store.queue .active).size

/-- One round of the loop of `schedule_threads()`.  The thread joined there has left its slot, and
with it `queue_lock`, so that the join does not wait for the lock. -/
def startWorker (s : State) : Option State := do
  let slot ← s.slots[s.activeCount]?
  pure { s with
    worker := Function.update s.worker slot (some .started)
    activeCount := s.activeCount + 1 }

def startWorkers : Nat → State → Option State
  | 0, s => some s
  | n + 1, s => s.startWorker.bind (startWorkers n)

/-- `schedule_threads()`; the loop runs until `active_count` is `queue_count`. -/
def scheduleThreads (s : State) : Option State :=
  if s.shutdown then some s
  else startWorkers (min s.load maxActiveCount - s.activeCount) s

/-- A new entry for the command, at the address the allocator gives. -/
def newEntry (s : State) : Entry where
  id := s.nextId
  process := none
  owningQueue := none
  next := none
  prev := none
  serial := s.added

/-- `add_entry()`.  With `outOfMemory`, `new Entry` or the insertion throws `std::bad_alloc`. -/
def addEntry (s : State) (activate outOfMemory : Bool) (addr : Ptr) :
    Option (State × Except AddError Nat) :=
  if s.entryCount < maxEntryCount then
    if outOfMemory then some (s, .error .badAlloc)
    else
      match s.map.insert s.nextId addr with
      | none => some (s, .error .duplicateInsert)
      | some map => do
        let heap := Function.update s.store.heap addr (some s.newEntry)
        let store ←
          { s.store with heap := heap }.appendEntry (if activate then .ready else .wait) addr
        let s' : State :=
          { s with
            store := store
            map := map
            nextId := (s.nextId + 1) % 2 ^ 64
            entryCount := s.entryCount + 1
            added := s.added + 1 }
        let s' ← if activate then s'.scheduleThreads else some s'
        pure (s', .ok s.nextId)
  else some (s, .error .queueCapacity)

/-- `remove_entry_impl()`. -/
def removeEntryImpl (s : State) (p : Ptr) : Option (State × Bool) := do
  let e ← s.store.heap p
  if e.owningQueue = some .active then pure (s, false)
  else do
    let _ ← e.owningQueue
    let store ← s.store.removeEntry p
    pure ({ s with
      store := { store with heap := Function.update store.heap p none }
      map := s.map.remove e.id
      entryCount := s.entryCount - 1 }, true)

/-- `remove_entry()`. -/
def removeEntry (s : State) (id : Nat) : Option (State × Bool) :=
  match s.map.get id with
  | none => some (s, false)
  | some p => s.removeEntryImpl p

/-- `activate_entry()`. -/
def activateEntry (s : State) (id : Nat) : Option (State × Bool) :=
  match s.map.get id with
  | none => some (s, false)
  | some p => do
    let e ← s.store.heap p
    if e.owningQueue = some .wait then do
      let (store, isActivated) ← s.store.moveEntry p .ready
      let s ← { s with store := store }.scheduleThreads
      pure (s, isActivated)
    else pure (s, false)

/-- `inactivate_entry()`. -/
def inactivateEntry (s : State) (id : Nat) : Option (State × Bool) :=
  match s.map.get id with
  | none => some (s, false)
  | some p => do
    let e ← s.store.heap p
    if e.owningQueue = some .ready then do
      let (store, _) ← s.store.moveEntry p .wait
      pure ({ s with store := store }, true)
    else pure (s, false)

/-- The destructor of `WorkerGuard`; the thread leaves its slot. -/
def workerExit (s : State) (slot : Nat) : State :=
  { s with
    activeCount := s.activeCount - 1
    slots := s.slots.set (s.activeCount - 1) slot
    worker := Function.update s.worker slot none }

/-- Whether an entry that has ended is discarded. -/
def discards (s : State) (process : Option Int) : Bool :=
  match process with
  | none => false
  | some exitStatus =>
    if !s.discardFinished && s.discardSucceeded then exitStatus == 0 else s.discardFinished

/-- The part of the loop of `invoke_thread()` behind the execution of an entry. -/
def endEntry (s : State) (p : Ptr) : Option State := do
  let (store, _) ← s.store.moveEntry p .ended
  let s := { s with store := store }
  let e ← s.store.heap p
  if s.discards e.process then (s.removeEntryImpl p).map Prod.fst else pure s

/-- The loop of `invoke_thread()` from its condition to the next place where the thread drops the
lock or leaves.  `handler` says whether `create_subprocess_handler()` returns (a ready entry has
no handler before, see `QueuesOk.fresh`); if it throws `std::bad_alloc`, the entry ends at once and
the exception leaves the loop. -/
def workerLoop (s : State) (slot : Nat) (handler : Bool) : Option State :=
  if s.shutdown then some (s.workerExit slot)
  else
    match (s.store.queue .ready).head with
    | none => some (s.workerExit slot)
    | some p => do
      let (store, _) ← s.store.moveEntry p .active
      if handler then do
        let store ← store.modify (some p) fun e => { e with process := some exitStatusNone }
        let e ← store.heap p
        pure { s with
          store := store
          worker := Function.update s.worker slot (some (.executing p))
          executed := s.executed ++ [e.serial] }
      else do
        let s ← { s with store := store }.endEntry p
        pure (s.workerExit slot)

/-- A worker gets the lock back after `execute()` has ended.  The stored exception is thrown again
at the end of the loop body: the handler outside of the loop catches `std::bad_alloc`, nothing
catches `SubProcess::Exception`, and the thread's function ends with an exception. -/
def finishEntry (s : State) (slot : Nat) (p : Ptr) (outcome : Outcome) (handler : Bool) :
    Option State := do
  let store ←
    s.store.modify (some p) fun e => { e with process := some outcome.exitStatus }
  let s ←
    { s with
      store := store
      worker := Function.update s.worker slot (some .started) }.endEntry p
  match outcome.exc with
  | none => s.workerLoop slot handler
  | some .badAlloc => pure (s.workerExit slot)
  | some .subProcess => pure { s with terminated := true }

end State

/-- The critical sections.  An addition has the address the allocator returns, a worker step
whether the next handler can be allocated. -/
inductive Action where
  | addEntry (activate outOfMemory : Bool) (addr : Ptr)
  | removeEntry (id : Nat)
  | activateEntry (id : Nat)
  | inactivateEntry (id : Nat)
  | setDiscardFinishedTasks (flag : Bool)
  | setDiscardSucceededTasks (flag : Bool)
  | setSelectedId (q : QueueName) (id : Nat)
  | shutdown
  | start (slot : Nat) (handler : Bool)
  | finish (slot : Nat) (outcome : Outcome) (handler : Bool)

/-- Which critical sections a thread can enter: none once the program has ended. -/
def Enabled (s : State) : Action → Prop
  | .addEntry _ _ addr => s.terminated = false ∧ s.store.heap addr = none
  | .start slot _ => s.terminated = false ∧ s.worker slot = some .started
  | .finish slot _ _ => s.terminated = false ∧ ∃ p, s.worker slot = some (.executing p)
  | _ => s.terminated = false

/-- What a critical section does. -/
def step (s : State) : Action → Option State
  | .addEntry activate outOfMemory addr =>
    (s.addEntry activate outOfMemory addr).map Prod.fst
  | .removeEntry id => (s.removeEntry id).map Prod.fst
  | .activateEntry id => (s.activateEntry id).map Prod.fst
  | .inactivateEntry id => (s.inactivateEntry id).map Prod.fst
  | .setDiscardFinishedTasks flag => some { s with discardFinished := flag }
  | .setDiscardSucceededTasks flag => some { s with discardSucceeded := flag }
  | .setSelectedId q id =>
    some { s with store := s.store.setQueue q fun o => { o with selectedId := id } }
  | .shutdown => some { s with shutdown := true }
  | .start slot handler => s.workerLoop slot handler
  | .finish slot outcome handler =>
    match s.worker slot with
    | some (.executing p) => s.finishEntry slot p outcome handler
    | _ => none

/-- **A run**, with the states it went through and the critical sections entered there, the last
one first. -/
inductive Run : List (State × Action) → State → Prop where
  | init : Run [] State.init
  | next {trace : List (State × Action)} {s s' : State} {a : Action} (run : Run trace s)
      (enabled : Enabled s a) (result : step s a = some s') : Run ((s, a) :: trace) s'

/-! ## Well formed queues -/

theorem EntryHeap.adjust_apply (h : EntryHeap) (p : Option Ptr) (f : Entry → Entry) (x : Ptr) :
    EntryHeap.adjust h p f x = if p = some x then (h x).map f else h x := rfl

@[simp] theorem EntryHeap.adjust_none (h : EntryHeap) (f : Entry → Entry) :
    EntryHeap.adjust h none f = h := by
  funext x
  simp [EntryHeap.adjust]

theorem EntryHeap.isSome_adjust (h : EntryHeap) (o : Option Ptr) (f : Entry → Entry) (x : Ptr) :
    (EntryHeap.adjust h o f x).isSome = (h x).isSome := by
  rw [EntryHeap.adjust_apply]
  split
  · exact Option.isSome_map
  · rfl

namespace Store

variable {st st' : Store} {lists : QueueName → List Ptr} {p x : Ptr} {e : Entry} {q dst : QueueName}

/-- `next_entry` of the entry at an address. -/
def next (st : Store) (p : Ptr) : Option Ptr := (st.heap p).bind Entry.next

/-- `prev_entry` of the entry at an address. -/
def prev (st : Store) (p : Ptr) : Option Ptr := (st.heap p).bind Entry.prev

/-- **Well formed queues.**  Each queue spells its list of entries in both directions and knows
its size, an entry names the queue it is in, and the links of an entry in no queue are null. -/
structure Wf (st : Store) (lists : QueueName → List Ptr) : Prop where
  linked : ∀ q, Linked st.next st.prev (st.queue q).head (st.queue q).tail (lists q)
  size : ∀ q, (st.queue q).size = (lists q).length
  mem_iff : ∀ q p, p ∈ lists q ↔ ∃ e, st.heap p = some e ∧ e.owningQueue = some q
  free : ∀ p e, st.heap p = some e → e.owningQueue = none → e.next = none ∧ e.prev = none

/-- The fields of an entry that the queues do not use. -/
def payload (st : Store) (p : Ptr) : Option (Nat × Option Int × Nat) :=
  (st.heap p).map fun e => (e.id, e.process, e.serial)

theorem modify_eq (h : st.heap x = some e) (f : Entry → Entry) :
    st.modify (some x) f = some { st with heap := EntryHeap.adjust st.heap (some x) f } := by
  simp [modify, h]

/-- An entry is in one queue at most. -/
theorem Wf.queue_unique (h : Wf st lists) {q q' : QueueName} (hq : p ∈ lists q)
    (hq' : p ∈ lists q') : q = q' := by
  obtain ⟨e, he, ho⟩ := (h.mem_iff q p).1 hq
  obtain ⟨e', he', ho'⟩ := (h.mem_iff q' p).1 hq'
  obtain rfl : e = e' := Option.some.inj (he.symm.trans he')
  exact Option.some.inj (ho.symm.trans ho')

/-- The pointer in front of an entry, or the head of its queue. -/
theorem Wf.prev_cases (h : Wf st lists) (he : st.heap p = some e) (ho : e.owningQueue = some q) :
    ((st.queue q).head = some p ∧ e.prev = none) ∨
      ((st.queue q).head ≠ some p ∧ ∃ x, e.prev = some x ∧ x ∈ lists q ∧ x ≠ p) := by
  have := (h.linked q).prev_cases ((h.mem_iff q p).2 ⟨e, he, ho⟩)
  simpa [prev, he] using this

theorem Wf.next_cases (h : Wf st lists) (he : st.heap p = some e) (ho : e.owningQueue = some q) :
    ((st.queue q).tail = some p ∧ e.next = none) ∨
      ((st.queue q).tail ≠ some p ∧ ∃ x, e.next = some x ∧ x ∈ lists q ∧ x ≠ p) := by
  have := (h.linked q).next_cases ((h.mem_iff q p).2 ⟨e, he, ho⟩)
  simpa [next, he] using this

/-- The neighbours of an entry are in its queue. -/
theorem Wf.prev_mem (h : Wf st lists) (he : st.heap p = some e) (ho : e.owningQueue = some q)
    (hx : e.prev = some x) : x ∈ lists q ∧ x ≠ p := by
  rcases h.prev_cases he ho with ⟨-, hn⟩ | ⟨-, y, hy, hmem⟩
  · rw [hn] at hx
    cases hx
  · rw [hy] at hx
    exact Option.some.inj hx ▸ hmem

theorem Wf.next_mem (h : Wf st lists) (he : st.heap p = some e) (ho : e.owningQueue = some q)
    (hx : e.next = some x) : x ∈ lists q ∧ x ≠ p := by
  rcases h.next_cases he ho with ⟨-, hn⟩ | ⟨-, y, hy, hmem⟩
  · rw [hn] at hx
    cases hx
  · rw [hy] at hx
    exact Option.some.inj hx ▸ hmem

/-- The heap once the entry is out of its queue. -/
def unlinkedHeap (st : Store) (p : Ptr) (e : Entry) : EntryHeap :=
  EntryHeap.adjust
    (EntryHeap.adjust (EntryHeap.adjust st.heap e.prev fun x => { x with next := e.next })
      e.next fun x => { x with prev := e.prev })
    (some p) fun e => { e with next := none, prev := none, owningQueue := none }

theorem Wf.isSome_of_mem (h : Wf st lists) (hx : x ∈ lists q) : (st.heap x).isSome := by
  obtain ⟨e, he, -⟩ := (h.mem_iff q x).1 hx
  simp [he]

theorem modify_of_isSome (h : (st.heap x).isSome) (f : Entry → Entry) :
    st.modify (some x) f = some { st with heap := EntryHeap.adjust st.heap (some x) f } := by
  obtain ⟨e, he⟩ := Option.isSome_iff_exists.1 h
  simp [modify, he]

theorem unlinkNext_eq (st : Store) (q : QueueName) (p : Ptr) (e : Entry)
    (hp : ((st.queue q).head = some p ∧ e.prev = none) ∨
      ((st.queue q).head ≠ some p ∧ ∃ x, e.prev = some x ∧ (st.heap x).isSome)) :
    st.unlinkNext q p e = some
      { heap := EntryHeap.adjust st.heap e.prev fun x => { x with next := e.next }
        queue := Function.update st.queue q { st.queue q with
          head := if (st.queue q).head = some p then e.next else (st.queue q).head } } := by
  rcases hp with ⟨hh, hp⟩ | ⟨hh, x, hp, hx⟩
  · simp [unlinkNext, hh, hp, setQueue]
  · rw [unlinkNext, if_neg hh, hp, modify_of_isSome hx, if_neg hh, Function.update_eq_self]

theorem unlinkPrev_eq (st : Store) (q : QueueName) (p : Ptr) (e : Entry)
    (hp : ((st.queue q).tail = some p ∧ e.next = none) ∨
      ((st.queue q).tail ≠ some p ∧ ∃ x, e.next = some x ∧ (st.heap x).isSome)) :
    st.unlinkPrev q p e = some
      { heap := EntryHeap.adjust st.heap e.next fun x => { x with prev := e.prev }
        queue := Function.update st.queue q { st.queue q with
          tail := if (st.queue q).tail = some p then e.prev else (st.queue q).tail } } := by
  rcases hp with ⟨hh, hp⟩ | ⟨hh, x, hp, hx⟩
  · simp [unlinkPrev, hh, hp, setQueue]
  · rw [unlinkPrev, if_neg hh, hp, modify_of_isSome hx, if_neg hh, Function.update_eq_self]

theorem selectedAfter_isSome (st : Store) (q : QueueName) (e : Entry)
    (hn : ∀ x, e.next = some x → (st.heap x).isSome)
    (hp : ∀ x, e.prev = some x → (st.heap x).isSome) :
    ∃ selected, st.selectedAfter q e = some selected := by
  rw [← Option.isSome_iff_exists, selectedAfter]
  split
  · split
    · next x hx => simpa using hn x hx
    · next x _ hx => simpa using hp x hx
    · rfl
  · rfl

/-- What `remove_entry()` computes, up to the selected id. -/
theorem Wf.removeEntry_eq (h : Wf st lists) (he : st.heap p = some e)
    (ho : e.owningQueue = some q) :
    ∃ selected, st.removeEntry p = some
      { heap := st.unlinkedHeap p e
        queue := Function.update st.queue q
          { size := (st.queue q).size - 1
            head := if (st.queue q).head = some p then e.next else (st.queue q).head
            tail := if (st.queue q).tail = some p then e.prev else (st.queue q).tail
            selectedId := selected } } := by
  have hp : ∀ x, e.prev = some x → (st.heap x).isSome := fun x hx =>
    h.isSome_of_mem (h.prev_mem he ho hx).1
  have hn : ∀ x, e.next = some x → (st.heap x).isSome := fun x hx =>
    h.isSome_of_mem (h.next_mem he ho hx).1
  have hnext := unlinkNext_eq st q p e <| by
    rcases h.prev_cases he ho with hc | ⟨hh, x, hx, -⟩
    · exact .inl hc
    · exact .inr ⟨hh, x, hx, hp x hx⟩
  set st₁ : Store :=
    { heap := EntryHeap.adjust st.heap e.prev fun x => { x with next := e.next }
      queue := Function.update st.queue q { st.queue q with
        head := if (st.queue q).head = some p then e.next else (st.queue q).head } } with hst₁
  have htail : (st₁.queue q).tail = (st.queue q).tail := by simp [hst₁]
  have hprev := unlinkPrev_eq st₁ q p e <| by
    rcases h.next_cases he ho with ⟨ht, hc⟩ | ⟨ht, x, hx, -⟩
    · exact .inl ⟨htail.trans ht, hc⟩
    · refine .inr ⟨fun hx => ht (htail.symm.trans hx), x, hx, ?_⟩
      rw [hst₁, EntryHeap.isSome_adjust]
      exact hn x hx
  rw [htail] at hprev
  set st₂ : Store :=
    { heap := EntryHeap.adjust st₁.heap e.next fun x => { x with prev := e.prev }
      queue := Function.update st₁.queue q { st₁.queue q with
        tail := if (st.queue q).tail = some p then e.prev else (st.queue q).tail } } with hst₂
  have hsome : ∀ x, (st₂.heap x).isSome = (st.heap x).isSome := by
    intro x
    rw [hst₂, EntryHeap.isSome_adjust, hst₁, EntryHeap.isSome_adjust]
  obtain ⟨selected, hsel⟩ := selectedAfter_isSome st₂ q e
    (fun x hx => (hsome x).trans (hn x hx)) (fun x hx => (hsome x).trans (hp x hx))
  refine ⟨selected, ?_⟩
  rw [removeEntry]
  simp only [he, ho, hnext, hprev, hsel, Option.bind_eq_bind, Option.bind_some, Option.pure_def]
  rw [modify_of_isSome (by simp [setQueue, hsome, he])]
  simp [setQueue, hst₂, hst₁, unlinkedHeap]

theorem unlinkedHeap_ne (hx : x ≠ p) :
    st.unlinkedHeap p e x = (st.heap x).map fun y =>
      { y with
        next := if e.prev = some x then e.next else y.next
        prev := if e.next = some x then e.prev else y.prev } := by
  simp only [unlinkedHeap, EntryHeap.adjust_apply, Option.some.injEq, if_neg (Ne.symm hx)]
  cases st.heap x with
  | none => simp
  | some y => split_ifs <;> rfl

theorem Wf.unlinkedHeap_self (h : Wf st lists) (he : st.heap p = some e)
    (ho : e.owningQueue = some q) :
    st.unlinkedHeap p e p = some { e with next := none, prev := none, owningQueue := none } := by
  have hn : e.next ≠ some p := fun hx => (h.next_mem he ho hx).2 rfl
  have hp : e.prev ≠ some p := fun hx => (h.prev_mem he ho hx).2 rfl
  simp [unlinkedHeap, EntryHeap.adjust_apply, hn, hp, he]

/-- **`Queue::remove_entry()`** takes the entry out of its queue and changes nothing else. -/
theorem Wf.removeEntry_spec (h : Wf st lists) (hp : p ∈ lists q) :
    ∃ st', st.removeEntry p = some st' ∧
      Wf st' (Function.update lists q ((lists q).erase p)) ∧
      (∀ x, st'.payload x = st.payload x) ∧ ∃ e, st'.heap p = some e ∧ e.owningQueue = none := by
  obtain ⟨e, he, ho⟩ := (h.mem_iff q p).1 hp
  obtain ⟨selected, heq⟩ := h.removeEntry_eq he ho
  have hself := h.unlinkedHeap_self he ho
  have hnp : st.next p = e.next := by simp [next, he]
  have hpp : st.prev p = e.prev := by simp [prev, he]
  -- the entries of the other queues keep their links
  have hother : ∀ x, x ≠ p → x ∉ lists q → st.unlinkedHeap p e x = st.heap x := by
    intro x hx hxq
    have hn : e.next ≠ some x := fun hc => hxq (h.next_mem he ho hc).1
    have hv : e.prev ≠ some x := fun hc => hxq (h.prev_mem he ho hc).1
    rw [unlinkedHeap_ne hx]
    simp [hn, hv]
  refine ⟨_, heq, ⟨?_, ?_, ?_, ?_⟩, ?_, _, hself, rfl⟩
  · intro q'
    by_cases hq : q' = q
    · subst hq
      simp only [Function.update_self, ← hnp, ← hpp]
      refine (h.linked q').unlink hp ?_ ?_
      all_goals
        intro x hx hxp
        obtain ⟨y, hy, -⟩ := (h.mem_iff _ _).1 hx
        simp only [hnp, hpp]
        simp [next, prev, unlinkedHeap_ne hxp, hy]
    · simp only [Function.update_of_ne hq]
      refine (h.linked q').congr ?_ ?_
      all_goals
        intro x hx
        have hxq : x ∉ lists q := fun hc => hq (h.queue_unique hx hc)
        have hxp : x ≠ p := fun hc => hxq (hc ▸ hp)
        simp [next, prev, hother x hxp hxq]
  · intro q'
    by_cases hq : q' = q
    · subst hq
      simp [List.length_erase_of_mem hp, h.size]
    · simp [Function.update_of_ne hq, h.size]
  · intro q' x
    by_cases hxp : x = p
    · subst hxp
      have hnot : x ∉ Function.update lists q ((lists q).erase x) q' := by
        by_cases hq : q' = q
        · subst hq
          simpa using fun hc => ((h.linked q').nodup.mem_erase_iff.1 hc).1 rfl
        · rw [Function.update_of_ne hq]
          exact fun hc => hq (h.queue_unique hc hp)
      simp [hnot, hself]
    · have hmem : x ∈ Function.update lists q ((lists q).erase p) q' ↔ x ∈ lists q' := by
        by_cases hq : q' = q
        · subst hq
          simp [(h.linked q').nodup.mem_erase_iff, hxp]
        · rw [Function.update_of_ne hq]
      rw [hmem, h.mem_iff]
      simp only [unlinkedHeap_ne hxp]
      cases st.heap x <;> simp
  · intro x y hy hyo
    dsimp only at hy
    by_cases hxp : x = p
    · subst hxp
      rw [hself] at hy
      obtain rfl := Option.some.inj hy
      exact ⟨rfl, rfl⟩
    · have hxq : x ∉ lists q := by
        intro hc
        obtain ⟨z, hz, hzo⟩ := (h.mem_iff q x).1 hc
        rw [unlinkedHeap_ne hxp, hz, Option.map_some] at hy
        obtain rfl := Option.some.inj hy
        rw [hzo] at hyo
        cases hyo
      rw [hother x hxp hxq] at hy
      exact h.free x y hy hyo
  · intro x
    by_cases hxp : x = p
    · subst hxp
      simp [payload, hself, he]
    · simp only [payload, unlinkedHeap_ne hxp]
      cases st.heap x <;> rfl

/-- The heap once the entry is behind the tail of a queue. -/
def appendedHeap (st : Store) (q : QueueName) (p : Ptr) : EntryHeap :=
  EntryHeap.adjust
    (EntryHeap.adjust st.heap (some p) fun e =>
      { e with owningQueue := some q, prev := (st.queue q).tail })
    (st.queue q).tail fun e => { e with next := some p }

/-- An entry without a queue is in no list. -/
theorem Wf.not_mem_of_free (h : Wf st lists) (he : st.heap p = some e)
    (ho : e.owningQueue = none) (q : QueueName) : p ∉ lists q := by
  intro hp
  obtain ⟨e', he', ho'⟩ := (h.mem_iff q p).1 hp
  obtain rfl : e = e' := Option.some.inj (he.symm.trans he')
  rw [ho] at ho'
  cases ho'

theorem Wf.tail_mem (h : Wf st lists) (hx : (st.queue q).tail = some x) : x ∈ lists q := by
  rw [(h.linked q).tail_eq] at hx
  exact List.mem_of_getLast? hx

/-- What `append_entry()` computes. -/
theorem Wf.appendEntry_eq (h : Wf st lists) (he : st.heap p = some e)
    (ho : e.owningQueue = none) (q : QueueName) :
    st.appendEntry q p = some
      { heap := st.appendedHeap q p
        queue := Function.update st.queue q
          { size := (st.queue q).size + 1
            head := if (st.queue q).head = none then some p else (st.queue q).head
            tail := some p
            selectedId := (st.queue q).selectedId } } := by
  have hlink := h.linked q
  rw [appendEntry, modify_eq he]
  simp only [Option.bind_eq_bind, Option.bind_some, Option.pure_def]
  by_cases hh : (st.queue q).head = none
  · have hl : lists q = [] := by
      rw [hlink.head_eq] at hh
      exact List.head?_eq_none_iff.1 hh
    have ht : (st.queue q).tail = none := by rw [hlink.tail_eq, hl]; rfl
    have hprev := (h.free p e he ho).2
    rw [if_pos hh]
    simp only [setQueue, Function.update_self, Function.update_idem, hh, if_true,
      appendedHeap, ht, EntryHeap.adjust_none, Option.some.injEq, Store.mk.injEq, and_true]
    funext x
    rw [EntryHeap.adjust_apply, EntryHeap.adjust_apply]
    by_cases hx : some p = some x
    · obtain rfl := Option.some.inj hx
      simp [he, hprev]
    · rw [if_neg hx, if_neg hx]
  · obtain ⟨t, ht⟩ : ∃ t, (st.queue q).tail = some t := by
      rw [hlink.head_eq] at hh
      rw [hlink.tail_eq]
      cases hl : lists q with
      | nil => simp [hl] at hh
      | cons y l => exact ⟨_, List.getLast?_eq_getLast_of_ne_nil (List.cons_ne_nil y l)⟩
    have hpt : p ≠ t := fun hc => h.not_mem_of_free he ho q (hc ▸ h.tail_mem ht)
    have hts : (st.heap t).isSome := h.isSome_of_mem (h.tail_mem ht)
    rw [if_neg hh, modify_of_isSome (by simp [EntryHeap.isSome_adjust, he])]
    simp only [Option.bind_some, ht]
    rw [modify_of_isSome (by simp [EntryHeap.isSome_adjust, hts])]
    simp only [Option.bind_some, setQueue, if_neg hh, appendedHeap, ht, Option.some.injEq,
      Store.mk.injEq, and_true]
    funext x
    simp only [EntryHeap.adjust_apply]
    cases st.heap x <;> split_ifs <;> rfl

theorem appendedHeap_ne (hx : x ≠ p) :
    st.appendedHeap q p x = (st.heap x).map fun y =>
      { y with next := if (st.queue q).tail = some x then some p else y.next } := by
  simp only [appendedHeap, EntryHeap.adjust_apply, Option.some.injEq, if_neg (Ne.symm hx)]
  cases st.heap x with
  | none => simp
  | some y => split_ifs <;> rfl

theorem Wf.appendedHeap_self (h : Wf st lists) (he : st.heap p = some e)
    (ho : e.owningQueue = none) (q : QueueName) :
    st.appendedHeap q p p =
      some { e with owningQueue := some q, prev := (st.queue q).tail } := by
  have hpt : (st.queue q).tail ≠ some p := fun hc => h.not_mem_of_free he ho q (h.tail_mem hc)
  simp [appendedHeap, EntryHeap.adjust_apply, hpt, he]

/-- **`Queue::append_entry()`** puts an entry without a queue behind the tail and changes nothing
else. -/
theorem Wf.appendEntry_spec (h : Wf st lists) (he : st.heap p = some e)
    (ho : e.owningQueue = none) (q : QueueName) :
    ∃ st', st.appendEntry q p = some st' ∧
      Wf st' (Function.update lists q (lists q ++ [p])) ∧
      (∀ x, st'.payload x = st.payload x) ∧
      ∃ e, st'.heap p = some e ∧ e.owningQueue = some q := by
  have hself := h.appendedHeap_self he ho q
  have hnot := h.not_mem_of_free he ho
  have hnull := h.free p e he ho
  refine ⟨_, h.appendEntry_eq he ho q, ⟨?_, ?_, ?_, ?_⟩, ?_, _, hself, rfl⟩
  · intro q'
    by_cases hq : q' = q
    · subst hq
      simp only [Function.update_self]
      refine (h.linked q').append (hnot q') ?_ ?_ ?_ ?_
      · simp [next, hself, hnull.1]
      · simp [prev, hself]
      all_goals
        intro x hx
        have hxp : x ≠ p := fun hc => hnot q' (hc ▸ hx)
        obtain ⟨y, hy, -⟩ := (h.mem_iff _ _).1 hx
        simp [next, prev, appendedHeap_ne hxp, hy]
    · simp only [Function.update_of_ne hq]
      refine (h.linked q').congr ?_ ?_
      all_goals
        intro x hx
        have hxp : x ≠ p := fun hc => hnot q' (hc ▸ hx)
        have hxt : (st.queue q).tail ≠ some x := fun hc =>
          hq (h.queue_unique hx (h.tail_mem hc))
        simp [next, prev, appendedHeap_ne hxp, hxt]
  · intro q'
    by_cases hq : q' = q
    · subst hq
      simp [h.size]
    · simp [Function.update_of_ne hq, h.size]
  · intro q' x
    by_cases hxp : x = p
    · subst hxp
      by_cases hq : q' = q
      · subst hq
        simp [hself]
      · rw [Function.update_of_ne hq]
        simp [hself, hnot q', Ne.symm hq]
    · have hmem : x ∈ Function.update lists q (lists q ++ [p]) q' ↔ x ∈ lists q' := by
        by_cases hq : q' = q
        · subst hq
          simp [hxp]
        · rw [Function.update_of_ne hq]
      rw [hmem, h.mem_iff]
      simp only [appendedHeap_ne hxp]
      cases st.heap x <;> simp
  · intro x y hy hyo
    dsimp only at hy
    by_cases hxp : x = p
    · subst hxp
      rw [hself] at hy
      obtain rfl := Option.some.inj hy
      cases hyo
    · rw [appendedHeap_ne hxp] at hy
      obtain ⟨z, hz, rfl⟩ := Option.map_eq_some_iff.1 hy
      have hxt : (st.queue q).tail ≠ some x := fun hc =>
        h.not_mem_of_free hz hyo q (h.tail_mem hc)
      simpa [hxt] using h.free x z hz hyo
  · intro x
    by_cases hxp : x = p
    · subst hxp
      simp [payload, hself, he]
    · simp only [payload, appendedHeap_ne hxp]
      cases st.heap x <;> rfl

/-- **`move_entry()`** takes the entry from its queue to the tail of another one. -/
theorem Wf.moveEntry_spec (h : Wf st lists) (hp : p ∈ lists q) (dst : QueueName) :
    ∃ st', st.moveEntry p dst = some (st', true) ∧
      Wf st' (Function.update (Function.update lists q ((lists q).erase p)) dst
        (Function.update lists q ((lists q).erase p) dst ++ [p])) ∧
      (∀ x, st'.payload x = st.payload x) ∧
      ∃ e, st'.heap p = some e ∧ e.owningQueue = some dst := by
  obtain ⟨e, he, ho⟩ := (h.mem_iff q p).1 hp
  obtain ⟨st₁, hrem, hwf₁, hpay₁, e₁, he₁, ho₁⟩ := h.removeEntry_spec hp
  obtain ⟨st₂, happ, hwf₂, hpay₂, hown⟩ := hwf₁.appendEntry_spec he₁ ho₁ dst
  refine ⟨st₂, ?_, hwf₂, fun x => (hpay₂ x).trans (hpay₁ x), hown⟩
  simp [moveEntry, he, ho, hrem, happ]

/-- The fields of an entry that the queues use. -/
def shape (st : Store) (p : Ptr) : Option (Option QueueName × Option Ptr × Option Ptr) :=
  (st.heap p).map fun e => (e.owningQueue, e.next, e.prev)

/-- There is no entry, or one outside of the queues. -/
def Unowned (st : Store) (p : Ptr) : Prop :=
  ∀ e, st.heap p = some e → e.owningQueue = none ∧ e.next = none ∧ e.prev = none

/-- Only the fields the queues use matter, and only those of the entries in a queue. -/
theorem Wf.transfer (h : Wf st lists) (hsize : ∀ q, (st'.queue q).size = (st.queue q).size)
    (hhead : ∀ q, (st'.queue q).head = (st.queue q).head)
    (htail : ∀ q, (st'.queue q).tail = (st.queue q).tail)
    (hheap : ∀ x, st'.shape x = st.shape x ∨ (st.Unowned x ∧ st'.Unowned x)) :
    Wf st' lists := by
  have hnot : ∀ q x, x ∈ lists q → st'.shape x = st.shape x := by
    intro q x hx
    rcases hheap x with hs | ⟨hu, -⟩
    · exact hs
    · obtain ⟨e, he, ho⟩ := (h.mem_iff q x).1 hx
      rw [(hu e he).1] at ho
      cases ho
  have hlinks : ∀ q x, x ∈ lists q → st'.next x = st.next x ∧ st'.prev x = st.prev x := by
    intro q x hx
    have := hnot q x hx
    simp only [shape] at this
    simp only [next, prev]
    cases h₁ : st.heap x <;> cases h₂ : st'.heap x <;> simp_all
  refine ⟨?_, fun q => (hsize q).trans (h.size q), ?_, ?_⟩
  · intro q
    rw [hhead, htail]
    exact (h.linked q).congr (fun x hx => (hlinks q x hx).1) (fun x hx => (hlinks q x hx).2)
  · intro q x
    rw [h.mem_iff]
    rcases hheap x with hs | ⟨hu, hu'⟩
    · simp only [shape] at hs
      cases h₁ : st.heap x <;> cases h₂ : st'.heap x <;> simp_all
    · constructor
      · rintro ⟨e, he, ho⟩
        rw [(hu e he).1] at ho
        cases ho
      · rintro ⟨e, he, ho⟩
        rw [(hu' e he).1] at ho
        cases ho
  · intro x e he ho
    rcases hheap x with hs | ⟨-, hu'⟩
    · simp only [shape, he, Option.map_some] at hs
      obtain ⟨e', he', hs⟩ := Option.map_eq_some_iff.1 hs.symm
      simp only [Prod.mk.injEq] at hs
      rw [← hs.2.1, ← hs.2.2]
      exact h.free x e' he' (hs.1.trans ho)
    · exact (hu' e he).2

end Store

end DrbdUtils.DrbdMon.SubProcessQueue
