import DrbdUtils.DrbdMon.SubProcessQueue
import Mathlib.Data.Finset.Card

/-!
# The worker threads of drbdmon's task queue

The invariant of `SubProcessQueue` in every state in which `queue_lock` is free, over every
interleaving of the critical sections, and when the workers keep up with the queue.

* `WorkersOk` — slots and threads: which slots are free, and which entry each thread executes.
* `QueuesOk` — entries, id map and counters.
* `step_spec` — every critical section is defined and keeps both.
* `taskQueue_run_iff` — they hold in every run; that no ready entry waits without a worker and no
  exception ends the program holds in exactly the runs without a `SubProcess::Exception` and
  without a `std::bad_alloc` under full load.
-/

set_option autoImplicit false

namespace DrbdUtils.DrbdMon.SubProcessQueue

open DrbdUtils.Lib

/-! ## Slots and threads -/

/-- The active entries are the ones a thread executes, each of them its own. -/
structure Executing (worker : Nat → Option Worker) (active : List Ptr) : Prop where
  nodup : active.Nodup
  mem_iff : ∀ p, p ∈ active ↔ ∃ i, worker i = some (.executing p)
  inj : ∀ i j p, worker i = some (.executing p) → worker j = some (.executing p) → i = j

/-- **The workers.**  The slots from `active_count` on are the ones without a thread. -/
structure WorkersOk (slots : List Nat) (activeCount : Nat) (worker : Nat → Option Worker)
    (active : List Ptr) : Prop where
  length : slots.length = maxActiveCount
  count_le : activeCount ≤ maxActiveCount
  free_nodup : (slots.drop activeCount).Nodup
  free_iff : ∀ i, i ∈ slots.drop activeCount ↔ i < maxActiveCount ∧ worker i = none
  lt : ∀ i, worker i ≠ none → i < maxActiveCount
  executing : Executing worker active

section Workers

variable {slots : List Nat} {activeCount slot : Nat} {worker : Nat → Option Worker}
  {active : List Ptr} {p : Ptr} {w : Option Worker}

/-- What the other threads execute when the one in a slot changes. -/
theorem executing_update_iff {i : Nat} :
    Function.update worker slot w i = some (.executing p) ↔
      (i = slot ∧ w = some (.executing p)) ∨ (i ≠ slot ∧ worker i = some (.executing p)) := by
  by_cases hi : i = slot
  · subst hi
    simp
  · simp [hi]

/-- A thread comes or leaves without an entry. -/
theorem Executing.update (h : Executing worker active)
    (hs : ∀ p, worker slot ≠ some (.executing p)) (hw : ∀ p, w ≠ some (.executing p)) :
    Executing (Function.update worker slot w) active := by
  have hiff : ∀ i p, Function.update worker slot w i = some (.executing p) ↔
      worker i = some (.executing p) := by
    intro i p
    rw [executing_update_iff]
    constructor
    · rintro (⟨-, hc⟩ | ⟨-, hi⟩)
      · exact absurd hc (hw p)
      · exact hi
    · intro hi
      exact .inr ⟨fun hc => hs p (hc ▸ hi), hi⟩
  refine ⟨h.nodup, ?_, ?_⟩
  · intro p
    simp only [hiff]
    exact h.mem_iff p
  · intro i j p hi hj
    exact h.inj i j p ((hiff i p).1 hi) ((hiff j p).1 hj)

/-- A thread begins to execute an entry. -/
theorem Executing.begin (h : Executing worker active)
    (hs : ∀ p, worker slot ≠ some (.executing p)) (hp : p ∉ active) :
    Executing (Function.update worker slot (some (.executing p))) (active ++ [p]) := by
  refine ⟨?_, ?_, ?_⟩
  · refine List.nodup_append.2 ⟨h.nodup, by simp, ?_⟩
    intro a ha b hb hab
    rw [List.mem_singleton] at hb
    exact hp (hb ▸ hab ▸ ha)
  · intro x
    rw [List.mem_append, List.mem_singleton, h.mem_iff]
    simp only [executing_update_iff]
    constructor
    · rintro (⟨i, hi⟩ | rfl)
      · exact ⟨i, .inr ⟨fun hc => hs x (hc ▸ hi), hi⟩⟩
      · exact ⟨slot, .inl ⟨rfl, rfl⟩⟩
    · rintro ⟨i, ⟨-, hx⟩ | ⟨-, hi⟩⟩
      · exact .inr (Worker.executing.inj (Option.some.inj hx)).symm
      · exact .inl ⟨i, hi⟩
  · intro i j x hi hj
    rw [executing_update_iff] at hi hj
    have hnot : ∀ k, worker k = some (.executing p) → False := fun k hk =>
      hp ((h.mem_iff p).2 ⟨k, hk⟩)
    rcases hi with ⟨rfl, hx⟩ | ⟨-, hi⟩ <;> rcases hj with ⟨rfl, hx'⟩ | ⟨-, hj⟩
    · rfl
    · obtain rfl := Worker.executing.inj (Option.some.inj hx)
      exact (hnot j hj).elim
    · obtain rfl := Worker.executing.inj (Option.some.inj hx')
      exact (hnot i hi).elim
    · exact h.inj i j x hi hj

/-- A thread has executed its entry. -/
theorem Executing.finish (h : Executing worker active)
    (hs : worker slot = some (.executing p)) :
    Executing (Function.update worker slot (some .started)) (active.erase p) := by
  have hiff : ∀ i x, Function.update worker slot (some .started) i = some (.executing x) ↔
      i ≠ slot ∧ worker i = some (.executing x) := by
    intro i x
    rw [executing_update_iff]
    simp
  refine ⟨h.nodup.erase p, ?_, ?_⟩
  · intro x
    rw [h.nodup.mem_erase_iff, h.mem_iff]
    simp only [hiff]
    constructor
    · rintro ⟨hx, i, hi⟩
      refine ⟨i, ?_, hi⟩
      rintro rfl
      rw [hs] at hi
      exact hx (Worker.executing.inj (Option.some.inj hi)).symm
    · rintro ⟨i, hne, hi⟩
      refine ⟨?_, i, hi⟩
      rintro rfl
      exact hne (h.inj i slot x hi hs)
  · intro i j x hi hj
    exact h.inj i j x ((hiff i x).1 hi).2 ((hiff j x).1 hj).2

/-- The number of threads is `active_count`. -/
theorem WorkersOk.card_busy (h : WorkersOk slots activeCount worker active) :
    ((Finset.range maxActiveCount).filter fun i => ¬worker i = none).card = activeCount := by
  have hfree : ((Finset.range maxActiveCount).filter fun i => worker i = none) =
      (slots.drop activeCount).toFinset := by
    ext i
    rw [List.mem_toFinset, h.free_iff, Finset.mem_filter, Finset.mem_range]
  have hcard := Finset.card_filter_add_card_filter_not (s := Finset.range maxActiveCount)
    (fun i => worker i = none)
  rw [hfree, List.toFinset_card_of_nodup h.free_nodup, List.length_drop, h.length,
    Finset.card_range] at hcard
  have := h.count_le
  omega

/-- There are at most as many active entries as threads. -/
theorem WorkersOk.active_le (h : WorkersOk slots activeCount worker active) :
    active.length ≤ activeCount := by
  have hsub : (active.map fun p => some (Worker.executing p)).toFinset ⊆
      ((Finset.range maxActiveCount).filter fun i => ¬worker i = none).image worker := by
    intro w hw
    rw [List.mem_toFinset, List.mem_map] at hw
    obtain ⟨p, hp, rfl⟩ := hw
    obtain ⟨i, hi⟩ := (h.executing.mem_iff p).1 hp
    have hne : worker i ≠ none := by
      rw [hi]
      exact Option.some_ne_none _
    exact Finset.mem_image.2 ⟨i, by simp [hne, h.lt i hne], hi⟩
  have hnd : (active.map fun p => some (Worker.executing p)).Nodup := by
    refine h.executing.nodup.map ?_
    intro a b hab
    exact Worker.executing.inj (Option.some.inj hab)
  have hle := (Finset.card_le_card hsub).trans Finset.card_image_le
  rw [List.toFinset_card_of_nodup hnd, List.length_map, h.card_busy] at hle
  exact hle

/-- A thread in a slot counts. -/
theorem WorkersOk.count_pos (h : WorkersOk slots activeCount worker active)
    (hw : worker slot ≠ none) : 0 < activeCount := by
  rw [← h.card_busy, Finset.card_pos]
  exact ⟨slot, by simp [hw, h.lt slot hw]⟩

/-- A new thread takes the first free slot. -/
theorem WorkersOk.startWorker (h : WorkersOk slots activeCount worker active)
    (hs : slots[activeCount]? = some slot) :
    WorkersOk slots (activeCount + 1) (Function.update worker slot (some .started)) active := by
  obtain ⟨hlt, hget⟩ := List.getElem?_eq_some_iff.1 hs
  have hdrop : slots.drop activeCount = slot :: slots.drop (activeCount + 1) := by
    rw [List.drop_eq_getElem_cons hlt, hget]
  have hnd := h.free_nodup
  rw [hdrop, List.nodup_cons] at hnd
  have hfree := (h.free_iff slot).1 (by rw [hdrop]; exact List.mem_cons_self)
  refine ⟨h.length, by rw [← h.length]; exact hlt, hnd.2, ?_, ?_, ?_⟩
  · intro i
    by_cases hi : i = slot
    · subst hi
      simp [hnd.1]
    · rw [Function.update_of_ne hi, ← h.free_iff, hdrop, List.mem_cons]
      simp [hi]
  · intro i hw
    by_cases hi : i = slot
    · exact hi ▸ hfree.1
    · rw [Function.update_of_ne hi] at hw
      exact h.lt i hw
  · exact h.executing.update (by simp [hfree.2]) (by simp)

/-- A thread leaves its slot. -/
theorem WorkersOk.workerExit (h : WorkersOk slots activeCount worker active)
    (hs : worker slot = some .started) :
    WorkersOk (slots.set (activeCount - 1) slot) (activeCount - 1)
      (Function.update worker slot none) active := by
  have hne : worker slot ≠ none := by simp [hs]
  have hpos := h.count_pos hne
  have hle := h.count_le
  have hlen := h.length
  have hdrop : (slots.set (activeCount - 1) slot).drop (activeCount - 1) =
      slot :: slots.drop activeCount := by
    rw [List.drop_eq_getElem_cons (by rw [List.length_set]; omega), List.getElem_set_self,
      List.drop_set_of_lt (by omega), Nat.sub_add_cancel hpos]
  have hfree : slot ∉ slots.drop activeCount := fun hc => hne ((h.free_iff slot).1 hc).2
  refine ⟨by rw [List.length_set, hlen], by omega, ?_, ?_, ?_, ?_⟩
  · rw [hdrop]
    exact List.nodup_cons.2 ⟨hfree, h.free_nodup⟩
  · intro i
    rw [hdrop, List.mem_cons]
    by_cases hi : i = slot
    · subst hi
      simp [h.lt i hne]
    · simp [hi, h.free_iff]
  · intro i hw
    by_cases hi : i = slot
    · exact hi ▸ h.lt slot hne
    · rw [Function.update_of_ne hi] at hw
      exact h.lt i hw
  · exact h.executing.update (by simp [hs]) (by simp)

/-- The thread in a slot changes what it does. -/
theorem WorkersOk.setWorker (h : WorkersOk slots activeCount worker active)
    (hs : worker slot ≠ none) (hw : w ≠ none) {active' : List Ptr}
    (he : Executing (Function.update worker slot w) active') :
    WorkersOk slots activeCount (Function.update worker slot w) active' := by
  refine ⟨h.length, h.count_le, h.free_nodup, ?_, ?_, he⟩
  · intro i
    by_cases hi : i = slot
    · subst hi
      simp [h.free_iff, hs, hw]
    · rw [Function.update_of_ne hi, h.free_iff]
  · intro i hne
    by_cases hi : i = slot
    · exact hi ▸ h.lt slot hs
    · rw [Function.update_of_ne hi] at hne
      exact h.lt i hne

/-- A thread without an entry is one more than the active entries. -/
theorem WorkersOk.active_lt (h : WorkersOk slots activeCount worker active)
    (hs : worker slot = some .started) : active.length < activeCount := by
  have hle := (h.workerExit hs).active_le
  have hpos := h.count_pos (show worker slot ≠ none by simp [hs])
  omega

end Workers

/-! ## Entries, ids and counters -/

/-- The number of entries in the four queues. -/
def total (lists : QueueName → List Ptr) : Nat :=
  (lists .wait).length + (lists .ready).length + (lists .active).length + (lists .ended).length

/-- **The queues.**  The entries in memory are the ones in the four well formed queues and in the
id map, and they are counted; an entry that waits or is ready has not been executed. -/
structure QueuesOk (s : State) (lists : QueueName → List Ptr) : Prop where
  wf : s.store.Wf lists
  owned : ∀ p e, s.store.heap p = some e → ∃ q, p ∈ lists q
  map_iff : ∀ id p, s.map.get id = some p ↔ ∃ e, s.store.heap p = some e ∧ e.id = id
  count : s.entryCount = total lists
  count_le : s.entryCount ≤ maxEntryCount
  serial_lt : ∀ p e, s.store.heap p = some e → e.serial < s.added
  serial_inj : ∀ p p' e e', s.store.heap p = some e → s.store.heap p' = some e' →
    e.serial = e'.serial → p = p'
  executed_lt : ∀ n ∈ s.executed, n < s.added
  executed_nodup : s.executed.Nodup
  fresh : ∀ p e, s.store.heap p = some e → p ∈ lists .wait ∨ p ∈ lists .ready →
    e.process = none ∧ e.serial ∉ s.executed

/-- The lists once `p` has moved from the queue `q` to `dst`. -/
def moved (lists : QueueName → List Ptr) (p : Ptr) (q dst : QueueName) : QueueName → List Ptr :=
  Function.update (Function.update lists q ((lists q).erase p)) dst
    (Function.update lists q ((lists q).erase p) dst ++ [p])

section Queues

variable {s s' : State} {st st' : Store} {lists lists' : QueueName → List Ptr} {p x : Ptr}
  {e : Entry} {q q' dst : QueueName}

theorem total_moved (hp : p ∈ lists q) : total (moved lists p q dst) = total lists := by
  have hlen := List.length_erase_of_mem hp
  have hpos := List.length_pos_of_mem hp
  cases q <;> cases dst <;> simp [moved, total, Function.update, hlen] <;> omega

theorem mem_erased (h : st.Wf lists) (hp : p ∈ lists q) :
    x ∈ Function.update lists q ((lists q).erase p) q' ↔ x ≠ p ∧ x ∈ lists q' := by
  by_cases hq : q' = q
  · subst hq
    rw [Function.update_self, (h.linked q').nodup.mem_erase_iff]
  · rw [Function.update_of_ne hq]
    constructor
    · intro hx
      exact ⟨fun hc => hq (h.queue_unique (hc ▸ hx) hp), hx⟩
    · exact fun hx => hx.2

theorem mem_moved (h : st.Wf lists) (hp : p ∈ lists q) :
    x ∈ moved lists p q dst q' ↔ (x = p ∧ q' = dst) ∨ (x ≠ p ∧ x ∈ lists q') := by
  have hmem : x ∈ Function.update lists q ((lists q).erase p) q' ↔ x ≠ p ∧ x ∈ lists q' :=
    mem_erased h hp
  by_cases hd : q' = dst
  · subst hd
    rw [moved, Function.update_self, List.mem_append, List.mem_singleton, hmem, or_comm]
    simp
  · rw [moved, Function.update_of_ne hd, hmem]
    simp [hd]

/-- The queues of a state whose entries only changed places, links and handlers. -/
theorem QueuesOk.of_store (h : QueuesOk s lists) (hwf : st'.Wf lists')
    (hid : ∀ x e', st'.heap x = some e' → ∃ e, s.store.heap x = some e ∧ e'.id = e.id ∧
      e'.serial = e.serial ∧
      (x ∈ lists' .wait ∨ x ∈ lists' .ready →
        e'.process = e.process ∧ (x ∈ lists .wait ∨ x ∈ lists .ready)))
    (hsome : ∀ x, (s.store.heap x).isSome → (st'.heap x).isSome)
    (hown : ∀ x q, x ∈ lists q → ∃ q', x ∈ lists' q') (htot : total lists' = total lists) :
    QueuesOk { s with store := st' } lists' := by
  refine ⟨hwf, ?_, ?_, h.count.trans htot.symm, h.count_le, ?_, ?_, h.executed_lt,
    h.executed_nodup, ?_⟩
  · intro x e' he'
    obtain ⟨e, he, -⟩ := hid x e' he'
    obtain ⟨q, hq⟩ := h.owned x e he
    exact hown x q hq
  · intro id x
    rw [h.map_iff]
    constructor
    · rintro ⟨e, he, rfl⟩
      obtain ⟨e', he'⟩ := Option.isSome_iff_exists.1 (hsome x (by simp [he]))
      obtain ⟨y, hy, hyi, -⟩ := hid x e' he'
      obtain rfl : e = y := Option.some.inj (he.symm.trans hy)
      exact ⟨e', he', hyi⟩
    · rintro ⟨e', he', rfl⟩
      obtain ⟨e, he, hi, -⟩ := hid x e' he'
      exact ⟨e, he, hi.symm⟩
  · intro x e' he'
    obtain ⟨e, he, -, hs, -⟩ := hid x e' he'
    rw [hs]
    exact h.serial_lt x e he
  · intro x y e' f' he' hf' hs
    obtain ⟨e, he, -, hse, -⟩ := hid x e' he'
    obtain ⟨f, hf, -, hsf, -⟩ := hid y f' hf'
    exact h.serial_inj x y e f he hf (hse.symm.trans (hs.trans hsf))
  · intro x e' he' hx
    obtain ⟨e, he, -, hs, hp⟩ := hid x e' he'
    obtain ⟨hpr, hx'⟩ := hp hx
    rw [hpr, hs]
    exact h.fresh x e he hx'

/-- An entry with the same payload as before. -/
theorem exists_of_payload (hpay : ∀ x, st'.payload x = st.payload x) {e' : Entry}
    (he' : st'.heap x = some e') : ∃ e, st.heap x = some e ∧ e'.id = e.id ∧
      e'.process = e.process ∧ e'.serial = e.serial := by
  have := hpay x
  rw [Store.payload, he', Option.map_some] at this
  obtain ⟨e, he, hpl⟩ := Option.map_eq_some_iff.1 this.symm
  simp only [Prod.mk.injEq] at hpl
  exact ⟨e, he, hpl.1.symm, hpl.2.1.symm, hpl.2.2.symm⟩

theorem isSome_of_payload (hpay : ∀ x, st'.payload x = st.payload x) (hx : (st.heap x).isSome) :
    (st'.heap x).isSome := by
  have := congrArg Option.isSome (hpay x)
  simpa [Store.payload, hx] using this

/-- **Moving an entry** between queues; it comes to the waiting or ready queue only from there. -/
theorem QueuesOk.moveEntry (h : QueuesOk s lists) (hp : p ∈ lists q) (dst : QueueName)
    (hdst : dst = .wait ∨ dst = .ready → q = .wait ∨ q = .ready) :
    ∃ st', s.store.moveEntry p dst = some (st', true) ∧
      QueuesOk { s with store := st' } (moved lists p q dst) ∧
      (∀ x, st'.payload x = s.store.payload x) := by
  obtain ⟨st', heq, hwf, hpay, -⟩ := h.wf.moveEntry_spec hp dst
  refine ⟨st', heq, h.of_store hwf ?_ ?_ ?_ (total_moved hp), hpay⟩
  · intro x e' he'
    obtain ⟨e, he, hi, hpr, hs⟩ := exists_of_payload hpay he'
    refine ⟨e, he, hi, hs, fun hx => ⟨hpr, ?_⟩⟩
    have hmem : ∀ r, x ∈ moved lists p q dst r → (x = p ∧ r = dst) ∨ (x ≠ p ∧ x ∈ lists r) :=
      fun r hr => (mem_moved h.wf hp).1 hr
    have hback : ∀ r, r = .wait ∨ r = .ready → x ∈ moved lists p q dst r →
        x ∈ lists .wait ∨ x ∈ lists .ready := by
      intro r hr hxr
      rcases hmem r hxr with ⟨rfl, rfl⟩ | ⟨-, hx⟩
      · rcases hdst hr with rfl | rfl
        · exact .inl hp
        · exact .inr hp
      · rcases hr with rfl | rfl
        · exact .inl hx
        · exact .inr hx
    rcases hx with hx | hx
    · exact hback .wait (.inl rfl) hx
    · exact hback .ready (.inr rfl) hx
  · exact fun x hx => isSome_of_payload hpay hx
  · intro x r hx
    by_cases hxp : x = p
    · exact ⟨dst, (mem_moved h.wf hp).2 (.inl ⟨hxp, rfl⟩)⟩
    · exact ⟨r, (mem_moved h.wf hp).2 (.inr ⟨hxp, hx⟩)⟩

/-- The queues do not depend on threads and flags. -/
theorem QueuesOk.congr (h : QueuesOk s lists) (hst : s'.store = s.store) (hm : s'.map = s.map)
    (hc : s'.entryCount = s.entryCount) (ha : s'.added = s.added)
    (he : s'.executed = s.executed) : QueuesOk s' lists := by
  obtain ⟨h₁, h₂, h₃, h₄, h₅, h₆, h₇, h₈, h₉, h₁₀⟩ := h
  exact ⟨hst ▸ h₁, hst ▸ h₂, by rw [hm, hst]; exact h₃, hc ▸ h₄, hc ▸ h₅, by rw [hst, ha]; exact h₆,
    hst ▸ h₇, by rw [he, ha]; exact h₈, he ▸ h₉, by rw [hst, he]; exact h₁₀⟩

/-- A handler is set for an active entry. -/
theorem QueuesOk.setProcess (h : QueuesOk s lists) (hp : p ∈ lists .active)
    (process : Option Int) :
    ∃ st', s.store.modify (some p) (fun e => { e with process := process }) = some st' ∧
      QueuesOk { s with store := st' } lists ∧
      (∀ e, s.store.heap p = some e → st'.heap p = some { e with process := process }) := by
  obtain ⟨e, he, ho⟩ := (h.wf.mem_iff _ p).1 hp
  refine ⟨_, Store.modify_eq he _, h.of_store ?_ ?_ ?_ (fun x q hx => ⟨q, hx⟩) rfl, ?_⟩
  · refine h.wf.transfer (fun _ => rfl) (fun _ => rfl) (fun _ => rfl) (fun x => .inl ?_)
    simp only [Store.shape, EntryHeap.adjust_apply]
    split
    · cases s.store.heap x <;> rfl
    · rfl
  · intro x e' he'
    simp only [EntryHeap.adjust_apply] at he'
    split at he'
    · next hx =>
      obtain rfl := Option.some.inj hx
      obtain ⟨y, hy, rfl⟩ := Option.map_eq_some_iff.1 he'
      refine ⟨y, hy, rfl, rfl, ?_⟩
      rintro (hc | hc)
      · cases h.wf.queue_unique hp hc
      · cases h.wf.queue_unique hp hc
    · exact ⟨e', he', rfl, rfl, fun hx => ⟨rfl, hx⟩⟩
  · intro x hx
    exact (EntryHeap.isSome_adjust _ _ _ x).trans hx
  · intro e he
    simp [EntryHeap.adjust_apply, he]

theorem total_erase (hp : p ∈ lists q) :
    total (Function.update lists q ((lists q).erase p)) = total lists - 1 := by
  have hlen := List.length_erase_of_mem hp
  have hpos := List.length_pos_of_mem hp
  cases q <;> simp [total, Function.update, hlen] <;> omega

/-- **`remove_entry_impl()`** deletes an entry that is not active. -/
theorem QueuesOk.removeEntryImpl (h : QueuesOk s lists) (hp : p ∈ lists q) (hq : q ≠ .active) :
    ∃ st' map n, s.removeEntryImpl p =
        some ({ s with store := st', map := map, entryCount := n }, true) ∧
      QueuesOk { s with store := st', map := map, entryCount := n }
        (Function.update lists q ((lists q).erase p)) := by
  obtain ⟨e, he, ho⟩ := (h.wf.mem_iff q p).1 hp
  obtain ⟨st₁, hrem, hwf, hpay, e₁, he₁, ho₁⟩ := h.wf.removeEntry_spec hp
  have hne : ∀ x e', Function.update st₁.heap p none x = some e' →
      x ≠ p ∧ ∃ e, s.store.heap x = some e ∧ e'.id = e.id ∧ e'.process = e.process ∧
        e'.serial = e.serial := by
    intro x e' he'
    have hxp : x ≠ p := by
      rintro rfl
      simp at he'
    rw [Function.update_of_ne hxp] at he'
    exact ⟨hxp, exists_of_payload hpay he'⟩
  refine ⟨{ st₁ with heap := Function.update st₁.heap p none }, s.map.remove e.id,
    s.entryCount - 1, ?_, ⟨?_, ?_, ?_, ?_, ?_, ?_, ?_, h.executed_lt, h.executed_nodup, ?_⟩⟩
  · simp [State.removeEntryImpl, he, ho, hq, hrem]
  · refine hwf.transfer (fun _ => rfl) (fun _ => rfl) (fun _ => rfl) ?_
    intro x
    by_cases hxp : x = p
    · subst hxp
      refine .inr ⟨?_, ?_⟩
      · intro y hy
        obtain rfl : e₁ = y := Option.some.inj (he₁.symm.trans hy)
        exact ⟨ho₁, hwf.free x e₁ he₁ ho₁⟩
      · intro y hy
        simp at hy
    · refine .inl ?_
      simp [Store.shape, Function.update_of_ne hxp]
  · intro x e' he'
    obtain ⟨hxp, y, hy, -⟩ := hne x e' he'
    obtain ⟨r, hr⟩ := h.owned x y hy
    exact ⟨r, (mem_erased h.wf hp).2 ⟨hxp, hr⟩⟩
  · intro id x
    rw [OrdMap.get_remove]
    constructor
    · intro hget
      split at hget
      · cases hget
      · next hid =>
        obtain ⟨y, hy, hyi⟩ := (h.map_iff id x).1 hget
        have hxp : x ≠ p := by
          rintro rfl
          obtain rfl : e = y := Option.some.inj (he.symm.trans hy)
          exact hid hyi.symm
        obtain ⟨e', he'⟩ := Option.isSome_iff_exists.1
          (isSome_of_payload hpay (x := x) (by simp [hy]))
        obtain ⟨z, hz, hzi, -⟩ := exists_of_payload hpay he'
        obtain rfl : y = z := Option.some.inj (hy.symm.trans hz)
        exact ⟨e', by simp [Function.update_of_ne hxp, he'], hzi.trans hyi⟩
    · rintro ⟨e', he', rfl⟩
      obtain ⟨hxp, y, hy, hyi, -⟩ := hne x e' he'
      have hget := (h.map_iff y.id x).2 ⟨y, hy, rfl⟩
      have hid : e'.id ≠ e.id := by
        intro hc
        have hget' := (h.map_iff e.id p).2 ⟨e, he, rfl⟩
        rw [← hc, hyi, hget] at hget'
        exact hxp (Option.some.inj hget')
      rw [if_neg hid, hyi, hget]
  · have := h.count
    rw [total_erase hp]
    dsimp only
    omega
  · have := h.count_le
    dsimp only
    omega
  · intro x e' he'
    obtain ⟨-, y, hy, -, -, hys⟩ := hne x e' he'
    rw [hys]
    exact h.serial_lt x y hy
  · intro x y e' f' he' hf' hs
    obtain ⟨-, a, ha, -, -, has⟩ := hne x e' he'
    obtain ⟨-, b, hb, -, -, hbs⟩ := hne y f' hf'
    exact h.serial_inj x y a b ha hb (has.symm.trans (hs.trans hbs))
  · intro x e' he' hx
    obtain ⟨-, y, hy, -, hyp, hys⟩ := hne x e' he'
    rw [hyp, hys]
    refine h.fresh x y hy ?_
    rcases hx with hx | hx
    · exact .inl ((mem_erased h.wf hp).1 hx).2
    · exact .inr ((mem_erased h.wf hp).1 hx).2

/-- **The end of an entry.**  It leaves the active queue, for the ended one or for good. -/
theorem QueuesOk.endEntry (h : QueuesOk s lists) (hp : p ∈ lists .active) :
    ∃ st' map n lists', s.endEntry p =
        some { s with store := st', map := map, entryCount := n } ∧
      QueuesOk { s with store := st', map := map, entryCount := n } lists' ∧
      lists' .active = (lists .active).erase p ∧ lists' .ready = lists .ready := by
  obtain ⟨st₁, hmove, h₁, -⟩ := h.moveEntry hp .ended (by simp)
  have hend : p ∈ moved lists p .active .ended .ended :=
    (mem_moved h.wf hp).2 (.inl ⟨rfl, rfl⟩)
  obtain ⟨e, he, -⟩ := (h₁.wf.mem_iff _ p).1 hend
  dsimp only at he
  by_cases hd : s.discards e.process
  · obtain ⟨st', map, n, hrem, h₂⟩ := h₁.removeEntryImpl hend (by simp)
    refine ⟨st', map, n, _, ?_, h₂, by simp [moved], by simp [moved]⟩
    have hd' : State.discards { s with store := st₁ } e.process = true := hd
    simp [State.endEntry, hmove, he, hd', hrem]
  · refine ⟨st₁, s.map, s.entryCount, _, ?_, h₁, by simp [moved], by simp [moved]⟩
    have hd' : ¬State.discards { s with store := st₁ } e.process = true := hd
    simp [State.endEntry, hmove, he, hd']

/-- **A new entry** in the waiting or ready queue. -/
theorem QueuesOk.insertEntry (h : QueuesOk s lists) (hfree : s.store.heap p = none)
    (hcount : s.entryCount < maxEntryCount) {map : OrdMap Nat Ptr}
    (hmap : s.map.insert s.nextId p = some map) (q : QueueName) :
    ∃ st', Store.appendEntry
        { s.store with heap := Function.update s.store.heap p (some s.newEntry) } q p =
        some st' ∧
      QueuesOk
        { s with
          store := st'
          map := map
          nextId := (s.nextId + 1) % 2 ^ 64
          entryCount := s.entryCount + 1
          added := s.added + 1 } (Function.update lists q (lists q ++ [p])) := by
  have hwf₀ : Store.Wf
      { s.store with heap := Function.update s.store.heap p (some s.newEntry) } lists := by
    refine h.wf.transfer (fun _ => rfl) (fun _ => rfl) (fun _ => rfl) ?_
    intro x
    by_cases hx : x = p
    · subst hx
      refine .inr ⟨?_, ?_⟩
      · intro y hy
        rw [hfree] at hy
        cases hy
      · intro y hy
        simp only [Function.update_self, Option.some.injEq] at hy
        subst hy
        exact ⟨rfl, rfl, rfl⟩
    · refine .inl ?_
      simp [Store.shape, Function.update_of_ne hx]
  obtain ⟨st', happ, hwf, hpay, -⟩ := hwf₀.appendEntry_spec (e := s.newEntry)
    (Function.update_self p _ _) rfl q
  have hnot : ∀ r, p ∉ lists r := by
    intro r hr
    obtain ⟨y, hy, -⟩ := (h.wf.mem_iff r p).1 hr
    rw [hfree] at hy
    cases hy
  have hmem : ∀ x r, x ≠ p → x ∈ Function.update lists q (lists q ++ [p]) r → x ∈ lists r := by
    intro x r hx hr
    by_cases hq : r = q
    · subst hq
      simpa [hx] using hr
    · rwa [Function.update_of_ne hq] at hr
  -- an entry of the new state is the new one or one that was there before
  have hcases : ∀ x e', st'.heap x = some e' →
      (x = p ∧ e'.id = s.nextId ∧ e'.process = none ∧ e'.serial = s.added) ∨
      (x ≠ p ∧ ∃ e, s.store.heap x = some e ∧ e'.id = e.id ∧ e'.process = e.process ∧
        e'.serial = e.serial) := by
    intro x e' he'
    obtain ⟨y, hy, hyi, hyp, hys⟩ := exists_of_payload hpay he'
    by_cases hx : x = p
    · subst hx
      simp only [Function.update_self, Option.some.injEq] at hy
      subst hy
      exact .inl ⟨rfl, hyi, hyp, hys⟩
    · simp only [Function.update_of_ne hx] at hy
      exact .inr ⟨hx, y, hy, hyi, hyp, hys⟩
  refine ⟨st', happ, ⟨hwf, ?_, ?_, ?_, hcount, ?_, ?_, ?_, h.executed_nodup, ?_⟩⟩
  · intro x e' he'
    rcases hcases x e' he' with ⟨rfl, -⟩ | ⟨hx, y, hy, -⟩
    · exact ⟨q, by simp⟩
    · obtain ⟨r, hr⟩ := h.owned x y hy
      refine ⟨r, ?_⟩
      by_cases hq : r = q
      · subst hq
        simp [hr]
      · rwa [Function.update_of_ne hq]
  · intro id x
    rw [OrdMap.get_insert hmap]
    have hsome : ∀ y, (Function.update s.store.heap p (some s.newEntry) y).isSome →
        (st'.heap y).isSome := fun y hy => isSome_of_payload hpay hy
    have hnone : s.map.get s.nextId = none := by
      by_contra hc
      rw [OrdMap.insert_eq_none_iff.2 hc] at hmap
      cases hmap
    constructor
    · intro hget
      split at hget
      · next hid =>
        obtain rfl := Option.some.inj hget
        obtain ⟨e', he'⟩ := Option.isSome_iff_exists.1 (hsome p (by simp))
        rcases hcases p e' he' with ⟨-, hi, -⟩ | ⟨hc, -⟩
        · exact ⟨e', he', hi.trans hid.symm⟩
        · exact absurd rfl hc
      · obtain ⟨y, hy, hyi⟩ := (h.map_iff id x).1 hget
        have hx : x ≠ p := by
          rintro rfl
          rw [hfree] at hy
          cases hy
        obtain ⟨e', he'⟩ := Option.isSome_iff_exists.1
          (hsome x (by simp [Function.update_of_ne hx, hy]))
        rcases hcases x e' he' with ⟨hc, -⟩ | ⟨-, z, hz, hzi, -⟩
        · exact absurd hc hx
        · obtain rfl : y = z := Option.some.inj (hy.symm.trans hz)
          exact ⟨e', he', hzi.trans hyi⟩
    · rintro ⟨e', he', rfl⟩
      rcases hcases x e' he' with ⟨rfl, hi, -⟩ | ⟨hx, y, hy, hyi, -⟩
      · rw [if_pos hi]
      · have hget := (h.map_iff y.id x).2 ⟨y, hy, rfl⟩
        rw [hyi, if_neg, hget]
        intro hc
        rw [hc, hnone] at hget
        cases hget
  · have hc := h.count
    cases q <;> simp [total, Function.update] <;> simp only [total] at hc <;> omega
  · intro x e' he'
    dsimp only
    rcases hcases x e' he' with ⟨-, -, -, hs⟩ | ⟨-, y, hy, -, -, hs⟩
    · omega
    · have := h.serial_lt x y hy
      omega
  · intro x y e' f' he' hf' hs
    rcases hcases x e' he' with ⟨rfl, -, -, has⟩ | ⟨-, a, ha, -, -, has⟩ <;>
      rcases hcases y f' hf' with ⟨rfl, -, -, hbs⟩ | ⟨-, b, hb, -, -, hbs⟩
    · rfl
    · have := h.serial_lt y b hb
      omega
    · have := h.serial_lt x a ha
      omega
    · exact h.serial_inj x y a b ha hb (has.symm.trans (hs.trans hbs))
  · intro n hn
    have := h.executed_lt n hn
    dsimp only
    omega
  · intro x e' he' hx
    rcases hcases x e' he' with ⟨-, -, hpr, hs⟩ | ⟨hxp, y, hy, -, hpr, hs⟩
    · refine ⟨hpr, fun hc => ?_⟩
      have := h.executed_lt _ hc
      omega
    · rw [hpr, hs]
      refine h.fresh x y hy ?_
      rcases hx with hx | hx
      · exact .inl (hmem x _ hxp hx)
      · exact .inr (hmem x _ hxp hx)

end Queues

/-! ## Critical sections -/

/-- **The invariant** of the states in which the lock is free. -/
structure Inv (s : State) (lists : QueueName → List Ptr) : Prop where
  queues : QueuesOk s lists
  workers : WorkersOk s.slots s.activeCount s.worker (lists .active)

/-- There are enough workers for the entries that are ready or active. -/
def Enough (s : State) : Prop :=
  s.shutdown = false → min s.load maxActiveCount ≤ s.activeCount

/-- No ready entry waits without a worker, and the program runs. -/
def Live (s : State) : Prop := Enough s ∧ s.terminated = false

/-- Whether a critical section leaves the workers able to keep up: no task throws
`SubProcess::Exception`, and `std::bad_alloc` ends a worker only when there is not more work than
workers.  An entry that has just ended does not count any more when the next one is taken. -/
def StepOk (s : State) : Action → Prop
  | .start _ handler => s.shutdown = true ∨ handler = true ∨ s.load ≤ maxActiveCount
  | .finish _ outcome handler =>
    match outcome.exc with
    | none => s.shutdown = true ∨ handler = true ∨ s.load ≤ maxActiveCount + 1
    | some .badAlloc => s.shutdown = true ∨ s.load ≤ maxActiveCount
    | some .subProcess => False
  | _ => True

section Sections

variable {s s' : State} {lists : QueueName → List Ptr} {p : Ptr} {slot : Nat}

theorem QueuesOk.load_eq (h : QueuesOk s lists) :
    s.load = (lists .ready).length + (lists .active).length := by
  rw [State.load, h.wf.size, h.wf.size]

theorem startWorkers_spec {active : List Ptr} (n : Nat) (s : State)
    (h : WorkersOk s.slots s.activeCount s.worker active)
    (hn : s.activeCount + n ≤ maxActiveCount) :
    ∃ worker, State.startWorkers n s =
        some { s with worker := worker, activeCount := s.activeCount + n } ∧
      WorkersOk s.slots (s.activeCount + n) worker active := by
  induction n generalizing s with
  | zero => exact ⟨s.worker, rfl, h⟩
  | succ n ih =>
    have hlt : s.activeCount < s.slots.length := by rw [h.length]; omega
    have hget : s.slots[s.activeCount]? = some s.slots[s.activeCount] :=
      List.getElem?_eq_getElem hlt
    have h₁ := h.startWorker hget
    obtain ⟨worker, heq, h₂⟩ := ih
      { s with
        worker := Function.update s.worker s.slots[s.activeCount] (some .started)
        activeCount := s.activeCount + 1 } h₁ (by dsimp only; omega)
    refine ⟨worker, ?_, ?_⟩
    · rw [State.startWorkers, State.startWorker, hget]
      simp only [Option.bind_eq_bind, Option.bind_some, Option.pure_def, heq,
        Nat.add_right_comm, Nat.add_assoc]
    · have : s.activeCount + (n + 1) = s.activeCount + 1 + n := by omega
      rw [this]
      exact h₂

/-- **`schedule_threads()`** starts the workers that are missing. -/
theorem scheduleThreads_spec {active : List Ptr}
    (h : WorkersOk s.slots s.activeCount s.worker active) :
    ∃ worker n, s.scheduleThreads = some { s with worker := worker, activeCount := n } ∧
      WorkersOk s.slots n worker active ∧
      (s.shutdown = false → min s.load maxActiveCount ≤ n) := by
  have hle := h.count_le
  unfold State.scheduleThreads
  by_cases hsd : s.shutdown = true
  · refine ⟨s.worker, s.activeCount, by rw [if_pos hsd], h, ?_⟩
    intro hc
    rw [hsd] at hc
    cases hc
  · obtain ⟨worker, heq, h₁⟩ := startWorkers_spec (min s.load maxActiveCount - s.activeCount) s h
      (by omega)
    refine ⟨worker, _, by rw [if_neg hsd, heq], h₁, fun _ => by omega⟩

/-- `execute()` is called for an entry for the first time. -/
theorem QueuesOk.logExecution (h : QueuesOk s lists) {e : Entry} (hp : p ∈ lists .active)
    (he : s.store.heap p = some e) (hn : e.serial ∉ s.executed) :
    QueuesOk { s with executed := s.executed ++ [e.serial] } lists := by
  refine ⟨h.wf, h.owned, h.map_iff, h.count, h.count_le, h.serial_lt, h.serial_inj, ?_, ?_, ?_⟩
  · intro n hmem
    rcases List.mem_append.1 hmem with hmem | hmem
    · exact h.executed_lt n hmem
    · rw [List.mem_singleton.1 hmem]
      exact h.serial_lt p e he
  · refine List.nodup_append.2 ⟨h.executed_nodup, by simp, ?_⟩
    intro a ha b hb hab
    rw [List.mem_singleton] at hb
    exact hn (hb ▸ hab ▸ ha)
  · intro x f hf hx
    obtain ⟨hpr, hs⟩ := h.fresh x f hf hx
    refine ⟨hpr, ?_⟩
    rw [List.mem_append, List.mem_singleton]
    rintro (hc | hc)
    · exact hs hc
    · obtain rfl := h.serial_inj x p f e hf he hc
      rcases hx with hx | hx
      · cases h.wf.queue_unique hx hp
      · cases h.wf.queue_unique hx hp

/-- A worker leaves. -/
theorem Inv.workerExit (h : Inv s lists) (hs : s.worker slot = some .started) :
    Inv (s.workerExit slot) lists :=
  ⟨h.queues.congr rfl rfl rfl rfl rfl, h.workers.workerExit hs⟩

/-- A worker leaves after the last entry it took: one worker less for one entry less. -/
theorem Inv.enough_workerExit_iff (h : Inv s lists) (hs : s.worker slot = some .started)
    (hpre : s.shutdown = false → min (s.load + 1) maxActiveCount ≤ s.activeCount) :
    Enough (s.workerExit slot) ↔ s.shutdown = true ∨ s.load + 1 ≤ maxActiveCount := by
  have hle := h.workers.count_le
  have hpos := h.workers.count_pos (show s.worker slot ≠ none by simp [hs])
  cases hsd : s.shutdown with
  | true => simp [Enough, State.workerExit, hsd]
  | false =>
    have hpre := hpre hsd
    have hiff : Enough (s.workerExit slot) ↔
        min s.load maxActiveCount ≤ s.activeCount - 1 := by
      simp [Enough, State.workerExit, State.load, hsd]
    rw [hiff]
    simp only [Bool.false_eq_true, false_or]
    omega

/-- **The worker's loop** up to the place where the lock is dropped.  Afterwards there are enough
workers unless one has left with more work than workers. -/
theorem Inv.workerLoop (h : Inv s lists) (hs : s.worker slot = some .started) (handler : Bool) :
    ∃ s' lists', s.workerLoop slot handler = some s' ∧ Inv s' lists' ∧
      s'.terminated = s.terminated ∧
      (Enough s → (Enough s' ↔
        s.shutdown = true ∨ handler = true ∨ s.load ≤ maxActiveCount)) := by
  have hload := h.queues.load_eq
  have hexit := h.workerExit hs
  have hlt := h.workers.active_lt hs
  have hle := h.workers.count_le
  unfold State.workerLoop
  by_cases hsd : s.shutdown = true
  · refine ⟨_, lists, by rw [if_pos hsd], hexit, rfl, fun _ => ?_⟩
    simp [Enough, State.workerExit, hsd]
  have hsd' : s.shutdown = false := by simpa using hsd
  rw [if_neg hsd, (h.queues.wf.linked .ready).head_eq]
  cases hr : lists .ready with
  | nil =>
    have hexl := hexit.queues.load_eq
    rw [hr] at hload hexl
    simp only [List.length_nil, Nat.zero_add] at hload hexl
    refine ⟨_, lists, rfl, hexit, rfl, fun _ => iff_of_true ?_ (.inr (.inr (by omega)))⟩
    intro _
    rw [hexl]
    simp only [State.workerExit]
    omega
  | cons p rest =>
    have hp : p ∈ lists .ready := by simp [hr]
    have hpa : p ∉ lists .active := fun hc => by cases h.queues.wf.queue_unique hp hc
    obtain ⟨st₁, hmove, h₁, hpay⟩ := h.queues.moveEntry hp .active (by simp)
    have hact : p ∈ moved lists p .ready .active .active :=
      (mem_moved h.queues.wf hp).2 (.inl ⟨rfl, rfl⟩)
    have hactive : moved lists p .ready .active .active = lists .active ++ [p] := by simp [moved]
    have hready : moved lists p .ready .active .ready = rest := by simp [moved, hr]
    simp only [List.head?_cons, hmove, Option.bind_eq_bind, Option.bind_some]
    cases handler with
    | true =>
      obtain ⟨st₂, hmod, h₂, hheap⟩ := h₁.setProcess hact (some exitStatusNone)
      obtain ⟨e, he, -⟩ := (h₁.wf.mem_iff _ p).1 hact
      have he₂ := hheap e he
      -- the entry was ready, and so it has not been executed
      have hserial : e.serial ∉ s.executed := by
        obtain ⟨e₀, he₀, -, -, hse⟩ := exists_of_payload hpay he
        rw [hse]
        exact (h.queues.fresh p e₀ he₀ (.inr hp)).2
      have h₃ := h₂.logExecution hact he₂ hserial
      refine ⟨{ s with
          store := st₂
          worker := Function.update s.worker slot (some (.executing p))
          executed := s.executed ++ [e.serial] }, moved lists p .ready .active, ?_,
        ⟨h₃.congr rfl rfl rfl rfl rfl, ?_⟩, rfl, ?_⟩
      · simp only [if_true, hmod, Option.bind_some, he₂, Option.pure_def]
      · rw [hactive]
        exact h.workers.setWorker (by simp [hs]) (by simp)
          (h.workers.executing.begin (by simp [hs]) hpa)
      · intro henough
        refine iff_of_true ?_ (.inr (.inl rfl))
        intro hc
        have hsame : State.load { s with store := st₂ } = s.load := by
          rw [hload, hr, List.length_cons]
          refine h₂.load_eq.trans ?_
          rw [hactive, hready, List.length_append, List.length_singleton]
          omega
        exact (congrArg (min · maxActiveCount) hsame).trans_le (henough hc)
    | false =>
      obtain ⟨st₂, map, n, lists', hend, h₂, ha, hrd⟩ := h₁.endEntry hact
      have ha' : lists' .active = lists .active := by
        rw [ha, hactive, List.erase_append_right _ hpa]
        simp
      have hinv : Inv { s with store := st₂, map := map, entryCount := n } lists' := by
        refine ⟨h₂, ?_⟩
        rw [ha']
        exact h.workers
      refine ⟨_, lists', ?_, hinv.workerExit hs, rfl, ?_⟩
      · simp only [hend, Bool.false_eq_true, if_false, Option.bind_some, Option.pure_def]
      · intro henough
        have hl : State.load { s with store := st₂, map := map, entryCount := n } + 1 =
            s.load := by
          rw [hload, hr, List.length_cons, h₂.load_eq, ha', hrd, hready]
          omega
        have hiff := hinv.enough_workerExit_iff hs (by rw [hl]; exact henough)
        rw [hiff, hl]
        simp

/-- The worker has its entry back from `execute()` and has moved it to its end. -/
theorem Inv.endExecution (h : Inv s lists) (hs : s.worker slot = some (.executing p))
    (exitStatus : Int) :
    ∃ st₁ st₂ map n lists',
      s.store.modify (some p) (fun e => { e with process := some exitStatus }) = some st₁ ∧
      State.endEntry
        { s with
          store := st₁
          worker := Function.update s.worker slot (some .started) } p =
        some
          { s with
            store := st₂
            worker := Function.update s.worker slot (some .started)
            map := map
            entryCount := n } ∧
      Inv
        { s with
          store := st₂
          worker := Function.update s.worker slot (some .started)
          map := map
          entryCount := n } lists' ∧
      State.load { s with store := st₂ } + 1 = s.load := by
  have hp : p ∈ lists .active := (h.workers.executing.mem_iff p).2 ⟨slot, hs⟩
  obtain ⟨st₁, hmod, h₁, -⟩ := h.queues.setProcess hp (some exitStatus)
  have h₁' : QueuesOk
      { s with
        store := st₁
        worker := Function.update s.worker slot (some .started) } lists :=
    h₁.congr rfl rfl rfl rfl rfl
  obtain ⟨st₂, map, n, lists', hend, h₂, ha, hr⟩ := h₁'.endEntry hp
  refine ⟨st₁, st₂, map, n, lists', hmod, hend, ⟨h₂, ?_⟩, ?_⟩
  · rw [ha]
    exact h.workers.setWorker (by simp [hs]) (by simp) (h.workers.executing.finish hs)
  · have hpos := List.length_pos_of_mem hp
    refine (congrArg (· + 1) h₂.load_eq).trans ?_
    rw [ha, hr, List.length_erase_of_mem hp, h.queues.load_eq]
    omega

/-- **The end of a task**, with each of its outcomes. -/
theorem Inv.finishEntry (h : Inv s lists) (hs : s.worker slot = some (.executing p))
    (outcome : Outcome) (handler : Bool) :
    ∃ s' lists', s.finishEntry slot p outcome handler = some s' ∧ Inv s' lists' ∧
      (Live s → (Live s' ↔ StepOk s (.finish slot outcome handler))) := by
  obtain ⟨st₁, st₂, map, n, lists', hmod, hend, hinv, hload⟩ := h.endExecution hs outcome.exitStatus
  have hstart : (State.worker
      { s with
        store := st₂
        worker := Function.update s.worker slot (some .started)
        map := map
        entryCount := n }) slot = some .started := Function.update_self slot _ _
  unfold State.finishEntry StepOk
  simp only [hmod, Option.bind_eq_bind, Option.bind_some]
  rw [hend]
  simp only [Option.bind_some]
  cases outcome.exc with
  | none =>
    obtain ⟨s', lists'', heq, hinv', hterm, hiff⟩ := hinv.workerLoop hstart handler
    refine ⟨s', lists'', heq, hinv', ?_⟩
    rintro ⟨henough, ht⟩
    have henough' := hiff (by
      intro hsd
      have hle := henough hsd
      refine le_trans ?_ hle
      have : State.load { s with store := st₂ } ≤ s.load := by omega
      exact min_le_min_right _ this)
    have ht' : s'.terminated = false := hterm.trans ht
    rw [Live, henough']
    simp only [ht', and_true]
    have : State.load { s with store := st₂ } ≤ maxActiveCount ↔
        s.load ≤ maxActiveCount + 1 := by omega
    exact or_congr Iff.rfl (or_congr Iff.rfl this)
  | some exc =>
    cases exc with
    | badAlloc =>
      refine ⟨_, lists', rfl, hinv.workerExit hstart, ?_⟩
      rintro ⟨henough, ht⟩
      have hiff := hinv.enough_workerExit_iff hstart (by
        intro hsd
        exact (congrArg (min · maxActiveCount) hload).trans_le (henough hsd))
      rw [Live, hiff]
      refine Iff.trans (and_iff_left ht) ?_
      exact or_congr Iff.rfl (iff_of_eq (congrArg (· ≤ maxActiveCount) hload))
    | subProcess =>
      refine ⟨_, lists', rfl, ⟨hinv.queues.congr rfl rfl rfl rfl rfl, hinv.workers⟩, ?_⟩
      intro _
      simp [Live]

/-- `schedule_threads()` leaves enough workers. -/
theorem Inv.scheduleThreads (h : Inv s lists) :
    ∃ s', s.scheduleThreads = some s' ∧ Inv s' lists ∧ Enough s' ∧
      s'.terminated = s.terminated := by
  obtain ⟨worker, n, heq, hw, henough⟩ := scheduleThreads_spec h.workers
  exact ⟨_, heq, ⟨h.queues.congr rfl rfl rfl rfl rfl, hw⟩, henough, rfl⟩

theorem Inv.addEntry (h : Inv s lists) (hfree : s.store.heap p = none)
    (activate outOfMemory : Bool) :
    ∃ s' r lists', s.addEntry activate outOfMemory p = some (s', r) ∧ Inv s' lists' ∧
      (Live s → Live s') := by
  unfold State.addEntry
  split
  · next hcount =>
    cases outOfMemory with
    | true => exact ⟨s, _, lists, rfl, h, id⟩
    | false =>
      rw [if_neg Bool.false_ne_true]
      cases hmap : s.map.insert s.nextId p with
      | none => exact ⟨s, _, lists, rfl, h, id⟩
      | some map =>
        dsimp only
        cases activate with
        | true =>
          obtain ⟨st', happ, hq⟩ := h.queues.insertEntry hfree hcount hmap .ready
          rw [if_pos rfl, happ]
          simp only [Option.bind_eq_bind, Option.bind_some, Option.pure_def, if_true]
          have hinv : Inv
              { s with
                store := st'
                map := map
                nextId := (s.nextId + 1) % 2 ^ 64
                entryCount := s.entryCount + 1
                added := s.added + 1 }
              (Function.update lists .ready (lists .ready ++ [p])) := by
            refine ⟨hq, ?_⟩
            rw [Function.update_of_ne (by simp)]
            exact h.workers
          obtain ⟨s', heq, hinv', henough, hterm⟩ := hinv.scheduleThreads
          rw [heq]
          exact ⟨s', _, _, rfl, hinv', fun hl => ⟨henough, hterm.trans hl.2⟩⟩
        | false =>
          obtain ⟨st', happ, hq⟩ := h.queues.insertEntry hfree hcount hmap .wait
          rw [if_neg Bool.false_ne_true, happ]
          refine ⟨_, _, _, rfl, ⟨hq, ?_⟩, ?_⟩
          · rw [Function.update_of_ne (by simp)]
            exact h.workers
          · rintro ⟨henough, hterm⟩
            refine ⟨?_, hterm⟩
            intro hsd
            have hload := hq.load_eq.trans (by simp : _ = (lists .ready).length +
              (lists .active).length)
            rw [hload, ← h.queues.load_eq]
            exact henough hsd
  · exact ⟨s, _, lists, rfl, h, id⟩

theorem Inv.removeEntry (h : Inv s lists) (id : Nat) :
    ∃ s' r lists', s.removeEntry id = some (s', r) ∧ Inv s' lists' ∧ (Live s → Live s') := by
  unfold State.removeEntry
  cases hget : s.map.get id with
  | none => exact ⟨s, false, lists, rfl, h, fun hl => hl⟩
  | some p =>
    obtain ⟨e, he, -⟩ := (h.queues.map_iff id p).1 hget
    obtain ⟨q, hq⟩ := h.queues.owned p e he
    by_cases ha : q = .active
    · subst ha
      obtain ⟨e', he', ho⟩ := (h.queues.wf.mem_iff _ p).1 hq
      refine ⟨s, false, lists, ?_, h, fun hl => hl⟩
      simp [State.removeEntryImpl, he', ho]
    · obtain ⟨st', map, n, hrem, hq'⟩ := h.queues.removeEntryImpl hq ha
      refine ⟨_, true, _, hrem, ⟨hq', ?_⟩, ?_⟩
      · rw [Function.update_of_ne (Ne.symm ha)]
        exact h.workers
      · rintro ⟨henough, hterm⟩
        refine ⟨?_, hterm⟩
        intro hsd
        refine le_trans (min_le_min_right _ ?_) (henough hsd)
        rw [hq'.load_eq, h.queues.load_eq, Function.update_of_ne (Ne.symm ha)]
        by_cases hr : q = .ready
        · subst hr
          rw [Function.update_self, List.length_erase_of_mem hq]
          omega
        · rw [Function.update_of_ne (Ne.symm hr)]

theorem Inv.activateEntry (h : Inv s lists) (id : Nat) :
    ∃ s' r lists', s.activateEntry id = some (s', r) ∧ Inv s' lists' ∧ (Live s → Live s') := by
  unfold State.activateEntry
  cases hget : s.map.get id with
  | none => exact ⟨s, false, lists, rfl, h, fun hl => hl⟩
  | some p =>
    obtain ⟨e, he, -⟩ := (h.queues.map_iff id p).1 hget
    simp only [he, Option.bind_eq_bind, Option.bind_some, Option.pure_def]
    by_cases ho : e.owningQueue = some .wait
    · have hp : p ∈ lists .wait := (h.queues.wf.mem_iff _ p).2 ⟨e, he, ho⟩
      obtain ⟨st', hmove, hq, -⟩ := h.queues.moveEntry hp .ready (by simp)
      have hinv : Inv { s with store := st' } (moved lists p .wait .ready) := by
        refine ⟨hq, ?_⟩
        have : moved lists p .wait .ready .active = lists .active := by simp [moved]
        rw [this]
        exact h.workers
      obtain ⟨s', heq, hinv', henough, hterm⟩ := hinv.scheduleThreads
      rw [if_pos ho, hmove]
      simp only [Option.bind_some, heq]
      exact ⟨s', true, _, rfl, hinv', fun hl => ⟨henough, hterm.trans hl.2⟩⟩
    · rw [if_neg ho]
      exact ⟨s, false, lists, rfl, h, fun hl => hl⟩

theorem Inv.inactivateEntry (h : Inv s lists) (id : Nat) :
    ∃ s' r lists', s.inactivateEntry id = some (s', r) ∧ Inv s' lists' ∧ (Live s → Live s') := by
  unfold State.inactivateEntry
  cases hget : s.map.get id with
  | none => exact ⟨s, false, lists, rfl, h, fun hl => hl⟩
  | some p =>
    obtain ⟨e, he, -⟩ := (h.queues.map_iff id p).1 hget
    simp only [he, Option.bind_eq_bind, Option.bind_some, Option.pure_def]
    by_cases ho : e.owningQueue = some .ready
    · have hp : p ∈ lists .ready := (h.queues.wf.mem_iff _ p).2 ⟨e, he, ho⟩
      obtain ⟨st', hmove, hq, -⟩ := h.queues.moveEntry hp .wait (by simp)
      have hactive : moved lists p .ready .wait .active = lists .active := by simp [moved]
      have hready : moved lists p .ready .wait .ready = (lists .ready).erase p := by simp [moved]
      rw [if_pos ho, hmove]
      refine ⟨_, true, _, rfl, ⟨hq, ?_⟩, ?_⟩
      · rw [hactive]
        exact h.workers
      · rintro ⟨henough, hterm⟩
        refine ⟨?_, hterm⟩
        intro hsd
        refine le_trans (min_le_min_right _ ?_) (henough hsd)
        rw [hq.load_eq, h.queues.load_eq, hactive, hready, List.length_erase_of_mem hp]
        omega
    · rw [if_neg ho]
      exact ⟨s, false, lists, rfl, h, fun hl => hl⟩

/-- **Every critical section** a thread can enter is defined and keeps the invariant; from a state
with enough workers it leads to one exactly when `StepOk` holds. -/
theorem step_spec (h : Inv s lists) (a : Action) (ha : Enabled s a) :
    ∃ s' lists', step s a = some s' ∧ Inv s' lists' ∧ (Live s → (Live s' ↔ StepOk s a)) := by
  cases a with
  | addEntry activate outOfMemory addr =>
    obtain ⟨s', r, lists', heq, hinv, hl⟩ := h.addEntry ha.2 activate outOfMemory
    exact ⟨s', lists', by simp [step, heq], hinv, fun hs => iff_of_true (hl hs) trivial⟩
  | removeEntry id =>
    obtain ⟨s', r, lists', heq, hinv, hl⟩ := h.removeEntry id
    exact ⟨s', lists', by simp [step, heq], hinv, fun hs => iff_of_true (hl hs) trivial⟩
  | activateEntry id =>
    obtain ⟨s', r, lists', heq, hinv, hl⟩ := h.activateEntry id
    exact ⟨s', lists', by simp [step, heq], hinv, fun hs => iff_of_true (hl hs) trivial⟩
  | inactivateEntry id =>
    obtain ⟨s', r, lists', heq, hinv, hl⟩ := h.inactivateEntry id
    exact ⟨s', lists', by simp [step, heq], hinv, fun hs => iff_of_true (hl hs) trivial⟩
  | setDiscardFinishedTasks flag =>
    exact ⟨_, lists, rfl, ⟨h.queues.congr rfl rfl rfl rfl rfl, h.workers⟩,
      fun hs => iff_of_true hs trivial⟩
  | setDiscardSucceededTasks flag =>
    exact ⟨_, lists, rfl, ⟨h.queues.congr rfl rfl rfl rfl rfl, h.workers⟩,
      fun hs => iff_of_true hs trivial⟩
  | setSelectedId q id =>
    have hf : ∀ r, ((s.store.setQueue q fun o => { o with selectedId := id }).queue r).size =
          (s.store.queue r).size ∧
        ((s.store.setQueue q fun o => { o with selectedId := id }).queue r).head =
          (s.store.queue r).head ∧
        ((s.store.setQueue q fun o => { o with selectedId := id }).queue r).tail =
          (s.store.queue r).tail := by
      intro r
      by_cases hr : r = q
      · subst hr
        simp [Store.setQueue]
      · simp [Store.setQueue, Function.update_of_ne hr]
    have hwf := h.queues.wf.transfer (fun r => (hf r).1) (fun r => (hf r).2.1)
      (fun r => (hf r).2.2) (fun x => .inl rfl)
    refine ⟨_, lists, rfl, ⟨h.queues.of_store hwf ?_ (fun x hx => hx) (fun x r hx => ⟨r, hx⟩) rfl,
      h.workers⟩, ?_⟩
    · exact fun x e he => ⟨e, he, rfl, rfl, fun hx => ⟨rfl, hx⟩⟩
    · rintro ⟨henough, hterm⟩
      refine iff_of_true ⟨?_, hterm⟩ trivial
      intro hsd
      have hload : State.load
          { s with store := s.store.setQueue q fun o => { o with selectedId := id } } = s.load := by
        simp only [State.load, (hf .ready).1, (hf .active).1]
      rw [hload]
      exact henough hsd
  | shutdown =>
    refine ⟨_, lists, rfl, ⟨h.queues.congr rfl rfl rfl rfl rfl, h.workers⟩, ?_⟩
    rintro ⟨-, hterm⟩
    exact iff_of_true ⟨fun hc => (by cases hc), hterm⟩ trivial
  | start slot handler =>
    obtain ⟨s', lists', heq, hinv, hterm, hl⟩ := h.workerLoop ha.2 handler
    refine ⟨s', lists', heq, hinv, ?_⟩
    rintro ⟨henough, ht⟩
    rw [Live, hl henough, hterm, ht]
    simp [StepOk]
  | finish slot outcome handler =>
    obtain ⟨-, p, hp⟩ := ha
    obtain ⟨s', lists', heq, hinv, hl⟩ := h.finishEntry hp outcome handler
    exact ⟨s', lists', by simp only [step, hp, heq], hinv, hl⟩

end Sections

/-! ## Runs -/

/-- **The bookkeeping of the queue**: the four lists spelt by the queues, the id map, the counters,
the free slots, and no entry executed twice. -/
structure Sound (s : State) (lists : QueueName → List Ptr) : Prop where
  linked : ∀ q, Linked s.store.next s.store.prev (s.store.queue q).head (s.store.queue q).tail
    (lists q)
  size : ∀ q, (s.store.queue q).size = (lists q).length
  exactly_one : ∀ p, s.store.heap p ≠ none → ∃! q, p ∈ lists q
  in_memory : ∀ q, ∀ p ∈ lists q, s.store.heap p ≠ none
  id_map : ∀ id p, s.map.get id = some p ↔ ∃ e, s.store.heap p = some e ∧ e.id = id
  entry_count : s.entryCount = total lists
  entry_count_le : s.entryCount ≤ 1024
  active_le : (lists .active).length ≤ s.activeCount
  active_count_le : s.activeCount ≤ 8
  slots_length : s.slots.length = 8
  free_slots_nodup : (s.slots.drop s.activeCount).Nodup
  free_slots : ∀ i, i ∈ s.slots.drop s.activeCount ↔ i < 8 ∧ s.worker i = none
  executed_once : s.executed.Nodup

/-- The task queue works: its bookkeeping is right, no ready entry waits without a worker, and no
exception has ended the program. -/
def TaskQueueOk (s : State) : Prop := (∃ lists, Sound s lists) ∧ Live s

section Runs

variable {s : State} {lists : QueueName → List Ptr} {trace : List (State × Action)}

theorem Inv.sound (h : Inv s lists) : Sound s lists where
  linked := h.queues.wf.linked
  size := h.queues.wf.size
  exactly_one p hp := by
    obtain ⟨e, he⟩ := Option.ne_none_iff_exists'.1 hp
    obtain ⟨q, hq⟩ := h.queues.owned p e he
    exact ⟨q, hq, fun q' hq' => h.queues.wf.queue_unique hq' hq⟩
  in_memory q p hp := Option.isSome_iff_ne_none.1 (h.queues.wf.isSome_of_mem hp)
  id_map := h.queues.map_iff
  entry_count := h.queues.count
  entry_count_le := h.queues.count_le
  active_le := h.workers.active_le
  active_count_le := h.workers.count_le
  slots_length := h.workers.length
  free_slots_nodup := h.workers.free_nodup
  free_slots := h.workers.free_iff
  executed_once := h.queues.executed_nodup

/-- The new queue. -/
theorem inv_init : Inv State.init fun _ => [] := by
  refine ⟨⟨⟨?_, ?_, ?_, ?_⟩, ?_, ?_, rfl, by decide, ?_, ?_, ?_, List.nodup_nil, ?_⟩,
    ⟨rfl, by decide, by decide, ?_, ?_, ⟨List.nodup_nil, ?_, ?_⟩⟩⟩
  · exact fun q => Linked.nil _ _
  · exact fun q => rfl
  · intro q p
    simp [State.init]
  · intro p e he
    cases he
  · intro p e he
    cases he
  · intro id p
    simp only [State.init, reduceCtorEq, false_and, exists_false, iff_false]
    intro hc
    cases hc
  · intro p e he
    cases he
  · intro p p' e e' he
    cases he
  · intro n hn
    cases hn
  · intro p e he
    cases he
  · intro i
    simp [State.init]
  · intro i hi
    exact absurd rfl hi
  · intro p
    simp [State.init]
  · intro i j p hi
    cases hi

/-- **Run lemma.**  The invariant holds in the state a run has reached. -/
theorem Run.inv (run : Run trace s) : ∃ lists, Inv s lists := by
  induction run with
  | init => exact ⟨_, inv_init⟩
  | next run enabled result ih =>
    obtain ⟨lists, h⟩ := ih
    obtain ⟨s', lists', heq, hinv, -⟩ := step_spec h _ enabled
    obtain rfl : s' = _ := Option.some.inj (heq.symm.trans result)
    exact ⟨lists', hinv⟩

theorem live_init : Live State.init :=
  ⟨fun _ => by decide, rfl⟩

/-- **The task queue over every run.**  In each state reached the bookkeeping is right and each
critical section that can be entered is defined.  All states of the run have enough workers and
none has ended the program exactly when each critical section met `StepOk`. -/
theorem taskQueue_run_iff (run : Run trace s) :
    (∃ lists, Sound s lists) ∧ (∀ a, Enabled s a → ∃ s', step s a = some s') ∧
      ((∀ t ∈ s :: trace.map Prod.fst, TaskQueueOk t) ↔ ∀ x ∈ trace, StepOk x.1 x.2) := by
  obtain ⟨lists, h⟩ := run.inv
  refine ⟨⟨lists, h.sound⟩, ?_, ?_⟩
  · intro a ha
    obtain ⟨s', -, heq, -⟩ := step_spec h a ha
    exact ⟨s', heq⟩
  · clear h lists
    induction run with
    | init =>
      refine iff_of_true ?_ (by simp)
      intro t ht
      obtain rfl : t = State.init := by simpa using ht
      exact ⟨⟨_, inv_init.sound⟩, live_init⟩
    | @next trace s s' a run enabled result ih =>
      obtain ⟨lists, h⟩ := run.inv
      obtain ⟨s₁, lists', heq, hinv, hlive⟩ := step_spec h a enabled
      obtain rfl : s₁ = s' := Option.some.inj (heq.symm.trans result)
      have hsplit : (∀ t ∈ s₁ :: ((s, a) :: trace).map Prod.fst, TaskQueueOk t) ↔
          TaskQueueOk s₁ ∧ ∀ t ∈ s :: trace.map Prod.fst, TaskQueueOk t := List.forall_mem_cons
      rw [hsplit, ih, List.forall_mem_cons]
      constructor
      · rintro ⟨hok, hall⟩
        have hs := ih.2 hall s (by simp)
        exact ⟨(hlive hs.2).1 hok.2, hall⟩
      · rintro ⟨hstep, hall⟩
        have hs := ih.2 hall s (by simp)
        exact ⟨⟨⟨lists', hinv.sound⟩, (hlive hs.2).2 hstep⟩, hall⟩

/-- One critical section more, as the model computes it. -/
theorem Run.perform (run : Run trace s) (a : Action) (enabled : Enabled s a)
    (defined : (step s a).isSome) : Run ((s, a) :: trace) ((step s a).get defined) :=
  .next run enabled (Option.some_get defined).symm

/-- A task that succeeds: all of its states are fine. -/
theorem taskQueue_run_succeeds :
    ∃ trace s, Run trace s ∧
      trace.map Prod.snd =
        [.finish 0 ⟨0, none⟩ true, .start 0 true, .addEntry true false 0] ∧
      ∀ t ∈ s :: trace.map Prod.fst, TaskQueueOk t := by
  have r₁ := Run.init.perform (.addEntry true false 0) ⟨rfl, rfl⟩ rfl
  have r₂ := r₁.perform (.start 0 true) ⟨rfl, rfl⟩ rfl
  have r₃ := r₂.perform (.finish 0 ⟨0, none⟩ true) ⟨rfl, 0, rfl⟩ rfl
  refine ⟨_, _, r₃, rfl, (taskQueue_run_iff r₃).2.2.2 ?_⟩
  simp [StepOk]

/-- A task that ends with a `SubProcess::Exception` ends the program.  With nine ready entries, a
worker that gets `std::bad_alloc` leaves eight of them to seven workers. -/
theorem taskQueue_run_fails :
    (∃ trace s, Run trace s ∧
      trace.map Prod.snd =
        [.finish 0 ⟨-1, some .subProcess⟩ true, .start 0 true, .addEntry true false 0] ∧
      s.terminated = true ∧ ¬TaskQueueOk s) ∧
    ∃ trace s, Run trace s ∧
      trace.map Prod.snd =
        .start 0 false :: ((List.range 9).map fun addr => .addEntry true false addr).reverse ∧
      ¬Enough s ∧ ¬TaskQueueOk s := by
  constructor
  · have r₁ := Run.init.perform (.addEntry true false 0) ⟨rfl, rfl⟩ rfl
    have r₂ := r₁.perform (.start 0 true) ⟨rfl, rfl⟩ rfl
    have r₃ := r₂.perform (.finish 0 ⟨-1, some .subProcess⟩ true) ⟨rfl, 0, rfl⟩ rfl
    refine ⟨_, _, r₃, rfl, rfl, ?_⟩
    rintro ⟨-, -, hterm⟩
    cases hterm
  · have r₁ := Run.init.perform (.addEntry true false 0) ⟨rfl, rfl⟩ rfl
    have r₂ := r₁.perform (.addEntry true false 1) ⟨rfl, rfl⟩ rfl
    have r₃ := r₂.perform (.addEntry true false 2) ⟨rfl, rfl⟩ rfl
    have r₄ := r₃.perform (.addEntry true false 3) ⟨rfl, rfl⟩ rfl
    have r₅ := r₄.perform (.addEntry true false 4) ⟨rfl, rfl⟩ rfl
    have r₆ := r₅.perform (.addEntry true false 5) ⟨rfl, rfl⟩ rfl
    have r₇ := r₆.perform (.addEntry true false 6) ⟨rfl, rfl⟩ rfl
    have r₈ := r₇.perform (.addEntry true false 7) ⟨rfl, rfl⟩ rfl
    have r₉ := r₈.perform (.addEntry true false 8) ⟨rfl, rfl⟩ rfl
    have r := r₉.perform (.start 0 false) ⟨rfl, rfl⟩ rfl
    refine ⟨_, _, r, rfl, ?_⟩
    refine (fun h => ⟨h, fun hok => h hok.2.1⟩) ?_
    intro henough
    exact absurd (henough rfl) (by decide)

end Runs

end DrbdUtils.DrbdMon.SubProcessQueue
