import DrbdUtils.DrbdMon.SubProcessQueue

/-!
# The output and the exit status of a child process

`SubProcessLx::execute()` reads what a child writes to its stdout and stderr through two pipes, and
waits for the child once both are closed.  The child, `epoll_wait()` and the handling of the events
go on side by side, so that a pipe can have got more data, or no writer any more, since an event
was fired.

`terminate()`, which ends the loop early, and the exceptions for a lack of memory are left out.

* `Inv.step` — what has been written is what was read, and what is left in the pipe.
* `good_step_iff` — what can be lost by one step.
* `execute_recorded_iff` — the output and the exit status are recorded faithfully, over every run,
  exactly if each pipe is closed empty, or with a full buffer, and no signal has killed the child.
-/

set_option autoImplicit false

namespace DrbdUtils.DrbdMon.SubProcessLx

/-! ## The buffers -/

/-- A byte of output. -/
abbrev Byte := BitVec 8

/-- The two pipes to the child. -/
inductive Channel where
  | out
  | err
  deriving DecidableEq, Repr

/-- `SUBPROC_OUT_MAX_SIZE`. -/
def subprocOutMaxSize : Nat := 2 ^ 18

/-- `SUBPROC_ERR_MAX_SIZE`. -/
def subprocErrMaxSize : Nat := 2 ^ 18

/-- `READ_BUFFER_SIZE`. -/
def readBufferSize : Nat := 2 ^ 13

/-- `BUFFER_CAP`. -/
def bufferCap : List Nat := [2 ^ 14, 2 ^ 16]

def Channel.maxSize : Channel → Nat
  | .out => subprocOutMaxSize
  | .err => subprocErrMaxSize

/-- A `std::string`, with `dst_buffer_cap_idx`. -/
structure DstBuffer where
  text : List Byte := []
  capacity : Nat := 15
  capIdx : Nat := 0

def DstBuffer.reserve (b : DstBuffer) (n : Nat) : DstBuffer :=
  { b with capacity := max b.capacity n }

/-- Make room for a text of this length. -/
def DstBuffer.grow (b : DstBuffer) (maxSize resultLength : Nat) : DstBuffer :=
  if b.capacity < resultLength then
    if h : b.capIdx < bufferCap.length then
      { b.reserve (min bufferCap[b.capIdx] maxSize) with capIdx := b.capIdx + 1 }
    else b.reserve maxSize
  else b

/-- What `read_subproc_fd()` does with the bytes it has read. -/
def DstBuffer.append (b : DstBuffer) (maxSize : Nat) (bytes : List Byte) : DstBuffer :=
  let currentLength := b.text.length
  if currentLength < maxSize then
    let copyLength := min (maxSize - currentLength) bytes.length
    let resultLength := currentLength + copyLength
    let b := (b.grow maxSize resultLength).reserve resultLength
    { b with text := b.text ++ bytes.take copyLength }
  else b

@[simp] theorem DstBuffer.text_grow (b : DstBuffer) (maxSize n : Nat) :
    (b.grow maxSize n).text = b.text := by
  unfold grow
  split
  · split <;> rfl
  · rfl

/-- The buffer has the beginning of all that was read. -/
theorem DstBuffer.text_append {b : DstBuffer} {maxSize : Nat} {got : List Byte}
    (h : b.text = got.take maxSize) (bytes : List Byte) :
    (b.append maxSize bytes).text = (got ++ bytes).take maxSize := by
  rw [List.take_append, ← h]
  have hlength : b.text.length = min maxSize got.length := by rw [h, List.length_take]
  unfold append
  simp only
  split
  · next hlt =>
    have hgot : b.text.length = got.length := by omega
    have htake : bytes.take (min (maxSize - got.length) bytes.length) =
        bytes.take (maxSize - got.length) := by
      rw [← List.take_take, List.take_length]
    simp only [reserve, text_grow, hgot, htake]
  · next hge =>
    have hzero : maxSize - got.length = 0 := by omega
    rw [hzero, List.take_zero, List.append_nil]

/-! ## The processes -/

/-- How a child has ended. -/
inductive Ended where
  | exited (code : Fin 256)
  | killed (signal : Fin 126) (core : Bool)
  deriving DecidableEq, Repr

/-- The status from `waitpid()`. -/
def Ended.status : Ended → Nat
  | .exited code => code.val <<< 8
  | .killed signal core => (signal.val + 1) ||| (if core then 0x80 else 0)

/-- `WEXITSTATUS`. -/
def wexitstatus (status : Nat) : Nat := (status &&& 0xff00) >>> 8

/-- `WIFEXITED`. -/
def wifexited (status : Nat) : Bool := status &&& 0x7f = 0

/-- `WIFSIGNALED`. -/
def wifsignaled (status : Nat) : Bool := status &&& 0x7f ≠ 0 ∧ status &&& 0x7f ≠ 0x7f

/-- A pipe: what is in it, whether the child can write to it, whether it is observed, and the
buffer.  `written` is not in the code: all that the child has written. -/
structure Pipe where
  unread : List Byte := []
  writer : Bool := true
  reader : Bool := true
  dst : DstBuffer := {}
  written : List Byte := []

/-- An event of `epoll_wait()`: whether it has `EPOLLHUP`. -/
structure FiredEvent where
  channel : Channel
  hup : Bool

/-- Where `execute()` is: in `epoll_wait()` with the events found so far, in the loop over the
events, in `waitpid()`, or behind it. -/
inductive Phase where
  | poll (fired : List FiredEvent)
  | handle (fired : List FiredEvent)
  | wait
  | done

/-- `SubProcess::EXIT_STATUS_FAILED`. -/
def exitStatusFailed : Int := -2

structure State where
  pipe : Channel → Pipe
  child : Option Ended
  phase : Phase
  exitStatus : Int

/-- The child has just been spawned. -/
def State.init : State where
  pipe := fun _ => {}
  child := none
  phase := .poll []
  exitStatus := SubProcessQueue.exitStatusNone

/-- What `read()` returns. -/
inductive ReadResult where
  | bytes (count : Nat)
  | interrupted
  | nothing

/-- What `waitpid()` returns. -/
inductive WaitResult where
  | ended
  | interrupted
  | failed

/-- The steps of the child, those of the kernel in `epoll_wait()`, and those of `execute()`. -/
inductive Action where
  | write (ch : Channel) (bytes : List Byte)
  | close (ch : Channel)
  | exit (ended : Ended)
  | fire (ch : Channel)
  | epollReturn
  | handle (result : ReadResult)
  | waitpid (result : WaitResult)

def State.setPipe (s : State) (ch : Channel) (p : Pipe) : State :=
  { s with pipe := Function.update s.pipe ch p }

/-- Whether the result is one that `read()` can have: without data it returns 0, or `EAGAIN`. -/
def ReadResult.Possible (p : Pipe) : ReadResult → Prop
  | .bytes count => 1 ≤ count ∧ count ≤ readBufferSize ∧ count ≤ p.unread.length
  | .interrupted => True
  | .nothing => p.unread = []

instance (p : Pipe) : DecidablePred (ReadResult.Possible p)
  | .bytes _ => inferInstanceAs (Decidable (_ ∧ _ ∧ _))
  | .interrupted => inferInstanceAs (Decidable True)
  | .nothing => inferInstanceAs (Decidable (_ = _))

/-- `read_subproc_fd()`. -/
def readSubprocFd (ch : Channel) (p : Pipe) : ReadResult → Pipe
  | .bytes count =>
    { p with
      unread := p.unread.drop count
      dst := p.dst.append ch.maxSize (p.unread.take count) }
  | .interrupted => p
  | .nothing => { p with reader := false }

/-- One event in the loop; a pipe that is closed already is not found. -/
def handleEvent (s : State) (e : FiredEvent) (result : ReadResult) : State :=
  let p := s.pipe e.channel
  if p.reader then
    if !e.hup then s.setPipe e.channel (readSubprocFd e.channel p result)
    else s.setPipe e.channel { p with reader := false }
  else s

/-- Behind an event: the next one, the next `epoll_wait()`, or the end of the loop. -/
def afterEvent (s : State) (fired : List FiredEvent) : Phase :=
  match fired with
  | [] => if (s.pipe .out).reader || (s.pipe .err).reader then .poll [] else .wait
  | fired => .handle fired

/-- `waitpid()` and the exit status. -/
def waitFor (s : State) : WaitResult → Option State
  | .ended => s.child.map fun ended =>
    let status := ended.status
    { s with
      exitStatus := wexitstatus status
      phase := if wifexited status || wifsignaled status then .done else .wait }
  | .interrupted => some s
  | .failed => some { s with exitStatus := exitStatusFailed, phase := .done }

/-- A step, if it is possible. -/
def step (s : State) : Action → Option State
  | .write ch bytes =>
    let p := s.pipe ch
    if s.child = none ∧ p.writer = true ∧ p.reader = true then
      some (s.setPipe ch { p with unread := p.unread ++ bytes, written := p.written ++ bytes })
    else none
  | .close ch =>
    if s.child = none then some (s.setPipe ch { s.pipe ch with writer := false }) else none
  | .exit ended =>
    if s.child = none then
      some { s with child := some ended, pipe := fun ch => { s.pipe ch with writer := false } }
    else none
  | .fire ch =>
    let p := s.pipe ch
    match s.phase with
    | .poll fired =>
      if p.reader = true ∧ (p.unread ≠ [] ∨ p.writer = false) ∧ ∀ e ∈ fired, e.channel ≠ ch then
        some { s with phase := .poll (fired ++ [{ channel := ch, hup := !p.writer }]) }
      else none
    | _ => none
  | .epollReturn =>
    match s.phase with
    | .poll (e :: fired) => some { s with phase := .handle (e :: fired) }
    | _ => none
  | .handle result =>
    match s.phase with
    | .handle (e :: fired) =>
      if e.hup = true ∨ result.Possible (s.pipe e.channel) then
        let s := handleEvent s e result
        some { s with phase := afterEvent s fired }
      else none
    | _ => none
  | .waitpid result =>
    match s.phase with
    | .wait => waitFor s result
    | _ => none

/-- **A run**, with the states it went through and the steps taken there, the last one first. -/
inductive Run : List (State × Action) → State → Prop where
  | init : Run [] State.init
  | next {trace : List (State × Action)} {s s' : State} {a : Action} (run : Run trace s)
      (result : step s a = some s') : Run ((s, a) :: trace) s'

/-! ## The specification -/

/-- The output and the outcome of a task are what the child has written and how it has ended. -/
structure Recorded (s : State) : Prop where
  output : ∀ ch, (s.pipe ch).dst.text = (s.pipe ch).written.take ch.maxSize
  exitStatus : s.exitStatus = 0 → s.child = some (.exited 0)
  discard : ∀ q : SubProcessQueue.State, q.discardFinished = false →
    q.discards (some s.exitStatus) = true → s.child = some (.exited 0)

/-- Nothing that is still in the pipe belongs into the buffer. -/
def Pipe.Drained (ch : Channel) (p : Pipe) : Prop :=
  p.unread = [] ∨ ch.maxSize ≤ p.dst.text.length

/-- A step that loses nothing: a pipe that is hung up is closed with nothing left for the buffer,
and the child that `waitpid()` finds was not killed. -/
def StepOk (s : State) : Action → Prop
  | .handle _ => ∀ e fired, s.phase = .handle (e :: fired) → e.hup = true →
    (s.pipe e.channel).Drained e.channel
  | .waitpid .ended => ∀ signal core, s.child ≠ some (.killed signal core)
  | _ => True

/-! ## Statuses -/

theorem Ended.wexitstatus_status (ended : Ended) :
    wexitstatus ended.status = 0 ↔ ended = .exited 0 ∨ ∃ signal core, ended = .killed signal core := by
  cases ended with
  | exited code =>
    have hcode : ∀ code : Fin 256, wexitstatus (Ended.exited code).status = code.val := by
      decide +kernel
    rw [hcode code]
    constructor
    · intro hzero
      exact .inl (congrArg Ended.exited (Fin.ext hzero))
    · rintro (heq | ⟨_, _, heq⟩)
      · rw [Ended.exited.inj heq]
        rfl
      · cases heq
  | killed signal core =>
    have hzero : ∀ (signal : Fin 126) (core : Bool),
        wexitstatus (Ended.killed signal core).status = 0 := by decide +kernel
    exact ⟨fun _ => .inr ⟨signal, core, rfl⟩, fun _ => hzero signal core⟩

theorem Ended.status_ends (ended : Ended) :
    (wifexited ended.status || wifsignaled ended.status) = true := by
  cases ended with
  | exited code =>
    revert code
    decide +kernel
  | killed signal core =>
    revert signal core
    decide +kernel

/-! ## Steps -/

section Steps

variable {s s' : State} {ch : Channel} {result : ReadResult}

theorem step_write_iff {bytes : List Byte} : step s (.write ch bytes) = some s' ↔
    (s.child = none ∧ (s.pipe ch).writer = true ∧ (s.pipe ch).reader = true) ∧
      s.setPipe ch { s.pipe ch with
        unread := (s.pipe ch).unread ++ bytes
        written := (s.pipe ch).written ++ bytes } = s' := by
  simp [step]

theorem step_close_iff : step s (.close ch) = some s' ↔
    s.child = none ∧ s.setPipe ch { s.pipe ch with writer := false } = s' := by
  simp [step]

theorem step_exit_iff {ended : Ended} : step s (.exit ended) = some s' ↔ s.child = none ∧
    { s with child := some ended, pipe := fun ch => { s.pipe ch with writer := false } } = s' := by
  simp [step]

theorem step_fire_iff : step s (.fire ch) = some s' ↔ ∃ fired, s.phase = .poll fired ∧
    ((s.pipe ch).reader = true ∧ ((s.pipe ch).unread ≠ [] ∨ (s.pipe ch).writer = false) ∧
      ∀ e ∈ fired, e.channel ≠ ch) ∧
    { s with phase := .poll (fired ++ [{ channel := ch, hup := !(s.pipe ch).writer }]) } = s' := by
  simp only [step]
  cases s.phase <;> simp

theorem step_epollReturn_iff : step s .epollReturn = some s' ↔
    ∃ e fired, s.phase = .poll (e :: fired) ∧ { s with phase := .handle (e :: fired) } = s' := by
  simp only [step]
  cases s.phase with
  | poll fired => cases fired <;> simp
  | handle fired => simp
  | wait => simp
  | done => simp

theorem step_handle_iff : step s (.handle result) = some s' ↔
    ∃ e fired, s.phase = .handle (e :: fired) ∧
      (e.hup = true ∨ result.Possible (s.pipe e.channel)) ∧
      { handleEvent s e result with phase := afterEvent (handleEvent s e result) fired } = s' := by
  simp only [step]
  cases s.phase with
  | poll fired => simp
  | handle fired => cases fired <;> simp
  | wait => simp
  | done => simp

theorem step_waitpid_iff {result : WaitResult} : step s (.waitpid result) = some s' ↔
    s.phase = .wait ∧ waitFor s result = some s' := by
  simp only [step]
  cases s.phase <;> simp

/-- The loop around `waitpid()` is left with the first status. -/
theorem waitFor_ended_iff : waitFor s .ended = some s' ↔ ∃ ended, s.child = some ended ∧
    { s with exitStatus := wexitstatus ended.status, phase := .done } = s' := by
  simp only [waitFor, Option.map_eq_some_iff, Ended.status_ends, if_true]

end Steps

/-! ## The invariant -/

section Invariant

variable {s s' : State} {a : Action} {ch : Channel} {p' : Pipe} {phase : Phase}
  {fired : List FiredEvent} {e : FiredEvent}

/-- The events that are not handled yet. -/
def Phase.events : Phase → List FiredEvent
  | .poll fired => fired
  | .handle fired => fired
  | .wait => []
  | .done => []

/-- Behind the loop. -/
def Phase.Closed : Phase → Prop
  | .poll _ => False
  | .handle _ => False
  | .wait => True
  | .done => True

/-- What was so when an event was fired is still so. -/
structure FiredEvent.Holds (e : FiredEvent) (p : Pipe) : Prop where
  reader : p.reader = true
  hup : e.hup = true → p.writer = false
  data : e.hup = false → p.unread ≠ []

/-- The buffer has the beginning of what was read, and the pipe has the rest. -/
def Pipe.Kept (ch : Channel) (p : Pipe) : Prop :=
  ∃ got, p.written = got ++ p.unread ∧ p.dst.text = got.take ch.maxSize

structure Inv (s : State) : Prop where
  kept : ∀ ch, (s.pipe ch).Kept ch
  closed : ∀ ch, (s.pipe ch).reader = false → (s.pipe ch).writer = false
  ended : s.child ≠ none → ∀ ch, (s.pipe ch).writer = false
  nodup : (s.phase.events.map FiredEvent.channel).Nodup
  holds : ∀ e ∈ s.phase.events, e.Holds (s.pipe e.channel)
  finished : s.phase.Closed → ∀ ch, (s.pipe ch).reader = false
  pending : s.phase ≠ .done → s.exitStatus = SubProcessQueue.exitStatusNone
  waited : s.exitStatus = 0 → s.child ≠ none

theorem inv_init : Inv State.init where
  kept _ := ⟨[], rfl, List.take_nil.symm⟩
  closed _ h := by cases h
  ended h := absurd rfl h
  nodup := List.nodup_nil
  holds _ he := by cases he
  finished h := h.elim
  pending _ := rfl
  waited h := by cases h

@[simp] theorem setPipe_pipe_self (s : State) (ch : Channel) (p : Pipe) :
    (s.setPipe ch p).pipe ch = p := by
  simp [State.setPipe]

theorem setPipe_pipe_ne (s : State) (p : Pipe) {ch ch' : Channel} (h : ch' ≠ ch) :
    (s.setPipe ch p).pipe ch' = s.pipe ch' := by
  simp [State.setPipe, h]

/-- A property of all pipes, once one has changed. -/
theorem forall_setPipe {P : Channel → Pipe → Prop} (hother : ∀ ch', ch' ≠ ch → P ch' (s.pipe ch'))
    (hself : P ch p') (ch' : Channel) : P ch' ((s.setPipe ch p').pipe ch') := by
  by_cases h : ch' = ch
  · subst h
    rwa [setPipe_pipe_self]
  · rw [setPipe_pipe_ne s p' h]
    exact hother ch' h

/-- A pipe changes. -/
theorem Inv.setPipe (h : Inv s) (hkept : p'.Kept ch)
    (hclosed : p'.reader = false → p'.writer = false) (hended : s.child ≠ none → p'.writer = false)
    (hholds : ∀ e ∈ s.phase.events, e.channel = ch → e.Holds p')
    (hfinished : s.phase.Closed → p'.reader = false) : Inv (s.setPipe ch p') where
  kept := forall_setPipe (P := fun ch p => p.Kept ch) (fun ch' _ => h.kept ch') hkept
  closed := forall_setPipe (P := fun _ p => p.reader = false → p.writer = false)
    (fun ch' _ => h.closed ch') hclosed
  ended hchild := forall_setPipe (P := fun _ p => p.writer = false)
    (fun ch' _ => h.ended hchild ch') (hended hchild)
  nodup := h.nodup
  holds e he := by
    by_cases hch : e.channel = ch
    · rw [hch, setPipe_pipe_self]
      exact hholds e he hch
    · rw [setPipe_pipe_ne s p' hch]
      exact h.holds e he
  finished hphase := forall_setPipe (P := fun _ p => p.reader = false)
    (fun ch' _ => h.finished hphase ch') (hfinished hphase)
  pending := h.pending
  waited := h.waited

/-- `execute()` goes on. -/
theorem Inv.setPhase (h : Inv s) (hphase : s.phase ≠ .done)
    (hnodup : (phase.events.map FiredEvent.channel).Nodup)
    (hholds : ∀ e ∈ phase.events, e.Holds (s.pipe e.channel))
    (hfinished : phase.Closed → ∀ ch, (s.pipe ch).reader = false) :
    Inv { s with phase := phase } where
  kept := h.kept
  closed := h.closed
  ended := h.ended
  nodup := hnodup
  holds := hholds
  finished := hfinished
  pending _ := h.pending hphase
  waited := h.waited

theorem Pipe.Kept.read {p : Pipe} (h : p.Kept ch) (count : Nat) :
    Pipe.Kept ch { p with
      unread := p.unread.drop count
      dst := p.dst.append ch.maxSize (p.unread.take count) } := by
  obtain ⟨got, hwritten, htext⟩ := h
  refine ⟨got ++ p.unread.take count, ?_, DstBuffer.text_append htext _⟩
  rw [List.append_assoc, List.take_append_drop]
  exact hwritten

/-- An event is handled. -/
theorem Inv.handleEvent (h : Inv s) (hphase : s.phase = .handle (e :: fired)) {result : ReadResult}
    (hpossible : e.hup = true ∨ result.Possible (s.pipe e.channel)) :
    Inv { SubProcessLx.handleEvent s e result with phase := .handle fired } := by
  have hevents : s.phase.events = e :: fired := by rw [hphase]; rfl
  have hnodup := h.nodup
  rw [hevents, List.map_cons, List.nodup_cons] at hnodup
  have htail : Inv { s with phase := .handle fired } := by
    refine h.setPhase (by rw [hphase]; nofun) hnodup.2 (fun e' he' => h.holds e' ?_) (fun hc => hc.elim)
    rw [hevents]
    exact List.mem_cons_of_mem e he'
  have hnot : ∀ (p' : Pipe), ∀ e' ∈ fired, e'.channel = e.channel → e'.Holds p' :=
    fun p' e' he' hch => absurd (hch ▸ List.mem_map_of_mem he') hnodup.1
  have hhold := h.holds e (by rw [hevents]; exact List.mem_cons_self)
  unfold SubProcessLx.handleEvent
  simp only [hhold.reader, if_true]
  cases hhup : e.hup with
  | true =>
    have hwriter := hhold.hup hhup
    exact htail.setPipe (h.kept e.channel) (fun _ => hwriter) (fun _ => hwriter) (hnot _) (fun _ => rfl)
  | false =>
    have hdata := hhold.data hhup
    cases result with
    | bytes count =>
      exact htail.setPipe ((h.kept e.channel).read count)
        (fun hr => absurd (hhold.reader.symm.trans hr) (by decide))
        (fun hc => h.ended hc e.channel) (hnot _) (fun hc => hc.elim)
    | interrupted =>
      exact htail.setPipe (h.kept e.channel) (h.closed e.channel)
        (fun hc => h.ended hc e.channel) (hnot _) (fun hc => hc.elim)
    | nothing =>
      rw [hhup] at hpossible
      exact absurd (hpossible.resolve_left nofun) hdata

/-- The loop goes on or ends. -/
theorem Inv.afterEvent (h : Inv { s with phase := .handle fired }) :
    Inv { s with phase := afterEvent s fired } := by
  unfold SubProcessLx.afterEvent
  cases fired with
  | cons e fired => exact h
  | nil =>
    simp only
    split
    · exact h.setPhase nofun List.nodup_nil nofun (fun hc => hc.elim)
    · next hclosed =>
      rw [Bool.or_eq_true, not_or, Bool.not_eq_true, Bool.not_eq_true] at hclosed
      refine h.setPhase nofun List.nodup_nil nofun fun _ ch => ?_
      cases ch with
      | out => exact hclosed.1
      | err => exact hclosed.2

/-- `execute()` returns. -/
theorem Inv.returned (h : Inv s) (hclosed : ∀ ch, (s.pipe ch).reader = false) (exitStatus : Int)
    (hwaited : exitStatus = 0 → s.child ≠ none) :
    Inv { s with exitStatus := exitStatus, phase := .done } where
  kept := h.kept
  closed := h.closed
  ended := h.ended
  nodup := List.nodup_nil
  holds := nofun
  finished _ := hclosed
  pending hc := absurd rfl hc
  waited := hwaited

/-- **Step lemma**: every step keeps the invariant. -/
theorem Inv.step (h : Inv s) (hs : step s a = some s') : Inv s' := by
  cases a with
  | write ch bytes =>
    obtain ⟨⟨hchild, hwriter, hreader⟩, rfl⟩ := step_write_iff.1 hs
    obtain ⟨got, hwritten, htext⟩ := h.kept ch
    refine h.setPipe ⟨got, ?_, htext⟩ (h.closed ch) (fun hc => absurd hchild hc) ?_ ?_
    · rw [hwritten, List.append_assoc]
    · rintro e he rfl
      have hhold := h.holds e he
      exact ⟨hhold.reader, hhold.hup, fun hd => by simp [hhold.data hd]⟩
    · intro hc
      exact absurd (h.finished hc ch) (by simp [hreader])
  | close ch =>
    obtain ⟨-, rfl⟩ := step_close_iff.1 hs
    refine h.setPipe (h.kept ch) (fun _ => rfl) (fun _ => rfl) ?_ (fun hc => h.finished hc ch)
    rintro e he rfl
    have hhold := h.holds e he
    exact ⟨hhold.reader, fun _ => rfl, hhold.data⟩
  | exit ended =>
    obtain ⟨-, rfl⟩ := step_exit_iff.1 hs
    exact
      { kept := h.kept
        closed := fun _ _ => rfl
        ended := fun _ _ => rfl
        nodup := h.nodup
        holds := fun e he => ⟨(h.holds e he).reader, fun _ => rfl, (h.holds e he).data⟩
        finished := h.finished
        pending := h.pending
        waited := fun _ => nofun }
  | fire ch =>
    obtain ⟨fired, hphase, ⟨hreader, hready, hnew⟩, rfl⟩ := step_fire_iff.1 hs
    have hevents : s.phase.events = fired := by rw [hphase]; rfl
    refine h.setPhase (by rw [hphase]; nofun) ?_ ?_ (fun hc => hc.elim)
    · rw [Phase.events, List.map_append, List.nodup_append]
      refine ⟨hevents ▸ h.nodup, by simp, ?_⟩
      intro x hx y hy
      obtain ⟨e, he, rfl⟩ := List.mem_map.1 hx
      rw [List.map_singleton, List.mem_singleton] at hy
      rw [hy]
      exact hnew e he
    · intro e he
      rcases List.mem_append.1 he with he | he
      · exact h.holds e (hevents ▸ he)
      · rw [List.mem_singleton] at he
        subst he
        refine ⟨hreader, fun hh => by simpa using hh, fun hh => ?_⟩
        exact hready.resolve_right (by simpa using hh)
  | epollReturn =>
    obtain ⟨e, fired, hphase, rfl⟩ := step_epollReturn_iff.1 hs
    have hevents : s.phase.events = e :: fired := by rw [hphase]; rfl
    exact h.setPhase (by rw [hphase]; nofun) (hevents ▸ h.nodup) (hevents ▸ h.holds)
      (fun hc => hc.elim)
  | handle result =>
    obtain ⟨e, fired, hphase, hpossible, rfl⟩ := step_handle_iff.1 hs
    exact (h.handleEvent hphase hpossible).afterEvent
  | waitpid result =>
    obtain ⟨hphase, hs⟩ := step_waitpid_iff.1 hs
    have hclosed : ∀ ch, (s.pipe ch).reader = false := h.finished (by rw [hphase]; trivial)
    cases result with
    | ended =>
      obtain ⟨ended, hchild, rfl⟩ := waitFor_ended_iff.1 hs
      exact h.returned hclosed _ fun _ => by rw [hchild]; nofun
    | interrupted =>
      cases hs
      exact h
    | failed =>
      cases hs
      exact h.returned hclosed _ nofun

end Invariant

/-! ## What a step can lose -/

section Good

variable {s s' : State} {a : Action} {ch : Channel} {trace : List (State × Action)}

/-- Nothing is lost so far. -/
structure Good (s : State) : Prop where
  drained : ∀ ch, (s.pipe ch).reader = false → (s.pipe ch).Drained ch
  status : s.exitStatus = 0 → s.child = some (.exited 0)

theorem good_init : Good State.init where
  drained _ h := by cases h
  status h := by cases h

theorem good_iff_of_same (hdrained : ∀ ch,
      ((s'.pipe ch).reader = false → (s'.pipe ch).Drained ch) ↔
        ((s.pipe ch).reader = false → (s.pipe ch).Drained ch))
    (hstatus : (s'.exitStatus = 0 → s'.child = some (.exited 0)) ↔
      (s.exitStatus = 0 → s.child = some (.exited 0))) : Good s' ↔ Good s := by
  constructor
  · intro h
    exact ⟨fun ch => (hdrained ch).1 (h.drained ch), hstatus.1 h.status⟩
  · intro h
    exact ⟨fun ch => (hdrained ch).2 (h.drained ch), hstatus.2 h.status⟩

theorem good_setPhase (s : State) (phase : Phase) : Good { s with phase := phase } ↔ Good s :=
  good_iff_of_same (fun _ => Iff.rfl) Iff.rfl

theorem good_step_of_iff (hok : StepOk s a) (hgood : Good s' ↔ Good s) :
    Good s' ↔ Good s ∧ StepOk s a :=
  hgood.trans (and_iff_left hok).symm

/-- A pipe that changes and stays open, or loses nothing by it. -/
theorem good_setPipe_iff {p' : Pipe} (hreader : (s.pipe ch).reader = true) :
    Good (s.setPipe ch p') ↔ Good s ∧ (p'.reader = false → p'.Drained ch) := by
  constructor
  · intro h
    have hself := h.drained ch
    rw [setPipe_pipe_self] at hself
    refine ⟨⟨fun ch' hclosed => ?_, h.status⟩, hself⟩
    have hne : ch' ≠ ch := by
      rintro rfl
      rw [hreader] at hclosed
      cases hclosed
    have hother := h.drained ch'
    rw [setPipe_pipe_ne s p' hne] at hother
    exact hother hclosed
  · rintro ⟨h, hself⟩
    exact ⟨forall_setPipe (P := fun ch p => p.reader = false → p.Drained ch)
      (fun ch' _ => h.drained ch') hself, h.status⟩

/-- **What a step can lose**: what is left in a pipe that is closed, and that the child was killed. -/
theorem good_step_iff (h : Inv s) (hs : step s a = some s') : Good s' ↔ Good s ∧ StepOk s a := by
  cases a with
  | write ch bytes =>
    obtain ⟨⟨-, -, hreader⟩, rfl⟩ := step_write_iff.1 hs
    rw [good_setPipe_iff hreader]
    refine and_congr_right fun _ => iff_of_true (fun hr => ?_) trivial
    exact absurd (hreader.symm.trans hr) (by decide)
  | close ch =>
    obtain ⟨-, rfl⟩ := step_close_iff.1 hs
    refine good_step_of_iff trivial (good_iff_of_same (fun ch' => ?_) Iff.rfl)
    by_cases hch : ch' = ch
    · subst hch
      rw [setPipe_pipe_self]
      rfl
    · rw [setPipe_pipe_ne _ _ hch]
  | exit ended =>
    obtain ⟨hchild, rfl⟩ := step_exit_iff.1 hs
    have hnot : s.exitStatus ≠ 0 := fun hzero => h.waited hzero hchild
    exact good_step_of_iff trivial (good_iff_of_same (fun _ => Iff.rfl)
      (iff_of_true (fun hc => absurd hc hnot) (fun hc => absurd hc hnot)))
  | fire ch =>
    obtain ⟨-, -, -, rfl⟩ := step_fire_iff.1 hs
    exact good_step_of_iff trivial (good_setPhase s _)
  | epollReturn =>
    obtain ⟨-, -, -, rfl⟩ := step_epollReturn_iff.1 hs
    exact good_step_of_iff trivial (good_setPhase s _)
  | handle result =>
    obtain ⟨e, fired, hphase, hpossible, rfl⟩ := step_handle_iff.1 hs
    have hhold := h.holds e (by rw [hphase]; exact List.mem_cons_self)
    have hok : StepOk s (.handle result) ↔
        (e.hup = true → (s.pipe e.channel).Drained e.channel) := by
      constructor
      · exact fun hall => hall e fired hphase
      · intro hone e' fired' hphase'
        rw [hphase] at hphase'
        obtain ⟨rfl, -⟩ := List.cons.inj (Phase.handle.inj hphase')
        exact hone
    rw [hok]
    refine (good_setPhase (handleEvent s e result) _).trans ?_
    unfold handleEvent
    simp only [hhold.reader, if_true]
    cases hhup : e.hup with
    | true =>
      rw [Bool.not_true, if_neg nofun, good_setPipe_iff hhold.reader]
      exact and_congr_right fun _ => ⟨fun hd _ => hd rfl, fun hd _ => hd rfl⟩
    | false =>
      rw [Bool.not_false, if_pos rfl, good_setPipe_iff hhold.reader]
      refine and_congr_right fun _ => iff_of_true (fun hr => ?_) nofun
      -- the pipe stays open, as there is something to be read
      cases result with
      | bytes count => exact absurd (hhold.reader.symm.trans hr) (by decide)
      | interrupted => exact absurd (hhold.reader.symm.trans hr) (by decide)
      | nothing =>
        rw [hhup] at hpossible
        exact absurd (hpossible.resolve_left nofun) (hhold.data hhup)
  | waitpid result =>
    obtain ⟨hphase, hs⟩ := step_waitpid_iff.1 hs
    have hnot : s.exitStatus ≠ 0 := by
      rw [h.pending (by rw [hphase]; nofun)]
      decide
    cases result with
    | ended =>
      obtain ⟨ended, hchild, rfl⟩ := waitFor_ended_iff.1 hs
      have hok : StepOk s (.waitpid .ended) ↔ ∀ signal core, ended ≠ .killed signal core := by
        simp only [StepOk, hchild, Ne, Option.some.injEq]
      have hzero : ((wexitstatus ended.status : Int) = 0 → s.child = some (.exited 0)) ↔
          ∀ signal core, ended ≠ .killed signal core := by
        rw [Int.natCast_eq_zero, ended.wexitstatus_status]
        constructor
        · intro himp signal core heq
          have hexited := himp (.inr ⟨signal, core, heq⟩)
          rw [hchild, heq] at hexited
          cases hexited
        · rintro hne (rfl | ⟨signal, core, heq⟩)
          · exact hchild
          · exact absurd heq (hne signal core)
      rw [hok]
      constructor
      · intro hgood
        exact ⟨⟨hgood.drained, fun hc => absurd hc hnot⟩, hzero.1 hgood.status⟩
      · rintro ⟨hgood, hne⟩
        exact ⟨hgood.drained, hzero.2 hne⟩
    | interrupted =>
      cases hs
      exact good_step_of_iff trivial Iff.rfl
    | failed =>
      cases hs
      exact good_step_of_iff trivial
        (good_iff_of_same (fun _ => Iff.rfl) (iff_of_true nofun (fun hc => absurd hc hnot)))

end Good

/-! ## Runs -/

section Runs

variable {s s' : State} {ch : Channel} {trace : List (State × Action)}

/-- **Run lemma.** -/
theorem Run.inv (run : Run trace s) : Inv s := by
  induction run with
  | init => exact inv_init
  | next _ result ih => exact ih.step result

theorem Run.good_iff (run : Run trace s) : Good s ↔ ∀ x ∈ trace, StepOk x.1 x.2 := by
  induction run with
  | init => exact iff_of_true good_init nofun
  | next run result ih => rw [good_step_iff run.inv result, ih, List.forall_mem_cons, and_comm]

/-- A buffer has all that belongs into it, if nothing that does was left. -/
theorem Pipe.Kept.text_eq_iff {p : Pipe} (h : p.Kept ch) :
    p.dst.text = p.written.take ch.maxSize ↔ p.Drained ch := by
  obtain ⟨got, hwritten, htext⟩ := h
  rw [hwritten, List.take_append, htext, List.self_eq_append_right, Pipe.Drained, htext,
    List.length_take]
  constructor
  · intro hnil
    rcases List.take_eq_nil_iff.1 hnil with hzero | hnil
    · right
      omega
    · exact .inl hnil
  · rintro (hnil | hfull)
    · rw [hnil, List.take_nil]
    · have hzero : ch.maxSize - got.length = 0 := by omega
      rw [hzero, List.take_zero]

theorem recorded_iff (h : Inv s) (hdone : s.phase = .done) : Recorded s ↔ Good s := by
  have hclosed : ∀ ch, (s.pipe ch).reader = false := h.finished (by rw [hdone]; trivial)
  constructor
  · intro hrec
    exact ⟨fun ch _ => (h.kept ch).text_eq_iff.1 (hrec.output ch), hrec.exitStatus⟩
  · intro hgood
    refine ⟨fun ch => (h.kept ch).text_eq_iff.2 (hgood.drained ch (hclosed ch)), hgood.status, ?_⟩
    intro q hfinished hdiscards
    apply hgood.status
    simp only [SubProcessQueue.State.discards, hfinished] at hdiscards
    simp at hdiscards
    exact hdiscards.2

/-- **The output and the exit status are recorded faithfully** exactly if no step loses anything: each
pipe is closed with nothing left for its buffer, and the child was not killed. -/
theorem execute_recorded_iff (run : Run trace s) (hdone : s.phase = .done) :
    Recorded s ↔ ∀ x ∈ trace, StepOk x.1 x.2 := by
  rw [recorded_iff run.inv hdone, run.good_iff]

end Runs

/-! ### `execute()` returns -/

section Returns

variable {s s' : State} {a : Action} {ch : Channel} {p' : Pipe} {trace : List (State × Action)}

/-- There is a pipe to wait for, or an event to handle. -/
structure Going (s : State) : Prop where
  observed : ∀ fired, s.phase = .poll fired → ∃ ch, (s.pipe ch).reader = true
  handling : s.phase ≠ .handle []

theorem Going.of_same (h : Going s) (hphase : s'.phase = s.phase)
    (hreader : ∀ ch, (s'.pipe ch).reader = (s.pipe ch).reader) : Going s' where
  observed fired hf := by
    obtain ⟨ch, hch⟩ := h.observed fired (hphase ▸ hf)
    exact ⟨ch, (hreader ch).trans hch⟩
  handling := hphase ▸ h.handling

theorem going_afterEvent (s : State) (fired : List FiredEvent) :
    Going { s with phase := afterEvent s fired } := by
  unfold afterEvent
  cases fired with
  | cons e fired => exact ⟨nofun, nofun⟩
  | nil =>
    simp only
    split
    · next hopen =>
      refine ⟨fun _ _ => ?_, nofun⟩
      rcases (Bool.or_eq_true _ _).mp hopen with hout | herr
      · exact ⟨.out, hout⟩
      · exact ⟨.err, herr⟩
    · exact ⟨nofun, nofun⟩

theorem reader_setPipe (hp : p'.reader = (s.pipe ch).reader) (ch' : Channel) :
    ((s.setPipe ch p').pipe ch').reader = (s.pipe ch').reader := by
  by_cases h : ch' = ch
  · subst h
    rw [setPipe_pipe_self, hp]
  · rw [setPipe_pipe_ne s p' h]

theorem Going.step (h : Going s) (hs : step s a = some s') : Going s' := by
  cases a with
  | write ch bytes =>
    obtain ⟨-, rfl⟩ := step_write_iff.1 hs
    exact h.of_same rfl (reader_setPipe rfl)
  | close ch =>
    obtain ⟨-, rfl⟩ := step_close_iff.1 hs
    exact h.of_same rfl (reader_setPipe rfl)
  | exit ended =>
    obtain ⟨-, rfl⟩ := step_exit_iff.1 hs
    exact h.of_same rfl fun _ => rfl
  | fire ch =>
    obtain ⟨fired, hphase, -, rfl⟩ := step_fire_iff.1 hs
    exact ⟨fun _ _ => h.observed fired hphase, nofun⟩
  | epollReturn =>
    obtain ⟨-, -, -, rfl⟩ := step_epollReturn_iff.1 hs
    exact ⟨nofun, nofun⟩
  | handle result =>
    obtain ⟨e, fired, -, -, rfl⟩ := step_handle_iff.1 hs
    exact going_afterEvent _ fired
  | waitpid result =>
    obtain ⟨-, hs⟩ := step_waitpid_iff.1 hs
    cases result with
    | ended =>
      obtain ⟨ended, -, rfl⟩ := waitFor_ended_iff.1 hs
      exact ⟨nofun, nofun⟩
    | interrupted =>
      cases hs
      exact h
    | failed =>
      cases hs
      exact ⟨nofun, nofun⟩

theorem Run.going (run : Run trace s) : Going s := by
  induction run with
  | init => exact ⟨fun _ _ => ⟨.out, rfl⟩, nofun⟩
  | next _ result ih => exact ih.step result

/-- What is left to be done with a pipe. -/
def Pipe.left (p : Pipe) : Nat := if p.reader then 1 + p.unread.length else 0

def Phase.left : Phase → Nat
  | .poll [] => 4
  | .poll _ => 3
  | .handle _ => 2
  | .wait => 1
  | .done => 0

def State.left (s : State) : Nat := 8 * ((s.pipe .out).left + (s.pipe .err).left) + s.phase.left

theorem left_setPipe (h : p'.left < (s.pipe ch).left) :
    ((s.setPipe ch p').pipe .out).left + ((s.setPipe ch p').pipe .err).left <
      (s.pipe .out).left + (s.pipe .err).left := by
  cases ch with
  | out =>
    rw [setPipe_pipe_self, setPipe_pipe_ne s p' (show Channel.err ≠ .out by decide)]
    exact Nat.add_lt_add_right h _
  | err =>
    rw [setPipe_pipe_self, setPipe_pipe_ne s p' (show Channel.out ≠ .err by decide)]
    exact Nat.add_lt_add_left h _

theorem left_afterEvent (s : State) (fired : List FiredEvent) : (afterEvent s fired).left ≤ 4 := by
  unfold afterEvent
  cases fired with
  | cons e fired => exact (by decide : 2 ≤ 4)
  | nil =>
    simp only
    split
    · exact le_refl 4
    · exact (by decide : 1 ≤ 4)

/-- An event can be handled, and then there is less left in its pipe. -/
theorem exists_handle {e : FiredEvent} (h : e.Holds (s.pipe e.channel)) : ∃ result : ReadResult,
    (e.hup = true ∨ result.Possible (s.pipe e.channel)) ∧
      ∃ p', handleEvent s e result = s.setPipe e.channel p' ∧ p'.left < (s.pipe e.channel).left := by
  have hleft : (s.pipe e.channel).left = 1 + (s.pipe e.channel).unread.length := if_pos h.reader
  cases hhup : e.hup with
  | true =>
    refine ⟨.interrupted, .inl rfl, { s.pipe e.channel with reader := false }, ?_, ?_⟩
    · simp [handleEvent, h.reader, hhup]
    · rw [hleft]
      exact Nat.lt_add_right _ Nat.one_pos
  | false =>
    have hpos : 0 < (s.pipe e.channel).unread.length := List.length_pos_iff.2 (h.data hhup)
    refine ⟨.bytes 1, .inr ⟨le_refl 1, by decide, hpos⟩,
      readSubprocFd e.channel (s.pipe e.channel) (.bytes 1), ?_, ?_⟩
    · simp [handleEvent, h.reader, hhup]
    · rw [hleft, Pipe.left]
      simp only [readSubprocFd, h.reader, if_true, List.length_drop]
      omega

/-- Once the child has ended, there is a step that leads on. -/
theorem exists_step (h : Inv s) (hgoing : Going s) (hchild : s.child ≠ none)
    (hphase : s.phase ≠ .done) : ∃ a s', step s a = some s' ∧ s'.child = s.child ∧ s'.left < s.left := by
  cases hp : s.phase with
  | done => exact absurd hp hphase
  | wait =>
    obtain ⟨ended, hended⟩ := Option.ne_none_iff_exists'.1 hchild
    refine ⟨.waitpid .ended, _,
      step_waitpid_iff.2 ⟨hp, waitFor_ended_iff.2 ⟨ended, hended, rfl⟩⟩, rfl, ?_⟩
    simp [State.left, hp, Phase.left]
  | poll fired =>
    cases fired with
    | nil =>
      obtain ⟨ch, hch⟩ := hgoing.observed [] hp
      refine ⟨.fire ch, _,
        step_fire_iff.2 ⟨[], hp, ⟨hch, .inr (h.ended hchild ch), nofun⟩, rfl⟩, rfl, ?_⟩
      simp [State.left, hp, Phase.left]
    | cons e fired =>
      refine ⟨.epollReturn, _, step_epollReturn_iff.2 ⟨e, fired, hp, rfl⟩, rfl, ?_⟩
      simp [State.left, hp, Phase.left]
  | handle fired =>
    cases fired with
    | nil => exact absurd hp hgoing.handling
    | cons e fired =>
      have hhold := h.holds e (by rw [hp]; exact List.mem_cons_self)
      obtain ⟨result, hpossible, p', heq, hlt⟩ := exists_handle hhold
      refine ⟨.handle result, _, step_handle_iff.2 ⟨e, fired, hp, hpossible, rfl⟩, ?_, ?_⟩
      · rw [heq]
        rfl
      · have hpipes := left_setPipe hlt
        have hafter := left_afterEvent (s.setPipe e.channel p') fired
        have hphase2 : (Phase.handle (e :: fired)).left = 2 := rfl
        rw [heq]
        simp only [State.left, hp, hphase2]
        omega

/-- **Once the child has ended, `execute()` returns**: no wait is for ever, and there is only so much
left to be read. -/
theorem execute_returns (run : Run trace s) (hchild : s.child ≠ none) :
    ∃ trace' s', Run (trace' ++ trace) s' ∧ s'.phase = .done := by
  induction hn : s.left using Nat.strong_induction_on generalizing s trace with
  | _ n ih =>
    subst hn
    by_cases hphase : s.phase = .done
    · exact ⟨[], s, run, hphase⟩
    · obtain ⟨a, s', hstep, hsame, hlt⟩ := exists_step run.inv run.going hchild hphase
      obtain ⟨trace', s'', hrun, hdone⟩ := ih _ hlt (.next run hstep) (hsame ▸ hchild) rfl
      exact ⟨trace' ++ [(s, a)], s'', by rwa [List.append_assoc], hdone⟩

end Returns

/-! ### Two runs -/

section Samples

variable {s : State} {trace : List (State × Action)}

/-- One step more, as the model computes it. -/
theorem Run.perform (run : Run trace s) (a : Action) (possible : (step s a).isSome) :
    Run ((s, a) :: trace) ((step s a).get possible) :=
  .next run (Option.some_get possible).symm

/-- A child whose output is read before it ends. -/
theorem execute_recorded_read_first : ∃ trace s, Run trace s ∧ s.phase = .done ∧
    (s.pipe .out).written = [97] ∧ Recorded s := by
  have r₁ := Run.init.perform (.write .out [97]) rfl
  have r₂ := r₁.perform (.fire .out) rfl
  have r₃ := r₂.perform .epollReturn rfl
  have r₄ := r₃.perform (.handle (.bytes 1)) rfl
  have r₅ := r₄.perform (.exit (.exited 0)) rfl
  have r₆ := r₅.perform (.fire .out) rfl
  have r₇ := r₆.perform (.fire .err) rfl
  have r₈ := r₇.perform .epollReturn rfl
  have r₉ := r₈.perform (.handle .interrupted) rfl
  have r₁₀ := r₉.perform (.handle .interrupted) rfl
  have r₁₁ := r₁₀.perform (.waitpid .ended) rfl
  refine ⟨_, _, r₁₁, rfl, rfl, (execute_recorded_iff r₁₁ rfl).2 ?_⟩
  simp only [List.forall_mem_cons]
  refine ⟨nofun, ?_, ?_, trivial, trivial, trivial, trivial, ?_, trivial, trivial, trivial, nofun⟩
  · rintro e fired ⟨⟩ -
    exact .inl rfl
  · rintro e fired ⟨⟩ -
    exact .inl rfl
  · rintro e fired ⟨⟩ ⟨⟩

/-- Data and the end of the child that are found at once: the data is dropped.  A child that is killed
has the exit status 0. -/
theorem execute_loses : (∃ trace s, Run trace s ∧ s.phase = .done ∧ s.child = some (.exited 0) ∧
      (s.pipe .out).written = [97] ∧ (s.pipe .out).dst.text = [] ∧ ¬Recorded s) ∧
    ∃ trace s, Run trace s ∧ s.phase = .done ∧ s.child = some (.killed 8 false) ∧
      s.exitStatus = 0 ∧ ¬Recorded s := by
  constructor
  · have r₁ := Run.init.perform (.write .out [97]) rfl
    have r₂ := r₁.perform (.exit (.exited 0)) rfl
    have r₃ := r₂.perform (.fire .out) rfl
    have r₄ := r₃.perform (.fire .err) rfl
    have r₅ := r₄.perform .epollReturn rfl
    have r₆ := r₅.perform (.handle .interrupted) rfl
    have r₇ := r₆.perform (.handle .interrupted) rfl
    have r₈ := r₇.perform (.waitpid .ended) rfl
    refine ⟨_, _, r₈, rfl, rfl, rfl, rfl, fun h => ?_⟩
    have htext := h.output .out
    cases htext
  · have r₁ := Run.init.perform (.exit (.killed 8 false)) rfl
    have r₂ := r₁.perform (.fire .out) rfl
    have r₃ := r₂.perform (.fire .err) rfl
    have r₄ := r₃.perform .epollReturn rfl
    have r₅ := r₄.perform (.handle .interrupted) rfl
    have r₆ := r₅.perform (.handle .interrupted) rfl
    have r₇ := r₆.perform (.waitpid .ended) rfl
    refine ⟨_, _, r₇, rfl, rfl, rfl, fun h => ?_⟩
    have hchild := h.exitStatus rfl
    cases hchild

end Samples

end DrbdUtils.DrbdMon.SubProcessLx
