import DrbdUtils.Lib.Lines

/-!
# drbdmon's event lines

`EventsIo.cpp`: the buffer of the events channel, from which `wait_event()`, `get_event_line()` and
`free_event_line()` take lines, together with the part of `DrbdMon::run()` that calls them.

* `prepareLine_found`, `prepareLine_none` — the search for a line.
* `Buffered` — the lines taken, what is in the buffer and what is not read yet make up the stream.
* `step_inv`, `run_inv` — one step of the main loop, and any number of them.
* `lines_handed_out` — the lines are those of the stream.
-/

set_option autoImplicit false

namespace DrbdUtils.DrbdMon.EventLines

open Lines

/-! ## Model -/

abbrev Line := List UInt8

/-- `'\n'`. -/
def newline : UInt8 := 0x0A

/-- `MAX_LINE_LENGTH`. -/
def maxLineLength : Nat := 1024

/-- `EventsIoException` with its message, `EventMessageException` with its debug information. -/
inductive Fault where
  | eventsIo (errorMsg : String)
  | eventMessage (debugInfo : String)
  deriving DecidableEq, Repr

/-- The file descriptors that are polled. -/
inductive Fd where
  | events
  | error
  | signal
  | stdin
  | wakeup
  deriving DecidableEq, Repr

/-- What a `read()` of the events channel finds; the kernel takes any number of bytes. -/
inductive ReadAnswer where
  | bytes (count : Nat)
  | again
  | closed
  | failed
  deriving DecidableEq, Repr

/-- What the system calls of a step answer: the descriptors that became ready (none when the call was
    interrupted), the events channel, and whether the input on the terminal completes a key. -/
structure Answer where
  fired : List Fd
  read : ReadAnswer
  key : Bool
  deriving DecidableEq, Repr

/-- The members of `EventsIo` that have to do with lines; `eventsBuffer` is the part of the buffer in front
    of `events_length`, `firedEvents` what is left of the pending events. -/
structure EventsIo where
  eventsBuffer : List UInt8
  eventBeginPos : Nat
  eventLine : Option Line
  eventsEof : Bool
  linePending : Bool
  dataPending : Bool
  discardLine : Bool
  firedEvents : List Fd
  deriving DecidableEq, Repr

/-- The loop that looks for the end of a line: the characters behind it, and the position behind the line. -/
def scanLine : List UInt8 → List UInt8 × Option Nat
  | [] => ([], none)
  | char :: rest =>
    if char = newline then (char :: rest, some 1)
    else
      let (rest', endPos) := scanLine rest
      ((if char = 0x1B then 0x3F else char) :: rest', endPos.map (· + 1))

def lineTooLong : Fault := .eventsIo "Event line exceeded maximum permitted length"

/-- `prepare_line`. -/
def prepareLine (io : EventsIo) : Except Fault EventsIo :=
  if io.linePending then .ok io
  else
    let (scanned, eventEnd) := scanLine (io.eventsBuffer.drop io.eventBeginPos)
    let inputData := io.eventsBuffer.take io.eventBeginPos ++ scanned
    match eventEnd with
    | some length =>
      if io.discardLine then
        .ok { io with
          eventsBuffer := inputData, eventLine := none, discardLine := false,
          eventBeginPos := io.eventBeginPos + length }
      else
        .ok { io with
          eventsBuffer := inputData, eventLine := some (scanned.take (length - 1)), linePending := true,
          eventBeginPos := io.eventBeginPos + length }
    | none =>
      if 0 < io.eventBeginPos then
        .ok { io with
          eventsBuffer := inputData.drop io.eventBeginPos, eventLine := none, dataPending := false,
          eventBeginPos := 0 }
      else if io.eventsBuffer.length = maxLineLength then .error lineTooLong
      else .ok { io with eventsBuffer := inputData, eventLine := none, dataPending := false }

/-- `read()` of the events channel, with what is still unread behind it. -/
def kernelRead (unread : List UInt8) (length : Nat) : ReadAnswer → ReadAnswer × List UInt8 × List UInt8
  | .bytes count =>
    let chunk := unread.take (min count length)
    if chunk = [] then (.again, [], unread) else (.bytes chunk.length, chunk, unread.drop chunk.length)
  | .again => (.again, [], unread)
  | .closed => if unread = [] then (.closed, [], []) else (.again, [], unread)
  | .failed => (.failed, [], unread)

/-- `read_events`. -/
def readEvents (answer : ReadAnswer) (io : EventsIo) (unread : List UInt8) :
    Except Fault (EventsIo × List UInt8) :=
  if io.eventsBuffer.length < maxLineLength then
    match kernelRead unread (maxLineLength - io.eventsBuffer.length) answer with
    | (.closed, _, unread) => .ok ({ io with eventsEof := true }, unread)
    | (.again, _, unread) => .ok (io, unread)
    | (.failed, _, _) => .error (.eventsIo "Reading from the events channel failed")
    | (.bytes _, chunk, unread) =>
      .ok ({ io with dataPending := true, eventsBuffer := io.eventsBuffer ++ chunk }, unread)
  else .ok (io, unread)

/-- `get_event_line`; the line is the member `eventLine` behind it. -/
def getEventLine (answer : ReadAnswer) (io : EventsIo) (unread : List UInt8) :
    Except Fault (EventsIo × List UInt8) := do
  let (io, unread) ←
    if io.eventLine.isNone then do
      let (io, unread) ← if io.dataPending then .ok (io, unread) else readEvents answer io unread
      let io ← prepareLine io
      pure (io, unread)
    else pure (io, unread)
  return ({ io with linePending := false }, unread)

/-- `free_event_line`. -/
def freeEventLine (io : EventsIo) : EventsIo := { io with eventLine := none }

/-- Where the main loop is: at the call of `wait_event`, in the loop of it, at its return with an event line,
    and at the head of the loop over the lines. -/
inductive At where
  | waitEvent
  | poll
  | eventLine
  | lines
  deriving DecidableEq, Repr

/-- The main loop: what is not read of the stream, and the lines that were handed out. -/
structure Main where
  io : EventsIo
  unread : List UInt8
  loc : At
  handed : List Line
  deriving DecidableEq, Repr

def noLine : Fault := .eventMessage "EventsIo::get_event_line() returned nullptr"

/-- The handling of a descriptor in `wait_event`. -/
def handleFd (answer : Answer) (s : Main) (fired : List Fd) : Fd → Except Fault Main
  | .events =>
    if s.io.eventsEof then .error (.eventsIo "The events stream was closed")
    else do
      let (io, unread) ← readEvents answer.read s.io s.unread
      let io ← prepareLine io
      let loc := if io.linePending then .eventLine else .poll
      return { s with io := { io with firedEvents := fired }, unread, loc }
  | .error => .error (.eventsIo "The events source wrote to the stderr channel")
  | .signal => .ok { s with io := { s.io with firedEvents := fired }, loc := .waitEvent }
  | .stdin =>
    .ok { s with
      io := { s.io with firedEvents := fired }, loc := if answer.key then .waitEvent else .poll }
  | .wakeup => .ok { s with io := { s.io with firedEvents := fired }, loc := .waitEvent }

/-- A step of the main loop. -/
def step (s : Main) (answer : Answer) : Except Fault Main :=
  match s.loc with
  | .waitEvent =>
    if s.io.dataPending then do
      let io ← prepareLine s.io
      return { s with io, loc := if io.linePending then .eventLine else .poll }
    else .ok { s with loc := .poll }
  | .poll =>
    match s.io.firedEvents with
    | [] => .ok { s with io := { s.io with firedEvents := answer.fired } }
    | fd :: fired => handleFd answer s fired fd
  | .eventLine => do
    let (io, unread) ← getEventLine answer.read s.io s.unread
    if io.eventLine.isNone then .error noLine
    else return { s with io, unread, loc := .lines }
  | .lines =>
    match s.io.eventLine with
    | none => .ok { s with loc := .waitEvent }
    | some line => do
      let (io, unread) ← getEventLine answer.read (freeEventLine s.io) s.unread
      return { s with io, unread, handed := s.handed ++ [line] }

/-- The main loop with a fresh `EventsIo`. -/
def start (stream : List UInt8) : Main where
  io := ⟨[], 0, none, false, false, false, false, []⟩
  unread := stream
  loc := .waitEvent
  handed := []

def run (answers : List Answer) (s : Main) : Except Fault Main := answers.foldlM step s

/-! ## The search for a line -/

/-- What `prepare_line` makes of a character. -/
def clean (char : UInt8) : UInt8 := if char = 0x1B then 0x3F else char

theorem clean_eq_newline (char : UInt8) : clean char = newline ↔ char = newline := by
  rw [clean]
  split
  · next h =>
    subst h
    decide
  · rfl

theorem newline_not_mem_clean {line : List UInt8} : newline ∉ line.map clean ↔ newline ∉ line := by
  simp [clean_eq_newline]

theorem scanLine_none {rest : List UInt8} (h : newline ∉ rest) : scanLine rest = (rest.map clean, none) := by
  induction rest with
  | nil => rfl
  | cons char rest ih =>
    rw [List.mem_cons, not_or] at h
    rw [scanLine, if_neg (Ne.symm h.1), ih h.2]
    rfl

theorem scanLine_found {line : List UInt8} (h : newline ∉ line) (rest : List UInt8) :
    scanLine (line ++ newline :: rest) = (line.map clean ++ newline :: rest, some (line.length + 1)) := by
  induction line with
  | nil => rfl
  | cons char line ih =>
    rw [List.mem_cons, not_or] at h
    rw [List.cons_append, scanLine, if_neg (Ne.symm h.1), ih h.2]
    rfl

theorem prepareLine_found {io : EventsIo} {line rest : List UInt8} (hpending : io.linePending = false)
    (hdiscard : io.discardLine = false) (hline : newline ∉ line)
    (hbuffer : io.eventsBuffer.drop io.eventBeginPos = line ++ newline :: rest) :
    prepareLine io =
      .ok { io with
        eventsBuffer := io.eventsBuffer.take io.eventBeginPos ++ (line.map clean ++ newline :: rest)
        eventLine := some (line.map clean), linePending := true
        eventBeginPos := io.eventBeginPos + (line.length + 1) } := by
  have htake : (line.map clean ++ newline :: rest).take line.length = line.map clean :=
    List.take_left' (List.length_map _)
  rw [prepareLine, hpending, hbuffer, scanLine_found hline]
  simp [hdiscard, htake]

theorem prepareLine_none {io : EventsIo} (hpending : io.linePending = false)
    (hline : newline ∉ io.eventsBuffer.drop io.eventBeginPos)
    (hbegin : io.eventBeginPos ≤ io.eventsBuffer.length)
    (hlength : (io.eventsBuffer.drop io.eventBeginPos).length < maxLineLength) :
    prepareLine io =
      .ok { io with
        eventsBuffer := (io.eventsBuffer.drop io.eventBeginPos).map clean
        eventLine := none, dataPending := false, eventBeginPos := 0 } := by
  rw [prepareLine, hpending, scanLine_none hline]
  obtain ⟨buffer, begin, _, _, _, _, _, _⟩ := io
  dsimp only at *
  by_cases hpos : 0 < begin
  · have hdrop : (buffer.take begin ++ (buffer.drop begin).map clean).drop begin =
        (buffer.drop begin).map clean := List.drop_left' (List.length_take_of_le hbegin)
    simp only [Bool.false_eq_true, if_false, hpos, if_true, hdrop]
  · obtain rfl : begin = 0 := Nat.eq_zero_of_not_pos hpos
    have hne : buffer.length ≠ maxLineLength := Nat.ne_of_lt hlength
    simp [hne]

/-! ## The lines in the buffer -/

/-- The channel was read up to `unread`: the lines and what is in the buffer make up what was read. -/
structure Buffered (stream : List UInt8) (lines : List Line) (unread : List UInt8) (io : EventsIo) :
    Prop where
  split : ∃ consumed, stream = consumed ++ unread ∧
    consumed.map clean = joined newline lines ++ (io.eventsBuffer.drop io.eventBeginPos).map clean
  plain : ∀ line ∈ lines, newline ∉ line
  begin_le : io.eventBeginPos ≤ io.eventsBuffer.length
  length_le : io.eventsBuffer.length ≤ maxLineLength
  discard : io.discardLine = false

/-- The lines of the stream fit into the buffer, with their ends. -/
def LinesFit (stream : List UInt8) : Prop := ∀ line ∈ stream.splitOn newline, line.length + 1 ≤ maxLineLength

/-- No line is in the buffer. -/
structure Quiet (io : EventsIo) : Prop where
  plain : newline ∉ io.eventsBuffer
  begin : io.eventBeginPos = 0
  pending : io.linePending = false
  line : io.eventLine = none

theorem clean_clean (char : UInt8) : clean (clean char) = clean char := by
  by_cases h : char = 0x1B
  · subst h
    rfl
  · have hclean : clean char = char := if_neg h
    rw [hclean, hclean]

theorem map_clean_clean (line : List UInt8) : (line.map clean).map clean = line.map clean := by
  rw [List.map_map]
  exact List.map_congr_left fun char _ => clean_clean char

/-- The rest of the buffer is no line that is too long. -/
theorem Buffered.rest_lt {stream : List UInt8} {lines : List Line} {unread : List UInt8} {io : EventsIo}
    (h : Buffered stream lines unread io) (hfit : LinesFit stream)
    (hrest : newline ∉ io.eventsBuffer.drop io.eventBeginPos) :
    (io.eventsBuffer.drop io.eventBeginPos).length < maxLineLength := by
  obtain ⟨consumed, rfl, hconsumed⟩ := h.split
  obtain ⟨line, hline, hle⟩ := splitOn_length (newline_not_mem_clean.2 hrest) (unread.map clean)
  have hmem : line ∈ ((consumed ++ unread).map clean).splitOn newline := by
    rw [List.map_append, hconsumed, List.append_assoc, splitOn_joined h.plain]
    exact List.mem_append_right _ hline
  rw [splitOn_map clean_eq_newline] at hmem
  obtain ⟨line', hline', rfl⟩ := List.mem_map.1 hmem
  have := hfit line' hline'
  rw [List.length_map, List.length_map] at hle
  omega

/-- `prepare_line` takes a line from the buffer, or there is none. -/
theorem Buffered.prepareLine {stream : List UInt8} {lines : List Line} {unread : List UInt8}
    {io : EventsIo} (h : Buffered stream lines unread io) (hfit : LinesFit stream)
    (hpending : io.linePending = false) :
    ∃ io', EventLines.prepareLine io = .ok io' ∧
      Buffered stream (lines ++ io'.eventLine.toList) unread io' ∧
      (io'.linePending = true ∧ io'.eventLine.isSome ∨ Quiet io') := by
  obtain ⟨consumed, hstream, hconsumed⟩ := h.split
  by_cases hmem : newline ∈ io.eventsBuffer.drop io.eventBeginPos
  · obtain ⟨line, rest, hbuffer, hline⟩ := List.eq_append_cons_of_mem hmem
    refine ⟨_, prepareLine_found hpending h.discard hline hbuffer, ?_, Or.inl ⟨rfl, rfl⟩⟩
    have hlength : io.eventsBuffer.length = io.eventBeginPos + (line.length + (rest.length + 1)) := by
      have hdrop := congrArg List.length hbuffer
      have hle := h.begin_le
      rw [List.length_drop, List.length_append, List.length_cons] at hdrop
      omega
    have htake : (io.eventsBuffer.take io.eventBeginPos).length = io.eventBeginPos :=
      List.length_take_of_le h.begin_le
    have hlen : (io.eventsBuffer.take io.eventBeginPos ++ (line.map clean ++ newline :: rest)).length =
        io.eventsBuffer.length := by
      rw [List.length_append, htake, List.length_append, List.length_map, List.length_cons, hlength]
    have hdrop : (io.eventsBuffer.take io.eventBeginPos ++ (line.map clean ++ newline :: rest)).drop
        (io.eventBeginPos + (line.length + 1)) = rest := by
      rw [← List.drop_drop, List.drop_left' htake]
      have hsplit : line.map clean ++ newline :: rest = (line.map clean ++ [newline]) ++ rest := by simp
      rw [hsplit, List.drop_left' (by simp)]
    refine ⟨⟨consumed, hstream, ?_⟩, ?_, ?_, ?_, h.discard⟩
    · dsimp only [Option.toList_some]
      rw [hdrop, hconsumed, hbuffer, joined_concat, List.map_append, List.map_cons]
      simp [(clean_eq_newline newline).2 rfl]
    · intro line' hline'
      rcases List.mem_append.1 hline' with hline' | hline'
      · exact h.plain line' hline'
      · obtain rfl := List.mem_singleton.1 hline'
        exact newline_not_mem_clean.2 hline
    · dsimp only
      rw [hlen, hlength]
      omega
    · dsimp only
      rw [hlen]
      exact h.length_le
  · have hlt := h.rest_lt hfit hmem
    refine ⟨_, prepareLine_none hpending hmem h.begin_le hlt, ?_,
      Or.inr ⟨newline_not_mem_clean.2 hmem, rfl, hpending, rfl⟩⟩
    refine ⟨⟨consumed, hstream, ?_⟩, ?_, Nat.zero_le _, ?_, h.discard⟩
    · dsimp only [Option.toList_none]
      rw [List.append_nil, List.drop_zero, map_clean_clean, hconsumed]
    · dsimp only [Option.toList_none]
      rw [List.append_nil]
      exact h.plain
    · dsimp only
      rw [List.length_map]
      exact Nat.le_of_lt hlt

/-- `read_events` puts something behind what is in the buffer. -/
theorem Buffered.readEvents {stream : List UInt8} {lines : List Line} {unread : List UInt8}
    {io : EventsIo} (h : Buffered stream lines unread io) (answer : ReadAnswer) :
    (∃ io' unread', EventLines.readEvents answer io unread = .ok (io', unread') ∧
      Buffered stream lines unread' io' ∧ io'.eventLine = io.eventLine ∧
      io'.linePending = io.linePending) ∨
    EventLines.readEvents answer io unread = .error (.eventsIo "Reading from the events channel failed") := by
  rw [EventLines.readEvents]
  by_cases hspace : io.eventsBuffer.length < maxLineLength
  · rw [if_pos hspace]
    cases answer with
    | bytes count =>
      rw [kernelRead]
      by_cases hchunk : unread.take (min count (maxLineLength - io.eventsBuffer.length)) = []
      · rw [if_pos hchunk]
        exact Or.inl ⟨io, unread, rfl, h, rfl, rfl⟩
      · rw [if_neg hchunk]
        refine Or.inl ⟨_, _, rfl, ?_, rfl, rfl⟩
        obtain ⟨consumed, hstream, hconsumed⟩ := h.split
        generalize hc : unread.take (min count (maxLineLength - io.eventsBuffer.length)) = chunk
        have hunread : chunk ++ unread.drop chunk.length = unread := by
          have hprefix : chunk <+: unread := hc ▸ List.take_prefix _ _
          exact (List.prefix_append_drop hprefix).symm
        have hlength : chunk.length ≤ maxLineLength - io.eventsBuffer.length := by
          rw [← hc, List.length_take]
          omega
        refine ⟨⟨consumed ++ chunk, ?_, ?_⟩, h.plain, ?_, ?_, h.discard⟩
        · rw [List.append_assoc, hunread, hstream]
        · dsimp only
          rw [List.map_append, hconsumed, List.drop_append_of_le_length h.begin_le, List.map_append,
            List.append_assoc]
        · dsimp only
          rw [List.length_append]
          exact Nat.le_add_right_of_le h.begin_le
        · dsimp only
          rw [List.length_append]
          omega
    | again => exact Or.inl ⟨io, unread, rfl, h, rfl, rfl⟩
    | closed =>
      rw [kernelRead]
      by_cases hunread : unread = []
      · subst hunread
        rw [if_pos rfl]
        exact Or.inl ⟨_, _, rfl, ⟨h.split, h.plain, h.begin_le, h.length_le, h.discard⟩, rfl, rfl⟩
      · rw [if_neg hunread]
        exact Or.inl ⟨io, unread, rfl, h, rfl, rfl⟩
    | failed => exact Or.inr rfl
  · rw [if_neg hspace]
    exact Or.inl ⟨io, unread, rfl, h, rfl, rfl⟩

theorem Buffered.congr {stream : List UInt8} {lines : List Line} {unread : List UInt8}
    {io io' : EventsIo} (h : Buffered stream lines unread io) (hbuffer : io'.eventsBuffer = io.eventsBuffer)
    (hbegin : io'.eventBeginPos = io.eventBeginPos) (hdiscard : io'.discardLine = io.discardLine) :
    Buffered stream lines unread io' := by
  refine ⟨?_, h.plain, ?_, ?_, ?_⟩
  · rw [hbuffer, hbegin]
    exact h.split
  · rw [hbuffer, hbegin]
    exact h.begin_le
  · rw [hbuffer]
    exact h.length_le
  · rw [hdiscard]
    exact h.discard

/-- `get_event_line` where no line is held. -/
theorem Buffered.getEventLine {stream : List UInt8} {lines : List Line} {unread : List UInt8}
    {io : EventsIo} (h : Buffered stream lines unread io) (hfit : LinesFit stream)
    (hline : io.eventLine = none) (hpending : io.linePending = false) (answer : ReadAnswer) :
    (∃ io' unread', EventLines.getEventLine answer io unread = .ok (io', unread') ∧
      Buffered stream (lines ++ io'.eventLine.toList) unread' io' ∧ io'.linePending = false ∧
      (io'.eventLine = none → Quiet io')) ∨
    EventLines.getEventLine answer io unread =
      .error (.eventsIo "Reading from the events channel failed") := by
  have hprepare : ∀ {io unread}, Buffered stream lines unread io → io.linePending = false →
      ∃ io', EventLines.prepareLine io = .ok io' ∧
        Buffered stream (lines ++ io'.eventLine.toList) unread { io' with linePending := false } ∧
        (io'.eventLine = none → Quiet { io' with linePending := false }) := by
    intro io unread hbuffered hpending
    obtain ⟨io', hio', hbuffered', hcases⟩ := hbuffered.prepareLine hfit hpending
    refine ⟨io', hio', hbuffered'.congr rfl rfl rfl, ?_⟩
    intro hnone
    rcases hcases with ⟨-, hsome⟩ | hquiet
    · rw [hnone] at hsome
      cases hsome
    · exact ⟨hquiet.plain, hquiet.begin, rfl, hquiet.line⟩
  rw [EventLines.getEventLine, hline]
  by_cases hdata : io.dataPending = true
  · obtain ⟨io', hio', hbuffered', hquiet⟩ := hprepare h hpending
    left
    refine ⟨{ io' with linePending := false }, unread, ?_, hbuffered', rfl, hquiet⟩
    simp [hdata, hio', bind, Except.bind, pure, Except.pure]
  · rcases h.readEvents answer with ⟨ioRead, unread', hread, hbuffered, hline', hpending'⟩ | herror
    · obtain ⟨io', hio', hbuffered', hquiet⟩ := hprepare hbuffered (hpending'.trans hpending)
      left
      refine ⟨{ io' with linePending := false }, unread', ?_, hbuffered', rfl, hquiet⟩
      simp [hdata, hread, hio', bind, Except.bind, pure, Except.pure]
    · right
      simp [hdata, herror, bind, Except.bind]

/-! ## The main loop -/

/-- What holds where the main loop is. -/
def AtInv (io : EventsIo) : At → Prop
  | .waitEvent => Quiet io
  | .poll => Quiet io
  | .eventLine => io.eventLine.isSome
  | .lines => io.linePending = false ∧ (io.eventLine = none → Quiet io)

/-- The lines that were handed out and the one that is held make up what was read, with the buffer. -/
structure Inv (stream : List UInt8) (s : Main) : Prop where
  buffered : Buffered stream (s.handed ++ s.io.eventLine.toList) s.unread s.io
  loc : AtInv s.io s.loc

theorem start_inv (stream : List UInt8) : Inv stream (start stream) :=
  ⟨⟨⟨[], rfl, rfl⟩, nofun, Nat.le_refl _, Nat.zero_le _, rfl⟩, List.not_mem_nil, rfl, rfl, rfl⟩

/-- A step keeps the invariant, or it ends the main loop by another fault than those about lines. -/
def Kept (stream : List UInt8) (result : Except Fault Main) : Prop :=
  match result with
  | .ok s => Inv stream s
  | .error fault => fault ≠ lineTooLong ∧ fault ≠ noLine

/-- Where no line is held, `prepare_line` leads to its return, or on to the poll. -/
theorem prepareLine_kept {stream : List UInt8} (hfit : LinesFit stream) {s : Main} {io : EventsIo}
    {unread : List UInt8} (h : Buffered stream s.handed unread io) (hpending : io.linePending = false)
    (fired : EventsIo → List Fd) :
    ∃ io', prepareLine io = .ok io' ∧ Inv stream { s with
      io := { io' with firedEvents := fired io' }, unread,
      loc := if io'.linePending then .eventLine else .poll } := by
  obtain ⟨io', hio', hbuffered, hcases⟩ := h.prepareLine hfit hpending
  refine ⟨io', hio', hbuffered.congr rfl rfl rfl, ?_⟩
  rcases hcases with ⟨hline, hsome⟩ | hquiet
  · rw [hline]
    exact hsome
  · rw [hquiet.pending]
    exact ⟨hquiet.plain, hquiet.begin, rfl, hquiet.line⟩

theorem handleFd_kept {stream : List UInt8} (hfit : LinesFit stream) {s : Main} (h : Inv stream s)
    (hloc : s.loc = .poll) (answer : Answer) (fired : List Fd) (fd : Fd) :
    Kept stream (handleFd answer s fired fd) := by
  obtain ⟨hbuffered, hquiet⟩ := h
  rw [hloc] at hquiet
  have hquiet : Quiet s.io := hquiet
  have hquiet' : Quiet { s.io with firedEvents := fired } :=
    ⟨hquiet.plain, hquiet.begin, hquiet.pending, hquiet.line⟩
  cases fd with
  | events =>
    rw [handleFd]
    by_cases heof : s.io.eventsEof = true
    · rw [if_pos heof]
      exact ⟨by decide, by decide⟩
    · rw [if_neg heof]
      rw [hquiet.line, Option.toList_none, List.append_nil] at hbuffered
      rcases hbuffered.readEvents answer.read with ⟨ioRead, unread', hread, hbuffered', -, hpending⟩ | herror
      · obtain ⟨io', hio', hinv⟩ := @prepareLine_kept stream hfit s ioRead unread' hbuffered'
          (hpending.trans hquiet.pending) fun _ => fired
        rw [hread]
        simp only [bind, Except.bind, hio', pure, Except.pure]
        exact hinv
      · rw [herror]
        exact ⟨by decide, by decide⟩
  | error => exact ⟨by decide, by decide⟩
  | signal => exact ⟨hbuffered.congr rfl rfl rfl, hquiet'⟩
  | stdin =>
    refine ⟨hbuffered.congr rfl rfl rfl, ?_⟩
    dsimp only
    split <;> exact hquiet'
  | wakeup => exact ⟨hbuffered.congr rfl rfl rfl, hquiet'⟩

theorem step_inv {stream : List UInt8} (hfit : LinesFit stream) {s : Main} (h : Inv stream s)
    (answer : Answer) : Kept stream (step s answer) := by
  obtain ⟨hbuffered, hloc⟩ := h
  rw [step]
  cases hat : s.loc with
  | waitEvent =>
    rw [hat] at hloc
    have hquiet : Quiet s.io := hloc
    dsimp only
    by_cases hdata : s.io.dataPending = true
    · rw [if_pos hdata]
      rw [hquiet.line, Option.toList_none, List.append_nil] at hbuffered
      obtain ⟨io', hio', hinv⟩ := @prepareLine_kept stream hfit s s.io s.unread hbuffered hquiet.pending
        fun io' => io'.firedEvents
      rw [hio']
      exact hinv
    · rw [if_neg hdata]
      exact ⟨hbuffered, hquiet⟩
  | poll =>
    dsimp only
    cases hfired : s.io.firedEvents with
    | nil =>
      rw [hat] at hloc
      have hquiet : Quiet s.io := hloc
      exact ⟨hbuffered.congr rfl rfl rfl, ⟨hquiet.plain, hquiet.begin, hquiet.pending, hquiet.line⟩⟩
    | cons fd fired => exact handleFd_kept hfit ⟨hbuffered, hloc⟩ hat answer fired fd
  | eventLine =>
    rw [hat] at hloc
    have hsome : s.io.eventLine.isSome := hloc
    obtain ⟨line, hline⟩ := Option.isSome_iff_exists.1 hsome
    have hget : getEventLine answer.read s.io s.unread =
        .ok ({ s.io with linePending := false }, s.unread) := by
      rw [getEventLine, hline]
      rfl
    dsimp only
    rw [hget]
    simp only [bind, Except.bind, hline]
    refine ⟨?_, rfl, ?_⟩
    · rw [hline] at hbuffered
      exact hbuffered.congr rfl rfl rfl
    · intro hnone
      cases hnone
  | lines =>
    rw [hat] at hloc
    obtain ⟨hpending, hnone⟩ := hloc
    dsimp only
    cases hline : s.io.eventLine with
    | none =>
      rw [hline] at hbuffered
      exact ⟨by dsimp only; rw [hline]; exact hbuffered, hnone hline⟩
    | some line =>
      rw [hline] at hbuffered
      have hfree : Buffered stream (s.handed ++ [line]) s.unread (freeEventLine s.io) :=
        hbuffered.congr rfl rfl rfl
      rcases hfree.getEventLine hfit rfl hpending answer.read with
        ⟨io', unread', hget, hbuffered', hpending', hquiet⟩ | herror
      · dsimp only
        rw [hget]
        exact ⟨hbuffered', hpending', hquiet⟩
      · dsimp only
        rw [herror]
        exact ⟨by decide, by decide⟩

theorem run_inv {stream : List UInt8} (hfit : LinesFit stream) (answers : List Answer) {s : Main}
    (h : Inv stream s) : Kept stream (run answers s) := by
  induction answers generalizing s with
  | nil => exact h
  | cons answer answers ih =>
    have hstep := step_inv hfit h answer
    rw [run, List.foldlM_cons]
    cases hresult : step s answer with
    | error fault =>
      rw [hresult] at hstep
      exact hstep
    | ok s' =>
      rw [hresult] at hstep
      exact ih hstep

/-- The lines of a stream, with a question mark for each escape character. -/
def streamLines (stream : List UInt8) : List Line := (linesOf newline stream).map (List.map clean)

theorem streamLines_eq (stream : List UInt8) : streamLines stream = linesOf newline (stream.map clean) := by
  rw [streamLines, linesOf, linesOf, splitOn_map clean_eq_newline, List.map_dropLast]

/-- However a stream is read, the lines that are handed out are its lines: those that were read are handed out,
    held or in the buffer, and handed out when the main loop waits for more. -/
theorem lines_handed_out {stream : List UInt8} (hfit : LinesFit stream) (answers : List Answer) :
    match run answers (start stream) with
    | .ok s =>
      s.io.eventBeginPos ≤ s.io.eventsBuffer.length ∧ s.io.eventsBuffer.length ≤ maxLineLength ∧
        s.handed <+: streamLines stream ∧
        ∃ consumed, stream = consumed ++ s.unread ∧
          streamLines consumed = s.handed ++ s.io.eventLine.toList ++
            streamLines (s.io.eventsBuffer.drop s.io.eventBeginPos) ∧
          (s.loc = .poll → newline ∉ s.io.eventsBuffer ∧ s.handed = streamLines consumed)
    | .error fault => fault ≠ lineTooLong ∧ fault ≠ noLine := by
  have hkept := run_inv hfit answers (start_inv stream)
  cases hrun : run answers (start stream) with
  | error fault =>
    rw [hrun] at hkept
    exact hkept
  | ok s =>
    rw [hrun] at hkept
    obtain ⟨hbuffered, hloc⟩ := hkept
    obtain ⟨consumed, hstream, hconsumed⟩ := hbuffered.split
    have hlines : streamLines consumed = s.handed ++ s.io.eventLine.toList ++
        streamLines (s.io.eventsBuffer.drop s.io.eventBeginPos) := by
      rw [streamLines_eq, streamLines_eq, hconsumed, linesOf_append hbuffered.plain]
    refine ⟨hbuffered.begin_le, hbuffered.length_le, ?_, consumed, hstream, hlines, ?_⟩
    · rw [streamLines_eq, hstream, List.map_append, hconsumed, List.append_assoc,
        linesOf_append hbuffered.plain, List.append_assoc]
      exact List.prefix_append _ _
    · intro hpoll
      rw [hpoll] at hloc
      have hquiet : Quiet s.io := hloc
      refine ⟨hquiet.plain, ?_⟩
      rw [hlines, hquiet.line, hquiet.begin, List.drop_zero, streamLines,
        linesOf_plain hquiet.plain]
      simp

/-- Two lines, the first with an escape character, and the beginning of a third. -/
def partStream : List UInt8 := [0x61, 0x1B, 0x0A, 0x62, 0x0A, 0x63]

/-- They are read in two parts, with a signal in front of the first. -/
def partAnswers : List Answer :=
  [⟨[], .again, false⟩, ⟨[.signal, .events], .again, false⟩, ⟨[], .again, false⟩, ⟨[], .again, false⟩,
    ⟨[], .bytes 2, false⟩, ⟨[.events], .again, false⟩, ⟨[], .bytes 3, false⟩, ⟨[], .again, false⟩,
    ⟨[], .again, false⟩, ⟨[], .again, false⟩, ⟨[], .again, false⟩]

theorem lines_handed_out_parts :
    ∃ s, run partAnswers (start partStream) = .ok s ∧ s.handed = [[0x61, 0x3F], [0x62]] ∧
      s.handed <+: streamLines partStream := by
  have hfit : LinesFit partStream := by
    unfold LinesFit
    decide
  have hlines := lines_handed_out hfit partAnswers
  have hhanded : (run partAnswers (start partStream)).toOption.map (·.handed) =
      some [[0x61, 0x3F], [0x62]] := by decide
  cases hrun : run partAnswers (start partStream) with
  | error fault =>
    rw [hrun] at hhanded
    cases hhanded
  | ok s =>
    rw [hrun] at hlines hhanded
    exact ⟨s, rfl, Option.some.inj hhanded, hlines.2.2.1⟩

end DrbdUtils.DrbdMon.EventLines
