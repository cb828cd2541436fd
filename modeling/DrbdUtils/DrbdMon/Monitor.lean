import DrbdUtils.DrbdMon.ResourceDirectory

/-!
# drbdmon's main loop

`DrbdMon::run()`, `tokenize_event_message()`, `parse_event_props()` and `process_event_message()`
of `DrbdMon.cpp`: event lines change the resource directory, key and mouse events go to the
display.  Both share the flag `have_initial_state`: the `exists -` line sets it, the line handlers
check it, and so does the handler of the terminal input, which sets it as well.

The display is a parameter: it sees the directory, and it may ask for the end of the program.

* `handleLine_exists` — an `exists` line is refused once the flag is set.
* `handleLine_ignored` — a line that is accepted before the flag is set, and is not an `exists`
  line, does nothing.
* `run_undisturbed_iff` — the lines are handled as without input exactly if no input comes before
  an `exists` line, and none ends the program before the last line.
-/

set_option autoImplicit false

namespace DrbdUtils.DrbdMon

/-! ## Model -/

/-- `StringTokenizer` with a blank as the delimiter. -/
def tokens (line : String) : List String :=
  ((line.toList.splitOn ' ').filter (· ≠ [])).map String.ofList

/-- `parse_event_props`; a token without a colon is skipped. -/
def parseEventProps : List String → List (String × String) →
    Except EventException (List (String × String))
  | [], props => .ok props
  | token :: rest, props =>
    match token.toList.dropWhile (· ≠ ':') with
    | [] => parseEventProps rest props
    | _ :: value =>
      let key := String.ofList (token.toList.takeWhile (· ≠ ':'))
      if (OrdMap.lookup key props).isSome then
        .error (messageException "Received an events line with a duplicate key"
          ("Duplicate key " ++ key ++ " on event line"))
      else parseEventProps rest (props ++ [(key, String.ofList value)])

def outOfSync (mode when_ : String) : EventException :=
  messageException ("The events source generated an out-of-sync '" ++ mode ++ "' event")
    ("'" ++ mode ++ "' event was received out-of-sync (" ++ when_ ++ " 'exists -')")

/-- The operation for a mode and an object type; other types are skipped. -/
def createOp (type : String) : Option Op :=
  if type = "connection" then some .createConnection
  else if type = "device" then some .createDevice
  else if type = "peer-device" then some .createPeerDevice
  else if type = "resource" then some .createResource
  else none

def changeOp (type : String) : Option Op :=
  if type = "connection" then some .updateConnection
  else if type = "device" then some .updateDevice
  else if type = "peer-device" then some .updatePeerDevice
  else if type = "resource" then some .updateResource
  else none

def destroyOp (type : String) : Option Op :=
  if type = "connection" then some .destroyConnection
  else if type = "device" then some .destroyDevice
  else if type = "peer-device" then some .destroyPeerDevice
  else if type = "resource" then some .destroyResource
  else none

/-- What a line leaves: an exception or not, `have_initial_state`, and the directory. -/
abbrev Handled := Except EventException Unit × Bool × Directory

/-- Run an operation of the directory. -/
def directoryOp (haveInitialState : Bool) (d : Directory) (p : PropsMap) : Option Op → Handled
  | none => (.ok (), haveInitialState, d)
  | some op => ((step d op p).1, haveInitialState, (step d op p).2)

/-- `process_event_message`. -/
def processEventMessage (haveInitialState : Bool) (d : Directory) (mode type : String)
    (p : PropsMap) : Handled :=
  if mode = "exists" then
    if haveInitialState then (.error (outOfSync mode "after"), haveInitialState, d)
    else if type = "-" then (.ok (), true, d)
    else directoryOp haveInitialState d p (createOp type)
  else if mode = "create" then
    if !haveInitialState then (.error (outOfSync mode "before"), haveInitialState, d)
    else directoryOp haveInitialState d p (createOp type)
  else if mode = "change" then
    if !haveInitialState then (.error (outOfSync mode "before"), haveInitialState, d)
    else directoryOp haveInitialState d p (changeOp type)
  else if mode = "rename" then
    if !haveInitialState then (.error (outOfSync mode "before"), haveInitialState, d)
    else if type = "resource" then directoryOp haveInitialState d p (some .renameResource)
    else (.error (messageException "The events source generated a rename event for a non-resource object"
      "'rename' event for an illegal object type:"), haveInitialState, d)
  else if mode = "destroy" then
    if !haveInitialState then (.error (outOfSync mode "before"), haveInitialState, d)
    else directoryOp haveInitialState d p (destroyOp type)
  else (.ok (), haveInitialState, d)

/-- `tokenize_event_message`. -/
def handleLine (haveInitialState : Bool) (d : Directory) (line : String) : Handled :=
  match tokens line with
  | mode :: type :: rest =>
    match parseEventProps rest [] with
    | .error e => (.error e, haveInitialState, d)
    | .ok props => processEventMessage haveInitialState d mode type (propsOf props)
  | _ => (.ok (), haveInitialState, d)

structure MouseEvent where
  event : Nat
  button : Nat
  coordColumn : Nat
  coordRow : Nat
  deriving DecidableEq

/-- What `get_key_pressed` and `get_mouse_action` return. -/
inductive Input where
  | none
  | key (code : Nat)
  | mouse (m : MouseEvent)
  deriving DecidableEq

inductive MonEvent where
  | eventLine (line : String)
  | stdin (i : Input)
  deriving DecidableEq

/-- The display: `exit_initial_display`, `notify_drbd_changed`, and its reaction to input, which may
    call `DrbdMonCore::shutdown`. -/
structure Display (σ : Type) where
  exitInitialDisplay : Directory → σ → σ
  notifyDrbdChanged : Directory → σ → σ
  input : Directory → σ → Input → σ × Bool

structure Monitor (σ : Type) where
  display : σ
  haveInitialState : Bool := false
  dir : Directory := {}
  shutdownFlag : Bool := false
  /-- The exception that ended the loop. -/
  exception : Option EventException := none
  /-- The lines handled without an exception. -/
  accepted : List String := []

section Loop

variable {σ : Type} (D : Display σ)

/-- The display when input arrives. -/
def inputDisplay (s : Monitor σ) : σ :=
  if !s.haveInitialState then D.exitInitialDisplay s.dir s.display else s.display

/-- One round of the main loop. -/
def Monitor.step (s : Monitor σ) (ev : MonEvent) : Monitor σ :=
  if s.shutdownFlag || s.exception.isSome then s
  else match ev with
  | .eventLine line =>
    match handleLine s.haveInitialState s.dir line with
    | (.error e, h, d) => { s with haveInitialState := h, dir := d, exception := some e }
    | (.ok (), h, d) =>
      let display := if h ≠ s.haveInitialState then D.exitInitialDisplay d s.display else s.display
      { s with
        haveInitialState := h
        dir := d
        display := if h then D.notifyDrbdChanged d display else display
        accepted := s.accepted ++ [line] }
  | .stdin i =>
    if i = .none then s
    else
      { s with
        haveInitialState := true
        display := (D.input s.dir (inputDisplay D s) i).1
        shutdownFlag := (D.input s.dir (inputDisplay D s) i).2 }

def Monitor.run (s : Monitor σ) (evs : List MonEvent) : Monitor σ := evs.foldl (Monitor.step D) s

/-- The event lines among the events. -/
def linesOf (evs : List MonEvent) : List String :=
  evs.filterMap fun
    | .eventLine line => some line
    | .stdin _ => none

/-- The line has mode `exists`. -/
def isExistsLine (line : String) : Bool :=
  match tokens line with
  | "exists" :: _ :: _ => true
  | _ => false

/-- No input comes before an `exists` line, and no input that ends the program comes before a
    line. -/
def Undisturbed : Monitor σ → List MonEvent → Prop
  | _, [] => True
  | s, ev :: evs =>
    (∀ i, ev = .stdin i → i ≠ .none → (∀ line ∈ linesOf evs, isExistsLine line = false) ∧
      ((D.input s.dir (inputDisplay D s) i).2 = true → linesOf evs = [])) ∧
    Undisturbed (s.step D ev) evs

end Loop

/-! ## Lines and the flag -/

/-- Once the flag is set, an `exists` line is refused. -/
theorem handleLine_exists {line : String} (h : isExistsLine line = true) (d : Directory) :
    ∃ e, handleLine true d line = (.error e, true, d) := by
  unfold isExistsLine at h
  split at h
  · rename_i type rest htok
    unfold handleLine
    rw [htok]
    dsimp only
    split
    · exact ⟨_, rfl⟩
    · exact ⟨_, rfl⟩
  · cases h

/-- A line that is accepted before the flag is set, and is not an `exists` line, does nothing, and
    would do nothing with the flag set. -/
theorem handleLine_ignored {line : String} {d d' : Directory} {h : Bool}
    (hne : isExistsLine line = false) (hok : handleLine false d line = (.ok (), h, d')) :
    h = false ∧ d' = d ∧ handleLine true d line = (.ok (), true, d) := by
  unfold handleLine at hok ⊢
  split at hok
  · rename_i mode type rest htok
    have hmode : mode ≠ "exists" := by
      rintro rfl
      simp [isExistsLine, htok] at hne
    split at hok
    · cases hok
    · unfold processEventMessage at hok ⊢
      rw [if_neg hmode] at hok ⊢
      split at hok
      · cases hok
      · split at hok
        · cases hok
        · split at hok
          · cases hok
          · split at hok
            · cases hok
            · rename_i h1 h2 h3 h4
              cases hok
              rw [if_neg h1, if_neg h2, if_neg h3, if_neg h4]
              exact ⟨rfl, rfl, rfl⟩
  · cases hok
    exact ⟨rfl, rfl, rfl⟩

/-- The flag is never cleared. -/
theorem handleLine_flag (d : Directory) (line : String) : (handleLine true d line).2.1 = true := by
  have hdir : ∀ p op, (directoryOp true d p op).2.1 = true := by
    intro p op
    cases op <;> rfl
  unfold handleLine
  split
  · split
    · rfl
    · unfold processEventMessage
      (repeat' split) <;> first | rfl | exact hdir _ _
  · rfl

/-! ## Runs -/

/-- The lines alone: flag and directory, or `none` when one is refused. -/
def acceptLines (h : Bool) (d : Directory) : List String → Option (Bool × Directory)
  | [] => some (h, d)
  | line :: lines =>
    match handleLine h d line with
    | (.ok (), h', d') => acceptLines h' d' lines
    | (.error _, _, _) => none

section Runs

variable {σ : Type} {D : Display σ}

theorem run_cons (s : Monitor σ) (ev : MonEvent) (evs : List MonEvent) :
    s.run D (ev :: evs) = (s.step D ev).run D evs := rfl

theorem run_stopped {s : Monitor σ} (h : (s.shutdownFlag || s.exception.isSome) = true)
    (evs : List MonEvent) : s.run D evs = s := by
  induction evs with
  | nil => rfl
  | cons ev evs ih =>
    have hstep : s.step D ev = s := by
      unfold Monitor.step
      exact if_pos h
    rw [run_cons, hstep]
    exact ih

theorem step_line {s : Monitor σ} (hs : (s.shutdownFlag || s.exception.isSome) = false)
    (line : String) {h : Bool} {d : Directory}
    (hl : handleLine s.haveInitialState s.dir line = (.ok (), h, d)) :
    (s.step D (.eventLine line)).haveInitialState = h ∧ (s.step D (.eventLine line)).dir = d ∧
      ((s.step D (.eventLine line)).shutdownFlag || (s.step D (.eventLine line)).exception.isSome) =
        false ∧ (s.step D (.eventLine line)).accepted = s.accepted ++ [line] := by
  unfold Monitor.step
  rw [if_neg (by simp [hs])]
  dsimp only
  rw [hl]
  exact ⟨rfl, rfl, hs, rfl⟩

theorem step_refused {s : Monitor σ} (hs : (s.shutdownFlag || s.exception.isSome) = false)
    (line : String) {h : Bool} {d : Directory} {e : EventException}
    (hl : handleLine s.haveInitialState s.dir line = (.error e, h, d)) :
    (s.step D (.eventLine line)).exception = some e := by
  unfold Monitor.step
  rw [if_neg (by simp [hs])]
  dsimp only
  rw [hl]

theorem step_none (s : Monitor σ) : s.step D (.stdin .none) = s := by
  unfold Monitor.step
  split
  · rfl
  · exact if_pos rfl

theorem step_input {s : Monitor σ} (hs : (s.shutdownFlag || s.exception.isSome) = false) {i : Input}
    (hi : i ≠ .none) : s.step D (.stdin i) = { s with
      haveInitialState := true
      display := (D.input s.dir (inputDisplay D s) i).1
      shutdownFlag := (D.input s.dir (inputDisplay D s) i).2 } := by
  unfold Monitor.step
  rw [if_neg (by simp [hs])]
  exact if_neg hi

/-- With the flag set, a run that still has an `exists` line before it does not handle all lines. -/
theorem run_broken {s : Monitor σ} {evs : List MonEvent} (hflag : s.haveInitialState = true)
    (hex : ∃ line ∈ linesOf evs, isExistsLine line = true) :
    ¬ ((s.run D evs).accepted = s.accepted ++ linesOf evs ∧ (s.run D evs).exception = none) := by
  induction evs generalizing s with
  | nil => simp [linesOf] at hex
  | cons ev evs ih =>
    by_cases hs : (s.shutdownFlag || s.exception.isSome) = true
    · rw [run_stopped hs]
      rintro ⟨hacc, _⟩
      obtain ⟨line, hline, _⟩ := hex
      have hnil : linesOf (ev :: evs) = [] := by simpa using hacc.symm
      rw [hnil] at hline
      cases hline
    rw [Bool.not_eq_true] at hs
    rw [run_cons]
    cases ev with
    | eventLine line =>
      by_cases hline : isExistsLine line = true
      · obtain ⟨e, he⟩ := handleLine_exists hline s.dir
        rw [← hflag] at he
        have hexc := step_refused (D := D) hs line he
        rw [run_stopped (by rw [hexc]; simp)]
        rintro ⟨_, hnone⟩
        rw [hexc] at hnone
        cases hnone
      · have hrest : ∃ l ∈ linesOf evs, isExistsLine l = true := by
          obtain ⟨l, hl, hle⟩ := hex
          rcases List.mem_cons.1 (show l ∈ line :: linesOf evs from hl) with rfl | hl
          · exact absurd hle hline
          · exact ⟨l, hl, hle⟩
        have hf := handleLine_flag s.dir line
        rw [← hflag] at hf
        generalize hres : handleLine s.haveInitialState s.dir line = res at hf
        obtain ⟨res, h', d'⟩ := res
        cases res with
        | error e =>
          have hexc := step_refused (D := D) hs line hres
          rw [run_stopped (by rw [hexc]; simp)]
          rintro ⟨_, hnone⟩
          rw [hexc] at hnone
          cases hnone
        | ok u =>
          obtain ⟨h1, _, _, h4⟩ := step_line (D := D) hs line hres
          have := ih (s := s.step D (.eventLine line)) (h1.trans (hf.trans hflag)) hrest
          rw [h4, List.append_assoc] at this
          exact this
    | stdin i =>
      by_cases hi : i = .none
      · subst hi
        rw [step_none]
        exact ih hflag hex
      · have := ih (s := s.step D (.stdin i)) (by rw [step_input hs hi]) hex
        rw [step_input hs hi] at this ⊢
        exact this

/-- A run with input against the same lines without: the flags agree, or the input has set it and
    no `exists` line is left. -/
theorem run_iff {s : Monitor σ} {evs : List MonEvent} {h₀ h : Bool} {d : Directory}
    (hs : (s.shutdownFlag || s.exception.isSome) = false)
    (hfree : acceptLines h₀ s.dir (linesOf evs) = some (h, d))
    (hflag : s.haveInitialState = h₀ ∨ s.haveInitialState = true ∧ h₀ = false ∧
      ∀ line ∈ linesOf evs, isExistsLine line = false) :
    ((s.run D evs).accepted = s.accepted ++ linesOf evs ∧ (s.run D evs).dir = d ∧
      (s.run D evs).exception = none) ↔ Undisturbed D s evs := by
  induction evs generalizing s h₀ with
  | nil =>
    obtain ⟨rfl, rfl⟩ := Prod.mk.inj (Option.some.inj hfree)
    simp only [Bool.or_eq_false_iff] at hs
    have hexc : s.exception = none := by simpa using hs.2
    simp [Monitor.run, linesOf, Undisturbed, hexc]
  | cons ev evs ih =>
    rw [run_cons]
    cases ev with
    | eventLine line =>
      have hund : Undisturbed D s (.eventLine line :: evs) ↔
          Undisturbed D (s.step D (.eventLine line)) evs :=
        ⟨And.right, fun hu => ⟨fun i hi => (by cases hi), hu⟩⟩
      change acceptLines h₀ s.dir (line :: linesOf evs) = _ at hfree
      unfold acceptLines at hfree
      split at hfree
      · rename_i h' d' hline
        -- the line does the same with the flag of the run with input
        have hsame : ∃ h'', handleLine s.haveInitialState s.dir line = (.ok (), h'', d') ∧
            (h'' = h' ∨ h'' = true ∧ h' = false ∧ ∀ l ∈ linesOf evs, isExistsLine l = false) := by
          rcases hflag with hf | ⟨hf, rfl, hno⟩
          · exact ⟨h', by rw [hf]; exact hline, .inl rfl⟩
          · obtain ⟨rfl, rfl, htrue⟩ := handleLine_ignored (hno line (List.mem_cons_self ..)) hline
            exact ⟨true, by rw [hf]; exact htrue,
              .inr ⟨rfl, rfl, fun l hl => hno l (List.mem_cons_of_mem _ hl)⟩⟩
        obtain ⟨h'', hrun, hrel⟩ := hsame
        obtain ⟨h1, h2, h3, h4⟩ := step_line (D := D) hs line hrun
        rw [hund, ← ih h3 (by rw [h2]; exact hfree) (by rw [h1]; exact hrel), h4,
          List.append_assoc]
        rfl
      · cases hfree
    | stdin i =>
      by_cases hi : i = .none
      · subst hi
        rw [step_none]
        refine (ih hs hfree hflag).trans ⟨fun hu => ⟨fun i hi hne => ?_, by rw [step_none]; exact hu⟩, fun hu => ?_⟩
        · cases hi
          exact absurd rfl hne
        · have := hu.2
          rwa [step_none] at this
      have hstep := step_input (D := D) hs hi
      change acceptLines h₀ s.dir (linesOf evs) = _ at hfree
      by_cases hex : ∃ line ∈ linesOf evs, isExistsLine line = true
      · -- the input has set the flag before an `exists` line
        have hbroken := run_broken (D := D) (s := s.step D (.stdin i)) (by rw [hstep]) hex
        refine iff_of_false (fun hc => hbroken ⟨?_, hc.2.2⟩) fun hu => ?_
        · have := hc.1
          rw [hstep] at this ⊢
          exact this
        · obtain ⟨line, hline, hle⟩ := hex
          exact absurd hle (by simp [(hu.1 i rfl hi).1 line hline])
      have hno : ∀ line ∈ linesOf evs, isExistsLine line = false := by
        intro line hline
        by_contra hc
        exact hex ⟨line, hline, by simpa using hc⟩
      by_cases hquit : (D.input s.dir (inputDisplay D s) i).2 = true
      · have hstop : ((s.step D (.stdin i)).shutdownFlag || (s.step D (.stdin i)).exception.isSome) =
            true := by
          rw [hstep]
          simp [hquit]
        rw [run_stopped hstop]
        have hexc : s.exception = none := by
          simp only [Bool.or_eq_false_iff] at hs
          simpa using hs.2
        by_cases hnil : linesOf evs = []
        · have hund : ∀ evs', linesOf evs' = [] → ∀ t : Monitor σ, Undisturbed D t evs' := by
            intro evs'
            induction evs' with
            | nil => exact fun _ _ => trivial
            | cons ev evs' ih' =>
              intro hl t
              cases ev with
              | eventLine l => cases hl
              | stdin j =>
                have hl' : linesOf evs' = [] := hl
                exact ⟨fun _ _ _ => ⟨by simp [hl'], fun _ => hl'⟩, ih' hl' _⟩
          rw [hnil] at hfree
          obtain ⟨rfl, rfl⟩ := Prod.mk.inj (Option.some.inj hfree)
          refine iff_of_true ?_ (hund (.stdin i :: evs) hnil s)
          rw [hstep]
          refine ⟨?_, rfl, hexc⟩
          show s.accepted = s.accepted ++ linesOf evs
          rw [hnil, List.append_nil]
        · refine iff_of_false (fun hc => hnil ?_) fun hu => hnil ((hu.1 i rfl hi).2 hquit)
          have := hc.1
          rw [hstep] at this
          change s.accepted = s.accepted ++ linesOf evs at this
          simpa using this.symm
      · have hs' : ((s.step D (.stdin i)).shutdownFlag || (s.step D (.stdin i)).exception.isSome) =
            false := by
          rw [hstep]
          simp only [Bool.or_eq_false_iff] at hs ⊢
          exact ⟨by simpa using hquit, hs.2⟩
        have hrel : (s.step D (.stdin i)).haveInitialState = h₀ ∨
            (s.step D (.stdin i)).haveInitialState = true ∧ h₀ = false ∧
              ∀ line ∈ linesOf evs, isExistsLine line = false := by
          rw [hstep]
          cases h₀ with
          | true => exact .inl rfl
          | false => exact .inr ⟨rfl, rfl, hno⟩
        have hrec := ih (s := s.step D (.stdin i)) hs' (by rw [hstep]; exact hfree) hrel
        have hacc : (s.step D (.stdin i)).accepted = s.accepted := by rw [hstep]
        rw [hacc] at hrec
        refine hrec.trans ⟨fun hu => ⟨fun j hj _ => ?_, hu⟩, And.right⟩
        cases hj
        exact ⟨hno, fun hq => absurd hq hquit⟩

/-- The run without input is `acceptLines`. -/
theorem run_lines {s : Monitor σ} {lines : List String}
    (hs : (s.shutdownFlag || s.exception.isSome) = false)
    (hnone : (s.run D (lines.map .eventLine)).exception = none) :
    ∃ h, acceptLines s.haveInitialState s.dir lines = some (h, (s.run D (lines.map .eventLine)).dir) := by
  induction lines generalizing s with
  | nil => exact ⟨s.haveInitialState, rfl⟩
  | cons line lines ih =>
    rw [List.map_cons, run_cons] at hnone ⊢
    generalize hres : handleLine s.haveInitialState s.dir line = res
    obtain ⟨res, h', d'⟩ := res
    cases res with
    | error e =>
      have hexc := step_refused (D := D) hs line hres
      rw [run_stopped (by rw [hexc]; simp), hexc] at hnone
      cases hnone
    | ok u =>
      obtain ⟨h1, h2, h3, _⟩ := step_line (D := D) hs line hres
      obtain ⟨h, hacc⟩ := ih h3 hnone
      refine ⟨h, ?_⟩
      unfold acceptLines
      rw [hres]
      rw [h1, h2] at hacc
      exact hacc

end Runs

/-- **Input and event tracking.**  Let the lines be handled to the end without an exception when
    there is no input.  With input in between, the same lines are accepted, the directory ends up
    the same and there is no exception exactly if no input comes before an `exists` line, and none
    that ends the program comes before a line. -/
theorem run_undisturbed_iff {σ : Type} (D : Display σ) (display : σ) (evs : List MonEvent)
    (hfree : (Monitor.run D { display := display } ((linesOf evs).map .eventLine)).exception = none) :
    ((Monitor.run D { display := display } evs).accepted = linesOf evs ∧
      (Monitor.run D { display := display } evs).dir =
        (Monitor.run D { display := display } ((linesOf evs).map .eventLine)).dir ∧
      (Monitor.run D { display := display } evs).exception = none) ↔
    Undisturbed D { display := display } evs := by
  obtain ⟨h, hacc⟩ := run_lines (s := { display := display }) rfl hfree
  exact run_iff (s := { display := display }) rfl hacc (.inl rfl)

/-- A display that only counts what it is shown. -/
def countingDisplay : Display Nat where
  exitInitialDisplay _ n := n
  notifyDrbdChanged _ n := n + 1
  input _ n _ := (n, false)

/-- One resource, the end of the initial state, and a key before or after it. -/
def keyEarly : List MonEvent :=
  [.eventLine "exists resource name:r role:Secondary", .stdin (.key 13), .eventLine "exists -"]

def keyLate : List MonEvent :=
  [.eventLine "exists resource name:r role:Secondary", .eventLine "exists -", .stdin (.key 13),
    .eventLine "change resource name:r role:Primary"]

/-- A key pressed while the initial state comes in makes the next line out-of-sync. -/
theorem run_disturbed_by_early_key :
    (Monitor.run countingDisplay { display := 0 } ((linesOf keyEarly).map .eventLine)).exception = none ∧
      (Monitor.run countingDisplay { display := 0 } keyEarly).exception =
        some (outOfSync "exists" "after") := by
  decide +kernel

theorem run_undisturbed_late_key :
    (Monitor.run countingDisplay { display := 0 } keyLate).accepted = linesOf keyLate ∧
      (Monitor.run countingDisplay { display := 0 } keyLate).exception = none := by
  have h := (run_undisturbed_iff countingDisplay 0 keyLate (by decide +kernel)).2
    ⟨fun i hi => (by cases hi), ⟨fun i hi => (by cases hi), fun i hi _ =>
      ⟨by decide +kernel, fun hq => (by cases hi; cases hq)⟩, fun i hi => (by cases hi), trivial⟩⟩
  exact ⟨h.1, h.2.2⟩

end DrbdUtils.DrbdMon
