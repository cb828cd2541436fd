import DrbdUtils.DrbdMon.Monitor

/-!
# drbdmon's limited frequency display update

The part of `DrbdMon.cpp` that decides when a change is displayed: `cond_display_update()` displays it at
once or arms the interval timer, whose signal displays it later.

* `step_shown`, `run_shown` — a change is displayed, or the timer will display it.
* `isIntervalExceeded_iff` — when the elapsed time is compared rightly.
* `run_apart` — how far apart two refreshes are.
* `displayUpdate_iff` — the three together.
-/

set_option autoImplicit false

namespace DrbdUtils.DrbdMon.DisplayUpdate

/-! ## Model -/

/-- `struct timespec`. -/
structure Timespec where
  sec : Int
  nsec : Int
  deriving DecidableEq, Repr

def Timespec.Valid (t : Timespec) : Prop := 0 ≤ t.nsec ∧ t.nsec < 1000000000

instance (t : Timespec) : Decidable t.Valid := inferInstanceAs (Decidable (_ ∧ _))

/-- The time in nanoseconds. -/
def Timespec.nanos (t : Timespec) : Int := t.sec * 1000000000 + t.nsec

/-- `MAX_INTERVAL`. -/
def maxInterval : Nat := 10000

/-- `MAX_EVENT_BUNDLE`. -/
def maxEventBundle : Nat := 911

/-- `IntervalTimer::set_interval`, with the bounds of its callers. -/
def intervalOf (dspInterval : Nat) : Timespec where
  sec := (min dspInterval maxInterval / 1000 : Nat)
  nsec := ((min dspInterval maxInterval % 1000 * 1000000 : Nat) : Int)

/-- What the system calls answer: `clock_gettime`, if it does not fail, and whether `timer_settime`
    succeeds. -/
structure Sys where
  clock : Option Timespec
  armed : Bool

/-- A call of `is_interval_exceeded`: the two times and the interval. -/
structure Comparison where
  cur : Timespec
  prev : Timespec
  interval : Timespec

/-- The fields of `DrbdMon`, and what was done so far. -/
structure State where
  haveInitialState : Bool := false
  timerAvailable : Bool
  timerArmed : Bool := false
  prevTimestamp : Timespec := ⟨0, 0⟩
  curTimestamp : Timespec := ⟨0, 0⟩
  /-- The interval of the timer. -/
  interval : Timespec
  dir : Directory := {}
  /-- The timer will send its signal. -/
  timerRunning : Bool := false
  /-- A change was processed and is not displayed. -/
  pending : Bool := false
  /-- The readings of the clock, the last one in front. -/
  clock : List Timespec := []
  compared : List Comparison := []
  /-- The refreshes by `cond_display_update` under the interval, the last one in front. -/
  refreshes : List Timespec := []

/-- The beginning of `DrbdMon::run`. -/
def init (dspInterval : Nat) : State where
  timerAvailable := decide (dspInterval ≠ 0)
  interval := intervalOf dspInterval

/-- `is_interval_exceeded` behind the reading of the clock. -/
def isIntervalExceeded (cur prev interval : Timespec) : Bool :=
  let secsDiff := cur.sec - prev.sec
  let nanosecsDiff := cur.nsec - prev.nsec
  decide (interval.sec < secsDiff) ||
    (decide (secsDiff = interval.sec) && decide (interval.nsec ≤ nanosecsDiff))

/-- `notify_drbd_changed` of the display. -/
def State.notifyDrbdChanged (s : State) : State := { s with pending := false }

/-- `disable_interval_timer`. -/
def State.disableIntervalTimer (s : State) : State := { s with timerAvailable := false, timerArmed := false }

/-- `arm_timer`; a timer with a zero interval is switched off. -/
def State.armTimer (s : State) : State :=
  { s with timerArmed := true, timerRunning := decide (s.interval ≠ ⟨0, 0⟩) }

/-- `cond_display_update`. -/
def State.condDisplayUpdate (s : State) (sys : Sys) : State :=
  if s.timerArmed then s
  else
    match sys.clock with
    | none => s.disableIntervalTimer.notifyDrbdChanged
    | some cur =>
      let s := { s with
        curTimestamp := cur
        clock := cur :: s.clock
        compared := ⟨cur, s.prevTimestamp, s.interval⟩ :: s.compared }
      if isIntervalExceeded cur s.prevTimestamp s.interval then
        { s.notifyDrbdChanged with prevTimestamp := cur, refreshes := cur :: s.refreshes }
      else if sys.armed then s.armTimer
      else s.disableIntervalTimer.notifyDrbdChanged

/-- The update of the display behind event lines. -/
def State.update (s : State) (sys : Sys) : State :=
  if s.timerAvailable then s.condDisplayUpdate sys else s.notifyDrbdChanged

/-- `update_timestamp`. -/
def State.updateTimestamp (s : State) (clock : Option Timespec) : State :=
  match clock with
  | some now => { s with prevTimestamp := now, clock := now :: s.clock }
  | none => s.disableIntervalTimer

/-- An event line; `none` where it throws an exception.  A line behind the initial state is a change. -/
def State.line (s : State) (text : String) : Option State :=
  match handleLine s.haveInitialState s.dir text with
  | (.error _, _, _) => none
  | (.ok (), h, d) => some { s with haveInitialState := h, dir := d, pending := s.pending || h }

/-- The loop over the event lines, with what the system calls behind each of them would answer. -/
def State.lines (s : State) (updateCounter : Nat) : List (String × Sys) → Option State
  | [] => some s
  | (text, sys) :: rest =>
    match s.line text with
    | none => none
    | some s =>
      if s.haveInitialState then
        if maxEventBundle ≤ updateCounter then (s.update sys).lines 0 rest
        else s.lines (updateCounter + 1) rest
      else s.lines updateCounter rest

/-- The events of the main loop. -/
inductive Step where
  | eventLine (lines : List (String × Sys)) (last : Sys)
  | signalTimer (clock : Option Timespec)
  | key
  | notifyConfigChanged (dspInterval : Nat)

/-- `notify_config_changed`. -/
def State.notifyConfigChanged (s : State) (dspInterval : Nat) : State :=
  if dspInterval ≠ 0 then
    { s with
      timerAvailable := true
      interval := intervalOf dspInterval
      refreshes := if s.interval = intervalOf dspInterval then s.refreshes else [] }
  else { s with timerAvailable := false }

/-- A round of the main loop; `none` where an exception ends it. -/
def State.step (s : State) : Step → Option State
  | .eventLine lines last =>
    (s.lines 0 lines).map fun s => if s.haveInitialState then s.update last else s
  | .signalTimer clock =>
    some { (({ s with timerRunning := false } : State).notifyDrbdChanged.updateTimestamp clock) with
      timerArmed := false }
  | .key => some { s with haveInitialState := true }
  | .notifyConfigChanged dspInterval => some (s.notifyConfigChanged dspInterval)

def State.run (s : State) (steps : List Step) : Option State := steps.foldlM State.step s

/-! ## Changes are displayed -/

/-- A change that is not displayed will be displayed by the timer, and while the frequency is limited the
    interval is not zero. -/
structure Shown (s : State) : Prop where
  pending : s.pending = true → s.timerArmed = true ∧ s.timerRunning = true
  armed : s.timerArmed = true → s.timerRunning = true
  interval : s.timerAvailable = true → s.interval ≠ ⟨0, 0⟩

theorem intervalOf_ne {dspInterval : Nat} (h : dspInterval ≠ 0) : intervalOf dspInterval ≠ ⟨0, 0⟩ := by
  intro heq
  simp only [intervalOf, maxInterval, Timespec.mk.injEq] at heq
  omega

theorem init_shown (dspInterval : Nat) : Shown (init dspInterval) where
  pending h := by cases h
  armed h := by cases h
  interval h := intervalOf_ne (of_decide_eq_true h)

theorem Shown.update {s : State} (harmed : s.timerArmed = true → s.timerRunning = true)
    (hinterval : s.timerAvailable = true → s.interval ≠ ⟨0, 0⟩) (sys : Sys) : Shown (s.update sys) := by
  unfold State.update
  split
  · next havailable =>
    unfold State.condDisplayUpdate
    split
    · next h => exact ⟨fun _ => ⟨h, harmed h⟩, harmed, hinterval⟩
    · split
      · exact ⟨nofun, nofun, nofun⟩
      · dsimp only
        split
        · exact ⟨nofun, harmed, hinterval⟩
        · split
          · have hrunning := decide_eq_true (hinterval havailable)
            exact ⟨fun _ => ⟨rfl, hrunning⟩, fun _ => hrunning, hinterval⟩
          · exact ⟨nofun, nofun, nofun⟩
  · next h => exact ⟨nofun, harmed, fun havailable => absurd havailable h⟩

/-- What holds between the lines: before the initial state everything is shown. -/
structure Between (s : State) : Prop where
  armed : s.timerArmed = true → s.timerRunning = true
  interval : s.timerAvailable = true → s.interval ≠ ⟨0, 0⟩
  shown : s.haveInitialState = true ∨ Shown s

theorem Shown.between {s : State} (h : Shown s) : Between s := ⟨h.armed, h.interval, Or.inr h⟩

theorem Between.line {s t : State} {text : String} (h : Between s) (ht : s.line text = some t) :
    Between t := by
  unfold State.line at ht
  split at ht
  · cases ht
  · next flag d hline =>
    cases ht
    refine ⟨h.armed, h.interval, ?_⟩
    cases flag with
    | true => exact Or.inl rfl
    | false =>
      -- the flag was not set before
      have hflag : s.haveInitialState = false := by
        by_contra hset
        have hnot := handleLine_flag s.dir text
        rw [Bool.not_eq_false] at hset
        rw [hset] at hline
        rw [hline] at hnot
        cases hnot
      have hshown := h.shown.resolve_left (by rw [hflag]; exact nofun)
      refine Or.inr ⟨?_, hshown.armed, hshown.interval⟩
      intro hpending
      rw [Bool.or_false] at hpending
      exact hshown.pending hpending

theorem Between.lines {s t : State} {updateCounter : Nat} {lines : List (String × Sys)} (h : Between s)
    (ht : s.lines updateCounter lines = some t) : Between t := by
  induction lines generalizing s updateCounter with
  | nil =>
    cases ht
    exact h
  | cons line rest ih =>
    rw [State.lines] at ht
    split at ht
    · cases ht
    · next u hu =>
      have hline := h.line hu
      split at ht
      · split at ht
        · exact ih (Shown.update hline.armed hline.interval line.2).between ht
        · exact ih hline ht
      · exact ih hline ht

theorem step_shown {s t : State} (h : Shown s) {step : Step} (ht : s.step step = some t) : Shown t := by
  cases step with
  | eventLine lines last =>
    obtain ⟨u, hu, rfl⟩ := Option.map_eq_some_iff.1 ht
    have hlines := h.between.lines hu
    split
    · exact Shown.update hlines.armed hlines.interval last
    · next hflag => exact hlines.shown.resolve_left hflag
  | signalTimer clock =>
    cases ht
    cases clock with
    | none => exact ⟨nofun, nofun, nofun⟩
    | some now => exact ⟨nofun, nofun, h.interval⟩
  | key =>
    cases ht
    exact ⟨h.pending, h.armed, h.interval⟩
  | notifyConfigChanged dspInterval =>
    cases ht
    unfold State.notifyConfigChanged
    split
    · next hne => exact ⟨h.pending, h.armed, fun _ => intervalOf_ne hne⟩
    · exact ⟨h.pending, h.armed, nofun⟩

theorem run_shown {s t : State} (h : Shown s) {steps : List Step} (ht : s.run steps = some t) : Shown t := by
  induction steps generalizing s with
  | nil =>
    cases ht
    exact h
  | cons step steps ih =>
    rw [State.run, List.foldlM_cons] at ht
    obtain ⟨u, hu, hrest⟩ := Option.bind_eq_some_iff.1 ht
    exact ih (step_shown h hu) hrest

/-! ## The elapsed time -/

/-- The seconds differ by one more than the interval has, and the nanoseconds are short of it. -/
def Comparison.Borrowed (c : Comparison) : Prop :=
  c.cur.sec - c.prev.sec = c.interval.sec + 1 ∧ c.cur.nsec + 1000000000 < c.prev.nsec + c.interval.nsec

instance (c : Comparison) : Decidable c.Borrowed := inferInstanceAs (Decidable (_ ∧ _))

theorem isIntervalExceeded_iff (c : Comparison) (hcur : c.cur.Valid) (hprev : c.prev.Valid)
    (hinterval : c.interval.Valid) :
    (isIntervalExceeded c.cur c.prev c.interval = true ↔ c.interval.nanos ≤ c.cur.nanos - c.prev.nanos) ↔
      ¬c.Borrowed := by
  obtain ⟨hcur0, hcur1⟩ := hcur
  obtain ⟨hprev0, hprev1⟩ := hprev
  obtain ⟨hint0, hint1⟩ := hinterval
  simp only [isIntervalExceeded, Comparison.Borrowed, Timespec.nanos, Bool.or_eq_true, Bool.and_eq_true,
    decide_eq_true_eq]
  omega

/-! ## Refreshes -/

/-- The readings of the clock are valid and do not go back, and no comparison borrows. -/
structure Readings (s : State) : Prop where
  valid : ∀ t ∈ s.clock, t.Valid
  monotone : s.clock.Pairwise fun later earlier => earlier.nanos ≤ later.nanos
  compared : ∀ c ∈ s.compared, ¬c.Borrowed

/-- Two refreshes under the interval are at least that interval apart. -/
def State.RefreshesApart (s : State) : Prop :=
  s.refreshes.Pairwise fun later earlier => s.interval.nanos ≤ later.nanos - earlier.nanos

/-- The refreshes are readings of the clock, and none is behind the time from which the next interval is
    counted. -/
structure Apart (s : State) : Prop where
  apart : s.RefreshesApart
  clock : ∀ t ∈ s.refreshes, t ∈ s.clock
  prev : ∀ t ∈ s.refreshes, t.nanos ≤ s.prevTimestamp.nanos

/-- What holds in every run: the interval is one that can be set, and the time from which it is counted
    comes from the clock. -/
structure Inv (s : State) : Prop where
  interval : s.interval.Valid ∧ 0 ≤ s.interval.nanos
  prev : s.prevTimestamp = ⟨0, 0⟩ ∨ s.prevTimestamp ∈ s.clock
  apart : Readings s → Apart s

theorem intervalOf_valid (dspInterval : Nat) :
    (intervalOf dspInterval).Valid ∧ 0 ≤ (intervalOf dspInterval).nanos := by
  simp only [intervalOf, maxInterval, Timespec.Valid, Timespec.nanos]
  omega

theorem init_inv (dspInterval : Nat) : Inv (init dspInterval) :=
  ⟨intervalOf_valid dspInterval, Or.inl rfl, fun _ => ⟨List.Pairwise.nil, nofun, nofun⟩⟩

/-- A change of other fields. -/
theorem Inv.congr {s t : State} (h : Inv s) (hinterval : t.interval = s.interval)
    (hprev : t.prevTimestamp = s.prevTimestamp) (hclock : t.clock = s.clock)
    (hcompared : t.compared = s.compared) (hrefreshes : t.refreshes = s.refreshes) : Inv t where
  interval := hinterval ▸ h.interval
  prev := by rw [hprev, hclock]; exact h.prev
  apart hread := by
    have happart := h.apart ⟨hclock ▸ hread.valid, hclock ▸ hread.monotone, hcompared ▸ hread.compared⟩
    refine ⟨?_, ?_, ?_⟩
    · rw [State.RefreshesApart, hrefreshes, hinterval]
      exact happart.apart
    · rw [hrefreshes, hclock]
      exact happart.clock
    · rw [hrefreshes, hprev]
      exact happart.prev

theorem Inv.condDisplayUpdate {s : State} (h : Inv s) (sys : Sys) : Inv (s.condDisplayUpdate sys) := by
  unfold State.condDisplayUpdate
  split
  · exact h
  · split
    · exact h.congr rfl rfl rfl rfl rfl
    · next cur hclock =>
      -- the state behind the comparison
      have hread : Inv { s with
          curTimestamp := cur
          clock := cur :: s.clock
          compared := ⟨cur, s.prevTimestamp, s.interval⟩ :: s.compared } := by
        refine ⟨h.interval, h.prev.imp id (List.mem_cons_of_mem _), fun hread => ?_⟩
        have happart := h.apart ⟨(List.forall_mem_cons.1 hread.valid).2, (List.pairwise_cons.1 hread.monotone).2,
          (List.forall_mem_cons.1 hread.compared).2⟩
        exact ⟨happart.apart, fun t ht => List.mem_cons_of_mem _ (happart.clock t ht), happart.prev⟩
      dsimp only
      split
      · next hexceeded =>
        refine ⟨h.interval, Or.inr List.mem_cons_self, fun hread' => ?_⟩
        have hvalid := List.forall_mem_cons.1 hread'.valid
        have hprev : s.prevTimestamp.Valid := by
          rcases h.prev with hzero | hmem
          · rw [hzero]
            exact ⟨by decide, by decide⟩
          · exact hvalid.2 _ hmem
        have happart := hread.apart ⟨hread'.valid, hread'.monotone, hread'.compared⟩
        have helapsed := ((isIntervalExceeded_iff ⟨cur, s.prevTimestamp, s.interval⟩ hvalid.1 hprev
          h.interval.1).2 (List.forall_mem_cons.1 hread'.compared).1).1 hexceeded
        have hnonneg := h.interval.2
        refine ⟨List.pairwise_cons.2 ⟨fun t ht => ?_, happart.apart⟩, ?_, ?_⟩
        · have := happart.prev t ht
          dsimp only at this helapsed
          change s.interval.nanos ≤ cur.nanos - t.nanos
          omega
        · intro t ht
          rcases List.mem_cons.1 ht with rfl | ht
          · exact List.mem_cons_self
          · exact happart.clock t ht
        · intro t ht
          rcases List.mem_cons.1 ht with rfl | ht
          · exact Int.le_refl _
          · have := happart.prev t ht
            dsimp only at this helapsed ⊢
            omega
      · split
        · exact hread.congr rfl rfl rfl rfl rfl
        · exact hread.congr rfl rfl rfl rfl rfl

theorem Inv.update {s : State} (h : Inv s) (sys : Sys) : Inv (s.update sys) := by
  unfold State.update
  split
  · exact h.condDisplayUpdate sys
  · exact h.congr rfl rfl rfl rfl rfl

theorem Inv.line {s t : State} {text : String} (h : Inv s) (ht : s.line text = some t) : Inv t := by
  unfold State.line at ht
  split at ht
  · cases ht
  · cases ht
    exact h.congr rfl rfl rfl rfl rfl

theorem Inv.lines {s t : State} {updateCounter : Nat} {lines : List (String × Sys)} (h : Inv s)
    (ht : s.lines updateCounter lines = some t) : Inv t := by
  induction lines generalizing s updateCounter with
  | nil =>
    cases ht
    exact h
  | cons line rest ih =>
    rw [State.lines] at ht
    split at ht
    · cases ht
    · next u hu =>
      split at ht
      · split at ht
        · exact ih ((h.line hu).update line.2) ht
        · exact ih (h.line hu) ht
      · exact ih (h.line hu) ht

theorem Inv.step {s t : State} (h : Inv s) {step : Step} (ht : s.step step = some t) : Inv t := by
  cases step with
  | eventLine lines last =>
    obtain ⟨u, hu, rfl⟩ := Option.map_eq_some_iff.1 ht
    split
    · exact (h.lines hu).update last
    · exact h.lines hu
  | signalTimer clock =>
    cases ht
    cases clock with
    | none => exact h.congr rfl rfl rfl rfl rfl
    | some now =>
      refine ⟨h.interval, Or.inr List.mem_cons_self, fun hread => ?_⟩
      have hmonotone := List.pairwise_cons.1 hread.monotone
      have happart := h.apart ⟨(List.forall_mem_cons.1 hread.valid).2, hmonotone.2, hread.compared⟩
      exact ⟨happart.apart, fun t ht => List.mem_cons_of_mem _ (happart.clock t ht),
        fun t ht => hmonotone.1 t (happart.clock t ht)⟩
  | key =>
    cases ht
    exact h.congr rfl rfl rfl rfl rfl
  | notifyConfigChanged dspInterval =>
    cases ht
    unfold State.notifyConfigChanged
    split
    · by_cases hsame : s.interval = intervalOf dspInterval
      · rw [if_pos hsame]
        exact h.congr hsame.symm rfl rfl rfl rfl
      · rw [if_neg hsame]
        exact ⟨intervalOf_valid dspInterval, h.prev, fun _ => ⟨List.Pairwise.nil, nofun, nofun⟩⟩
    · exact h.congr rfl rfl rfl rfl rfl

theorem Inv.run {s t : State} (h : Inv s) {steps : List Step} (ht : s.run steps = some t) : Inv t := by
  induction steps generalizing s with
  | nil =>
    cases ht
    exact h
  | cons step steps ih =>
    rw [State.run, List.foldlM_cons] at ht
    obtain ⟨u, hu, hrest⟩ := Option.bind_eq_some_iff.1 ht
    exact ih (h.step hu) hrest

theorem run_apart {dspInterval : Nat} {steps : List Step} {s : State}
    (hrun : (init dspInterval).run steps = some s) (hread : Readings s) : s.RefreshesApart :=
  (((init_inv dspInterval).run hrun).apart hread).apart

/-- In every run a change is displayed or will be; the elapsed time is compared rightly exactly where the
    comparison does not borrow; and in a run where none does, two refreshes under one interval are at least
    that interval apart. -/
theorem displayUpdate_iff {dspInterval : Nat} {steps : List Step} {s : State}
    (hrun : (init dspInterval).run steps = some s) :
    Shown s ∧
      (∀ c : Comparison, c.cur.Valid → c.prev.Valid → c.interval.Valid →
        ((isIntervalExceeded c.cur c.prev c.interval = true ↔
          c.interval.nanos ≤ c.cur.nanos - c.prev.nanos) ↔ ¬c.Borrowed)) ∧
      (Readings s → s.RefreshesApart) :=
  ⟨run_shown (init_shown dspInterval) hrun, isIntervalExceeded_iff, run_apart hrun⟩

/-- Updates at 1.9 s and 2.5 s, where the interval is half a second. -/
def apartSteps : List Step :=
  [.key, .eventLine [("", ⟨none, true⟩)] ⟨some ⟨1, 900000000⟩, true⟩,
    .eventLine [("", ⟨none, true⟩)] ⟨some ⟨2, 500000000⟩, true⟩]

theorem displayUpdate_iff_apart :
    ∃ s, (init 500).run apartSteps = some s ∧ s.refreshes.length = 2 ∧ s.RefreshesApart := by
  have hsome : ((init 500).run apartSteps).isSome = true := by decide
  obtain ⟨s, hs⟩ := Option.isSome_iff_exists.1 hsome
  have hread : ((init 500).run apartSteps).map (fun s => decide (s.refreshes.length = 2 ∧
      (∀ t ∈ s.clock, t.Valid) ∧ s.clock.Pairwise (fun later earlier => earlier.nanos ≤ later.nanos) ∧
      ∀ c ∈ s.compared, ¬c.Borrowed)) = some true := by decide
  rw [hs] at hread
  obtain ⟨hlength, hvalid, hmonotone, hcompared⟩ := of_decide_eq_true (Option.some.inj hread)
  exact ⟨s, hs, hlength, (displayUpdate_iff hs).2.2 ⟨hvalid, hmonotone, hcompared⟩⟩

/-- An update at 1.9 s and one at 2.1 s, where the interval is half a second. -/
theorem refreshes_crowded :
    isIntervalExceeded ⟨2, 100000000⟩ ⟨1, 900000000⟩ (intervalOf 500) = true ∧
      ¬(intervalOf 500).nanos ≤ (⟨2, 100000000⟩ : Timespec).nanos - (⟨1, 900000000⟩ : Timespec).nanos ∧
      ((init 500).run [.key, .eventLine [("", ⟨none, true⟩)] ⟨some ⟨1, 900000000⟩, true⟩,
        .eventLine [("", ⟨none, true⟩)] ⟨some ⟨2, 100000000⟩, true⟩]).map (·.refreshes) =
          some [⟨2, 100000000⟩, ⟨1, 900000000⟩] :=
  ⟨by decide, by decide, by decide⟩

end DrbdUtils.DrbdMon.DisplayUpdate
