import Mathlib.Data.List.Chain
import Mathlib.Data.List.Iterate
import DrbdUtils.Setup.WaitForFamily

/-!
# Delays and timeouts of drbdsetup

The retries of `_generic_config_cmd()`, with the delay in front of each, and the choice of the time
that the wait commands give to each peer device: `choose_timeout()`, and the loop around it in
`generic_events_cmd()` of `drbdsetup.c`.

* `exchange_sleeps` — the delays are the first one doubled over and over.
* `exchange_delays_iff` — how many retries have a delay.
* `assignTimeouts_iff` — which timeouts are ordered when they are adjusted.
-/

set_option autoImplicit false

namespace DrbdUtils.Setup

/-! ## The retries of a configuration command -/

/-- `struct timespec`. -/
structure Timespec where
  tvSec : Int
  tvNsec : Int
  deriving DecidableEq, Repr

def SS_IN_TRANSIENT_STATE : Int := -18

/-- `retry_timeout` at first. -/
def retryTimeout : Timespec := ⟨0, 62500000⟩

/-- "Double the timeout, up to 10 seconds." -/
def Timespec.double (t : Timespec) : Timespec :=
  if t.tvSec < 10 then
    let sec := t.tvSec * 2
    let nsec := t.tvNsec * 2
    if nsec > 1000000000 then ⟨sec + 1, nsec - 1000000000⟩ else ⟨sec, nsec⟩
  else t

/-- What `nanosleep()` takes; it fails with `EINVAL` otherwise. -/
def Timespec.Valid (t : Timespec) : Prop := 0 ≤ t.tvSec ∧ 0 ≤ t.tvNsec ∧ t.tvNsec < 1000000000

instance (t : Timespec) : Decidable t.Valid := by unfold Timespec.Valid; infer_instance

/-- The time an uninterrupted `nanosleep()` takes, in nanoseconds. -/
def Timespec.slept (t : Timespec) : Int := if t.Valid then t.tvSec * 1000000000 + t.tvNsec else 0

/-- What comes of a request that was sent to the driver. -/
inductive Exchange where
  | sendError
  | recvError
  /-- There is a reply in the buffer; `dh->ret_code`. -/
  | replied (retCode : Int)
  deriving DecidableEq

/-- How far the loop is. -/
inductive Sent where
  /-- The request is with the driver. -/
  | pending
  /-- `OTHER_ERROR`. -/
  | failed
  | retCode (rv : Int)

/-- The loop of `_generic_config_cmd`: the arguments of `nanosleep()`, and the result. -/
def exchangeLoop (retry : Timespec) : List Exchange → List Timespec × Sent
  | [] => ([], .pending)
  | .sendError :: _ | .recvError :: _ => ([], .failed)
  | .replied rv :: rest =>
    if rv ≠ SS_IN_TRANSIENT_STATE then ([], .retCode rv)
    else
      let (sleeps, sent) := exchangeLoop retry.double rest
      (retry :: sleeps, sent)

/-- The answers in front of the first that ends the loop. -/
def transientReplies (answers : List Exchange) : List Exchange :=
  answers.takeWhile (· = .replied SS_IN_TRANSIENT_STATE)

/-- Every retry has a delay that `nanosleep()` takes, and none is shorter than the one before. -/
structure DelaysGrow (sleeps : List Timespec) : Prop where
  nsec : ∀ t ∈ sleeps, 0 ≤ t.tvNsec ∧ t.tvNsec < 1000000000
  growing : sleeps.IsChain fun t t' => t.slept ≤ t'.slept
  delayed : ∀ t ∈ sleeps, 0 < t.slept

theorem exchange_sleeps (retry : Timespec) (answers : List Exchange) :
    (exchangeLoop retry answers).1 =
      List.iterate Timespec.double retry (transientReplies answers).length := by
  induction answers generalizing retry with
  | nil => rfl
  | cons answer rest ih =>
    cases answer with
    | sendError => rfl
    | recvError => rfl
    | replied rv =>
      by_cases hrv : rv = SS_IN_TRANSIENT_STATE
      · subst hrv
        exact congrArg (retry :: ·) (ih retry.double)
      · have hstop : transientReplies (.replied rv :: rest) = [] := by
          unfold transientReplies
          rw [List.takeWhile_cons_of_neg]
          rw [decide_eq_true_eq]
          exact fun h => hrv (Exchange.replied.inj h)
        rw [hstop]
        unfold exchangeLoop
        rw [if_pos hrv]
        rfl

/-- A whole second in `tv_nsec` stays there. -/
theorem Timespec.double_second {t : Timespec} (h : t.tvNsec = 1000000000) :
    t.double.tvNsec = 1000000000 := by
  unfold Timespec.double
  rw [h]
  split
  · rfl
  · exact h

/-- From the fifth retry on there is no delay any more. -/
theorem retryTimeout_second (n : Nat) : (Timespec.double^[n + 4] retryTimeout).tvNsec = 1000000000 := by
  induction n with
  | zero => rfl
  | succ n ih =>
    rw [Nat.add_right_comm, Function.iterate_succ_apply']
    exact Timespec.double_second ih

theorem delaysGrow_four {n : Nat} (h : n ≤ 4) :
    DelaysGrow (List.iterate Timespec.double retryTimeout n) := by
  have hall : DelaysGrow (List.iterate Timespec.double retryTimeout 4) :=
    ⟨by decide, by decide, by decide⟩
  have hinit : List.iterate Timespec.double retryTimeout n <+:
      List.iterate Timespec.double retryTimeout 4 := by
    rw [show 4 = n + (4 - n) from (Nat.add_sub_cancel' h).symm, List.iterate_add]
    exact List.prefix_append _ _
  exact ⟨fun t ht => hall.nsec t (hinit.subset ht), hall.growing.prefix hinit,
    fun t ht => hall.delayed t (hinit.subset ht)⟩

/-- **Up to four retries in a row are delayed, and no more.** -/
theorem exchange_delays_iff (answers : List Exchange) :
    DelaysGrow (exchangeLoop retryTimeout answers).1 ↔ (transientReplies answers).length ≤ 4 := by
  rw [exchange_sleeps]
  constructor
  · intro h
    by_contra hlong
    have hmem : Timespec.double^[4] retryTimeout ∈
        List.iterate Timespec.double retryTimeout (transientReplies answers).length :=
      List.mem_iterate.2 ⟨4, by omega, rfl⟩
    have hnsec := (h.nsec _ hmem).2
    rw [retryTimeout_second 0] at hnsec
    exact absurd hnsec (by decide)
  · exact delaysGrow_four

/-- The fifth of five transient failures in a row is not delayed. -/
theorem exchange_not_delayed :
    ¬DelaysGrow (exchangeLoop retryTimeout
      (List.replicate 5 (.replied SS_IN_TRANSIENT_STATE))).1 := by
  intro h
  exact absurd (h.delayed ⟨0, 1000000000⟩ (by decide)) (by decide)

/-! ## The time for a peer device -/

/-- The timeouts of `struct choose_timeout_ctx`, in seconds; 0 is for ever. -/
structure WfcTimeouts where
  wfcTimeout : Nat
  degrWfcTimeout : Nat
  outdatedWfcTimeout : Nat
  deriving DecidableEq

/-- `parms.timeout_type`; a type that is not known is taken as `UT_DEFAULT`. -/
inductive TimeoutType where
  | utDefault
  | utDegraded
  | utPeerOutdated
  deriving DecidableEq

/-- The adjustments at the beginning of `choose_timeout`. -/
def adjustTimeouts (t : WfcTimeouts) : WfcTimeouts :=
  let t :=
    if 0 < t.wfcTimeout ∧ (t.wfcTimeout < t.degrWfcTimeout ∨ t.degrWfcTimeout = 0) then
      { t with degrWfcTimeout := t.wfcTimeout }
    else t
  if 0 < t.degrWfcTimeout ∧
      (t.degrWfcTimeout < t.outdatedWfcTimeout ∨ t.outdatedWfcTimeout = 0) then
    -- not `degr_wfc_timeout`, as the message says
    { t with outdatedWfcTimeout := t.wfcTimeout }
  else t

/-- `ctx->timeout`. -/
def WfcTimeouts.timeout (t : WfcTimeouts) : TimeoutType → Nat
  | .utDegraded => t.degrWfcTimeout
  | .utPeerOutdated => t.outdatedWfcTimeout
  | .utDefault => t.wfcTimeout

/-- `choose_timeout`, with the type in the driver's reply, if it gives one. -/
def chooseTimeout (t : WfcTimeouts) (reply : Option TimeoutType) : WfcTimeouts × Option Nat :=
  (adjustTimeouts t, reply.map (adjustTimeouts t).timeout)

def timeoutMs (timeout : Nat) : Int := if timeout ≠ 0 then timeout * 1000 else -1

/-- The loop over `peer_devices`: the timeouts as each call of `choose_timeout` leaves them, and the
    list with the times, or `none` for the exit code 20. -/
def assignTimeouts (t : WfcTimeouts) :
    List (WaitPeer × Option TimeoutType) → List WfcTimeouts × Option (List WaitPeer)
  | [] => ([], some [])
  | (peerDevice, reply) :: rest =>
    match chooseTimeout t reply with
    | (t, none) => ([t], none)
    | (t, some timeout) =>
      let (ts, assigned) := assignTimeouts t rest
      (t :: ts, assigned.map ({ peerDevice with timeoutMs := timeoutMs timeout } :: ·))

/-- No longer, where 0 is for ever. -/
def NoLonger (a b : Nat) : Prop := b = 0 ∨ (a ≠ 0 ∧ a ≤ b)

instance (a b : Nat) : Decidable (NoLonger a b) := by unfold NoLonger; infer_instance

structure WfcTimeouts.Ordered (given t : WfcTimeouts) : Prop where
  outdated_degr : NoLonger t.outdatedWfcTimeout t.degrWfcTimeout
  degr_wfc : NoLonger t.degrWfcTimeout t.wfcTimeout
  /-- No timeout is made longer. -/
  shorter : ∀ ty, NoLonger (t.timeout ty) (given.timeout ty)

/-- In every call the timeouts are ordered, and the types have one timeout each. -/
structure OrderedUniform (given : WfcTimeouts) (peerDevices : List (WaitPeer × Option TimeoutType)) :
    Prop where
  ordered : ∀ t ∈ (assignTimeouts given peerDevices).1, given.Ordered t
  uniform : ∃ timeout : TimeoutType → Nat, ∀ assigned,
    (assignTimeouts given peerDevices).2 = some assigned →
      assigned.map some = peerDevices.map fun (peerDevice, reply) =>
        reply.map fun ty => { peerDevice with timeoutMs := timeoutMs (timeout ty) }

section Timeouts

variable {given : WfcTimeouts}

/-- The adjustments of a later call change nothing. -/
theorem adjustTimeouts_twice (t : WfcTimeouts) : adjustTimeouts (adjustTimeouts t) = adjustTimeouts t := by
  obtain ⟨wfc, degr, outdated⟩ := t
  unfold adjustTimeouts
  grind

theorem assignTimeouts_adjusted (peerDevices : List (WaitPeer × Option TimeoutType)) :
    ∀ t ∈ (assignTimeouts given peerDevices).1, t = adjustTimeouts given := by
  induction peerDevices generalizing given with
  | nil => exact fun t ht => absurd ht List.not_mem_nil
  | cons p rest ih =>
    obtain ⟨peerDevice, reply⟩ := p
    cases reply with
    | none => exact fun t ht => List.mem_singleton.1 ht
    | some ty =>
      intro t ht
      rcases List.mem_cons.1 ht with rfl | ht
      · rfl
      · rw [ih t ht, adjustTimeouts_twice]

theorem assignTimeouts_uniform {peerDevices : List (WaitPeer × Option TimeoutType)}
    {assigned : List WaitPeer} (h : (assignTimeouts given peerDevices).2 = some assigned) :
    assigned.map some = peerDevices.map fun (peerDevice, reply) => reply.map fun ty =>
      { peerDevice with timeoutMs := timeoutMs ((adjustTimeouts given).timeout ty) } := by
  induction peerDevices generalizing given assigned with
  | nil =>
    cases h
    rfl
  | cons p rest ih =>
    obtain ⟨peerDevice, reply⟩ := p
    cases reply with
    | none => cases h
    | some ty =>
      obtain ⟨assigned', hrest, rfl⟩ := Option.map_eq_some_iff.1 h
      have htail := ih hrest
      rw [adjustTimeouts_twice] at htail
      exact congrArg (_ :: ·) htail

theorem adjustTimeouts_ordered_iff (t : WfcTimeouts) : t.Ordered (adjustTimeouts t) ↔
    NoLonger t.outdatedWfcTimeout t.degrWfcTimeout ∨ NoLonger t.wfcTimeout t.degrWfcTimeout := by
  obtain ⟨wfc, degr, outdated⟩ := t
  constructor
  · rintro ⟨h1, h2, -⟩
    simp only [adjustTimeouts, NoLonger] at h1 h2 ⊢
    grind
  · intro h
    refine ⟨?_, ?_, ?_⟩
    · simp only [adjustTimeouts, NoLonger] at h ⊢
      grind
    · simp only [adjustTimeouts, NoLonger] at h ⊢
      grind
    · intro ty
      simp only [adjustTimeouts, NoLonger] at h ⊢
      cases ty <;> simp only [WfcTimeouts.timeout] <;> grind

/-- **The timeouts are ordered unless the one for degraded is the shortest of the three**; they are
    the same for all peer devices. -/
theorem assignTimeouts_iff (given : WfcTimeouts) (peerDevices : List (WaitPeer × Option TimeoutType)) :
    OrderedUniform given peerDevices ↔ peerDevices = [] ∨
      NoLonger given.outdatedWfcTimeout given.degrWfcTimeout ∨
      NoLonger given.wfcTimeout given.degrWfcTimeout := by
  rw [← adjustTimeouts_ordered_iff]
  constructor
  · intro h
    cases peerDevices with
    | nil => exact Or.inl rfl
    | cons p rest =>
      refine Or.inr (h.ordered _ ?_)
      obtain ⟨peerDevice, reply⟩ := p
      cases reply with
      | none => exact List.mem_singleton.2 rfl
      | some ty => exact List.mem_cons_self
  · intro h
    refine ⟨fun t ht => ?_, (adjustTimeouts given).timeout, fun assigned => assignTimeouts_uniform⟩
    rcases h with rfl | h
    · cases ht
    · rw [assignTimeouts_adjusted peerDevices t ht]
      exact h

/-- With `--wfc-timeout=30 --degr-wfc-timeout=10 --outdated-wfc-timeout=20` a peer device of the type
    `UT_PEER_OUTDATED` gets 30 seconds. -/
theorem assignTimeouts_longer :
    ¬OrderedUniform ⟨30, 10, 20⟩ [(⟨{ ctxResourceName := "r0", ctxVolume := 0, ctxPeerNodeId := 1 },
      {}, 0⟩, some .utPeerOutdated)] := by
  intro h
  have hshorter := (h.ordered ⟨30, 10, 30⟩ (List.mem_singleton.2 rfl)).shorter .utPeerOutdated
  exact absurd hshorter (by decide)

/-- The list that the wait begins with. -/
theorem assignTimeouts_initial {peerDevices : List (WaitPeer × Option TimeoutType)}
    {assigned : List WaitPeer} (hne : peerDevices ≠ [])
    (h : (assignTimeouts given peerDevices).2 = some assigned) : Initial assigned := by
  have huniform := assignTimeouts_uniform h
  constructor
  · rintro rfl
    exact hne (List.map_eq_nil_iff.1 huniform.symm)
  · intro p hp
    have hmem : some p ∈ assigned.map some := List.mem_map_of_mem hp
    rw [huniform] at hmem
    obtain ⟨⟨peerDevice, reply⟩, -, hreply⟩ := List.mem_map.1 hmem
    obtain ⟨ty, -, rfl⟩ := Option.map_eq_some_iff.1 hreply
    show timeoutMs _ = -1 ∨ 0 < timeoutMs _
    unfold timeoutMs
    split
    · omega
    · exact Or.inl rfl

end Timeouts

end DrbdUtils.Setup
