import DrbdUtils.Events2.ApplyEvent

/-!
# wait-connect and wait-sync

`generic_recv()` with `MULTIPLE_TIMEOUTS` and `wait_for_family()` of `drbdsetup.c`: a list of peer
devices with a time for each, messages that update it, and a poll that lasts as long as the shortest
time.

Beside the list of the program there is the world it waits for: the peer devices that exist, with the
times that were assigned to them, and the time that has passed.  A datagram is one step, and each of
its messages another one.

* `Tracks.step` — what the list knows of the world.
* `run_endsRight` — in which runs the program ends for the right reason.
-/

set_option autoImplicit false

namespace DrbdUtils.Setup

open Events2

/-! ## The program -/

/-- `enum cfg_ctx_key`, of the wait commands. -/
inductive CfgCtxKey where
  | resource
  | peerNode
  | peerDevice
  deriving DecidableEq, Repr

/-- A wait command, with what it takes from `global_ctx` and the options. -/
structure WaitCmd where
  ctxKey : CfgCtxKey
  objname : String
  ctxPeerNodeId : Nat := NONE_U
  ctxVolume : Nat := NONE_U
  /-- The name of the command has no "sync" in it. -/
  waitConnect : Bool
  waitAfterSplitBrain : Bool := false
  /-- Only `wait-*-resource` takes "all". -/
  named : ctxKey ≠ .resource → objname ≠ "all" := by decide

/-- `struct peer_devices_list`, as far as it is used here. -/
structure WaitPeer where
  ctx : DrbdCfgContext
  info : PeerDeviceInfo
  timeoutMs : Int
  deriving DecidableEq, Repr

/-- A message of the driver.  One about a destroyed peer device has no `peer_device_info`, so that
    `wait_for_family` leaves the case before `peer_devices_remove`. -/
inductive Message where
  | connectionState (nhType : NotificationType) (ctx : DrbdCfgContext) (state : DrbdConnState)
  | peerDeviceState (created : Bool) (ctx : DrbdCfgContext) (info : PeerDeviceInfo)
  | peerDeviceDestroyed (ctx : DrbdCfgContext)
  /-- Other objects, and messages without context or header. -/
  | other
  /-- `ret_code` is set. -/
  | failed

/-- `shortest_timeout`. -/
def shortestTimeout (peers : List WaitPeer) : Int :=
  if peers = [] then 1
  else peers.foldl (fun timeout p =>
    if 0 < p.timeoutMs ∧ (p.timeoutMs < timeout ∨ timeout = -1) then p.timeoutMs else timeout) (-1)

def updateTimeout (elapsed : Nat) (p : WaitPeer) : WaitPeer :=
  if p.timeoutMs ≠ -1 then
    { p with timeoutMs := if p.timeoutMs - elapsed < 0 then 0 else p.timeoutMs - elapsed }
  else p

/-- `update_timeouts`, with its result. -/
def updateTimeouts (elapsed : Nat) (peers : List WaitPeer) : List WaitPeer × Bool :=
  let peers := peers.map (updateTimeout elapsed)
  (peers, peers.all (·.timeoutMs = 0))

def peerDeviceCtxMatch (a b : DrbdCfgContext) : Bool :=
  a.ctxResourceName = b.ctxResourceName && a.ctxPeerNodeId = b.ctxPeerNodeId &&
    a.ctxVolume = b.ctxVolume

/-- `peer_devices_append`; the new node comes from `calloc`. -/
def peerDevicesAppend (peers : List WaitPeer) (ctx : DrbdCfgContext) (info : PeerDeviceInfo) :
    List WaitPeer :=
  if peers = [] then [] else peers ++ [⟨ctx, info, 0⟩]

section Program

variable (cm : WaitCmd)

/-- The filter of `generic_recv`. -/
def WaitCmd.admits (ctx : DrbdCfgContext) : Bool :=
  (cm.ctxKey ≠ .peerDevice || ctx.ctxVolume = cm.ctxVolume) &&
    (cm.ctxKey = .resource || ctx.ctxPeerNodeId = cm.ctxPeerNodeId) &&
    (cm.objname = "all" || cm.objname = ctx.ctxResourceName)

/-- The filters of `wait_for_family`. -/
def WaitCmd.counts (p : WaitPeer) : Bool :=
  match cm.ctxKey with
  | .peerDevice => peerDeviceCtxMatch
    { ctxResourceName := cm.objname
      ctxPeerNodeId := cm.ctxPeerNodeId
      ctxVolume := cm.ctxVolume } p.ctx
  | .peerNode => p.ctx.ctxPeerNodeId = cm.ctxPeerNodeId
  | .resource => true

/-- Established, or beyond for wait-connect. -/
def WaitCmd.finished (rs : DrbdReplState) : Bool :=
  rs = .established || (cm.waitConnect && rs ≠ .off)

/-- Counted in `nr_done`. -/
def WaitCmd.done (p : WaitPeer) : Bool := cm.finished p.info.peerReplState || p.timeoutMs = 0

/-- A connection that is given up. -/
def WaitCmd.drops (nhType : NotificationType) (state : DrbdConnState) : Bool :=
  nhType ≠ .destroy && nhType ≠ .create && (state = .standalone || state = .disconnecting) &&
    !cm.waitAfterSplitBrain

/-- The list after a message about a peer device. -/
def notePeerDevice (peers : List WaitPeer) (created : Bool) (ctx : DrbdCfgContext)
    (info : PeerDeviceInfo) : List WaitPeer :=
  (if created then peerDevicesAppend peers ctx info else peers).map fun p =>
    if peerDeviceCtxMatch ctx p.ctx then { p with info := info } else p

/-- `wait_for_family`: its result and the list it leaves. -/
def waitForFamily (peers : List WaitPeer) : Message → Int × List WaitPeer
  | .connectionState nhType _ state => (if cm.drops nhType state then -1 else 0, peers)
  | .peerDeviceState created ctx info =>
    let peers := notePeerDevice peers created ctx info
    let nrPeerDevices := peers.countP cm.counts
    let nrDone := peers.countP fun p => cm.counts p && cm.done p
    (if nrPeerDevices = nrDone then -1 else 0, peers)
  | .peerDeviceDestroyed _ | .other | .failed => (0, peers)

/-- How far `generic_recv` is. -/
inductive Outcome where
  | waiting
  /-- `err = 5`. -/
  | timeout
  /-- The result 0 of the command. -/
  | done
  | failed
  deriving DecidableEq, Repr

/-- What happens to `generic_recv`, with the time since the loop began anew. -/
inductive Input where
  | pollTimeout (elapsed : Nat)
  /-- An invalid message or the end of the reply: `continue`. -/
  | skipped (elapsed : Nat)
  /-- A datagram; its messages follow. -/
  | received (elapsed : Nat)
  | message (m : Message)

def Message.ctx : Message → Option DrbdCfgContext
  | .connectionState _ ctx _ | .peerDeviceState _ ctx _ | .peerDeviceDestroyed ctx => some ctx
  | .other | .failed => none

/-- A step of `generic_recv`. -/
def recvStep (peers : List WaitPeer) : Input → Outcome × List WaitPeer
  | .pollTimeout _ => (.timeout, peers)
  | .skipped _ => (.waiting, peers)
  | .received elapsed =>
    if shortestTimeout peers ≠ -1 then
      let (peers, exit) := updateTimeouts elapsed peers
      (if exit then .timeout else .waiting, peers)
    else (.waiting, peers)
  | .message .failed => (.failed, peers)
  | .message m =>
    if m.ctx.any fun ctx => !cm.admits ctx then (.waiting, peers)
    else
      let (err, peers) := waitForFamily cm peers m
      (if err < 0 then .done else .waiting, peers)

/-! ## The world -/

/-- A peer device that exists; one that was created later has no time assigned. -/
structure WorldPeer where
  ctx : DrbdCfgContext
  assigned : Option Int
  replState : DrbdReplState

structure World where
  peers : List WorldPeer
  elapsed : Nat := 0
  /-- A connection was given up. -/
  dropped : Bool := false

def World.notePeerDevice (peers : List WorldPeer) (created : Bool) (ctx : DrbdCfgContext)
    (info : PeerDeviceInfo) : List WorldPeer :=
  (if created then peers ++ [⟨ctx, none, info.peerReplState⟩] else peers).map fun p =>
    if peerDeviceCtxMatch ctx p.ctx then { p with replState := info.peerReplState } else p

def World.step (w : World) : Input → World
  | .pollTimeout elapsed | .skipped elapsed | .received elapsed =>
    { w with elapsed := w.elapsed + elapsed }
  | .message (.peerDeviceState created ctx info) =>
    { w with peers := World.notePeerDevice w.peers created ctx info }
  | .message (.peerDeviceDestroyed ctx) =>
    { w with peers := w.peers.filter fun p => !peerDeviceCtxMatch ctx p.ctx }
  | .message (.connectionState nhType ctx state) =>
    { w with dropped := w.dropped || (cm.admits ctx && cm.drops nhType state) }
  | .message .other | .message .failed => w

structure State where
  outcome : Outcome
  peers : List WaitPeer
  world : World

def State.step (s : State) (i : Input) : State where
  outcome := (recvStep cm s.peers i).1
  peers := (recvStep cm s.peers i).2
  world := s.world.step cm i

/-- `poll()` times out when the time is over, and the driver announces new peer devices. -/
def Possible (s : State) : Input → Prop
  | .pollTimeout elapsed => shortestTimeout s.peers ≠ -1 ∧ shortestTimeout s.peers ≤ elapsed
  | .message (.peerDeviceState created ctx _) =>
    created = true ∨ ∃ p ∈ s.world.peers, peerDeviceCtxMatch ctx p.ctx = true
  | _ => True

/-- The list `event_command` starts with: `list_peer_devices`, and `choose_timeout` for each. -/
structure Initial (peers : List WaitPeer) : Prop where
  ne_nil : peers ≠ []
  assigned : ∀ p ∈ peers, p.timeoutMs = -1 ∨ 0 < p.timeoutMs

def start (peers : List WaitPeer) : State where
  outcome := .waiting
  peers := peers
  world := { peers := peers.map fun p => ⟨p.ctx, some p.timeoutMs, p.info.peerReplState⟩ }

/-- The states of the runs whose steps are all possible and meet `P`. -/
inductive Run (initial : List WaitPeer) (P : State → Input → Prop) : State → Prop where
  | start : Run initial P (start initial)
  | step {s : State} {i : Input} : Run initial P s → s.outcome = .waiting → Possible s i → P s i →
      Run initial P (s.step cm i)

/-! ## What is right -/

/-- The time that was assigned to the peer device is over. -/
def WorldPeer.RanOut (p : WorldPeer) (elapsed : Nat) : Prop :=
  ∃ t, p.assigned = some t ∧ t ≠ -1 ∧ t ≤ elapsed

/-- The verdict is right, and while there is none nobody waits for a destroyed peer device. -/
def EndsRight (s : State) : Prop :=
  match s.outcome with
  | .timeout => ∀ p ∈ s.world.peers, cm.admits p.ctx = true → cm.finished p.replState = false →
    p.RanOut s.world.elapsed
  | .done => s.world.dropped = true ∨ ∀ p ∈ s.world.peers, cm.admits p.ctx = true →
    cm.finished p.replState = true ∨ p.RanOut s.world.elapsed
  | .waiting => ∀ p ∈ s.peers, cm.counts p = true → cm.done p = false →
    ∃ q ∈ s.world.peers, peerDeviceCtxMatch p.ctx q.ctx = true
  | .failed => True

/-- Peer devices that were created later are established by now. -/
def CreatedFinished (w : World) : Prop :=
  ∀ p ∈ w.peers, cm.admits p.ctx = true → p.assigned = none → cm.finished p.replState = true

/-- The steps that go right.  Poll times out when nobody has more time than another; the times run
    out, or the last peer device gets done, when those created later are established; a peer device
    that is destroyed was done. -/
def Meets (s : State) : Input → Prop
  | .pollTimeout _ => CreatedFinished cm s.world ∧
    ∀ q ∈ s.world.peers, cm.admits q.ctx = true → cm.finished q.replState = false →
      ∀ p ∈ s.peers, peerDeviceCtxMatch p.ctx q.ctx = true →
        p.timeoutMs ≠ -1 ∧ ∀ p' ∈ s.peers, 0 < p'.timeoutMs → p.timeoutMs ≤ p'.timeoutMs
  | .received elapsed =>
    (∃ p ∈ s.peers, 0 < p.timeoutMs) →
      (∀ p ∈ s.peers, p.timeoutMs ≠ -1 ∧ p.timeoutMs ≤ elapsed) → CreatedFinished cm s.world
  | .message (.peerDeviceState created ctx info) =>
    cm.admits ctx = true →
      (∀ p ∈ s.peers, cm.counts p = true →
        cm.done (if peerDeviceCtxMatch ctx p.ctx then { p with info := info } else p) = true) →
      CreatedFinished cm (s.world.step cm (.message (.peerDeviceState created ctx info)))
  | .message (.peerDeviceDestroyed ctx) =>
    ∀ p ∈ s.peers, peerDeviceCtxMatch ctx p.ctx = true → cm.counts p = true → cm.done p = true
  | _ => True

end Program

/-! ## Peer devices with one context -/

theorem peerDeviceCtxMatch_iff {a b : DrbdCfgContext} :
    peerDeviceCtxMatch a b = true ↔ a.ctxResourceName = b.ctxResourceName ∧
      a.ctxPeerNodeId = b.ctxPeerNodeId ∧ a.ctxVolume = b.ctxVolume := by
  simp [peerDeviceCtxMatch, and_assoc]

theorem peerDeviceCtxMatch_congr {a b c : DrbdCfgContext} (h : peerDeviceCtxMatch a b = true) :
    peerDeviceCtxMatch c a = peerDeviceCtxMatch c b := by
  obtain ⟨h1, h2, h3⟩ := peerDeviceCtxMatch_iff.1 h
  simp [peerDeviceCtxMatch, h1, h2, h3]

theorem admits_congr (cm : WaitCmd) {a b : DrbdCfgContext} (h : peerDeviceCtxMatch a b = true) :
    cm.admits a = cm.admits b := by
  obtain ⟨h1, h2, h3⟩ := peerDeviceCtxMatch_iff.1 h
  simp [WaitCmd.admits, h1, h2, h3]

/-- The two filters agree on a list of the right resource. -/
theorem counts_of_admits {cm : WaitCmd} {p : WaitPeer} (h : cm.admits p.ctx = true) :
    cm.counts p = true := by
  have hname := cm.named
  cases hkey : cm.ctxKey with
  | resource => simp [WaitCmd.counts, hkey]
  | peerNode => simp_all [WaitCmd.admits, WaitCmd.counts]
  | peerDevice => simp_all [WaitCmd.admits, WaitCmd.counts, peerDeviceCtxMatch]

/-! ## Times -/

/-- What is left of a time, beside what was assigned. -/
def Left (elapsed : Nat) : Option Int → Int → Prop
  | some a, t => (a = -1 ∧ t = -1) ∨ (a ≠ -1 ∧ 0 ≤ t ∧ a ≤ t + elapsed)
  | none, t => t = 0

theorem Left.mono {elapsed later : Nat} {a : Option Int} {t : Int} (h : Left elapsed a t)
    (hle : elapsed ≤ later) : Left later a t := by
  cases a with
  | none => exact h
  | some a =>
    simp only [Left] at h ⊢
    omega

theorem Left.update {elapsed more : Nat} {a : Option Int} {p : WaitPeer}
    (h : Left elapsed a p.timeoutMs) :
    Left (elapsed + more) a (updateTimeout more p).timeoutMs := by
  unfold updateTimeout
  cases a with
  | none =>
    simp only [Left] at h ⊢
    split
    · simp only [h]
      omega
    · exact h
  | some a =>
    simp only [Left] at h ⊢
    split
    · dsimp only
      split <;> omega
    · omega

theorem Left.ranOut {elapsed : Nat} {q : WorldPeer} {t : Int} (h : Left elapsed q.assigned t)
    (ha : q.assigned ≠ none) {later : Nat} (ht : t ≠ -1) (hle : t + elapsed ≤ later) :
    q.RanOut later := by
  obtain ⟨a, ha'⟩ := Option.ne_none_iff_exists'.1 ha
  rw [ha'] at h
  rcases h with ⟨-, h⟩ | ⟨hne, -, hle'⟩
  · exact absurd h ht
  · exact ⟨a, ha', hne, by omega⟩

/-- The shortest time is one of the list. -/
theorem shortestTimeout_mem {peers : List WaitPeer} (hne : peers ≠ [])
    (h : shortestTimeout peers ≠ -1) :
    ∃ p ∈ peers, 0 < p.timeoutMs ∧ shortestTimeout peers = p.timeoutMs := by
  have hfold (l : List WaitPeer) (t : Int) :
      l.foldl (fun timeout p =>
          if 0 < p.timeoutMs ∧ (p.timeoutMs < timeout ∨ timeout = -1) then p.timeoutMs
          else timeout) t = t ∨
        ∃ p ∈ l, 0 < p.timeoutMs ∧ l.foldl (fun timeout p =>
          if 0 < p.timeoutMs ∧ (p.timeoutMs < timeout ∨ timeout = -1) then p.timeoutMs
          else timeout) t = p.timeoutMs := by
    induction l generalizing t with
    | nil => exact Or.inl rfl
    | cons p l ih =>
      rw [List.foldl_cons]
      split
      · rename_i hp
        rcases ih p.timeoutMs with h | ⟨q, hq, h⟩
        · exact Or.inr ⟨p, List.mem_cons_self, hp.1, h⟩
        · exact Or.inr ⟨q, List.mem_cons_of_mem _ hq, h⟩
      · exact (ih t).imp_right fun ⟨q, hq, h⟩ => ⟨q, List.mem_cons_of_mem _ hq, h⟩
  rw [shortestTimeout, if_neg hne] at h ⊢
  exact (hfold peers (-1)).resolve_left h

theorem updateTimeout_eq_zero_iff {elapsed : Nat} {p : WaitPeer} :
    (updateTimeout elapsed p).timeoutMs = 0 ↔ p.timeoutMs ≠ -1 ∧ p.timeoutMs ≤ elapsed := by
  unfold updateTimeout
  split
  · dsimp only
    split <;> omega
  · omega

@[simp] theorem updateTimeout_ctx (elapsed : Nat) (p : WaitPeer) :
    (updateTimeout elapsed p).ctx = p.ctx := by
  unfold updateTimeout; split <;> rfl

@[simp] theorem updateTimeout_info (elapsed : Nat) (p : WaitPeer) :
    (updateTimeout elapsed p).info = p.info := by
  unfold updateTimeout; split <;> rfl

theorem counts_updateTimeout (cm : WaitCmd) (elapsed : Nat) (p : WaitPeer) :
    cm.counts (updateTimeout elapsed p) = cm.counts p := by
  simp [WaitCmd.counts]

theorem done_updateTimeout {cm : WaitCmd} {elapsed : Nat} {p : WaitPeer}
    (h : cm.done p = true) : cm.done (updateTimeout elapsed p) = true := by
  simp only [WaitCmd.done, Bool.or_eq_true, decide_eq_true_eq, updateTimeout_info] at h ⊢
  exact h.imp_right fun h => updateTimeout_eq_zero_iff.2 (by omega)

theorem countP_eq_countP_and_iff {α : Type*} (p q : α → Bool) (l : List α) :
    l.countP p = l.countP (fun a => p a && q a) ↔ ∀ a ∈ l, p a = true → q a = true := by
  induction l with
  | nil => simp
  | cons a l ih =>
    have hle : l.countP (fun a => p a && q a) ≤ l.countP p :=
      List.countP_mono_left fun a _ h => (Bool.and_eq_true_iff.1 h).1
    cases hp : p a <;> cases hq : q a <;>
      simp [hp, hq, ih]
    omega

/-! ## What the list knows of the world -/

section Tracking

variable {cm : WaitCmd}

/-- While the program waits: every peer device the command is about is listed with its state and what
    is left of its time, and whatever is waited for exists. -/
structure Tracks (cm : WaitCmd) (peers : List WaitPeer) (w : World) : Prop where
  ne_nil : peers ≠ []
  listed : ∀ q ∈ w.peers, cm.admits q.ctx = true → ∃ p ∈ peers,
    peerDeviceCtxMatch p.ctx q.ctx = true ∧ p.info.peerReplState = q.replState ∧
      Left w.elapsed q.assigned p.timeoutMs
  awaited : ∀ p ∈ peers, cm.counts p = true → cm.done p = false →
    ∃ q ∈ w.peers, peerDeviceCtxMatch p.ctx q.ctx = true

theorem tracks_start {initial : List WaitPeer} (h : Initial initial) :
    Tracks cm initial (start initial).world where
  ne_nil := h.ne_nil
  listed := by
    intro q hq _
    obtain ⟨p, hp, rfl⟩ := List.mem_map.1 hq
    refine ⟨p, hp, by simp [peerDeviceCtxMatch], rfl, ?_⟩
    rcases h.assigned p hp with ht | ht
    · exact Or.inl ⟨ht, ht⟩
    · exact Or.inr ⟨by omega, by omega, by simp [start]⟩
  awaited := fun p hp _ _ => ⟨_, List.mem_map_of_mem hp, by simp [peerDeviceCtxMatch]⟩

/-- Time passes. -/
theorem Tracks.later {peers : List WaitPeer} {w : World} (h : Tracks cm peers w) (elapsed : Nat) :
    Tracks cm peers { w with elapsed := w.elapsed + elapsed } where
  ne_nil := h.ne_nil
  listed := by
    intro q hq had
    obtain ⟨p, hp, hctx, hrs, hleft⟩ := h.listed q hq had
    exact ⟨p, hp, hctx, hrs, hleft.mono (Nat.le_add_right _ _)⟩
  awaited := h.awaited

theorem Tracks.update {peers : List WaitPeer} {w : World} (h : Tracks cm peers w)
    (elapsed : Nat) :
    Tracks cm (updateTimeouts elapsed peers).1 { w with elapsed := w.elapsed + elapsed } where
  ne_nil := by simpa [updateTimeouts] using h.ne_nil
  listed := by
    intro q hq had
    obtain ⟨p, hp, hctx, hrs, hleft⟩ := h.listed q hq had
    exact ⟨updateTimeout elapsed p, List.mem_map_of_mem hp, by simpa using hctx,
      by simpa using hrs, hleft.update⟩
  awaited := by
    intro p' hp' hc hd
    obtain ⟨p, hp, rfl⟩ := List.mem_map.1 hp'
    rw [counts_updateTimeout] at hc
    have hd : cm.done p = false := by
      rw [← Bool.not_eq_true] at hd ⊢
      exact fun hp => hd (done_updateTimeout hp)
    simpa using h.awaited p hp hc hd

/-- The peer devices of a message, in a list of either kind. -/
theorem mem_world_notePeerDevice {peers : List WorldPeer} {created : Bool} {ctx : DrbdCfgContext}
    {info : PeerDeviceInfo} {q : WorldPeer}
    (h : q ∈ World.notePeerDevice peers created ctx info) :
    (created = true ∧ q = ⟨ctx, none, info.peerReplState⟩) ∨ ∃ q' ∈ peers,
      q = if peerDeviceCtxMatch ctx q'.ctx then { q' with replState := info.peerReplState }
        else q' := by
  obtain ⟨q', hq', rfl⟩ := List.mem_map.1 h
  cases created with
  | false => exact Or.inr ⟨q', hq', rfl⟩
  | true =>
    rcases List.mem_append.1 hq' with hq' | hq'
    · exact Or.inr ⟨q', hq', rfl⟩
    · obtain rfl := List.mem_singleton.1 hq'
      exact Or.inl ⟨rfl, by simp [peerDeviceCtxMatch]⟩

/-- Peer devices stay, and a created one is added. -/
theorem exists_world_notePeerDevice {peers : List WorldPeer} {created : Bool}
    {ctx : DrbdCfgContext} {info : PeerDeviceInfo} {c : DrbdCfgContext}
    (h : (created = true ∧ peerDeviceCtxMatch c ctx = true) ∨
      ∃ q ∈ peers, peerDeviceCtxMatch c q.ctx = true) :
    ∃ q ∈ World.notePeerDevice peers created ctx info, peerDeviceCtxMatch c q.ctx = true := by
  rcases h with ⟨rfl, h⟩ | ⟨q, hq, h⟩
  · exact ⟨_, List.mem_map_of_mem (List.mem_append_right _ (List.mem_singleton_self _)), by
      simpa [peerDeviceCtxMatch] using h⟩
  · have hmem : q ∈ if created then peers ++ [⟨ctx, none, info.peerReplState⟩] else peers := by
      split
      · exact List.mem_append_left _ hq
      · exact hq
    refine ⟨_, List.mem_map_of_mem hmem, ?_⟩
    split <;> exact h

/-- The list of the program, likewise. -/
theorem mem_notePeerDevice {peers : List WaitPeer} {created : Bool} {ctx : DrbdCfgContext}
    {info : PeerDeviceInfo} {p : WaitPeer} (h : p ∈ notePeerDevice peers created ctx info) :
    (created = true ∧ p = ⟨ctx, info, 0⟩) ∨ ∃ p' ∈ peers,
      p = if peerDeviceCtxMatch ctx p'.ctx then { p' with info := info } else p' := by
  obtain ⟨p', hp', rfl⟩ := List.mem_map.1 h
  cases created with
  | false => exact Or.inr ⟨p', hp', rfl⟩
  | true =>
    simp only [if_true, peerDevicesAppend] at hp'
    split at hp'
    · simp at hp'
    · rcases List.mem_append.1 hp' with hp' | hp'
      · exact Or.inr ⟨p', hp', rfl⟩
      · obtain rfl := List.mem_singleton.1 hp'
        exact Or.inl ⟨rfl, by simp [peerDeviceCtxMatch]⟩

theorem notePeerDevice_of_mem {peers : List WaitPeer} {created : Bool} {ctx : DrbdCfgContext}
    {info : PeerDeviceInfo} {p : WaitPeer} (h : p ∈ peers) :
    (if peerDeviceCtxMatch ctx p.ctx then { p with info := info } else p) ∈
      notePeerDevice peers created ctx info := by
  refine List.mem_map_of_mem (f := fun p : WaitPeer =>
    if peerDeviceCtxMatch ctx p.ctx then { p with info := info } else p) ?_
  split
  · rw [peerDevicesAppend, if_neg (List.ne_nil_of_mem h)]
    exact List.mem_append_left _ h
  · exact h

theorem notePeerDevice_created {peers : List WaitPeer} {ctx : DrbdCfgContext}
    {info : PeerDeviceInfo} (h : peers ≠ []) :
    (⟨ctx, info, 0⟩ : WaitPeer) ∈ notePeerDevice peers true ctx info := by
  refine List.mem_map.2 ⟨⟨ctx, info, 0⟩, ?_, by simp [peerDeviceCtxMatch]⟩
  simp [peerDevicesAppend, h]

/-- A message about a peer device that the command is about. -/
theorem Tracks.notePeerDevice {peers : List WaitPeer} {w : World} (h : Tracks cm peers w)
    {created : Bool} {ctx : DrbdCfgContext} {info : PeerDeviceInfo}
    (hex : created = true ∨ ∃ q ∈ w.peers, peerDeviceCtxMatch ctx q.ctx = true) :
    Tracks cm (notePeerDevice peers created ctx info)
      { w with peers := World.notePeerDevice w.peers created ctx info } where
  ne_nil := by
    obtain ⟨p, hp⟩ := List.exists_mem_of_ne_nil _ h.ne_nil
    exact List.ne_nil_of_mem (notePeerDevice_of_mem hp)
  listed := by
    intro q hq had
    rcases mem_world_notePeerDevice hq with ⟨rfl, rfl⟩ | ⟨q', hq', rfl⟩
    · exact ⟨_, notePeerDevice_created h.ne_nil, by simp [peerDeviceCtxMatch], rfl, rfl⟩
    · have had' : cm.admits q'.ctx = true := by
        split at had <;> exact had
      obtain ⟨p, hp, hctx, hrs, hleft⟩ := h.listed q' hq' had'
      refine ⟨_, notePeerDevice_of_mem hp, ?_⟩
      rw [peerDeviceCtxMatch_congr hctx]
      split
      · exact ⟨hctx, rfl, hleft⟩
      · exact ⟨hctx, hrs, hleft⟩
  awaited := by
    intro p hp hc hd
    refine exists_world_notePeerDevice ?_
    rcases mem_notePeerDevice hp with ⟨rfl, rfl⟩ | ⟨p', hp', rfl⟩
    · exact Or.inl ⟨rfl, by simp [peerDeviceCtxMatch]⟩
    · split at hc
      · rename_i hm
        rw [if_pos hm]
        -- The message is about this one, so it exists.
        have hsymm : peerDeviceCtxMatch p'.ctx ctx = true := by
          simp only [peerDeviceCtxMatch_iff] at hm ⊢
          exact ⟨hm.1.symm, hm.2.1.symm, hm.2.2.symm⟩
        rcases hex with hcr | ⟨q, hq, hqm⟩
        · exact Or.inl ⟨hcr, hsymm⟩
        · exact Or.inr ⟨q, hq, by rwa [← peerDeviceCtxMatch_congr hqm]⟩
      · rename_i hm
        rw [if_neg hm] at hd ⊢
        exact Or.inr (h.awaited p' hp' hc hd)

/-- A message about one that it is not about. -/
theorem Tracks.notePeerDevice_other {peers : List WaitPeer} {w : World} (h : Tracks cm peers w)
    {created : Bool} {ctx : DrbdCfgContext} {info : PeerDeviceInfo}
    (had : cm.admits ctx = false) :
    Tracks cm peers { w with peers := World.notePeerDevice w.peers created ctx info } where
  ne_nil := h.ne_nil
  listed := by
    intro q hq hq'
    rcases mem_world_notePeerDevice hq with ⟨-, rfl⟩ | ⟨q', hmem, rfl⟩
    · simp [had] at hq'
    · split at hq'
      · rename_i hm
        have : cm.admits q'.ctx = false := by rw [← admits_congr cm hm, had]
        simp [this] at hq'
      · rename_i hm
        rw [if_neg hm]
        exact h.listed q' hmem hq'
  awaited := fun p hp hc hd => exists_world_notePeerDevice (Or.inr (h.awaited p hp hc hd))

theorem Tracks.destroyed {peers : List WaitPeer} {w : World} (h : Tracks cm peers w)
    {ctx : DrbdCfgContext}
    (hdone : ∀ p ∈ peers, peerDeviceCtxMatch ctx p.ctx = true → cm.counts p = true →
      cm.done p = true) :
    Tracks cm peers
      { w with peers := w.peers.filter fun p => !peerDeviceCtxMatch ctx p.ctx } where
  ne_nil := h.ne_nil
  listed := fun q hq had => h.listed q (List.mem_filter.1 hq).1 had
  awaited := by
    intro p hp hc hd
    obtain ⟨q, hq, hm⟩ := h.awaited p hp hc hd
    refine ⟨q, List.mem_filter.2 ⟨hq, ?_⟩, hm⟩
    rw [← peerDeviceCtxMatch_congr hm, Bool.not_eq_true', ← Bool.not_eq_true]
    intro hmatch
    simp [hdone p hp hmatch hc] at hd

/-! ## The verdicts -/

/-- A message about a peer device: the list, and whether all that count are done. -/
theorem recvStep_peerDeviceState (peers : List WaitPeer) (created : Bool) (ctx : DrbdCfgContext)
    (info : PeerDeviceInfo) :
    recvStep cm peers (.message (.peerDeviceState created ctx info)) =
      if cm.admits ctx then
        (if ∀ p ∈ notePeerDevice peers created ctx info, cm.counts p = true → cm.done p = true
          then .done else .waiting, notePeerDevice peers created ctx info)
      else (.waiting, peers) := by
  cases had : cm.admits ctx with
  | false => simp [recvStep, Message.ctx, had]
  | true =>
    simp only [recvStep, Message.ctx, Option.any_some, had, Bool.not_true, Bool.false_eq_true,
      if_false, if_true, waitForFamily, countP_eq_countP_and_iff]
    split <;> simp

theorem recvStep_connectionState (peers : List WaitPeer) (nhType : NotificationType)
    (ctx : DrbdCfgContext) (state : DrbdConnState) :
    recvStep cm peers (.message (.connectionState nhType ctx state)) =
      (if cm.admits ctx && cm.drops nhType state then .done else .waiting, peers) := by
  cases had : cm.admits ctx <;> cases hdrop : cm.drops nhType state <;>
    simp [recvStep, Message.ctx, had, hdrop, waitForFamily]

theorem recvStep_peerDeviceDestroyed (peers : List WaitPeer) (ctx : DrbdCfgContext) :
    recvStep cm peers (.message (.peerDeviceDestroyed ctx)) = (.waiting, peers) := by
  cases had : cm.admits ctx <;> simp [recvStep, Message.ctx, had, waitForFamily]

theorem recvStep_other (peers : List WaitPeer) :
    recvStep cm peers (.message .other) = (.waiting, peers) := by
  simp [recvStep, Message.ctx, waitForFamily]

/-- What one step does to the list and to what it knows. -/
theorem Tracks.step {s : State} {i : Input} (h : Tracks cm s.peers s.world)
    (hpos : Possible s i) (hmeets : Meets cm s i) (hout : (s.step cm i).outcome = .waiting) :
    Tracks cm (s.step cm i).peers (s.step cm i).world := by
  cases i with
  | pollTimeout elapsed => simp [State.step, recvStep] at hout
  | skipped elapsed => exact h.later elapsed
  | received elapsed =>
    simp only [State.step, recvStep, World.step]
    split
    · exact h.update elapsed
    · exact h.later elapsed
  | message m =>
    cases m with
    | connectionState nhType ctx state =>
      simp only [State.step, recvStep_connectionState, World.step]
      exact ⟨h.ne_nil, h.listed, h.awaited⟩
    | peerDeviceState created ctx info =>
      simp only [State.step, recvStep_peerDeviceState, World.step]
      cases had : cm.admits ctx with
      | true => exact h.notePeerDevice hpos
      | false => exact h.notePeerDevice_other had
    | peerDeviceDestroyed ctx =>
      simp only [State.step, recvStep_peerDeviceDestroyed, World.step]
      exact h.destroyed hmeets
    | other =>
      simp only [State.step, recvStep_other, World.step]
      exact h
    | failed => simp [State.step, recvStep] at hout

/-! ## The verdicts -/

/-- A listed peer device that is done. -/
theorem Tracks.ended {peers : List WaitPeer} {w : World} (h : Tracks cm peers w)
    (hcreated : CreatedFinished cm w) {q : WorldPeer} (hq : q ∈ w.peers)
    (had : cm.admits q.ctx = true)
    (hdone : ∀ p ∈ peers, cm.counts p = true → cm.done p = true) :
    cm.finished q.replState = true ∨ q.RanOut w.elapsed := by
  obtain ⟨p, hp, hctx, hrs, hleft⟩ := h.listed q hq had
  have hcounts : cm.counts p = true := counts_of_admits (by rwa [admits_congr cm hctx])
  have hd := hdone p hp hcounts
  simp only [WaitCmd.done, Bool.or_eq_true, decide_eq_true_eq, hrs] at hd
  rcases hd with hd | hd
  · exact Or.inl hd
  · cases hfin : cm.finished q.replState with
    | true => exact Or.inl rfl
    | false =>
      refine Or.inr (hleft.ranOut (fun hnone => ?_) (by omega) (by omega))
      simp [hcreated q hq had hnone] at hfin

/-- The poll times out. -/
theorem endsRight_pollTimeout {s : State} {elapsed : Nat} (h : Tracks cm s.peers s.world)
    (hpos : Possible s (.pollTimeout elapsed)) (hmeets : Meets cm s (.pollTimeout elapsed)) :
    EndsRight cm (s.step cm (.pollTimeout elapsed)) := by
  intro q hq had hfin
  obtain ⟨p, hp, hctx, -, hleft⟩ := h.listed q hq had
  obtain ⟨hne, hle⟩ := hmeets.2 q hq had hfin p hp hctx
  obtain ⟨hshort, helapsed⟩ := hpos
  obtain ⟨p', hp', hpos', hp's⟩ := shortestTimeout_mem h.ne_nil hshort
  have := hle p' hp' hpos'
  refine hleft.ranOut (fun hnone => ?_) hne ?_
  · simp [hmeets.1 q hq had hnone] at hfin
  · simp only [State.step, World.step]
    omega

/-- All times are over when a datagram comes. -/
theorem endsRight_received {s : State} {elapsed : Nat} (h : Tracks cm s.peers s.world)
    (hmeets : Meets cm s (.received elapsed))
    (hout : (s.step cm (.received elapsed)).outcome = .timeout) :
    EndsRight cm (s.step cm (.received elapsed)) := by
  have hexit : shortestTimeout s.peers ≠ -1 ∧ (updateTimeouts elapsed s.peers).2 = true := by
    simp only [State.step, recvStep] at hout
    split at hout
    · exact ⟨‹_›, by simpa using hout⟩
    · simp at hout
  have hzero : ∀ p ∈ s.peers, (updateTimeout elapsed p).timeoutMs = 0 := by
    simpa [updateTimeouts] using hexit.2
  have hcreated : CreatedFinished cm s.world := by
    obtain ⟨p, hp, hpos, -⟩ := shortestTimeout_mem h.ne_nil hexit.1
    exact hmeets ⟨p, hp, hpos⟩ fun p hp => updateTimeout_eq_zero_iff.1 (hzero p hp)
  have hdone : ∀ p ∈ (updateTimeouts elapsed s.peers).1, cm.counts p = true →
      cm.done p = true := by
    intro p hp _
    obtain ⟨p', hp', rfl⟩ := List.mem_map.1 hp
    simp [WaitCmd.done, hzero p' hp']
  simp only [EndsRight, hout]
  intro q hq had hfin
  rcases (h.update elapsed).ended hcreated hq had hdone with hfin' | hran
  · simp [hfin] at hfin'
  · exact hran

/-- A message ends the waiting. -/
theorem endsRight_message {s : State} {m : Message} (h : Tracks cm s.peers s.world)
    (hpos : Possible s (.message m)) (hmeets : Meets cm s (.message m))
    (hout : (s.step cm (.message m)).outcome = .done) :
    EndsRight cm (s.step cm (.message m)) := by
  simp only [EndsRight, hout]
  cases m with
  | connectionState nhType ctx state =>
    refine Or.inl ?_
    simp only [State.step, recvStep_connectionState] at hout
    split at hout
    · simp_all [State.step, World.step]
    · simp at hout
  | peerDeviceState created ctx info =>
    refine Or.inr fun q hq had => ?_
    simp only [State.step, recvStep_peerDeviceState] at hout
    split at hout
    · rename_i hadm
      split at hout
      · rename_i hdone
        refine (h.notePeerDevice hpos).ended (hmeets hadm fun p hp hc => ?_) hq had hdone
        refine hdone _ (notePeerDevice_of_mem hp) ?_
        split <;> exact hc
      · simp at hout
    · simp at hout
  | peerDeviceDestroyed ctx => simp [State.step, recvStep_peerDeviceDestroyed] at hout
  | other => simp [State.step, recvStep_other] at hout
  | failed => simp [State.step, recvStep] at hout

theorem message_ne_timeout (s : State) (m : Message) :
    (s.step cm (.message m)).outcome ≠ .timeout := by
  cases m with
  | connectionState nhType ctx state =>
    simp only [State.step, recvStep_connectionState]
    split <;> simp
  | peerDeviceState created ctx info =>
    simp only [State.step, recvStep_peerDeviceState]
    split
    · dsimp only
      split <;> simp
    · simp
  | peerDeviceDestroyed ctx => simp [State.step, recvStep_peerDeviceDestroyed]
  | other => simp [State.step, recvStep_other]
  | failed => simp [State.step, recvStep]

theorem received_ne_done (s : State) (elapsed : Nat) :
    (s.step cm (.received elapsed)).outcome ≠ .done := by
  simp only [State.step, recvStep]
  split
  · dsimp only
    split <;> simp
  · simp

theorem Tracks.endsRight {s : State} (h : Tracks cm s.peers s.world)
    (hout : s.outcome = .waiting) : EndsRight cm s := by
  simp only [EndsRight, hout]
  exact h.awaited

/-- A step that goes right ends right, if it ends. -/
theorem Tracks.step_endsRight {s : State} {i : Input} (h : Tracks cm s.peers s.world)
    (hpos : Possible s i) (hmeets : Meets cm s i) : EndsRight cm (s.step cm i) := by
  cases hout : (s.step cm i).outcome with
  | waiting => exact (h.step hpos hmeets hout).endsRight hout
  | failed => simp [EndsRight, hout]
  | timeout =>
    cases i with
    | pollTimeout elapsed => exact endsRight_pollTimeout h hpos hmeets
    | skipped elapsed => simp [State.step, recvStep] at hout
    | received elapsed => exact endsRight_received h hmeets hout
    | message m => exact absurd hout (message_ne_timeout s m)
  | done =>
    cases i with
    | pollTimeout elapsed => simp [State.step, recvStep] at hout
    | skipped elapsed => simp [State.step, recvStep] at hout
    | received elapsed => exact absurd hout (received_ne_done s elapsed)
    | message m => exact endsRight_message h hpos hmeets hout

/-- The program ends for the right reason when every step goes right. -/
theorem run_endsRight {initial : List WaitPeer} (hinit : Initial initial) {s : State}
    (hrun : Run cm initial (Meets cm) s) : EndsRight cm s := by
  suffices h : EndsRight cm s ∧ (s.outcome = .waiting → Tracks cm s.peers s.world) from h.1
  induction hrun with
  | start => exact ⟨(tracks_start hinit).endsRight rfl, fun _ => tracks_start hinit⟩
  | step _ hwait hpos hmeets ih =>
    have htracks := ih.2 hwait
    exact ⟨htracks.step_endsRight hpos hmeets, htracks.step hpos hmeets⟩

end Tracking

/-! ## Two peer devices -/

/-- Two peer devices of one resource that are not connected. -/
def twoPeers (timeoutMs timeoutMs' : Int) : List WaitPeer :=
  [⟨{ ctxResourceName := "r0", ctxVolume := 0, ctxPeerNodeId := 1 }, {}, timeoutMs⟩,
    ⟨{ ctxResourceName := "r0", ctxVolume := 0, ctxPeerNodeId := 2 }, {}, timeoutMs'⟩]

def waitConnectResource : WaitCmd where
  ctxKey := .resource
  objname := "r0"
  waitConnect := true

theorem run_endsRight_twoPeers :
    EndsRight waitConnectResource
      ((start (twoPeers 1000 1000)).step waitConnectResource (.pollTimeout 1000)) :=
  run_endsRight (show Initial (twoPeers 1000 1000) from ⟨by simp [twoPeers], by simp [twoPeers]⟩)
    (.step .start rfl (by simp [Possible, start, twoPeers, shortestTimeout]) (by
      refine ⟨by simp [CreatedFinished, start, twoPeers], fun q _ _ _ p hp _ => ?_⟩
      have hp : p.timeoutMs = 1000 := by
        simp [start, twoPeers] at hp
        rcases hp with rfl | rfl <;> rfl
      simp [hp, start, twoPeers]))

/-- The second peer device has four seconds left when the program reports a timeout. -/
theorem timeout_beforeTheLast :
    ∃ s, Run waitConnectResource (twoPeers 1000 5000) (fun _ _ => True) s ∧
      ¬EndsRight waitConnectResource s := by
  refine ⟨_, .step .start rfl (i := .pollTimeout 1000)
    (by simp [Possible, start, twoPeers, shortestTimeout]) trivial, fun h => ?_⟩
  have := h ⟨{ ctxResourceName := "r0", ctxVolume := 0, ctxPeerNodeId := 2 }, some 5000, .off⟩
    (by simp [State.step, World.step, start, twoPeers])
    (by simp [WaitCmd.admits, waitConnectResource])
    (by simp [WaitCmd.finished])
  simp [WorldPeer.RanOut, State.step, World.step, start] at this

end DrbdUtils.Setup
