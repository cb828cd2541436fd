import DrbdUtils.Adm.Adjust

/-!
# Replacing peers with drbdadm adjust

`adjust_net()` threads one chain of dependencies through the connections: every `connect` and every
`wait-connect` is a link of it, and the `del-peer` commands of peers that are no longer configured
come at its end.  The stage of `del-peer` is before the one of `connect`, so that only the chain
keeps it back, and `cancel_deferred_waits()` marks links of the chain as done.

* `adjustConn_inv` — what the passes over the connections build.
* `adjustGone_inv` — the end of the chain.
* `adjust_keeps_connected_iff` — in every run `del-peer` comes after `connect` and `wait-connect`
  if and only if some connection was Connected, or no peer is new, or none is gone.
-/

set_option autoImplicit false

namespace DrbdUtils.Adm

/-! ## The chain -/

/-- A `connect` or a `wait-connect`. -/
def IsLink (d : DeferredCmd CmdCtx) : Prop := d.cmd.cmd = .connect ∨ d.cmd.cmd = .waitCAdj

/-- A command for a connection of the configured resource. -/
def IsOwn (res : Nat) (d : DeferredCmd CmdCtx) : Prop :=
  d.res = res ∧ d.stage = d.cmd.cmd.stage ∧ d.cmd.cmd.isVolume = false

/-- A command of the configured resource that is no link. -/
def IsPlain (res : Nat) (d : DeferredCmd CmdCtx) : Prop := IsOwn res d ∧ ¬IsLink d

theorem IsSide.plain {res : Nat} {d : DeferredCmd CmdCtx} (h : IsSide res d) : IsPlain res d := by
  refine ⟨⟨h.1, h.2.1, ?_⟩, ?_⟩
  · have := h.2.2
    simp only [List.mem_cons, List.not_mem_nil, or_false] at this
    rcases this with hc | hc | hc | hc | hc <;> rw [hc] <;> rfl
  rintro (hl | hl)
  · have := h.2.2
    rw [hl] at this
    simp at this
  · have := h.2.2
    rw [hl] at this
    simp at this

section Chain

variable {res : Resource} {s₀ : Sched CmdCtx} {st m : NetState}

/-- What holds at every point of `adjust_conn`: the end of the chain follows every link. -/
structure ChainInv (res : Nat) (s₀ : Sched CmdCtx) (s : Sched CmdCtx) (dcmd : Option Nat) : Prop where
  grows : Grows (IsOwn res) s₀ s
  valid : ValidDep s dcmd
  follows : ∀ (i : Nat) (d : DeferredCmd CmdCtx), s₀.cmds.length ≤ i → s.cmds[i]? = some d → IsLink d →
    ∃ k, dcmd = some k ∧ Follows s.cmds k i

theorem ChainInv.side {s s' : Sched CmdCtx} {dcmd : Option Nat} (h : ChainInv res.id s₀ s dcmd)
    (hg : Grows (IsSide res.id) s s') : ChainInv res.id s₀ s' dcmd := by
  refine ⟨h.grows.trans (hg.mono fun d hd => hd.plain.1), hg.validDep h.valid, fun i d hi hd hl => ?_⟩
  rcases hg.cases hd with hd | ⟨_, hs⟩
  · obtain ⟨k, hk, hf⟩ := h.follows i d hi hd hl
    exact ⟨k, hk, hg.follows hf⟩
  · exact absurd hl hs.plain.2

theorem chain_cmds (st : NetState) (id : Nat) (ctx : CmdCtx) :
    (st.chain id ctx).sched.cmds = st.sched.cmds ++ [⟨ctx, id, ctx.cmd.stage, st.dcmd⟩] :=
  adjSchedule_cmds

theorem chain_dcmd (st : NetState) (id : Nat) (ctx : CmdCtx) :
    (st.chain id ctx).dcmd = some st.sched.cmds.length := adjSchedule_snd

theorem chain_getElem? (st : NetState) (id : Nat) (ctx : CmdCtx) :
    (st.chain id ctx).sched.cmds[st.sched.cmds.length]? = some ⟨ctx, id, ctx.cmd.stage, st.dcmd⟩ := by
  rw [chain_cmds]
  simp

/-- The new end of the chain follows the old one, and with it every link. -/
theorem ChainInv.chain (h : ChainInv res.id s₀ st.sched st.dcmd) {ctx : CmdCtx}
    (hc : ctx.cmd.isVolume = false) :
    ChainInv res.id s₀ (st.chain res.id ctx).sched (st.chain res.id ctx).dcmd := by
  have hg : Grows (IsOwn res.id) st.sched (st.chain res.id ctx).sched :=
    adjSchedule_grows ⟨rfl, rfl, hc⟩ h.valid
  refine ⟨h.grows.trans hg, adjSchedule_valid, fun i d hi hd hl => ?_⟩
  refine ⟨_, chain_dcmd st res.id ctx, ?_⟩
  rw [chain_cmds] at hd
  rcases getElem?_append_singleton.1 hd with hd | ⟨rfl, _⟩
  · obtain ⟨k, hk, hf⟩ := h.follows i d hi hd hl
    exact .step (chain_getElem? st res.id ctx) hk (hg.follows hf)
  · exact .refl _

/-! ## Rounds -/

/-- What holds between the rounds of `adjust_conn`. -/
structure RoundInv (res : Resource) (running : List Connection) (s₀ : Sched CmdCtx)
    (dcmd₀ : Option Nat) (st : NetState) : Prop where
  chain : ChainInv res.id s₀ st.sched st.dcmd
  last : st.dcmd = dcmd₀ ∨ ∃ k d, st.dcmd = some k ∧ s₀.cmds.length ≤ k ∧
    st.sched.cmds[k]? = some d ∧ d.cmd.cmd = .waitCAdj
  waited : ∀ (i : Nat) (d : DeferredCmd CmdCtx), s₀.cmds.length ≤ i → st.sched.cmds[i]? = some d →
    d.cmd.cmd = .connect → ∃ j d', s₀.cmds.length ≤ j ∧ st.sched.cmds[j]? = some d' ∧
      d'.cmd.cmd = .waitCAdj ∧ d'.cmd.conn = d.cmd.conn
  covered : ∀ x ∈ res.connections.zipIdx, st.adjSeen x.2 = true →
    matchingConn x.1 running false = none → ∃ i d, s₀.cmds.length ≤ i ∧
      st.sched.cmds[i]? = some d ∧ d.cmd.cmd = .connect ∧ d.cmd.conn = some ⟨false, x.2⟩

/-- A point inside a round: only commands that are no links were added since its begin. -/
structure MidRound (res : Resource) (s₀ : Sched CmdCtx) (st m : NetState) : Prop where
  chain : ChainInv res.id s₀ m.sched m.dcmd
  plain : Grows (IsPlain res.id) st.sched m.sched
  seen : m.adjSeen = st.adjSeen

theorem MidRound.side (h : MidRound res s₀ st m) {s' : Sched CmdCtx}
    (hg : Grows (IsSide res.id) m.sched s') (b : Bool) :
    MidRound res s₀ st { m with sched := s', disconnect := b } :=
  ⟨h.chain.side hg, h.plain.trans (hg.mono fun _ => IsSide.plain), h.seen⟩

theorem MidRound.link (h : MidRound res s₀ st m) {ctx : CmdCtx}
    (hp : ctx.cmd ≠ .connect ∧ ctx.cmd ≠ .waitCAdj ∧ ctx.cmd.isVolume = false) :
    MidRound res s₀ st (m.chain res.id ctx) := by
  refine ⟨h.chain.chain hp.2.2, h.plain.trans ?_, h.seen⟩
  exact adjSchedule_grows ⟨⟨rfl, rfl, hp.2.2⟩, fun hl => hl.elim hp.1 hp.2.1⟩ h.chain.valid

variable {running : List Connection} {dcmd₀ : Option Nat}

theorem RoundInv.midRound (h : RoundInv res running s₀ dcmd₀ st) : MidRound res s₀ st st :=
  ⟨h.chain, .refl _, rfl⟩

/-- A round that does not connect leaves the chain alone. -/
theorem RoundInv.not_connected (h : RoundInv res running s₀ dcmd₀ st) (hm : MidRound res s₀ st m)
    (hdcmd : m.dcmd = st.dcmd) {idx : Nat}
    (hmatch : ∀ x ∈ res.connections.zipIdx, x.2 = idx → matchingConn x.1 running false ≠ none) :
    RoundInv res running s₀ dcmd₀ (m.seen res idx false) := by
  unfold NetState.seen
  dsimp only
  rw [if_neg (by simp)]
  refine ⟨hm.chain, ?_, fun i d hi hd hc => ?_, fun x hx hs hnone => ?_⟩
  · refine h.last.imp (fun hd => hdcmd.trans hd) ?_
    rintro ⟨k, d, hk, hle, hd, hw⟩
    exact ⟨k, d, hdcmd.trans hk, hle, hm.plain.getElem? hd, hw⟩
  · rcases hm.plain.cases hd with hd | ⟨_, hp⟩
    · obtain ⟨j, d', hj, hd', hrest⟩ := h.waited i d hi hd hc
      exact ⟨j, d', hj, hm.plain.getElem? hd', hrest⟩
    · exact absurd (.inl hc) hp.2
  · by_cases hidx : x.2 = idx
    · exact absurd hnone (hmatch x hx hidx)
    · have hs' : st.adjSeen x.2 = true := by
        rw [← hm.seen]
        simpa [Function.update_of_ne hidx] using hs
      obtain ⟨i, d, hi, hd, hrest⟩ := h.covered x hx hs' hnone
      exact ⟨i, d, hi, hm.plain.getElem? hd, hrest⟩

/-- A round that connects ends the chain with a `wait-connect`. -/
theorem RoundInv.connected (h : RoundInv res running s₀ dcmd₀ st) (hm : MidRound res s₀ st m)
    (idx : Nat) : RoundInv res running s₀ dcmd₀ (m.seen res idx true) := by
  unfold NetState.seen
  dsimp only
  rw [if_pos rfl]
  generalize hm' : ({ m with adjSeen := Function.update m.adjSeen idx true } : NetState) = m'
  have hms : m'.sched = m.sched := by rw [← hm']
  have hmd : m'.dcmd = m.dcmd := by rw [← hm']
  have hchain : ChainInv res.id s₀ m'.sched m'.dcmd := by rw [hms, hmd]; exact hm.chain
  generalize hc : (⟨.connect, none, some ⟨false, idx⟩, none⟩ : CmdCtx) = connect
  generalize hw : (⟨.waitCAdj, none, some ⟨false, idx⟩, none⟩ : CmdCtx) = wait
  have hcv : connect.cmd.isVolume = false := by rw [← hc]; rfl
  have hwv : wait.cmd.isVolume = false := by rw [← hw]; rfl
  have h1 := hchain.chain hcv
  have h2 := h1.chain hwv
  have hg1 : Grows (IsOwn res.id) m'.sched (m'.chain res.id connect).sched :=
    adjSchedule_grows ⟨rfl, rfl, hcv⟩ hchain.valid
  have hg2 : Grows (IsOwn res.id) (m'.chain res.id connect).sched
      ((m'.chain res.id connect).chain res.id wait).sched := adjSchedule_grows ⟨rfl, rfl, hwv⟩ h1.valid
  have hlen : s₀.cmds.length ≤ m'.sched.cmds.length := hchain.grows.length_le
  have hlen1 : s₀.cmds.length ≤ (m'.chain res.id connect).sched.cmds.length := h1.grows.length_le
  have hwait := chain_getElem? (m'.chain res.id connect) res.id wait
  have hconn := hg2.getElem? (chain_getElem? m' res.id connect)
  refine ⟨h2, .inr ⟨_, _, chain_dcmd _ _ _, hlen1, hwait, by rw [← hw]⟩, fun i d hi hd hcmd => ?_,
    fun x hx hs hnone => ?_⟩
  · rw [chain_cmds] at hd
    rcases getElem?_append_singleton.1 hd with hd | ⟨_, rfl⟩
    · rw [chain_cmds] at hd
      rcases getElem?_append_singleton.1 hd with hd | ⟨_, rfl⟩
      · rw [hms] at hd
        rcases hm.plain.cases hd with hd | ⟨_, hp⟩
        · obtain ⟨j, d', hj, hd', hrest⟩ := h.waited i d hi hd hcmd
          refine ⟨j, d', hj, hg2.getElem? (hg1.getElem? ?_), hrest⟩
          rw [hms]
          exact hm.plain.getElem? hd'
        · exact absurd (.inl hcmd) hp.2
      · exact ⟨_, _, hlen1, hwait, by rw [← hw], by rw [← hw, ← hc]⟩
    · rw [← hw] at hcmd
      cases hcmd
  · by_cases hidx : x.2 = idx
    · exact ⟨_, _, hlen, hconn, by rw [← hc], by rw [← hc, hidx]⟩
    · have hs' : st.adjSeen x.2 = true := by
        rw [← hm.seen]
        have hs'' : m'.adjSeen x.2 = true := hs
        rw [← hm'] at hs''
        simpa [Function.update_of_ne hidx] using hs''
      obtain ⟨i, d, hi, hd, hrest⟩ := h.covered x hx hs' hnone
      refine ⟨i, d, hi, hg2.getElem? (hg1.getElem? ?_), hrest⟩
      rw [hms]
      exact hm.plain.getElem? hd

end Chain

/-! ## Passes -/

section Pass

variable {res : Resource} {s₀ : Sched CmdCtx} {running : List Connection} {dcmd₀ : Option Nat}
  {st : NetState}

theorem adjustNewConn_inv (h : RoundInv res running s₀ dcmd₀ st) (vols : List AdjVolume)
    (conn : Connection) (idx : Nat) :
    RoundInv res running s₀ dcmd₀ (adjustNewConn res vols st conn idx) := by
  unfold adjustNewConn
  dsimp only
  refine h.connected ?_ idx
  have h1 : MidRound res s₀ st (st.chain res.id { cmd := .newPeer, conn := some ⟨false, idx⟩ }) :=
    h.midRound.link (by simp [AdmCmd.isVolume])
  have hpath : Grows (IsSide res.id) _ (adjSchedule _ res.id
      { cmd := .newPath, conn := some ⟨false, idx⟩ } _).1 :=
    adjSchedule_grows ⟨rfl, rfl, by simp⟩ h1.chain.valid
  have h2 := h1.side hpath st.disconnect
  exact h2.side (schedulePeerDeviceOptionsOfConn_grows vols conn idx h2.chain.valid) st.disconnect

theorem adjustRunningConn_inv (h : RoundInv res running s₀ dcmd₀ st) (cmp : Compare)
    (vols : List AdjVolume) {conn : Connection} {idx : Nat} (runningConn : Connection)
    (hmatch : ∀ x ∈ res.connections.zipIdx, x.2 = idx → matchingConn x.1 running false ≠ none) :
    RoundInv res running s₀ dcmd₀ (adjustRunningConn cmp res vols st conn idx runningConn) := by
  unfold adjustRunningConn
  dsimp only
  split
  · refine h.connected ?_ idx
    have h1 : MidRound res s₀ st (st.chain res.id { cmd := .delPeer, conn := some ⟨false, idx⟩ }) :=
      h.midRound.link (by simp [AdmCmd.isVolume])
    have h2 : MidRound res s₀ st ((st.chain res.id { cmd := .delPeer, conn := some ⟨false, idx⟩ }).chain
        res.id { cmd := .newPeer, conn := some ⟨false, idx⟩ }) := h1.link (by simp [AdmCmd.isVolume])
    have h3 := h2.side (schedulePeerDeviceOptionsOfConn_grows vols conn idx h2.chain.valid) true
    have h4 := h3.side (adjustPeerDevices_grows cmp conn idx runningConn h3.chain.valid) true
    exact h4.link (by simp [AdmCmd.isVolume])
  · -- the options are changed, then peer devices and paths; the chain is left alone
    have h1 : ∀ equal : Bool, MidRound res s₀ st (if equal = true then st else { st with
        sched := (adjSchedule st.sched res.id
          { cmd := .netOptionsDefaults, conn := some ⟨false, idx⟩ } st.dcmd).1 }) := by
      intro equal
      cases equal with
      | true => exact h.midRound
      | false =>
        exact h.midRound.side (adjSchedule_grows ⟨rfl, rfl, by simp⟩ h.chain.valid) st.disconnect
    have hd : ∀ equal : Bool, (if equal = true then st else { st with
        sched := (adjSchedule st.sched res.id
          { cmd := .netOptionsDefaults, conn := some ⟨false, idx⟩ } st.dcmd).1 }).dcmd = st.dcmd := by
      intro equal
      cases equal <;> rfl
    have h2 := (h1 (optsEqual cmp .net conn.netOptions runningConn.netOptions).1)
    have hd2 := (hd (optsEqual cmp .net conn.netOptions runningConn.netOptions).1)
    generalize (if (optsEqual cmp .net conn.netOptions runningConn.netOptions).1 = true then st
      else { st with sched := (adjSchedule st.sched res.id
          { cmd := .netOptionsDefaults, conn := some ⟨false, idx⟩ } st.dcmd).1 }) = m at h2 hd2 ⊢
    have h3 := h2.side (adjustPeerDevices_grows cmp conn idx runningConn h2.chain.valid) m.disconnect
    have h4 := h3.side (adjustPaths_grows cmp conn idx runningConn h3.chain.valid) (m.disconnect ||
      (adjustPaths cmp res conn idx runningConn
        (adjustPeerDevices cmp res conn idx runningConn m.sched m.dcmd) m.dcmd).2)
    cases hc : (decide (runningConn.cstate = .standAlone) || (adjustPaths cmp res conn idx runningConn
        (adjustPeerDevices cmp res conn idx runningConn m.sched m.dcmd) m.dcmd).2) with
    | true => exact h.connected h4 idx
    | false => exact h.not_connected h4 hd2 hmatch

theorem zipIdx_unique {α : Type} {l : List α} {x y : α × Nat} (hx : x ∈ l.zipIdx) (hy : y ∈ l.zipIdx)
    (h : x.2 = y.2) : x = y := by
  have hx' := List.mem_zipIdx_iff_getElem?.1 hx
  have hy' := List.mem_zipIdx_iff_getElem?.1 hy
  rw [h] at hx'
  exact Prod.ext (Option.some.inj (hx'.symm.trans hy')) h

theorem adjustConnStep_inv (h : RoundInv res running s₀ dcmd₀ st) (cmp : Compare)
    (vols : List AdjVolume) (maxCstate : ConnState) {x : Connection × Nat}
    (hx : x ∈ res.connections.zipIdx) :
    RoundInv res running s₀ dcmd₀ (adjustConnStep cmp res vols running maxCstate st x) := by
  unfold adjustConnStep
  split
  · exact h
  split
  · exact adjustNewConn_inv h vols x.1 x.2
  · rename_i runningConn hmatch
    split
    · exact h
    · refine adjustRunningConn_inv h cmp vols runningConn fun y hy hidx => ?_
      rw [zipIdx_unique hy hx hidx, hmatch]
      exact Option.some_ne_none _

theorem foldl_adjustConnStep_inv (cmp : Compare) (vols : List AdjVolume) (maxCstate : ConnState)
    (h : RoundInv res running s₀ dcmd₀ st) {l : List (Connection × Nat)}
    (hl : ∀ x ∈ l, x ∈ res.connections.zipIdx) :
    RoundInv res running s₀ dcmd₀ (l.foldl (adjustConnStep cmp res vols running maxCstate) st) := by
  induction l generalizing st with
  | nil => exact h
  | cons x l ih =>
    exact ih (adjustConnStep_inv h cmp vols maxCstate (hl x List.mem_cons_self))
      fun y hy => hl y (List.mem_cons_of_mem _ hy)

/-- **Both passes keep the chain.** -/
theorem adjustConn_inv (cmp : Compare) (vols : List AdjVolume) (maxCstate : ConnState)
    (h : RoundInv res running s₀ dcmd₀ st) :
    RoundInv res running s₀ dcmd₀ (adjustConn cmp res vols running maxCstate st) :=
  foldl_adjustConnStep_inv cmp vols maxCstate h fun _ hx => hx

theorem seen_adjSeen (st : NetState) (res : Resource) (idx : Nat) (b : Bool) :
    (st.seen res idx b).adjSeen = Function.update st.adjSeen idx true := by
  unfold NetState.seen
  cases b <;> rfl

/-- A connection that was seen stays so, and a new one is seen in its round. -/
theorem adjustConnStep_adjSeen (cmp : Compare) (vols : List AdjVolume) (maxCstate : ConnState)
    (st : NetState) (x : Connection × Nat) :
    (∀ i, st.adjSeen i = true →
      (adjustConnStep cmp res vols running maxCstate st x).adjSeen i = true) ∧
    (x.1.ignore = false → matchingConn x.1 running false = none →
      (adjustConnStep cmp res vols running maxCstate st x).adjSeen x.2 = true) := by
  have hupd : ∀ (f : Nat → Bool) (i : Nat), f i = true → Function.update f x.2 true i = true := by
    intro f i hi
    by_cases hix : i = x.2
    · rw [hix, Function.update_self]
    · rw [Function.update_of_ne hix]
      exact hi
  unfold adjustConnStep
  split
  · rename_i hc
    refine ⟨fun i hi => hi, fun hig _ => ?_⟩
    rw [hig] at hc
    simpa using hc
  split
  · have hs : (adjustNewConn res vols st x.1 x.2).adjSeen = Function.update st.adjSeen x.2 true :=
      seen_adjSeen _ _ _ _
    rw [hs]
    exact ⟨hupd _, fun _ _ => Function.update_self ..⟩
  · rename_i runningConn hmatch
    refine ⟨fun i hi => ?_, fun _ hnone => absurd (hmatch.symm.trans hnone) (Option.some_ne_none _)⟩
    split
    · exact hi
    · have hs : (adjustRunningConn cmp res vols st x.1 x.2 runningConn).adjSeen =
          Function.update st.adjSeen x.2 true := by
        unfold adjustRunningConn
        dsimp only
        split
        · exact seen_adjSeen _ _ _ _
        · rw [seen_adjSeen]
          dsimp only
          split <;> rfl
      rw [hs]
      exact hupd _ i hi

theorem adjustConn_adjSeen (cmp : Compare) (vols : List AdjVolume) (maxCstate : ConnState)
    (st : NetState) :
    (∀ i, st.adjSeen i = true → (adjustConn cmp res vols running maxCstate st).adjSeen i = true) ∧
    ∀ x ∈ res.connections.zipIdx, x.1.ignore = false → matchingConn x.1 running false = none →
      (adjustConn cmp res vols running maxCstate st).adjSeen x.2 = true := by
  unfold adjustConn
  induction res.connections.zipIdx generalizing st with
  | nil => exact ⟨fun i hi => hi, fun x hx => by cases hx⟩
  | cons y l ih =>
    obtain ⟨h1, h2⟩ := adjustConnStep_adjSeen cmp vols maxCstate st y
    obtain ⟨g1, g2⟩ := ih (adjustConnStep cmp res vols running maxCstate st y)
    refine ⟨fun i hi => g1 i (h1 i hi), fun x hx hig hnone => ?_⟩
    rcases List.mem_cons.1 hx with rfl | hx
    · exact g1 _ (h2 hig hnone)
    · exact g2 x hx hig hnone

end Pass

/-! ## Peers that are gone -/

section Gone

variable {res running : Resource} {st₁ st : NetState}

/-- A `del-peer` of the running resource. -/
def IsGone (running : Nat) (d : DeferredCmd CmdCtx) : Prop :=
  d.res = running ∧ d.cmd.cmd = .delPeer ∧ d.stage = .netPrepDown

/-- What holds in the loop over the running connections: the commands that were added since its
    begin form the end of the chain. -/
structure GoneInv (running : Nat) (st₁ st : NetState) : Prop where
  grows : Grows (IsGone running) st₁.sched st.sched
  valid : ValidDep st.sched st.dcmd
  dcmd : st.dcmd = if st.sched.cmds.length = st₁.sched.cmds.length then st₁.dcmd
    else some (st.sched.cmds.length - 1)
  deps : ∀ (i : Nat) (d : DeferredCmd CmdCtx), st₁.sched.cmds.length ≤ i → st.sched.cmds[i]? = some d →
    d.dependsOn = if i = st₁.sched.cmds.length then st₁.dcmd else some (i - 1)
  disconnect : st.sched.cmds.length ≠ st₁.sched.cmds.length → st.disconnect = true

theorem GoneInv.chain (h : GoneInv running.id st₁ st) (ref : ConnRef) :
    GoneInv running.id st₁
      { st.chain running.id { cmd := .delPeer, conn := some ref } with disconnect := true } := by
  have hg : Grows (IsGone running.id) st.sched
      (st.chain running.id { cmd := .delPeer, conn := some ref }).sched :=
    adjSchedule_grows ⟨rfl, rfl, rfl⟩ h.valid
  have hle := h.grows.length_le
  have hlen : (st.chain running.id { cmd := .delPeer, conn := some ref }).sched.cmds.length =
      st.sched.cmds.length + 1 := by
    rw [chain_cmds, List.length_append, List.length_singleton]
  refine ⟨h.grows.trans hg, adjSchedule_valid, ?_, fun i d hi hd => ?_, fun _ => rfl⟩
  · rw [if_neg (by rw [hlen]; omega)]
    show (st.chain running.id { cmd := .delPeer, conn := some ref }).dcmd = _
    rw [chain_dcmd, hlen, Nat.add_sub_cancel]
  · change (st.chain running.id { cmd := .delPeer, conn := some ref }).sched.cmds[i]? = some d at hd
    rw [chain_cmds] at hd
    rcases getElem?_append_singleton.1 hd with hd | ⟨rfl, rfl⟩
    · exact h.deps i d hi hd
    · exact h.dcmd

theorem adjustGone_inv (hv : ValidDep st₁.sched st₁.dcmd) :
    GoneInv running.id st₁ (adjustGone res running st₁) := by
  have h₁ : GoneInv running.id st₁ st₁ := by
    refine ⟨.refl _, hv, by rw [if_pos rfl], fun i d hi hd => ?_, fun h => absurd rfl h⟩
    exact absurd (lt_of_getElem?_eq_some hd) (by omega)
  unfold adjustGone
  generalize running.connections.zipIdx = l
  have key : ∀ st, GoneInv running.id st₁ st →
      GoneInv running.id st₁ (l.foldl (adjustGoneStep res running) st) := by
    induction l with
    | nil => exact fun st h => h
    | cons x l ih =>
      intro st h
      rw [List.foldl_cons]
      refine ih _ ?_
      unfold adjustGoneStep
      split
      · exact h
      · exact h.chain _
  exact key st₁ h₁

/-- One `del-peer` is scheduled if there is a peer that is gone, and none otherwise. -/
theorem adjustGone_length (res running : Resource) (st₁ : NetState) :
    (adjustGone res running st₁).sched.cmds.length ≠ st₁.sched.cmds.length ↔
      ∃ c ∈ running.connections, matchingConn c res.connections true = none := by
  unfold adjustGone
  have key : ∀ (l : List (Connection × Nat)) (st : NetState),
      (l.foldl (adjustGoneStep res running) st).sched.cmds.length = st.sched.cmds.length +
        (l.filter fun x => (matchingConn x.1 res.connections true).isNone).length := by
    intro l
    induction l with
    | nil => exact fun st => rfl
    | cons x l ih =>
      intro st
      rw [List.foldl_cons, ih, List.filter_cons, adjustGoneStep]
      cases hm : matchingConn x.1 res.connections true with
      | some c => simp
      | none =>
        dsimp only
        rw [chain_cmds]
        simp
        omega
  rw [key]
  have hpos : ∀ n k : Nat, n + k ≠ n ↔ 0 < k := fun n k => by omega
  rw [hpos, List.length_pos_iff_exists_mem]
  constructor
  · rintro ⟨x, hx⟩
    rw [List.mem_filter, Option.isNone_iff_eq_none] at hx
    exact ⟨x.1, List.fst_mem_of_mem_zipIdx hx.1, hx.2⟩
  · rintro ⟨c, hc, hnone⟩
    obtain ⟨i, hi, rfl⟩ := List.getElem_of_mem hc
    refine ⟨(running.connections[i], i), List.mem_filter.2 ⟨?_, by rw [hnone]; rfl⟩⟩
    exact List.mem_zipIdx_iff_getElem?.2 (List.getElem?_eq_getElem hi)

/-- Everything at the end of the chain follows what the chain led to before. -/
theorem GoneInv.follows (h : GoneInv running.id st₁ st) {k : Nat} (hk : st₁.dcmd = some k) {i : Nat}
    (hi : st₁.sched.cmds.length ≤ i) (hlt : i < st.sched.cmds.length) : Follows st.sched.cmds i k := by
  induction i with
  | zero =>
    have hd := List.getElem?_eq_getElem hlt
    have := h.deps 0 _ hi hd
    rw [if_pos (by omega), hk] at this
    exact .step hd this (.refl k)
  | succ i ih =>
    have hd := List.getElem?_eq_getElem hlt
    have hdep := h.deps (i + 1) _ hi hd
    split at hdep
    · rw [hk] at hdep
      exact .step hd hdep (.refl k)
    · exact .step hd hdep (ih (by omega) (by omega))

end Gone

/-! ## Cancelled waits -/

section Cancel

variable {s : Sched CmdCtx}

theorem cancel_cmds (s : Sched CmdCtx) (i : Nat) : (s.cancel i).cmds = s.cmds := by
  unfold Sched.cancel
  split <;> rfl

theorem cancel_done (s : Sched CmdCtx) (i k : Nat) :
    (s.cancel i).done k = true ↔ s.done k = true ∨ k = i := by
  unfold Sched.cancel
  split
  · rename_i hi
    constructor
    · exact .inl
    · rintro (h | rfl)
      · exact h
      · exact hi
  · by_cases hk : k = i
    · subst hk
      simp
    · simp [hk]

/-- Waits of the resource are done afterwards, and nothing else is. -/
theorem cancelWaits_spec (hb : Built s) (res : Nat) :
    Built (s.cancelWaits res) ∧ (s.cancelWaits res).cmds = s.cmds ∧
      ∀ k, (s.cancelWaits res).done k = true ↔ s.done k = true ∨
        ∃ d, s.cmds[k]? = some d ∧ d.stage = .waitConnect ∧ d.res = res := by
  have key : ∀ (l : List Nat) (t : Sched CmdCtx), Built t → t.cmds = s.cmds →
      (∀ i ∈ l, i < s.cmds.length) →
      Built (l.foldl (fun t i => if (t.cmds[i]?).any (·.res = res) then t.cancel i else t) t) ∧
      (l.foldl (fun t i => if (t.cmds[i]?).any (·.res = res) then t.cancel i else t) t).cmds = s.cmds ∧
      ∀ k, (l.foldl (fun t i => if (t.cmds[i]?).any (·.res = res) then t.cancel i else t) t).done k =
        true ↔ t.done k = true ∨ k ∈ l ∧ (s.cmds[k]?).any (·.res = res) = true := by
    intro l
    induction l with
    | nil => exact fun t hb hc _ => ⟨hb, hc, fun k => by simp⟩
    | cons i l ih =>
      intro t hb hc hl
      rw [List.foldl_cons]
      have hl' : ∀ j ∈ l, j < s.cmds.length := fun j hj => hl j (List.mem_cons_of_mem _ hj)
      split
      · rename_i hres
        rw [hc] at hres
        obtain ⟨g1, g2, g3⟩ := ih (t.cancel i)
          (.cancel i hb (by rw [hc]; exact hl i List.mem_cons_self)) ((cancel_cmds t i).trans hc) hl'
        refine ⟨g1, g2, fun k => ?_⟩
        rw [g3, cancel_done, List.mem_cons]
        constructor
        · rintro ((h | rfl) | h)
          · exact .inl h
          · exact .inr ⟨.inl rfl, hres⟩
          · exact .inr ⟨.inr h.1, h.2⟩
        · rintro (h | ⟨rfl | h, hr⟩)
          · exact .inl (.inl h)
          · exact .inl (.inr rfl)
          · exact .inr ⟨h, hr⟩
      · rename_i hres
        rw [hc] at hres
        obtain ⟨g1, g2, g3⟩ := ih t hb hc hl'
        refine ⟨g1, g2, fun k => ?_⟩
        rw [g3, List.mem_cons]
        constructor
        · rintro (h | h)
          · exact .inl h
          · exact .inr ⟨.inr h.1, h.2⟩
        · rintro (h | ⟨rfl | h, hr⟩)
          · exact .inl h
          · exact absurd hr hres
          · exact .inr ⟨h, hr⟩
  have hq := hb.ready.queues .waitConnect
  obtain ⟨h1, h2, h3⟩ := key (s.deferredCmds .waitConnect) s hb rfl fun i hi => by
    obtain ⟨d, hd, _⟩ := (hq i).1 hi
    exact lt_of_getElem?_eq_some hd
  refine ⟨h1, h2, fun k => (h3 k).trans (or_congr_right ?_)⟩
  rw [hq]
  constructor
  · rintro ⟨⟨d, hd, hs⟩, hr⟩
    rw [hd] at hr
    exact ⟨d, hd, hs, by simpa using hr⟩
  · rintro ⟨d, hd, hs, hr⟩
    exact ⟨⟨d, hd, hs⟩, by rw [hd]; simpa using hr⟩

end Cancel

/-! ## Runs -/

/-- A configured peer that is not running. -/
def NewPeer (res : Resource) (running : List Connection) (x : Connection × Nat) : Prop :=
  x ∈ res.connections.zipIdx ∧ x.1.ignore = false ∧ matchingConn x.1 running false = none

/-- A running peer that is not configured. -/
def GonePeer (res : Resource) (running : List Connection) (c : Connection) : Prop :=
  c ∈ running ∧ matchingConn c res.connections true = none

def OneWasConnected (running : List Connection) : Prop := ∃ c ∈ running, c.cstate = .connected

/-- Before each `del-peer` of a peer that is gone there is a `connect` of every new peer, and, if
    some connection was Connected, a `wait-connect` of every connection that is connected. -/
def KeepsConnected (res : Resource) (running : Option Resource) (cmds : List (DeferredCmd CmdCtx))
    (ran : List Nat) : Prop :=
  ∀ r, running = some r → ∀ pre i post d, ran = pre ++ i :: post → cmds[i]? = some d → d.res = r.id →
    d.cmd.cmd = .delPeer →
    (∀ x, NewPeer res r.connections x → ∃ k ∈ pre, ∃ e, cmds[k]? = some e ∧ e.res = res.id ∧
      e.cmd.cmd = .connect ∧ e.cmd.conn = some ⟨false, x.2⟩) ∧
    (OneWasConnected r.connections → ∀ (j : Nat) (e : DeferredCmd CmdCtx), cmds[j]? = some e →
      e.res = res.id → e.cmd.cmd = .connect → ∃ k ∈ pre, ∃ f, cmds[k]? = some f ∧ f.res = res.id ∧
        f.cmd.cmd = .waitCAdj ∧ f.cmd.conn = e.cmd.conn)

section Net

variable {cmp : Compare} {res running : Resource} {vols : List AdjVolume} {s₀ : Sched CmdCtx}
  {dcmd₀ : Option Nat}

/-- What `adjust_net` leaves in the queues. -/
structure NetSpec (res running : Resource) (s₀ : Sched CmdCtx) (dcmd₀ : Option Nat) (s : Sched CmdCtx) :
    Prop where
  built : Built s
  /-- The states after the two passes and after the loop over the running connections. -/
  stages : ∃ st₁ st, RoundInv res running.connections s₀ dcmd₀ st₁ ∧ GoneInv running.id st₁ st ∧
    (∀ x, NewPeer res running.connections x → st₁.adjSeen x.2 = true) ∧
    (st.sched.cmds.length ≠ st₁.sched.cmds.length ↔ ∃ c, GonePeer res running.connections c) ∧
    s.cmds = st.sched.cmds ∧
    (OneWasConnected running.connections → st.sched.cmds.length ≠ st₁.sched.cmds.length →
      s.done = s₀.done) ∧
    (¬OneWasConnected running.connections → ∀ (k : Nat) (d : DeferredCmd CmdCtx),
      s.cmds[k]? = some d → d.stage = .waitConnect → d.res = res.id → s.done k = true) ∧
    ∀ (k : Nat) (d : DeferredCmd CmdCtx), s.cmds[k]? = some d → d.cmd.cmd ≠ .waitCAdj →
      d.stage ≠ .waitConnect → s.done k = s₀.done k

theorem oneWasConnected_iff (running : List Connection) :
    running.any (·.cstate = .connected) = true ↔ OneWasConnected running := by
  simp [OneWasConnected]

theorem adjustNet_spec (cmp : Compare) (vols : List AdjVolume) (hb : Built s₀) (hv : ValidDep s₀ dcmd₀) :
    NetSpec res running s₀ dcmd₀ (adjustNet cmp res vols (some running) s₀ dcmd₀) := by
  unfold adjustNet
  dsimp only [Option.elim]
  have h0 : RoundInv res running.connections s₀ dcmd₀ ⟨s₀, dcmd₀, false, fun _ => false⟩ := by
    refine ⟨⟨.refl _, hv, fun i d hi hd _ => ?_⟩, .inl rfl, fun i d hi hd _ => ?_,
      fun x _ hs => by cases hs⟩
    · exact absurd (lt_of_getElem?_eq_some hd) (by simpa using hi)
    · exact absurd (lt_of_getElem?_eq_some hd) (by simpa using hi)
  have h1 := adjustConn_inv cmp vols .connecting h0
  have hs1 := (@adjustConn_adjSeen res running.connections cmp vols .connecting
    ⟨s₀, dcmd₀, false, fun _ => false⟩).2
  generalize adjustConn cmp res vols running.connections .connecting
    ⟨s₀, dcmd₀, false, fun _ => false⟩ = m at h1 hs1 ⊢
  have h2 := adjustConn_inv cmp vols .connected h1
  have hs2 := (@adjustConn_adjSeen res running.connections cmp vols .connected m).1
  generalize adjustConn cmp res vols running.connections .connected m = st₁ at h2 hs2 ⊢
  have h3 : GoneInv running.id st₁ (adjustGone res running st₁) := adjustGone_inv h2.chain.valid
  have hlen := adjustGone_length res running st₁
  generalize adjustGone res running st₁ = st at h3 hlen ⊢
  have hbs : Built st.sched := h3.grows.built (h2.chain.grows.built hb)
  have hdone : st.sched.done = s₀.done := h3.grows.done.trans h2.chain.grows.done
  -- first the waits of the resource, then a final one
  generalize hw : (if (st.disconnect && running.connections.any (·.cstate = .connected)) = true then
    st.sched else st.sched.cancelWaits res.id) = t
  have htb : Built t ∧ t.cmds = st.sched.cmds := by
    rw [← hw]
    split
    · exact ⟨hbs, rfl⟩
    · exact ⟨(cancelWaits_spec hbs _).1, (cancelWaits_spec hbs _).2.1⟩
  have htd : OneWasConnected running.connections →
      st.sched.cmds.length ≠ st₁.sched.cmds.length → t.done = s₀.done := by
    intro ho hne
    rw [← hw, if_pos (by rw [h3.disconnect hne, (oneWasConnected_iff _).2 ho]; rfl), hdone]
  have htc : ¬OneWasConnected running.connections → ∀ (k : Nat) (d : DeferredCmd CmdCtx),
      t.cmds[k]? = some d → d.stage = .waitConnect → d.res = res.id → t.done k = true := by
    intro ho k d hd hst hr
    have hno : running.connections.any (·.cstate = .connected) = false := by
      rw [← Bool.not_eq_true, oneWasConnected_iff]
      exact ho
    rw [htb.2] at hd
    rw [← hw, if_neg (by rw [hno, Bool.and_false]; simp)]
    exact ((cancelWaits_spec hbs _).2.2 k).2 (.inr ⟨d, hd, hst, hr⟩)
  have htp : ∀ (k : Nat) (d : DeferredCmd CmdCtx), t.cmds[k]? = some d → d.stage ≠ .waitConnect →
      t.done k = s₀.done k := by
    intro k d hd hst
    rw [htb.2] at hd
    rw [← hdone, ← hw]
    split
    · rfl
    · rw [Bool.eq_iff_iff, (cancelWaits_spec hbs _).2.2]
      constructor
      · rintro (h | ⟨d', hd', hs', _⟩)
        · exact h
        · rw [hd] at hd'
          exact absurd (Option.some.inj hd' ▸ hs') hst
      · exact .inl
  have hseen : ∀ x, NewPeer res running.connections x → st₁.adjSeen x.2 = true :=
    fun x hx => hs2 _ (hs1 x hx.1 hx.2.1 hx.2.2)
  have hgone : st.sched.cmds.length ≠ st₁.sched.cmds.length ↔
      ∃ c, GonePeer res running.connections c := hlen
  split
  · exact ⟨htb.1, st₁, st, h2, h3, hseen, hgone, htb.2, htd, htc, fun k d hd _ hs => htp k d hd hs⟩
  · rename_i i hi
    split
    · rename_i hwait
      have hlt : i < t.cmds.length := by rw [htb.2]; exact h3.valid i hi
      refine ⟨.cancel i htb.1 hlt, st₁, st, h2, h3, hseen, hgone, (cancel_cmds t i).trans htb.2,
        fun ho hne => ?_, fun ho k d hd hst hr => ?_, fun k d hd hnw hs => ?_⟩
      · -- the last command is a `del-peer`
        have hdc := h3.dcmd
        rw [if_neg hne, hi] at hdc
        obtain rfl := Option.some.inj hdc
        have hle := h3.grows.length_le
        rw [htb.2] at hwait hlt
        have hd := List.getElem?_eq_getElem hlt
        rw [hd] at hwait
        rcases h3.grows.cases hd with hc | ⟨_, hg⟩
        · exact absurd (lt_of_getElem?_eq_some hc) (by omega)
        · simp only [Option.any_some, decide_eq_true_eq, hg.2.1] at hwait
          cases hwait
      · rw [cancel_cmds] at hd
        exact (cancel_done t i k).2 (.inl (htc ho k d hd hst hr))
      · rw [cancel_cmds] at hd
        rw [← htp k d hd hs, Bool.eq_iff_iff, cancel_done]
        constructor
        · rintro (h | rfl)
          · exact h
          · rw [hd] at hwait
            simp only [Option.any_some, decide_eq_true_eq] at hwait
            exact absurd hwait hnw
        · exact .inl
    · exact ⟨htb.1, st₁, st, h2, h3, hseen, hgone, htb.2, htd, htc, fun k d hd _ hs => htp k d hd hs⟩

/-- Without a running resource there is nothing to delete. -/
theorem adjustNet_none (cmp : Compare) (vols : List AdjVolume) (s : Sched CmdCtx) (dcmd : Option Nat)
    (id : Nat) : adjustNet cmp res vols none s dcmd =
      adjustNet cmp res vols (some { id := id }) s dcmd := rfl

/-- Where a command of the queues comes from. -/
theorem command_origin {s₀ sl : Sched CmdCtx} {st₁ st : NetState}
    (hfresh : ∀ d ∈ s₀.cmds, d.res ≠ res.id ∧ d.res ≠ running.id) (hl : Grows (IsLocal res.id) s₀ sl)
    (h₁ : Grows (IsOwn res.id) sl st₁.sched) (h : Grows (IsGone running.id) st₁.sched st.sched)
    {i : Nat} {d : DeferredCmd CmdCtx} (hd : st.sched.cmds[i]? = some d) :
    (d.res ≠ res.id ∧ d.res ≠ running.id) ∨ IsLocal res.id d ∨
      (sl.cmds.length ≤ i ∧ i < st₁.sched.cmds.length ∧ IsOwn res.id d) ∨
      (st₁.sched.cmds.length ≤ i ∧ IsGone running.id d) := by
  rcases h.cases hd with hd | hg
  · rcases h₁.cases hd with hd' | ⟨hi, ho⟩
    · rcases hl.cases hd' with hd'' | ⟨_, hloc⟩
      · exact .inl (hfresh d (List.mem_of_getElem? hd''))
      · exact .inr (.inl hloc)
    · exact .inr (.inr (.inl ⟨hi, lt_of_getElem?_eq_some hd, ho⟩))
  · exact .inr (.inr (.inr hg))

theorem IsLocal.not_net {id : Nat} {d : DeferredCmd CmdCtx} (h : IsLocal id d) :
    d.cmd.cmd ≠ .connect ∧ d.cmd.cmd ≠ .waitCAdj := by
  constructor
  · intro hc
    rcases h with h | h
    · have := h.2.2
      rw [hc] at this
      simp at this
    · have := h.2.2
      rw [hc] at this
      simp at this
  · intro hc
    rcases h with h | h
    · have := h.2.2
      rw [hc] at this
      simp at this
    · have := h.2.2
      rw [hc] at this
      simp at this

/-- If some connection was Connected, the chain is complete and `del-peer` comes last. -/
theorem keepsConnected_of_connected {sl s₁ s : Sched CmdCtx} {fails : Nat → Bool} (hb : Built s₀)
    (hne : res.id ≠ running.id) (hfresh : ∀ d ∈ s₀.cmds, d.res ≠ res.id ∧ d.res ≠ running.id)
    (hl : Grows (IsLocal res.id) s₀ sl) (hnet : NetSpec res running sl dcmd₀ s₁)
    (hrun : Running fails s₁ s) (ho : OneWasConnected running.connections) :
    KeepsConnected res (some running) s₁.cmds s.ran := by
  obtain ⟨hb₁, st₁, st, hr, hg, hseen, _, hcmds, hdone, _, _⟩ := hnet
  rintro r hr' pre i post d hran hd hres hcmd
  obtain rfl := Option.some.inj hr'
  rw [hcmds] at hd
  have hlt := lt_of_getElem?_eq_some hd
  have hi : st₁.sched.cmds.length ≤ i := by
    rcases command_origin hfresh hl hr.chain.grows hg.grows hd with h | h | h | h
    · exact absurd hres h.2
    · exact absurd (h.res_eq.symm.trans hres) hne
    · exact absurd (h.2.2.1.symm.trans hres) hne
    · exact h.1
  have hdone' : s₁.done = sl.done := hdone ho (by omega)
  -- everything from the begin of `adjust_net` on is not cancelled
  have hnd : ∀ k, sl.cmds.length ≤ k → s₁.done k = false := by
    intro k hk
    rw [hdone', ← Bool.not_eq_true]
    intro hc
    have := (hl.built hb).ready.done k hc
    omega
  have hbefore : ∀ (j : Nat) (e : DeferredCmd CmdCtx), sl.cmds.length ≤ j →
      st₁.sched.cmds[j]? = some e → IsLink e → j ∈ pre := by
    intro j e hj he hlink
    obtain ⟨k, hk, hf⟩ := hr.chain.follows j e hj he hlink
    have hfol : Follows s₁.cmds i j := by
      rw [hcmds]
      exact (hg.follows hk hi hlt).trans (hg.grows.follows hf)
    have hjlt := lt_of_getElem?_eq_some he
    exact hrun.before hb₁.ready hfol (by omega) (fun m hm _ => hnd m (hj.trans hm)) hran
  refine ⟨fun x hx => ?_, fun _ j e he heres hec => ?_⟩
  · obtain ⟨k, e, hk, he, hec, hconn⟩ := hr.covered x hx.1 (hseen x hx) hx.2.2
    refine ⟨k, hbefore k e hk he (.inl hec), e, ?_, ?_, hec, hconn⟩
    · rw [hcmds]
      exact hg.grows.getElem? he
    · rcases hr.chain.grows.cases he with h | h
      · exact absurd (lt_of_getElem?_eq_some h) (by omega)
      · exact h.2.1
  · rw [hcmds] at he
    have hj : sl.cmds.length ≤ j ∧ st₁.sched.cmds[j]? = some e := by
      rcases hg.grows.cases he with h | h
      · refine ⟨?_, h⟩
        rcases command_origin hfresh hl hr.chain.grows hg.grows he with h' | h' | h' | h'
        · exact absurd heres h'.1
        · exact absurd hec h'.not_net.1
        · exact h'.1
        · exact absurd (h'.2.2.1.symm.trans hec) (by simp)
      · exact absurd (h.2.2.1.symm.trans hec) (by simp)
    obtain ⟨k, f, hk, hf, hfc, hconn⟩ := hr.waited j e hj.1 hj.2 hec
    refine ⟨k, hbefore k f hk hf (.inr hfc), f, ?_, ?_, hfc, hconn⟩
    · rw [hcmds]
      exact hg.grows.getElem? hf
    · rcases hr.chain.grows.cases hf with h | h
      · exact absurd (lt_of_getElem?_eq_some h) (by omega)
      · exact h.2.1

/-- If none was, the waits are cancelled, and the first `del-peer` waits for nothing. -/
theorem not_keepsConnected {sl s₁ s : Sched CmdCtx} {fails : Nat → Bool} {fuel : Nat} (hb : Built s₀)
    (hne : res.id ≠ running.id) (hfresh : ∀ d ∈ s₀.cmds, d.res ≠ res.id ∧ d.res ≠ running.id)
    (hl : Grows (IsLocal res.id) s₀ sl) (hv : ValidDep sl dcmd₀) (hnet : NetSpec res running sl dcmd₀ s₁)
    (hrun : s₁.runDeferredCmds fails fuel = some s) (ho : ¬OneWasConnected running.connections)
    (hnew : ∃ x, NewPeer res running.connections x) (hgone : ∃ c, GonePeer res running.connections c) :
    ¬KeepsConnected res (some running) s₁.cmds s.ran := by
  obtain ⟨hb₁, st₁, st, hr, hg, hseen, hlen, hcmds, _, hwaits, hdone⟩ := hnet
  obtain ⟨x, hx⟩ := hnew
  have hlen' := hlen.2 hgone
  have hle := hg.grows.length_le
  have hlt : st₁.sched.cmds.length < st.sched.cmds.length := by omega
  have hd := List.getElem?_eq_getElem hlt
  generalize hdd : st.sched.cmds[st₁.sched.cmds.length] = d at hd
  have hisGone : IsGone running.id d := by
    rcases hg.grows.cases hd with h | h
    · exact absurd (lt_of_getElem?_eq_some h) (by omega)
    · exact h.2
  -- the chain ends with a wait of the resource
  have hdep := hg.deps _ d (Nat.le_refl _) hd
  rw [if_pos rfl] at hdep
  obtain ⟨c, e, hc, he, hec, _⟩ := hr.covered x hx.1 (hseen x hx) hx.2.2
  have hlast : ∃ k f, st₁.dcmd = some k ∧ st₁.sched.cmds[k]? = some f ∧ f.cmd.cmd = .waitCAdj ∧
      sl.cmds.length ≤ k := by
    rcases hr.last with h | ⟨k, f, hk, hle, hf, hw⟩
    · obtain ⟨k, hk, hfol⟩ := hr.chain.follows c e hc he (.inl hec)
      have hklt := hv k (h ▸ hk)
      have hle' := hfol.le (hr.chain.grows.built (hl.built hb)).ready
      omega
    · exact ⟨k, f, hk, hf, hw, hle⟩
  obtain ⟨k, f, hk, hf, hfw, hkle⟩ := hlast
  have hown : IsOwn res.id f := by
    rcases hr.chain.grows.cases hf with h | h
    · exact absurd (lt_of_getElem?_eq_some h) (by omega)
    · exact h.2
  have hkdone : s₁.done k = true := by
    refine hwaits ho k f ?_ (by rw [hown.2.1, hfw]; rfl) hown.1
    rw [hcmds]
    exact hg.grows.getElem? hf
  have hd₁ : s₁.cmds[st₁.sched.cmds.length]? = some d := by rw [hcmds]; exact hd
  have hdnd : s₁.done st₁.sched.cmds.length = false := by
    rw [hdone _ d hd₁ (by rw [hisGone.2.1]; simp) (by rw [hisGone.2.2]; simp), ← Bool.not_eq_true]
    intro hc'
    have h1 := (hl.built hb).ready.done _ hc'
    have h2 := hr.chain.grows.length_le
    omega
  obtain ⟨pre, post, hran, hpre⟩ := runDeferredCmds_first hb₁.ready hrun hd₁ hdnd
    (fun j hj => by
      rw [hdep, hk] at hj
      rw [← Option.some.inj hj]
      exact hkdone)
    (fun m d' hd' hres => by
      rw [hcmds] at hd'
      rw [hisGone.1] at hres
      rcases command_origin hfresh hl hr.chain.grows hg.grows hd' with h | h | h | h
      · exact absurd hres h.2
      · exact absurd (h.res_eq.symm.trans hres) hne
      · exact absurd (h.2.2.1.symm.trans hres) hne
      · exact ⟨h.1, by rw [hisGone.2.2, h.2.2.2]⟩)
  intro hkeeps
  obtain ⟨m, hm, g, hg', hgres, hgc, _⟩ :=
    (hkeeps running rfl pre _ post d hran hd₁ hisGone.1 hisGone.2.1).1 x hx
  have hstage := hpre m hm g hg'
  have hgstage : g.stage = g.cmd.cmd.stage := by
    rw [hcmds] at hg'
    rcases hg.grows.cases hg' with h | h
    · rcases hr.chain.grows.cases h with h' | h'
      · rcases hl.cases h' with h'' | h''
        · exact absurd hgres (hfresh g (List.mem_of_getElem? h'')).1
        · exact h''.2.stage_eq
      · exact h'.2.2.1
    · exact absurd (h.2.2.1.symm.trans hgc) (by simp)
  rw [hgstage, hgc, hisGone.2.2] at hstage
  exact absurd hstage (by decide)

theorem keepsConnected_of_none_gone {sl s₁ : Sched CmdCtx} {ran : List Nat}
    (hfresh : ∀ d ∈ s₀.cmds, d.res ≠ res.id ∧ d.res ≠ running.id) (hne : res.id ≠ running.id)
    (hl : Grows (IsLocal res.id) s₀ sl) (hnet : NetSpec res running sl dcmd₀ s₁)
    (hgone : ¬∃ c, GonePeer res running.connections c) :
    KeepsConnected res (some running) s₁.cmds ran := by
  obtain ⟨_, st₁, st, hr, hg, _, hlen, hcmds, _⟩ := hnet
  rintro r hr' pre i post d _ hd hres _
  obtain rfl := Option.some.inj hr'
  have hlen' : st.sched.cmds.length = st₁.sched.cmds.length := by
    by_contra hc
    exact hgone (hlen.1 hc)
  rw [hcmds] at hd
  have hlt := lt_of_getElem?_eq_some hd
  rcases command_origin hfresh hl hr.chain.grows hg.grows hd with h | h | h | h
  · exact absurd hres h.2
  · exact absurd (h.res_eq.symm.trans hres) hne
  · exact absurd (h.2.2.1.symm.trans hres) hne
  · omega

end Net

/-- **Replacing peers.**  For every configuration and running state of a resource, whatever commands
    of other resources are scheduled before and whichever commands fail: the run ends, and every
    `del-peer` of a peer that is gone comes after the `connect` of every new peer, and, if some
    connection was Connected, after the `wait-connect` of every connection that is connected, if and
    only if some connection was Connected, or no peer is new, or none is gone. -/
theorem adjust_keeps_connected_iff (cmp : Compare) (res : Resource) (running : Option Resource)
    (vol : Option Nat) (disk : Bool) (fails : Nat → Bool) {s₀ : Sched CmdCtx} (hb : Built s₀)
    (hne : ∀ r, running = some r → res.id ≠ r.id)
    (hfresh : ∀ d ∈ s₀.cmds, d.res ≠ res.id ∧ ∀ r, running = some r → d.res ≠ r.id) :
    (∃ fuel s, (adjustDrbd cmp res running vol ⟨disk, true⟩ s₀).runDeferredCmds fails fuel = some s) ∧
    ∀ fuel s, (adjustDrbd cmp res running vol ⟨disk, true⟩ s₀).runDeferredCmds fails fuel = some s →
      (KeepsConnected res running (adjustDrbd cmp res running vol ⟨disk, true⟩ s₀).cmds s.ran ↔
        OneWasConnected (running.elim [] (·.connections)) ∨
          (∀ x, ¬NewPeer res (running.elim [] (·.connections)) x) ∨
          ∀ c, ¬GonePeer res (running.elim [] (·.connections)) c) := by
  obtain ⟨sl, dcmd, hl, hv, heq⟩ := adjustDrbd_net cmp res running vol disk s₀
  generalize compareVolumes cmp res.volumes (running.elim [] (·.volumes)) = vols at heq
  rw [heq]
  cases running with
  | none =>
    have hnet := @adjustNet_spec res { id := 0 } _ _ cmp vols (hl.built hb) hv
    rw [← adjustNet_none cmp vols sl dcmd 0] at hnet
    refine ⟨⟨_, runDeferredCmds_returns hnet.built.ready hnet.built.ready.running
      (Nat.le_add_left _ _)⟩, fun fuel s _ => ?_⟩
    refine ⟨fun _ => .inr (.inr fun c hc => by cases hc.1), fun _ r hr => by cases hr⟩
  | some r =>
    have hnet := @adjustNet_spec res r _ _ cmp vols (hl.built hb) hv
    have hfresh' : ∀ d ∈ s₀.cmds, d.res ≠ res.id ∧ d.res ≠ r.id :=
      fun d hd => ⟨(hfresh d hd).1, (hfresh d hd).2 r rfl⟩
    refine ⟨⟨_, runDeferredCmds_returns hnet.built.ready hnet.built.ready.running
      (Nat.le_add_left _ _)⟩, fun fuel s hs => ?_⟩
    have hrun := (runDeferredCmds_inv hnet.built.ready.running hs).1
    show _ ↔ OneWasConnected r.connections ∨ (∀ x, ¬NewPeer res r.connections x) ∨
      ∀ c, ¬GonePeer res r.connections c
    by_cases ho : OneWasConnected r.connections
    · exact iff_of_true (keepsConnected_of_connected hb (hne r rfl) hfresh' hl hnet hrun ho) (.inl ho)
    by_cases hnew : ∃ x, NewPeer res r.connections x
    · by_cases hgone : ∃ c, GonePeer res r.connections c
      · refine iff_of_false
          (not_keepsConnected hb (hne r rfl) hfresh' hl hv hnet hs ho hnew hgone) ?_
        rintro (h | h | h)
        · exact ho h
        · obtain ⟨x, hx⟩ := hnew
          exact h x hx
        · obtain ⟨c, hc⟩ := hgone
          exact h c hc
      · exact iff_of_true (keepsConnected_of_none_gone hfresh' (hne r rfl) hl hnet hgone)
          (.inr (.inr fun c hc => hgone ⟨c, hc⟩))
    · refine iff_of_true ?_ (.inr (.inl fun x hx => hnew ⟨x, hx⟩))
      rintro r' hr' pre i post d _ _ _ _
      obtain rfl := Option.some.inj hr'
      exact ⟨fun x hx => absurd ⟨x, hx⟩ hnew, fun h => absurd h ho⟩


/-! ### Swapping a tiebreaker -/

/-- Values are compared as strings, and none is the default. -/
def compareAsStrings : Compare where
  isEqual _ _ a b := a = b
  isDefault _ _ _ := false
  addressesEqual a b := a = b

/-- Peer 2 replaces peer 1, which is not connected: it is deleted first. -/
theorem adjust_deletes_first : ∃ s,
    (adjustDrbd compareAsStrings { id := 0, connections := [{ peer := some "2" }] }
      (some { id := 1, connections := [{ peer := some "1", cstate := .connecting }] }) none {}
      {}).runDeferredCmds (fun _ => false) 2 = some s ∧
    ¬KeepsConnected { id := 0, connections := [{ peer := some "2" }] }
      (some { id := 1, connections := [{ peer := some "1", cstate := .connecting }] })
      (adjustDrbd compareAsStrings { id := 0, connections := [{ peer := some "2" }] }
        (some { id := 1, connections := [{ peer := some "1", cstate := .connecting }] }) none {}
        {}).cmds s.ran := by
  refine ⟨_, rfl, fun h => ?_⟩
  obtain ⟨k, hk, _⟩ := (h _ rfl [] 4 [0, 1, 2] _ (by decide) rfl rfl rfl).1 ({ peer := some "2" }, 0)
    ⟨by simp, rfl, rfl⟩
  cases hk

/-- Peer 3 replaces peer 0 while peer 2 stays connected: nothing is deleted before. -/
theorem adjust_keeps_connected_tiebreaker : ∃ fuel s,
    (adjustDrbd compareAsStrings
      { id := 0, connections := [{ peer := some "2" }, { peer := some "3" }] }
      (some { id := 1, connections := [{ peer := some "0", cstate := .connecting },
        { peer := some "2", cstate := .connected }] }) none {} {}).runDeferredCmds
      (fun _ => false) fuel = some s ∧
    KeepsConnected { id := 0, connections := [{ peer := some "2" }, { peer := some "3" }] }
      (some { id := 1, connections := [{ peer := some "0", cstate := .connecting },
        { peer := some "2", cstate := .connected }] })
      (adjustDrbd compareAsStrings
        { id := 0, connections := [{ peer := some "2" }, { peer := some "3" }] }
        (some { id := 1, connections := [{ peer := some "0", cstate := .connecting },
          { peer := some "2", cstate := .connected }] }) none {} {}).cmds s.ran := by
  obtain ⟨⟨fuel, s, hs⟩, hiff⟩ := adjust_keeps_connected_iff compareAsStrings
    { id := 0, connections := [{ peer := some "2" }, { peer := some "3" }] }
    (some { id := 1, connections := [{ peer := some "0", cstate := .connecting },
      { peer := some "2", cstate := .connected }] }) none true (fun _ => false) .init
    (fun r hr => by cases hr; decide) (fun d hd => by cases hd)
  exact ⟨fuel, s, hs,
    (hiff fuel s hs).2 (.inl ⟨{ peer := some "2", cstate := .connected }, by simp, rfl⟩)⟩

end DrbdUtils.Adm
