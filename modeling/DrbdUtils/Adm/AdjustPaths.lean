import DrbdUtils.Adm.AdjustExact

/-!
# The paths of a running connection

What a round of `adjust_conn()` does to the paths of a connection when its commands are run stage by
stage: `disconnect`, then `del-path`, then `new-path`.

* `KeepsLastPath` — no `del-path` takes the last path of a connection that is not disconnected.
* `adjustRunningConn_paths_iff` — when that holds; the paths are the configured ones then.
-/

set_option autoImplicit false

namespace DrbdUtils.Adm

/-! ## The paths in the kernel -/

section Kernel

variable {A : Type}

/-- What a path is for the kernel; `m` is what an address means. -/
def pathKey (m : Address → A) (p : Path) : A × A := (m p.myAddress, m p.connectTo)

def runningKeys (m : Address → A) (conn : Connection) : Set (A × A) :=
  {k | ∃ p ∈ conn.paths, pathKey m p = k}

/-- The configured paths that are not ignored. -/
def configuredKeys (m : Address → A) (conn : Connection) : Set (A × A) :=
  {k | ∃ p ∈ conn.paths.filter (!·.ignore), pathKey m p = k}

structure KernelConn (A : Type) where
  paths : Set (A × A)
  disconnected : Bool := false

/-- A command for the connection; `new-path` without a path is for all that are configured, and
    "disconnect implicit by del-peer". -/
def execPathCmd (m : Address → A) (conn : Connection) (K : KernelConn A) (c : CmdCtx) : KernelConn A :=
  match c.cmd, c.path with
  | .newPath, some p => { K with paths := insert (pathKey m p) K.paths }
  | .newPath, none => { K with paths := K.paths ∪ configuredKeys m conn }
  | .delPath, some p => { K with paths := K.paths \ {pathKey m p} }
  | .delPeer, _ => ⟨∅, true⟩
  | .disconnect, _ => { K with disconnected := true }
  | _, _ => K

/-- No `del-path` removes the only path, unless the connection was disconnected before. -/
def KeepsLastPath (m : Address → A) (conn : Connection) : KernelConn A → List CmdCtx → Prop
  | _, [] => True
  | K, c :: cmds =>
    (∀ p, c.cmd = .delPath → c.path = some p → K.paths = {pathKey m p} → K.disconnected = true) ∧
      KeepsLastPath m conn (execPathCmd m conn K c) cmds

/-- What the commands should do, in their order, to a running connection. -/
structure PathsAdjusted (m : Address → A) (conn runningConn : Connection) (cmds : List CmdCtx) :
    Prop where
  last : KeepsLastPath m conn ⟨runningKeys m runningConn, false⟩ cmds
  final : (cmds.foldl (execPathCmd m conn) ⟨runningKeys m runningConn, false⟩).paths =
    configuredKeys m conn
  connects : (∃ c ∈ cmds, c.cmd = .disconnect) → ∃ c ∈ cmds, c.cmd = .connect

/-- The order of the stages, in which the commands are run. -/
def byStage (cmds : List CmdCtx) : List CmdCtx :=
  CfgStage.all.flatMap fun stage => cmds.filter (·.cmd.stage = stage)

/-- The commands that were scheduled between two states. -/
def scheduledSince (s s' : Sched CmdCtx) : List CmdCtx :=
  (s'.cmds.drop s.cmds.length).map (·.cmd)

/-- The commands that matter for the paths. -/
def CmdCtx.aboutPaths (c : CmdCtx) : Bool :=
  c.cmd ∈ [AdmCmd.newPath, .delPath, .delPeer, .disconnect, .connect]

variable {m : Address → A} {conn runningConn : Connection} {K : KernelConn A} {cmds : List CmdCtx}

theorem execPathCmd_other {c : CmdCtx} (h : c.aboutPaths = false) : execPathCmd m conn K c = K := by
  unfold execPathCmd
  split <;> simp_all [CmdCtx.aboutPaths]

theorem foldl_execPathCmd_filter (cmds : List CmdCtx) (K : KernelConn A) :
    (cmds.filter CmdCtx.aboutPaths).foldl (execPathCmd m conn) K = cmds.foldl (execPathCmd m conn) K := by
  induction cmds generalizing K with
  | nil => rfl
  | cons c cmds ih =>
    cases hc : c.aboutPaths with
    | true => rw [List.filter_cons_of_pos hc, List.foldl_cons, List.foldl_cons, ih]
    | false =>
      rw [List.filter_cons_of_neg (by simp [hc]), List.foldl_cons, ih, execPathCmd_other hc]

theorem keepsLastPath_filter (cmds : List CmdCtx) (K : KernelConn A) :
    KeepsLastPath m conn K (cmds.filter CmdCtx.aboutPaths) ↔ KeepsLastPath m conn K cmds := by
  induction cmds generalizing K with
  | nil => rfl
  | cons c cmds ih =>
    cases hc : c.aboutPaths with
    | true =>
      rw [List.filter_cons_of_pos hc]
      exact and_congr_right fun _ => ih _
    | false =>
      rw [List.filter_cons_of_neg (by simp [hc]), ih]
      refine Iff.trans ?_ (and_iff_right fun p hdel => ?_).symm
      · rw [execPathCmd_other hc]
      · simp [CmdCtx.aboutPaths, hdel] at hc

theorem exists_filter_iff {cmd : AdmCmd}
    (h : cmd ∈ [AdmCmd.newPath, .delPath, .delPeer, .disconnect, .connect]) :
    (∃ c ∈ cmds.filter CmdCtx.aboutPaths, c.cmd = cmd) ↔ ∃ c ∈ cmds, c.cmd = cmd := by
  constructor
  · rintro ⟨c, hc, rfl⟩
    exact ⟨c, (List.mem_filter.1 hc).1, rfl⟩
  · rintro ⟨c, hc, rfl⟩
    exact ⟨c, List.mem_filter.2 ⟨hc, decide_eq_true h⟩, rfl⟩

/-- The other commands do not matter. -/
theorem pathsAdjusted_filter_iff : PathsAdjusted m conn runningConn (cmds.filter CmdCtx.aboutPaths) ↔
    PathsAdjusted m conn runningConn cmds := by
  constructor
  · rintro ⟨h1, h2, h3⟩
    rw [foldl_execPathCmd_filter] at h2
    rw [exists_filter_iff (by decide), exists_filter_iff (by decide)] at h3
    exact ⟨(keepsLastPath_filter _ _).1 h1, h2, h3⟩
  · rintro ⟨h1, h2, h3⟩
    refine ⟨(keepsLastPath_filter _ _).2 h1, ?_, ?_⟩
    · rw [foldl_execPathCmd_filter]
      exact h2
    · rw [exists_filter_iff (by decide), exists_filter_iff (by decide)]
      exact h3

theorem byStage_filter (p : CmdCtx → Bool) (cmds : List CmdCtx) :
    (byStage cmds).filter p = byStage (cmds.filter p) := by
  unfold byStage
  rw [List.filter_flatMap]
  refine List.flatMap_congr fun stage _ => ?_
  rw [List.filter_filter, List.filter_filter]
  exact List.filter_congr fun c _ => Bool.and_comm _ _

theorem filter_stage {stage stage' : CfgStage} (h : ∀ c ∈ cmds, c.cmd.stage = stage') :
    cmds.filter (·.cmd.stage = stage) = if stage' = stage then cmds else [] := by
  split
  · rename_i heq
    exact List.filter_eq_self.2 fun c hc => decide_eq_true ((h c hc).trans heq)
  · rename_i hne
    exact List.filter_eq_nil_iff.2 fun c hc hs => hne ((h c hc).symm.trans (of_decide_eq_true hs))

/-! ### Deleting paths -/

/-- `del-path` for each of the paths. -/
def delPaths (ref : ConnRef) (paths : List Path) : List CmdCtx :=
  paths.map fun p => { cmd := .delPath, conn := some ref, path := some p }

/-- `new-path` for each of the paths. -/
def newPaths (ref : ConnRef) (paths : List Path) : List CmdCtx :=
  paths.map fun p => { cmd := .newPath, conn := some ref, path := some p }

theorem keepsLastPath_append (cmds cmds' : List CmdCtx) (K : KernelConn A) :
    KeepsLastPath m conn K (cmds ++ cmds') ↔ KeepsLastPath m conn K cmds ∧
      KeepsLastPath m conn (cmds.foldl (execPathCmd m conn) K) cmds' := by
  induction cmds generalizing K with
  | nil => exact (and_iff_right trivial).symm
  | cons c cmds ih => exact (and_congr_right fun _ => ih _).trans and_assoc.symm

theorem keepsLastPath_of_ne (h : ∀ c ∈ cmds, c.cmd ≠ .delPath) (K : KernelConn A) :
    KeepsLastPath m conn K cmds := by
  induction cmds generalizing K with
  | nil => trivial
  | cons c cmds ih =>
    exact ⟨fun _ hdel => absurd hdel (h c List.mem_cons_self),
      ih (fun c hc => h c (List.mem_cons_of_mem _ hc)) _⟩

theorem foldl_delPaths (ref : ConnRef) (paths : List Path) (K : KernelConn A) :
    (delPaths ref paths).foldl (execPathCmd m conn) K =
      { K with paths := K.paths \ {k | ∃ p ∈ paths, pathKey m p = k} } := by
  induction paths generalizing K with
  | nil => simp [delPaths]
  | cons p paths ih =>
    refine (ih _).trans ?_
    show KernelConn.mk ((K.paths \ {pathKey m p}) \ _) K.disconnected = _
    congr 1
    ext k
    simp only [Set.mem_sdiff, Set.mem_singleton_iff, Set.mem_ofPred_eq, List.mem_cons, not_exists, not_and,
      forall_eq_or_imp]
    exact ⟨fun h => ⟨h.1.1, fun hk => h.1.2 hk.symm, h.2⟩,
      fun h => ⟨⟨h.1, fun hk => h.2.1 hk.symm⟩, h.2.2⟩⟩

theorem foldl_newPaths (ref : ConnRef) (paths : List Path) (K : KernelConn A) :
    (newPaths ref paths).foldl (execPathCmd m conn) K =
      { K with paths := K.paths ∪ {k | ∃ p ∈ paths, pathKey m p = k} } := by
  induction paths generalizing K with
  | nil => simp [newPaths]
  | cons p paths ih =>
    refine (ih _).trans ?_
    show KernelConn.mk (insert (pathKey m p) K.paths ∪ _) K.disconnected = _
    congr 1
    ext k
    simp only [Set.mem_union, Set.mem_insert_iff, Set.mem_ofPred_eq, List.mem_cons, exists_eq_or_imp]
    constructor
    · rintro ((h | h) | h)
      · exact Or.inr (Or.inl h.symm)
      · exact Or.inl h
      · exact Or.inr (Or.inr h)
    · rintro (h | h | h)
      · exact Or.inl (Or.inr h)
      · exact Or.inl (Or.inl h.symm)
      · exact Or.inr h

/-- A path that stays. -/
theorem keepsLastPath_of_kept (ref : ConnRef) {paths : List Path} {k : A × A} (hk : k ∈ K.paths)
    (hkept : ∀ p ∈ paths, pathKey m p ≠ k) : KeepsLastPath m conn K (delPaths ref paths) := by
  induction paths generalizing K with
  | nil => trivial
  | cons p paths ih =>
    have hne : pathKey m p ≠ k := hkept p List.mem_cons_self
    refine ⟨fun p' _ hp' hpaths => ?_, ih (K := { K with paths := K.paths \ {pathKey m p} })
      ⟨hk, fun h => hne h.symm⟩ fun q hq => hkept q (List.mem_cons_of_mem _ hq)⟩
    cases hp'
    rw [hpaths] at hk
    exact absurd hk.symm hne

theorem keepsLastPath_of_disconnected (ref : ConnRef) (paths : List Path) (h : K.disconnected = true) :
    KeepsLastPath m conn K (delPaths ref paths) := by
  induction paths generalizing K with
  | nil => trivial
  | cons p paths ih => exact ⟨fun _ _ _ _ => h, @ih { K with paths := K.paths \ {pathKey m p} } h⟩

/-- When all paths are deleted, the last of them is. -/
theorem not_keepsLastPath (ref : ConnRef) {paths : List Path} (hne : paths ≠ [])
    (hpaths : K.paths = {k | ∃ p ∈ paths, pathKey m p = k})
    (hdistinct : paths.Pairwise fun p q => pathKey m p ≠ pathKey m q) (hd : K.disconnected = false) :
    ¬KeepsLastPath m conn K (delPaths ref paths) := by
  induction paths generalizing K with
  | nil => exact absurd rfl hne
  | cons p paths ih =>
    rintro ⟨hlast, hrest⟩
    obtain ⟨hp, hdistinct⟩ := List.pairwise_cons.1 hdistinct
    by_cases hnil : paths = []
    · subst hnil
      have hone : K.paths = {pathKey m p} := by
        rw [hpaths]
        ext k
        simp [eq_comm]
      rw [hlast p rfl rfl hone] at hd
      cases hd
    · refine @ih { K with paths := K.paths \ {pathKey m p} } hnil ?_ hdistinct hd hrest
      show K.paths \ {pathKey m p} = _
      rw [hpaths]
      ext k
      simp only [Set.mem_sdiff, Set.mem_ofPred_eq, Set.mem_singleton_iff, List.mem_cons,
        exists_eq_or_imp]
      constructor
      · rintro ⟨h | h, hk⟩
        · exact absurd h.symm hk
        · exact h
      · rintro ⟨q, hq, rfl⟩
        exact ⟨Or.inr ⟨q, hq, rfl⟩, fun h => hp q hq h.symm⟩

end Kernel

/-! ## The commands of a round -/

/-- Commands were added, and those about paths are the given ones. -/
def Adds (cmds : List CmdCtx) (s s' : Sched CmdCtx) : Prop :=
  ∃ new, s'.cmds = s.cmds ++ new ∧ (new.map (·.cmd)).filter CmdCtx.aboutPaths = cmds

section Adds

variable {cmds cmds' : List CmdCtx} {s s' s'' : Sched CmdCtx} {cmp : Compare} {res : Resource}
  {conn runningConn : Connection} {idx : Nat}

theorem Adds.refl (s : Sched CmdCtx) : Adds [] s s := ⟨[], (List.append_nil _).symm, rfl⟩

theorem Adds.trans (h : Adds cmds s s') (h' : Adds cmds' s' s'') : Adds (cmds ++ cmds') s s'' := by
  obtain ⟨new, hs, hf⟩ := h
  obtain ⟨new', hs', hf'⟩ := h'
  refine ⟨new ++ new', by rw [hs', hs, List.append_assoc], ?_⟩
  rw [List.map_append, List.filter_append, hf, hf']

theorem adds_adjSchedule (s : Sched CmdCtx) (id : Nat) (ctx : CmdCtx) (dep : Option Nat) :
    Adds ([ctx].filter CmdCtx.aboutPaths) s (adjSchedule s id ctx dep).1 :=
  ⟨_, adjSchedule_cmds, rfl⟩

theorem adds_chain (st : NetState) (id : Nat) (ctx : CmdCtx) :
    Adds ([ctx].filter CmdCtx.aboutPaths) st.sched (st.chain id ctx).sched :=
  adds_adjSchedule st.sched id ctx st.dcmd

theorem adds_of_devices {id : Nat} (h : Grows (IsPeerDevice id) s s') : Adds [] s s' := by
  obtain ⟨new, hs, hnew⟩ := h.cmds
  refine ⟨new, hs, List.filter_eq_nil_iff.2 fun c hc => ?_⟩
  obtain ⟨d, hd, rfl⟩ := List.mem_map.1 hc
  simp [CmdCtx.aboutPaths, (hnew d hd).2.2]

theorem scheduledSince_filter (h : Adds cmds s s') :
    (scheduledSince s s').filter CmdCtx.aboutPaths = cmds := by
  obtain ⟨new, hs, hf⟩ := h
  unfold scheduledSince
  rw [hs, List.drop_left]
  exact hf

/-- The configured paths that are not running. -/
def missingPaths (cmp : Compare) (conn runningConn : Connection) : List Path :=
  (conn.paths.filter (!·.ignore)).filter fun path => findPathByAddrs cmp runningConn path = none

/-- The running paths that are not configured. -/
def unseenPaths (cmp : Compare) (conn runningConn : Connection) : List Path :=
  runningConn.paths.filter fun path => !((conn.paths.filter (!·.ignore)).any fun c =>
    findPathByAddrs cmp runningConn c = some path)

theorem adds_newPaths (l : List Path) (s : Sched CmdCtx) (dep : Option Nat) :
    Adds (newPaths ⟨false, idx⟩ (l.filter fun path => findPathByAddrs cmp runningConn path = none)) s
      (l.foldl (fun s path => match findPathByAddrs cmp runningConn path with
        | none => (adjSchedule s res.id
            { cmd := .newPath, conn := some ⟨false, idx⟩, path := some path } dep).1
        | some _ => s) s) := by
  induction l generalizing s with
  | nil => exact Adds.refl s
  | cons p l ih =>
    rw [List.foldl_cons]
    cases hf : findPathByAddrs cmp runningConn p with
    | none =>
      have hfilter : (p :: l).filter (fun path => findPathByAddrs cmp runningConn path = none) =
          p :: l.filter fun path => findPathByAddrs cmp runningConn path = none :=
        List.filter_cons_of_pos (by simpa using hf)
      rw [hfilter]
      exact (adds_adjSchedule s res.id _ dep).trans (ih _)
    | some q =>
      have hfilter : (p :: l).filter (fun path => findPathByAddrs cmp runningConn path = none) =
          l.filter fun path => findPathByAddrs cmp runningConn path = none :=
        List.filter_cons_of_neg (by simp [hf])
      rw [hfilter]
      exact ih s

theorem adds_delPaths (l : List Path) (s : Sched CmdCtx) (dep : Option Nat) :
    Adds (delPaths ⟨false, idx⟩ l) s (l.foldl (fun s path => (adjSchedule s res.id
      { cmd := .delPath, conn := some ⟨false, idx⟩, path := some path } dep).1) s) := by
  induction l generalizing s with
  | nil => exact Adds.refl s
  | cons p l ih => exact (adds_adjSchedule s res.id _ dep).trans (ih _)

/-- The only running path is not configured. -/
def lastUnseen (cmp : Compare) (conn runningConn : Connection) : Bool :=
  runningConn.paths.length = 1 && !(unseenPaths cmp conn runningConn).isEmpty

/-- The commands of `adjust_paths`. -/
def pathCmds (cmp : Compare) (conn : Connection) (idx : Nat) (runningConn : Connection) :
    List CmdCtx :=
  newPaths ⟨false, idx⟩ (missingPaths cmp conn runningConn) ++
    ((if lastUnseen cmp conn runningConn && runningConn.cstate ≠ .standAlone then
        [{ cmd := .disconnect, conn := some ⟨false, idx⟩ }] else []) ++
      delPaths ⟨false, idx⟩ (unseenPaths cmp conn runningConn))

theorem adds_adjustPaths (s : Sched CmdCtx) (dep : Option Nat) :
    Adds (pathCmds cmp conn idx runningConn) s (adjustPaths cmp res conn idx runningConn s dep).1 ∧
      (adjustPaths cmp res conn idx runningConn s dep).2 = lastUnseen cmp conn runningConn := by
  refine ⟨?_, rfl⟩
  unfold adjustPaths pathCmds
  dsimp only
  have hnew := @adds_newPaths cmp res runningConn idx (conn.paths.filter (!·.ignore)) s dep
  generalize (conn.paths.filter (!·.ignore)).foldl _ s = y at hnew ⊢
  refine hnew.trans ?_
  change Adds _ y (List.foldl _ (if (lastUnseen cmp conn runningConn &&
    runningConn.cstate ≠ .standAlone) = true then _ else _ : Sched CmdCtx × Option Nat).1
      (unseenPaths cmp conn runningConn))
  split
  · exact (adds_adjSchedule y res.id _ dep).trans (adds_delPaths _ _ _)
  · exact (Adds.refl y).trans (adds_delPaths _ _ _)

theorem adds_seen (st : NetState) (connect : Bool) :
    Adds (if connect then [{ cmd := .connect, conn := some ⟨false, idx⟩ }] else []) st.sched
      (st.seen res idx connect).sched := by
  unfold NetState.seen
  cases connect with
  | false => exact Adds.refl st.sched
  | true => exact (adds_adjSchedule st.sched res.id _ st.dcmd).trans (adds_adjSchedule _ res.id _ _)

/-- The peer is deleted and made anew. -/
def MadeAnew (cmp : Compare) (conn runningConn : Connection) : Prop :=
  (!(optsEqual cmp .net conn.netOptions runningConn.netOptions).1 &&
    !(optEqual cmp .net "load-balance-paths"
        (optsEqual cmp .net conn.netOptions runningConn.netOptions).2 runningConn.netOptions &&
      optEqual cmp .net "transport"
        (optsEqual cmp .net conn.netOptions runningConn.netOptions).2 runningConn.netOptions)) = true

theorem adds_madeAnew (st : NetState) (vols : List AdjVolume)
    (h : MadeAnew cmp conn runningConn) :
    Adds [{ cmd := .delPeer, conn := some ⟨false, idx⟩ }, { cmd := .newPath, conn := some ⟨false, idx⟩ },
        { cmd := .connect, conn := some ⟨false, idx⟩ }] st.sched
      (adjustRunningConn cmp res vols st conn idx runningConn).sched := by
  unfold MadeAnew at h
  unfold adjustRunningConn
  dsimp only
  rw [if_pos h]
  have h1 := adds_chain st res.id { cmd := .delPeer, conn := some ⟨false, idx⟩ }
  generalize st.chain res.id { cmd := .delPeer, conn := some ⟨false, idx⟩ } = st1 at h1 ⊢
  have h2 := adds_chain st1 res.id { cmd := .newPeer, conn := some ⟨false, idx⟩ }
  have hv2 : ValidDep (st1.chain res.id { cmd := .newPeer, conn := some ⟨false, idx⟩ }).sched
      (st1.chain res.id { cmd := .newPeer, conn := some ⟨false, idx⟩ }).dcmd := adjSchedule_valid
  generalize st1.chain res.id { cmd := .newPeer, conn := some ⟨false, idx⟩ } = st2 at h2 hv2 ⊢
  have h3 := @schedulePeerDeviceOptionsOfConn_devices res st2.sched st2.dcmd vols conn idx hv2
  generalize schedulePeerDeviceOptionsOfConn res vols conn idx st2.sched st2.dcmd = s3 at h3 ⊢
  have h4 := @adjustPeerDevices_devices res s3 st2.dcmd cmp conn idx runningConn (h3.validDep hv2)
  generalize adjustPeerDevices cmp res conn idx runningConn s3 st2.dcmd = s4 at h4 ⊢
  have h5 := adds_adjSchedule s4 res.id { cmd := .newPath, conn := some ⟨false, idx⟩ } st2.dcmd
  have h6 := @adds_seen res idx (NetState.chain ⟨s4, st2.dcmd, true, st2.adjSeen⟩ res.id
    { cmd := .newPath, conn := some ⟨false, idx⟩ }) true
  exact h1.trans (h2.trans ((adds_of_devices h3).trans ((adds_of_devices h4).trans (h5.trans h6))))

theorem adds_kept {st : NetState} (hv : ValidDep st.sched st.dcmd) (vols : List AdjVolume)
    (h : ¬MadeAnew cmp conn runningConn) (hstate : runningConn.cstate ≠ .standAlone) :
    Adds (pathCmds cmp conn idx runningConn ++ if lastUnseen cmp conn runningConn then
        [{ cmd := .connect, conn := some ⟨false, idx⟩ }] else []) st.sched
      (adjustRunningConn cmp res vols st conn idx runningConn).sched := by
  unfold MadeAnew at h
  unfold adjustRunningConn
  dsimp only
  rw [if_neg h]
  have h1 : Adds [] st.sched (if (optsEqual cmp .net conn.netOptions runningConn.netOptions).1 = true
      then st else { st with sched := (adjSchedule st.sched res.id
        { cmd := .netOptionsDefaults, conn := some ⟨false, idx⟩ } st.dcmd).1 }).sched ∧
      ValidDep (if (optsEqual cmp .net conn.netOptions runningConn.netOptions).1 = true
        then st else { st with sched := (adjSchedule st.sched res.id
          { cmd := .netOptionsDefaults, conn := some ⟨false, idx⟩ } st.dcmd).1 }).sched st.dcmd := by
    split
    · exact ⟨Adds.refl _, hv⟩
    · refine ⟨adds_adjSchedule st.sched res.id _ st.dcmd, fun j hj => (hv j hj).trans_le ?_⟩
      show _ ≤ (adjSchedule st.sched res.id _ st.dcmd).1.cmds.length
      rw [adjSchedule_cmds, List.length_append]
      exact Nat.le_add_right _ _
  have hd : (if (optsEqual cmp .net conn.netOptions runningConn.netOptions).1 = true
      then st else { st with sched := (adjSchedule st.sched res.id
        { cmd := .netOptionsDefaults, conn := some ⟨false, idx⟩ } st.dcmd).1 }).dcmd = st.dcmd := by
    split <;> rfl
  generalize (if (optsEqual cmp .net conn.netOptions runningConn.netOptions).1 = true
      then st else { st with sched := (adjSchedule st.sched res.id
        { cmd := .netOptionsDefaults, conn := some ⟨false, idx⟩ } st.dcmd).1 }) = st1 at h1 hd ⊢
  have h2 := @adjustPeerDevices_devices res st1.sched st1.dcmd cmp conn idx runningConn (hd ▸ h1.2)
  generalize adjustPeerDevices cmp res conn idx runningConn st1.sched st1.dcmd = s2 at h2 ⊢
  obtain ⟨h3, hlast⟩ := @adds_adjustPaths cmp res conn runningConn idx s2 st1.dcmd
  rw [hlast]
  generalize (adjustPaths cmp res conn idx runningConn s2 st1.dcmd).1 = s3 at h3 ⊢
  have h4 := @adds_seen res idx ⟨s3, st1.dcmd, st1.disconnect || lastUnseen cmp conn runningConn,
    st1.adjSeen⟩ (lastUnseen cmp conn runningConn)
  rw [decide_eq_false hstate, Bool.false_or]
  exact h1.1.trans ((adds_of_devices h2).trans (h3.trans h4))

end Adds

/-! ## The paths -/

section Paths

variable {A : Type} {m : Address → A} {cmp : Compare} {conn runningConn : Connection} {idx : Nat}

theorem pathKey_eq_iff {p q : Path} : pathKey m p = pathKey m q ↔
    m p.myAddress = m q.myAddress ∧ m p.connectTo = m q.connectTo := Prod.mk.injEq _ _ _ _ ▸ Iff.rfl

/-- Addresses are compared by what they mean, and the running paths are different. -/
structure PathsShown (cmp : Compare) (m : Address → A) (runningConn : Connection) : Prop where
  addressesEqual : ∀ a b, cmp.addressesEqual a b = true ↔ m a = m b
  distinct : runningConn.paths.Pairwise fun p q => pathKey m p ≠ pathKey m q

theorem PathsShown.find_iff (h : PathsShown cmp m runningConn) {c p : Path} :
    findPathByAddrs cmp runningConn c = some p ↔ p ∈ runningConn.paths ∧ pathKey m p = pathKey m c := by
  have hmatch : ∀ q : Path, (cmp.addressesEqual q.myAddress c.myAddress &&
      cmp.addressesEqual q.connectTo c.connectTo) = true ↔ pathKey m q = pathKey m c := by
    intro q
    rw [Bool.and_eq_true, h.addressesEqual, h.addressesEqual, pathKey_eq_iff]
  unfold findPathByAddrs
  constructor
  · intro hf
    have hp := List.find?_some hf
    exact ⟨List.mem_of_find?_eq_some hf, (hmatch p).1 hp⟩
  · rintro ⟨hp, hk⟩
    refine find?_unique hp ((hmatch p).2 hk) fun q hq hqc => ?_
    exact eq_of_pairwise_ne h.distinct hq hp (((hmatch q).1 hqc).trans hk.symm)

theorem PathsShown.mem_unseen (h : PathsShown cmp m runningConn) {p : Path} :
    p ∈ unseenPaths cmp conn runningConn ↔
      p ∈ runningConn.paths ∧ pathKey m p ∉ configuredKeys m conn := by
  unfold unseenPaths
  rw [List.mem_filter, Bool.not_eq_true', List.any_eq_false]
  refine and_congr_right fun hp => ?_
  simp only [decide_eq_true_eq, h.find_iff, not_and, configuredKeys, Set.mem_ofPred_eq, not_exists]
  exact ⟨fun hno c hc hk => hno c hc hp hk.symm, fun hno c hc _ hk => hno c hc hk.symm⟩

theorem PathsShown.mem_missing (h : PathsShown cmp m runningConn) {c : Path} :
    c ∈ missingPaths cmp conn runningConn ↔
      c ∈ conn.paths.filter (!·.ignore) ∧ pathKey m c ∉ runningKeys m runningConn := by
  unfold missingPaths
  rw [List.mem_filter, decide_eq_true_eq]
  refine and_congr_right fun _ => ?_
  rw [Option.eq_none_iff_forall_ne_some]
  simp only [ne_eq, h.find_iff, not_and, runningKeys, Set.mem_ofPred_eq, not_exists]

/-- The commands stage by stage. -/
theorem byStage_kept (cmp : Compare) (conn : Connection) (idx : Nat) (runningConn : Connection)
    (hstate : runningConn.cstate ≠ .standAlone) :
    byStage (pathCmds cmp conn idx runningConn ++ if lastUnseen cmp conn runningConn then
        [{ cmd := .connect, conn := some ⟨false, idx⟩ }] else []) =
      (if lastUnseen cmp conn runningConn then
          [{ cmd := .disconnect, conn := some ⟨false, idx⟩ }] else []) ++
        (delPaths ⟨false, idx⟩ (unseenPaths cmp conn runningConn) ++
          (newPaths ⟨false, idx⟩ (missingPaths cmp conn runningConn) ++
            if lastUnseen cmp conn runningConn then
              [{ cmd := .connect, conn := some ⟨false, idx⟩ }] else [])) := by
  have hnew : ∀ c ∈ newPaths ⟨false, idx⟩ (missingPaths cmp conn runningConn),
      c.cmd.stage = .netPath := by
    intro c hc
    obtain ⟨p, -, rfl⟩ := List.mem_map.1 hc
    rfl
  have hdel : ∀ c ∈ delPaths ⟨false, idx⟩ (unseenPaths cmp conn runningConn),
      c.cmd.stage = .netPrepDown := by
    intro c hc
    obtain ⟨p, -, rfl⟩ := List.mem_map.1 hc
    rfl
  unfold byStage pathCmds
  rw [decide_eq_true hstate, Bool.and_true]
  simp only [CfgStage.all, List.flatMap_cons, List.flatMap_nil, List.filter_append, filter_stage hnew,
    filter_stage hdel]
  cases lastUnseen cmp conn runningConn <;> simp [AdmCmd.stage]

theorem lastUnseen_iff : lastUnseen cmp conn runningConn = true ↔
    ∃ p, runningConn.paths = [p] ∧ unseenPaths cmp conn runningConn = [p] := by
  unfold lastUnseen
  rw [Bool.and_eq_true, decide_eq_true_eq, Bool.not_eq_true', List.isEmpty_eq_false_iff]
  constructor
  · rintro ⟨hlen, hne⟩
    obtain ⟨p, hp⟩ := List.length_eq_one_iff.1 hlen
    refine ⟨p, hp, ?_⟩
    have hsub : (unseenPaths cmp conn runningConn).Sublist [p] := hp ▸ List.filter_sublist
    rcases List.sublist_singleton.1 hsub with hnil | hone
    · exact absurd hnil hne
    · exact hone
  · rintro ⟨p, hp, hu⟩
    rw [hp, hu]
    exact ⟨rfl, List.cons_ne_nil p []⟩

/-- The paths that are left when the unseen ones are deleted and the missing ones are made. -/
theorem PathsShown.final (h : PathsShown cmp m runningConn) :
    (runningKeys m runningConn \ {k | ∃ p ∈ unseenPaths cmp conn runningConn, pathKey m p = k}) ∪
      {k | ∃ p ∈ missingPaths cmp conn runningConn, pathKey m p = k} = configuredKeys m conn := by
  ext k
  simp only [Set.mem_union, Set.mem_sdiff, Set.mem_ofPred_eq, h.mem_unseen, h.mem_missing]
  constructor
  · rintro (⟨⟨p, hp, rfl⟩, hkept⟩ | ⟨c, ⟨hc, -⟩, rfl⟩)
    · by_contra hno
      exact hkept ⟨p, ⟨hp, hno⟩, rfl⟩
    · exact ⟨c, hc, rfl⟩
  · intro hk
    by_cases hrun : k ∈ runningKeys m runningConn
    · refine Or.inl ⟨hrun, ?_⟩
      rintro ⟨p, ⟨-, hno⟩, rfl⟩
      exact hno hk
    · obtain ⟨c, hc, rfl⟩ := hk
      exact Or.inr ⟨c, ⟨hc, hrun⟩, rfl⟩

/-- The commands for a peer that is made anew. -/
theorem pathsAdjusted_madeAnew (m : Address → A) (conn runningConn : Connection) (idx : Nat) :
    PathsAdjusted m conn runningConn (byStage [{ cmd := .delPeer, conn := some ⟨false, idx⟩ },
      { cmd := .newPath, conn := some ⟨false, idx⟩ }, { cmd := .connect, conn := some ⟨false, idx⟩ }]) := by
  have hstages : byStage [{ cmd := .delPeer, conn := some ⟨false, idx⟩ },
      { cmd := .newPath, conn := some ⟨false, idx⟩ }, { cmd := .connect, conn := some ⟨false, idx⟩ }] =
      [{ cmd := .delPeer, conn := some ⟨false, idx⟩ },
        { cmd := .newPath, conn := some ⟨false, idx⟩ }, { cmd := .connect, conn := some ⟨false, idx⟩ }] :=
    rfl
  rw [hstages]
  refine ⟨keepsLastPath_of_ne (by simp) _, ?_,
    fun _ => ⟨{ cmd := .connect, conn := some ⟨false, idx⟩ }, by simp, rfl⟩⟩
  show (∅ : Set (A × A)) ∪ configuredKeys m conn = configuredKeys m conn
  exact Set.empty_union _

/-- Some running path stays, or there is not more than one. -/
def PathsSafe (m : Address → A) (conn runningConn : Connection) : Prop :=
  runningConn.paths.length ≤ 1 ∨ ∃ p ∈ runningConn.paths, pathKey m p ∈ configuredKeys m conn

theorem PathsShown.keepsLastPath_iff (h : PathsShown cmp m runningConn) (conn : Connection) (idx : Nat) :
    KeepsLastPath m conn ⟨runningKeys m runningConn, lastUnseen cmp conn runningConn⟩
        (delPaths ⟨false, idx⟩ (unseenPaths cmp conn runningConn)) ↔
      PathsSafe m conn runningConn := by
  cases hlast : lastUnseen cmp conn runningConn with
  | true =>
    obtain ⟨p, hp, -⟩ := lastUnseen_iff.1 hlast
    refine iff_of_true (keepsLastPath_of_disconnected _ _ rfl) (Or.inl ?_)
    rw [hp]
    exact Nat.le_refl 1
  | false =>
    constructor
    · intro hkeeps
      by_contra hunsafe
      unfold PathsSafe at hunsafe
      rw [not_or] at hunsafe
      obtain ⟨hmany, hnone⟩ := hunsafe
      -- no path is configured
      have hall : unseenPaths cmp conn runningConn = runningConn.paths := by
        refine List.filter_eq_self.2 fun p hp => ?_
        exact (List.mem_filter.1 (h.mem_unseen.2 ⟨hp, fun hk => hnone ⟨p, hp, hk⟩⟩)).2
      rw [hall] at hkeeps
      refine not_keepsLastPath ⟨false, idx⟩ ?_ rfl h.distinct rfl hkeeps
      rintro hnil
      rw [hnil] at hmany
      exact hmany (Nat.zero_le 1)
    · rintro (hone | ⟨p, hp, hk⟩)
      · -- there is no path, or the one there is stays
        have hunseen : unseenPaths cmp conn runningConn = [] := by
          rw [← Bool.not_eq_true, lastUnseen_iff] at hlast
          match hpaths : runningConn.paths with
          | [] =>
            unfold unseenPaths
            rw [hpaths]
            rfl
          | [p] =>
            have hsub : (unseenPaths cmp conn runningConn).Sublist [p] := hpaths ▸ List.filter_sublist
            rcases List.sublist_singleton.1 hsub with hnil | heq
            · exact hnil
            · exact absurd ⟨p, hpaths, heq⟩ hlast
          | p :: q :: rest =>
            rw [hpaths] at hone
            simp at hone
        rw [hunseen]
        trivial
      · refine keepsLastPath_of_kept _ (show pathKey m p ∈ runningKeys m runningConn from ⟨p, hp, rfl⟩)
          fun q hq hqp => ?_
        exact (h.mem_unseen.1 hq).2 (hqp ▸ hk)

theorem PathsShown.pathsAdjusted_iff (h : PathsShown cmp m runningConn)
    (hstate : runningConn.cstate ≠ .standAlone) (conn : Connection) (idx : Nat) :
    PathsAdjusted m conn runningConn (byStage (pathCmds cmp conn idx runningConn ++
      if lastUnseen cmp conn runningConn then
        [{ cmd := .connect, conn := some ⟨false, idx⟩ }] else [])) ↔ PathsSafe m conn runningConn := by
  rw [byStage_kept cmp conn idx runningConn hstate, ← h.keepsLastPath_iff conn idx]
  have hdisc : (if lastUnseen cmp conn runningConn then
        [({ cmd := .disconnect, conn := some ⟨false, idx⟩ } : CmdCtx)] else []).foldl
      (execPathCmd m conn) ⟨runningKeys m runningConn, false⟩ =
      ⟨runningKeys m runningConn, lastUnseen cmp conn runningConn⟩ := by
    cases lastUnseen cmp conn runningConn <;> rfl
  have hnodel : ∀ c ∈ newPaths ⟨false, idx⟩ (missingPaths cmp conn runningConn) ++
      (if lastUnseen cmp conn runningConn then
        [({ cmd := .connect, conn := some ⟨false, idx⟩ } : CmdCtx)] else []), c.cmd ≠ .delPath := by
    intro c hc
    rcases List.mem_append.1 hc with hc | hc
    · obtain ⟨p, -, rfl⟩ := List.mem_map.1 hc
      exact fun h => by cases h
    · split at hc
      · rw [List.mem_singleton.1 hc]
        exact fun h => by cases h
      · cases hc
  constructor
  · rintro ⟨hlast, -, -⟩
    rw [keepsLastPath_append, keepsLastPath_append, hdisc] at hlast
    exact hlast.2.1
  · intro hkeeps
    refine ⟨?_, ?_, ?_⟩
    · rw [keepsLastPath_append, keepsLastPath_append, hdisc]
      refine ⟨keepsLastPath_of_ne (fun c hc => ?_) _, hkeeps, keepsLastPath_of_ne hnodel _⟩
      split at hc
      · rw [List.mem_singleton.1 hc]
        exact fun h => by cases h
      · cases hc
    · rw [List.foldl_append, List.foldl_append, List.foldl_append, hdisc, foldl_delPaths, foldl_newPaths]
      rw [← @PathsShown.final _ m cmp conn runningConn h]
      cases lastUnseen cmp conn runningConn <;> rfl
    · rintro ⟨c, hc, hcmd⟩
      cases hl : lastUnseen cmp conn runningConn with
      | true => exact ⟨{ cmd := .connect, conn := some ⟨false, idx⟩ }, by simp, rfl⟩
      | false =>
        rw [hl] at hc
        simp only [Bool.false_eq_true, if_false, List.nil_append, List.append_nil, List.mem_append,
          delPaths, newPaths, List.mem_map] at hc
        rcases hc with ⟨p, -, rfl⟩ | ⟨p, -, rfl⟩ <;> cases hcmd

/-- **A round keeps the last path unless two paths or more are all replaced.** -/
theorem adjustRunningConn_paths_iff (h : PathsShown cmp m runningConn)
    (hstate : runningConn.cstate ≠ .standAlone) (res : Resource) (vols : List AdjVolume)
    (conn : Connection) (idx : Nat) (st : NetState) (hv : ValidDep st.sched st.dcmd) :
    PathsAdjusted m conn runningConn (byStage (scheduledSince st.sched
        (adjustRunningConn cmp res vols st conn idx runningConn).sched)) ↔
      MadeAnew cmp conn runningConn ∨ PathsSafe m conn runningConn := by
  rw [← pathsAdjusted_filter_iff, byStage_filter]
  by_cases hnew : MadeAnew cmp conn runningConn
  · rw [scheduledSince_filter (adds_madeAnew st vols hnew)]
    exact iff_of_true (pathsAdjusted_madeAnew m conn runningConn idx) (Or.inl hnew)
  · rw [scheduledSince_filter (adds_kept hv vols hnew hstate), h.pathsAdjusted_iff hstate,
      or_iff_right hnew]

/-- One of two paths stays, the other is replaced. -/
theorem adjustRunningConn_paths_kept :
    PathsAdjusted id
      { peer := some "1"
        paths := [⟨⟨"ipv4", "10.0.0.1", "7000"⟩, ⟨"ipv4", "10.0.0.2", "7000"⟩, false⟩,
          ⟨⟨"ipv4", "10.0.2.1", "7000"⟩, ⟨"ipv4", "10.0.2.2", "7000"⟩, false⟩] }
      { peer := some "1", cstate := .connecting
        paths := [⟨⟨"ipv4", "10.0.0.1", "7000"⟩, ⟨"ipv4", "10.0.0.2", "7000"⟩, false⟩,
          ⟨⟨"ipv4", "10.0.1.1", "7000"⟩, ⟨"ipv4", "10.0.1.2", "7000"⟩, false⟩] }
      (byStage (scheduledSince {} (adjustRunningConn compareAsStrings { id := 0 } []
        ⟨{}, none, false, fun _ => false⟩
        { peer := some "1"
          paths := [⟨⟨"ipv4", "10.0.0.1", "7000"⟩, ⟨"ipv4", "10.0.0.2", "7000"⟩, false⟩,
            ⟨⟨"ipv4", "10.0.2.1", "7000"⟩, ⟨"ipv4", "10.0.2.2", "7000"⟩, false⟩] } 0
        { peer := some "1", cstate := .connecting
          paths := [⟨⟨"ipv4", "10.0.0.1", "7000"⟩, ⟨"ipv4", "10.0.0.2", "7000"⟩, false⟩,
            ⟨⟨"ipv4", "10.0.1.1", "7000"⟩, ⟨"ipv4", "10.0.1.2", "7000"⟩, false⟩] }).sched)) := by
  refine (adjustRunningConn_paths_iff ?_ ?_ _ _ _ _ ⟨{}, none, false, fun _ => false⟩ ?_).2 ?_
  · exact ⟨fun a b => decide_eq_true_iff, by simp [pathKey]⟩
  · exact fun h => by cases h
  · exact fun j hj => by cases hj
  · exact Or.inr (Or.inr ⟨_, List.mem_cons_self, ⟨_, List.mem_cons_self, rfl⟩⟩)

/-- Both paths are replaced: the second `del-path` removes the last path of a connection that is
    connecting. -/
theorem adjustRunningConn_deletes_last :
    ¬PathsAdjusted id
      { peer := some "1", paths := [⟨⟨"ipv4", "10.0.2.1", "7000"⟩, ⟨"ipv4", "10.0.2.2", "7000"⟩, false⟩] }
      { peer := some "1", cstate := .connecting
        paths := [⟨⟨"ipv4", "10.0.0.1", "7000"⟩, ⟨"ipv4", "10.0.0.2", "7000"⟩, false⟩,
          ⟨⟨"ipv4", "10.0.1.1", "7000"⟩, ⟨"ipv4", "10.0.1.2", "7000"⟩, false⟩] }
      (byStage (scheduledSince {} (adjustRunningConn compareAsStrings { id := 0 } []
        ⟨{}, none, false, fun _ => false⟩
        { peer := some "1", paths := [⟨⟨"ipv4", "10.0.2.1", "7000"⟩, ⟨"ipv4", "10.0.2.2", "7000"⟩, false⟩] } 0
        { peer := some "1", cstate := .connecting
          paths := [⟨⟨"ipv4", "10.0.0.1", "7000"⟩, ⟨"ipv4", "10.0.0.2", "7000"⟩, false⟩,
            ⟨⟨"ipv4", "10.0.1.1", "7000"⟩, ⟨"ipv4", "10.0.1.2", "7000"⟩, false⟩] }).sched)) := by
  rintro ⟨hlast, -, -⟩
  -- the commands are `del-path`, `del-path`, `new-path`
  have hnot := hlast.2.1 _ rfl rfl ?_
  · cases hnot
  · ext k
    constructor
    · rintro ⟨⟨p, hp, rfl⟩, hk⟩
      rcases List.mem_cons.1 hp with rfl | hp
      · exact absurd rfl hk
      · rw [List.mem_singleton.1 hp]
        rfl
    · rintro rfl
      exact ⟨⟨_, List.mem_cons_of_mem _ List.mem_cons_self, rfl⟩, by simp [pathKey]⟩

end Paths

end DrbdUtils.Adm
