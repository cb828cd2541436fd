import Mathlib.Data.List.Pairwise
import DrbdUtils.Adm.AdjustNet

/-!
# Adjusting volumes with drbdadm adjust

The commands that `adjust_drbd()` and `adjust_disk()` schedule for volumes, in the order in which
`run_deferred_cmds()` runs them, and what they do to the volumes of the kernel.  All `new-minor`
commands form a chain that every `detach` and `del-minor` waits for, although the stage of these is
the earlier one.

* `compareVolumes_perm` — what the comparison makes of the configured and the running volumes.
* `issued_touching` — the commands for one minor are run in the order in which they were scheduled.
* `adjust_converges_iff` — adjust creates no volume or minor that still exists, and leaves exactly
  the configured volumes, if and only if no configured volume that is not running as it is has the
  number or the minor of a running one.
-/

set_option autoImplicit false

namespace DrbdUtils.Adm

/-! ## The comparison -/

section Compare

variable {cmp : Compare} {conf kern : List Volume}

/-- What becomes of a configured volume. -/
def annotate (cmp : Compare) (kern : List Volume) (c : Volume) : AdjVolume :=
  match matchingVolume c kern with
  | some k => compareVolume cmp c k
  | none => newVolume c

/-- The running volumes that are not configured. -/
def goneVolumes (conf kern : List Volume) : List Volume :=
  kern.filter fun k => conf.all (·.vnr ≠ k.vnr)

theorem find?_dropWhile_lt {c : Volume} {n : Nat} (hn : n ≤ c.vnr) (kern : List Volume) :
    (kern.dropWhile (·.vnr < n)).find? (·.vnr = c.vnr) = kern.find? (·.vnr = c.vnr) := by
  induction kern with
  | nil => rfl
  | cons k kern ih =>
    rw [List.dropWhile_cons]
    split
    · rename_i hk
      rw [ih, List.find?_cons_of_neg (by simp at hk ⊢; omega)]
    · rfl

theorem goneVolumes_of_lt {c : Volume} (h : ∀ k ∈ kern, c.vnr < k.vnr) :
    goneVolumes (c :: conf) kern = goneVolumes conf kern := by
  unfold goneVolumes
  refine List.filter_congr fun k hk => ?_
  have hne : c.vnr ≠ k.vnr := (h k hk).ne
  simp [hne]

/-- Running volumes in front of the first configured one are gone. -/
theorem goneVolumes_front {c : Volume} (hlt : ∀ c' ∈ conf, c.vnr < c'.vnr) {front : List Volume}
    (hfront : ∀ k ∈ front, k.vnr < c.vnr) (rest : List Volume) :
    goneVolumes (c :: conf) (front ++ rest) = front ++ goneVolumes (c :: conf) rest := by
  unfold goneVolumes
  rw [List.filter_append, List.filter_eq_self.2]
  intro k hk
  rw [List.all_eq_true]
  intro c' hc'
  have hk' := hfront k hk
  rcases List.mem_cons.1 hc' with rfl | hc'
  · simpa using hk'.ne'
  · have := hlt c' hc'
    simp
    omega

/-- **The loop of the comparison**, for volumes ordered by number. -/
theorem compareLoop_eq (cmp : Compare) (hc : conf.Pairwise (·.vnr < ·.vnr))
    (hk : kern.Pairwise (·.vnr < ·.vnr)) :
    compareLoop cmp conf kern = (conf.map (annotate cmp kern), goneVolumes conf kern) := by
  induction conf generalizing kern with
  | nil => simp [compareLoop, goneVolumes]
  | cons c conf ih =>
    obtain ⟨hlt, hc'⟩ := List.pairwise_cons.1 hc
    have hfront : ∀ k ∈ kern.takeWhile (·.vnr < c.vnr), k.vnr < c.vnr := by
      intro k hk
      simpa using List.all_eq_true.1 List.all_takeWhile k hk
    have hgone := goneVolumes_front hlt hfront (kern.dropWhile (·.vnr < c.vnr))
    rw [List.takeWhile_append_dropWhile] at hgone
    have hkd : (kern.dropWhile (·.vnr < c.vnr)).Pairwise (·.vnr < ·.vnr) :=
      hk.sublist (List.dropWhile_sublist _)
    have hfind : ∀ c' : Volume, c.vnr ≤ c'.vnr → (kern.dropWhile (·.vnr < c.vnr)).find? (·.vnr = c'.vnr) =
        kern.find? (·.vnr = c'.vnr) := fun c' h => find?_dropWhile_lt h kern
    have hmap : ∀ rest, (∀ c' ∈ conf, rest.find? (·.vnr = c'.vnr) = kern.find? (·.vnr = c'.vnr)) →
        conf.map (annotate cmp rest) = conf.map (annotate cmp kern) := by
      intro rest h
      refine List.map_congr_left fun c' hc' => ?_
      unfold annotate matchingVolume
      rw [h c' hc']
    have hhead := List.head?_dropWhile_not (fun k : Volume => decide (k.vnr < c.vnr)) kern
    unfold compareLoop
    dsimp only
    rw [List.map_cons]
    split
    · -- no running volume is left
      rename_i hnil
      rw [hnil] at hfind hgone
      have hann : annotate cmp kern c = newVolume c := by
        unfold annotate matchingVolume
        rw [← hfind c (Nat.le_refl _)]
        rfl
      rw [ih hc' List.Pairwise.nil, hann, hgone,
        hmap [] fun c' h => hfind c' (hlt c' h).le]
      rfl
    · rename_i k rest hcons
      rw [hcons] at hfind hgone hkd hhead
      obtain ⟨hkrest, hrest⟩ := List.pairwise_cons.1 hkd
      have hge : c.vnr ≤ k.vnr := by simpa using hhead
      split
      · -- the volume is not running
        rename_i hgt
        have hall : ∀ k' ∈ k :: rest, c.vnr < k'.vnr := by
          intro k' hk'
          rcases List.mem_cons.1 hk' with rfl | hk'
          · exact hgt
          · exact lt_trans hgt (hkrest k' hk')
        have hann : annotate cmp kern c = newVolume c := by
          unfold annotate matchingVolume
          rw [← hfind c (Nat.le_refl _), List.find?_eq_none.2]
          intro k' hk'
          simpa using (hall k' hk').ne'
        rw [ih hc' hkd, hann, hgone, hmap _ fun c' h => hfind c' (hlt c' h).le,
          goneVolumes_of_lt hall]
      · -- it is running
        rename_i hngt
        have heq : k.vnr = c.vnr := by omega
        have hann : annotate cmp kern c = compareVolume cmp c k := by
          unfold annotate matchingVolume
          rw [← hfind c (Nat.le_refl _), List.find?_cons_of_pos (by simpa using heq)]
        have hfind' : ∀ c' ∈ conf, rest.find? (·.vnr = c'.vnr) = kern.find? (·.vnr = c'.vnr) := by
          intro c' h
          have := hlt c' h
          rw [← hfind c' this.le, List.find?_cons_of_neg (by simp; omega)]
        have hdrop : goneVolumes (c :: conf) (k :: rest) = goneVolumes conf rest := by
          have hk' : goneVolumes (c :: conf) (k :: rest) = goneVolumes (c :: conf) rest := by
            unfold goneVolumes
            rw [List.filter_cons_of_neg]
            simp [heq]
          rw [hk', goneVolumes_of_lt fun k' h => heq ▸ hkrest k' h]
        rw [ih hc' hrest, hann, hgone, hmap _ hfind', hdrop]

theorem insertVolume_perm (l : List AdjVolume) (e : AdjVolume) : (insertVolume l e).Perm (e :: l) := by
  unfold insertVolume
  split
  · rename_i h
    rw [List.getLast?_eq_none_iff.1 h]
  · split
    · exact List.perm_append_singleton e l
    · refine List.perm_middle.trans ?_
      rw [List.takeWhile_append_dropWhile]

theorem foldl_insertVolume_perm (es l : List AdjVolume) :
    (es.foldl insertVolume l).Perm (l ++ es) := by
  induction es generalizing l with
  | nil => rw [List.append_nil, List.foldl_nil]
  | cons e es ih =>
    refine (ih _).trans ?_
    refine (List.Perm.append_right es (insertVolume_perm l e)).trans ?_
    exact List.perm_middle.symm

/-- **The comparison.** -/
theorem compareVolumes_perm (cmp : Compare) (hc : conf.Pairwise (·.vnr < ·.vnr))
    (hk : kern.Pairwise (·.vnr < ·.vnr)) :
    (compareVolumes cmp conf kern).Perm (conf.map (annotate cmp kern) ++
      (goneVolumes conf kern).map newToBeDeletedMinorFromTemplate) := by
  unfold compareVolumes
  rw [compareLoop_eq cmp hc hk]
  refine (foldl_insertVolume_perm _ _).trans (List.Perm.append_left _ ?_)
  exact foldl_insertVolume_perm _ []

end Compare

/-! ## The volumes of the kernel -/

/-- A volume of the resource in the kernel. -/
structure KernelVolume where
  vnr : Nat
  minor : Nat
  disk : Option String
  deriving DecidableEq

/-- What the running configuration says about the kernel. -/
def kernelOf (kern : List Volume) : List KernelVolume :=
  kern.map fun v => ⟨v.vnr, v.deviceMinor, v.disk.filter (· ≠ "none")⟩

/-- What a command that succeeds does to the volumes. -/
def execCmd (K : List KernelVolume) (c : CmdCtx) : List KernelVolume :=
  match c.vol with
  | none => K
  | some v =>
    match c.cmd with
    | .newMinor => K ++ [⟨v.vnr, v.deviceMinor, none⟩]
    | .detach => K.map fun k => if k.minor = v.deviceMinor then { k with disk := none } else k
    | .delMinor => K.filter (·.minor ≠ v.deviceMinor)
    | .attach => K.map fun k => if k.minor = v.deviceMinor then { k with disk := v.disk } else k
    | _ => K

/-- A command about the volume with this minor. -/
def CmdCtx.touches (m : Nat) (c : CmdCtx) : Bool := c.cmd.isVolume && c.vol.any (·.deviceMinor = m)

section Kernel

variable {K : List KernelVolume}

theorem filter_map_minor (m : Nat) (f : KernelVolume → KernelVolume) (hf : ∀ k, (f k).minor = k.minor)
    (K : List KernelVolume) : (K.map f).filter (·.minor = m) = (K.filter (·.minor = m)).map f := by
  rw [List.filter_map]
  congr 1
  refine List.filter_congr fun k _ => ?_
  simp [hf k]

/-- A command changes the volume with its minor, and that one as if it were alone. -/
theorem execCmd_at (m : Nat) (K : List KernelVolume) (c : CmdCtx) :
    (execCmd K c).filter (·.minor = m) = if c.touches m then execCmd (K.filter (·.minor = m)) c
      else K.filter (·.minor = m) := by
  obtain ⟨cmd, vol, conn, path⟩ := c
  cases vol with
  | none => simp [CmdCtx.touches, execCmd]
  | some v =>
    have hset : ∀ d : Option String, ((K.map fun k => if k.minor = v.deviceMinor then
        { k with disk := d } else k).filter (·.minor = m)) =
        if v.deviceMinor = m then (K.filter (·.minor = m)).map fun k =>
          if k.minor = v.deviceMinor then { k with disk := d } else k
        else K.filter (·.minor = m) := by
      intro d
      rw [filter_map_minor m _ (fun k => by split <;> rfl)]
      split
      · rfl
      · rename_i hne
        refine (List.map_congr_left fun k hk => ?_).trans (List.map_id _)
        have : k.minor = m := by simpa using (List.mem_filter.1 hk).2
        rw [if_neg (by omega)]
        rfl
    cases cmd with
    | newMinor =>
      simp only [execCmd, CmdCtx.touches, AdmCmd.isVolume, List.filter_append, Option.any_some,
        Bool.true_and, decide_eq_true_eq]
      by_cases hm : v.deviceMinor = m
      · simp [hm]
      · simp [hm]
    | detach =>
      simp only [execCmd, CmdCtx.touches, AdmCmd.isVolume, Option.any_some, Bool.true_and,
        decide_eq_true_eq]
      exact hset none
    | attach =>
      simp only [execCmd, CmdCtx.touches, AdmCmd.isVolume, Option.any_some, Bool.true_and,
        decide_eq_true_eq]
      exact hset v.disk
    | delMinor =>
      simp only [execCmd, CmdCtx.touches, AdmCmd.isVolume, Option.any_some, Bool.true_and,
        decide_eq_true_eq, List.filter_filter]
      by_cases hm : v.deviceMinor = m
      · rw [if_pos hm]
        refine List.filter_congr fun k _ => ?_
        rw [Bool.and_comm]
      · rw [if_neg hm]
        refine List.filter_congr fun k _ => ?_
        by_cases hk : k.minor = m
        · have : k.minor ≠ v.deviceMinor := by omega
          simp [hk, Ne.symm hm]
        · simp [hk]
    | _ => simp [execCmd, CmdCtx.touches, AdmCmd.isVolume]

/-- The commands for a minor decide what becomes of its volume. -/
theorem foldl_execCmd_at (m : Nat) (l : List CmdCtx) (K : List KernelVolume) :
    (l.foldl execCmd K).filter (·.minor = m) =
      (l.filter (·.touches m)).foldl execCmd (K.filter (·.minor = m)) := by
  induction l generalizing K with
  | nil => rfl
  | cons c l ih =>
    rw [List.foldl_cons, ih, execCmd_at, List.filter_cons]
    split <;> rfl

/-- Volumes that are there come from the kernel or from a command. -/
theorem mem_foldl_execCmd {l : List CmdCtx} {t : KernelVolume} (ht : t ∈ l.foldl execCmd K) :
    (∃ k ∈ K, k.vnr = t.vnr ∧ k.minor = t.minor) ∨
      ∃ c ∈ l, c.cmd = .newMinor ∧ ∃ v, c.vol = some v ∧ v.vnr = t.vnr ∧ v.deviceMinor = t.minor := by
  induction l generalizing K with
  | nil => exact .inl ⟨t, ht, rfl, rfl⟩
  | cons c l ih =>
    rcases ih ht with ⟨k, hk, hkt⟩ | ⟨c', hc', h⟩
    · have hstep : (∃ k' ∈ K, k'.vnr = k.vnr ∧ k'.minor = k.minor) ∨ c.cmd = .newMinor ∧
          ∃ v, c.vol = some v ∧ v.vnr = k.vnr ∧ v.deviceMinor = k.minor := by
        unfold execCmd at hk
        split at hk
        · exact .inl ⟨k, hk, rfl, rfl⟩
        rename_i v hv
        split at hk
        · rename_i hcmd
          rcases List.mem_append.1 hk with hk | hk
          · exact .inl ⟨k, hk, rfl, rfl⟩
          · rw [List.mem_singleton] at hk
            subst hk
            exact .inr ⟨hcmd, v, hv, rfl, rfl⟩
        · obtain ⟨k', hk', rfl⟩ := List.mem_map.1 hk
          refine .inl ⟨k', hk', ?_⟩
          split <;> exact ⟨rfl, rfl⟩
        · exact .inl ⟨k, List.mem_of_mem_filter hk, rfl, rfl⟩
        · obtain ⟨k', hk', rfl⟩ := List.mem_map.1 hk
          refine .inl ⟨k', hk', ?_⟩
          split <;> exact ⟨rfl, rfl⟩
        · exact .inl ⟨k, hk, rfl, rfl⟩
      rcases hstep with ⟨k', hk', h1, h2⟩ | ⟨hcmd, v, hv, h1, h2⟩
      · exact .inl ⟨k', hk', h1.trans hkt.1, h2.trans hkt.2⟩
      · exact .inr ⟨c, List.mem_cons_self, hcmd, v, hv, h1.trans hkt.1, h2.trans hkt.2⟩
    · exact .inr ⟨c', List.mem_cons_of_mem _ hc', h⟩

/-- Without a `del-minor` nothing is lost. -/
theorem foldl_execCmd_keeps {l : List CmdCtx} (hl : ∀ c ∈ l, c.cmd ≠ .delMinor) {k : KernelVolume}
    (hk : k ∈ K) : ∃ t ∈ l.foldl execCmd K, t.vnr = k.vnr ∧ t.minor = k.minor := by
  induction l generalizing K k with
  | nil => exact ⟨k, hk, rfl, rfl⟩
  | cons c l ih =>
    have hstep : ∃ t ∈ execCmd K c, t.vnr = k.vnr ∧ t.minor = k.minor := by
      unfold execCmd
      split
      · exact ⟨k, hk, rfl, rfl⟩
      split
      · exact ⟨k, List.mem_append_left _ hk, rfl, rfl⟩
      · refine ⟨_, List.mem_map_of_mem hk, ?_⟩
        split <;> exact ⟨rfl, rfl⟩
      · rename_i hcmd
        exact absurd hcmd (hl c List.mem_cons_self)
      · refine ⟨_, List.mem_map_of_mem hk, ?_⟩
        split <;> exact ⟨rfl, rfl⟩
      · exact ⟨k, hk, rfl, rfl⟩
    obtain ⟨t, ht, h1, h2⟩ := hstep
    obtain ⟨t', ht', g1, g2⟩ := ih (fun c' hc' => hl c' (List.mem_cons_of_mem _ hc')) ht
    exact ⟨t', ht', g1.trans h1, g2.trans h2⟩

end Kernel

/-! ## The commands for volumes -/

/-- The commands of a resource for one minor. -/
def trace (id m : Nat) (cmds : List (DeferredCmd CmdCtx)) : List CmdCtx :=
  (cmds.filter fun d => d.res = id && d.cmd.touches m).map (·.cmd)

/-- What is scheduled for a new volume. -/
def newCmds (v : AdjVolume) : List CmdCtx :=
  if v.adjNewMinor then [{ cmd := .newMinor, vol := some v.toVolume }] else []

/-- What is scheduled for a volume by `adjust_disk`, as far as it matters here. -/
def diskCmds (kern : List Volume) (v : AdjVolume) : List CmdCtx :=
  let k := (matchingVolume v.toVolume kern).getD v.toVolume
  (if v.adjDetach then [{ cmd := .detach, vol := some k }] else []) ++
    (if v.adjDelMinor then [{ cmd := .delMinor, vol := some k }] else []) ++
    (if v.adjAttach then [{ cmd := .attach, vol := some v.toVolume }] else [])

section Trace

variable {id m : Nat} {s s' : Sched CmdCtx} {res : Resource}

theorem trace_append (id m : Nat) (l l' : List (DeferredCmd CmdCtx)) :
    trace id m (l ++ l') = trace id m l ++ trace id m l' := by
  unfold trace
  rw [List.filter_append, List.map_append]

/-- Commands that are not for volumes leave no trace. -/
theorem trace_of_grows {P : DeferredCmd CmdCtx → Prop} (h : Grows P s s')
    (hp : ∀ d, P d → d.res = id → d.cmd.cmd.isVolume = false) :
    trace id m s'.cmds = trace id m s.cmds := by
  obtain ⟨new, hc, hnew⟩ := h.cmds
  rw [hc, trace_append]
  have : trace id m new = [] := by
    unfold trace
    rw [List.filter_eq_nil_iff.2, List.map_nil]
    intro d hd
    by_cases hres : d.res = id
    · simp [CmdCtx.touches, hp d (hnew d hd) hres]
    · simp [hres]
  rw [this, List.append_nil]

theorem trace_adjSchedule (m : Nat) (s : Sched CmdCtx) (id : Nat) (ctx : CmdCtx) (dep : Option Nat) :
    trace id m (adjSchedule s id ctx dep).1.cmds =
      trace id m s.cmds ++ ([ctx].filter (·.touches m)) := by
  rw [adjSchedule_cmds, trace_append]
  congr 1
  unfold trace
  by_cases ht : ctx.touches m
  · simp [ht]
  · simp [ht]

theorem trace_ite_adjSchedule (m : Nat) (x : Sched CmdCtx × Option Nat) (id : Nat) (ctx : CmdCtx)
    (b : Bool) : trace id m (if b then adjSchedule x.1 id ctx x.2 else x).1.cmds =
      trace id m x.1.cmds ++ ((if b then [ctx] else []).filter (·.touches m)) := by
  cases b with
  | true => exact trace_adjSchedule m x.1 id ctx x.2
  | false => simp

theorem trace_ite_fst_adjSchedule (m : Nat) (s : Sched CmdCtx) (dep : Option Nat) (id : Nat)
    (ctx : CmdCtx) (b : Bool) : trace id m (if b then (adjSchedule s id ctx dep).1 else s).cmds =
      trace id m s.cmds ++ ((if b then [ctx] else []).filter (·.touches m)) := by
  cases b with
  | true => exact trace_adjSchedule m s id ctx dep
  | false => simp

theorem trace_adjustNewMinorStep (m : Nat) (res : Resource) (both : Bool)
    {x : Sched CmdCtx × Option Nat} (v : AdjVolume) :
    trace res.id m (adjustNewMinorStep res both x v).1.cmds =
      trace res.id m x.1.cmds ++ (newCmds v).filter (·.touches m) := by
  unfold adjustNewMinorStep newCmds
  split
  · have hsched := trace_adjSchedule m x.1 res.id { cmd := .newMinor, vol := some v.toVolume } x.2
    split
    · rw [← hsched]
      refine trace_of_grows (schedulePeerDeviceOptionsOfVol_grows res v.toVolume adjSchedule_valid) ?_
      rintro d ⟨_, _, hc⟩ _
      rw [hc]
      rfl
    · exact hsched
  · simp

theorem trace_adjustDiskStep (m : Nat) (id : Nat) (kern : List Volume) (x : Sched CmdCtx × Option Nat)
    (v : AdjVolume) : trace id m (adjustDiskStep id kern x v).1.cmds =
      trace id m x.1.cmds ++ (diskCmds kern v).filter (·.touches m) := by
  unfold adjustDiskStep diskCmds
  dsimp only
  generalize (matchingVolume v.toVolume kern).getD v.toVolume = k
  rw [List.filter_append, List.filter_append, trace_ite_fst_adjSchedule]
  have hnone : ∀ cmd : AdmCmd, cmd.isVolume = false → ∀ b : Bool,
      (if b = true then [({ cmd := cmd, vol := some v.toVolume } : CmdCtx)] else []).filter
        (·.touches m) = [] := by
    intro cmd hcmd b
    cases b with
    | true => simp [CmdCtx.touches, hcmd]
    | false => rfl
  rw [hnone .resize rfl, List.append_nil]
  have hopts : ∀ (t : Sched CmdCtx) (dep : Option Nat) (b b' : Bool),
      trace id m (if b = true then (if b' = true then
        (adjSchedule t id { cmd := .diskOptionsEarlyDefaults, vol := some v.toVolume } dep).1
        else (adjSchedule t id { cmd := .diskOptionsDefaults, vol := some v.toVolume } dep).1)
        else t).cmds = trace id m t.cmds := by
    intro t dep b b'
    cases b with
    | false => rfl
    | true =>
      cases b' with
      | true =>
        refine (trace_adjSchedule m t id _ dep).trans ?_
        simp [CmdCtx.touches, AdmCmd.isVolume]
      | false =>
        refine (trace_adjSchedule m t id _ dep).trans ?_
        simp [CmdCtx.touches, AdmCmd.isVolume]
  rw [hopts, trace_ite_fst_adjSchedule, trace_ite_adjSchedule, trace_ite_adjSchedule,
    List.append_assoc, List.append_assoc, List.append_assoc]

/-- A loop over volumes that schedules the given commands. -/
theorem trace_foldl {α : Type} {f : Sched CmdCtx × Option Nat → α → Sched CmdCtx × Option Nat}
    {g : α → List CmdCtx}
    (hf : ∀ x v, trace id m (f x v).1.cmds = trace id m x.1.cmds ++ (g v).filter (·.touches m))
    (l : List α) (x : Sched CmdCtx × Option Nat) :
    trace id m (l.foldl f x).1.cmds = trace id m x.1.cmds ++ (l.flatMap g).filter (·.touches m) := by
  induction l generalizing x with
  | nil => simp
  | cons v l ih =>
    rw [List.foldl_cons, ih, hf, List.flatMap_cons, List.filter_append, List.append_assoc]

end Trace

/-! ## The chain of volumes -/

/-- A link of the chain: `new-minor`, `detach` or `del-minor`. -/
def IsVolumeLink (d : DeferredCmd CmdCtx) : Prop :=
  d.cmd.cmd.isVolume = true ∧ d.cmd.cmd ≠ .attach

/-- What holds while commands for volumes are scheduled: the end of the chain, and every command
    for a volume, follow all links before. -/
structure VolumeChain (s₀ : Sched CmdCtx) (x : Sched CmdCtx × Option Nat) : Prop where
  valid : ValidDep x.1 x.2
  chain : ∀ (i : Nat) (d : DeferredCmd CmdCtx), s₀.cmds.length ≤ i → x.1.cmds[i]? = some d →
    IsVolumeLink d → ∃ k, x.2 = some k ∧ Follows x.1.cmds k i
  ordered : ∀ (i j : Nat) (d e : DeferredCmd CmdCtx), s₀.cmds.length ≤ i → i < j →
    x.1.cmds[i]? = some d → IsVolumeLink d → x.1.cmds[j]? = some e → e.cmd.cmd.isVolume = true →
    Follows x.1.cmds j i

section VolumeChain

variable {s₀ : Sched CmdCtx} {x : Sched CmdCtx × Option Nat} {id : Nat} {ctx : CmdCtx}

/-- A new command follows every link. -/
theorem VolumeChain.new_follows (h : VolumeChain s₀ x) (id : Nat) (ctx : CmdCtx) {i : Nat}
    {d : DeferredCmd CmdCtx} (hi : s₀.cmds.length ≤ i) (hd : x.1.cmds[i]? = some d)
    (hl : IsVolumeLink d) :
    Follows (adjSchedule x.1 id ctx x.2).1.cmds x.1.cmds.length i := by
  obtain ⟨k, hk, hf⟩ := h.chain i d hi hd hl
  rw [adjSchedule_cmds]
  refine .step (d := ⟨ctx, id, ctx.cmd.stage, x.2⟩) ?_ hk (hf.append _)
  simp

theorem VolumeChain.new_ordered (h : VolumeChain s₀ x) (id : Nat) (ctx : CmdCtx) :
    ∀ (i j : Nat) (d e : DeferredCmd CmdCtx), s₀.cmds.length ≤ i → i < j →
      (adjSchedule x.1 id ctx x.2).1.cmds[i]? = some d → IsVolumeLink d →
      (adjSchedule x.1 id ctx x.2).1.cmds[j]? = some e → e.cmd.cmd.isVolume = true →
      Follows (adjSchedule x.1 id ctx x.2).1.cmds j i := by
  intro i j d e hi hij hd hl he hv
  rw [adjSchedule_cmds] at hd he
  have hlt := lt_of_getElem?_eq_some he
  rw [List.length_append, List.length_singleton] at hlt
  have hd' : x.1.cmds[i]? = some d := by
    rwa [List.getElem?_append_left (by omega)] at hd
  rcases getElem?_append_singleton.1 he with he | ⟨rfl, _⟩
  · rw [adjSchedule_cmds]
    exact (h.ordered i j d e hi hij hd' hl he hv).append _
  · exact h.new_follows id ctx hi hd' hl

theorem VolumeChain.push (h : VolumeChain s₀ x) (id : Nat) (ctx : CmdCtx) :
    VolumeChain s₀ (adjSchedule x.1 id ctx x.2) := by
  refine ⟨adjSchedule_valid, fun i d hi hd hl => ?_, h.new_ordered id ctx⟩
  refine ⟨_, adjSchedule_snd, ?_⟩
  rw [adjSchedule_cmds] at hd
  rcases getElem?_append_singleton.1 hd with hd | ⟨rfl, _⟩
  · exact h.new_follows id ctx hi hd hl
  · exact .refl _

theorem VolumeChain.aside (h : VolumeChain s₀ x) (id : Nat) {ctx : CmdCtx}
    (hc : ctx.cmd.isVolume = true → ctx.cmd = .attach) :
    VolumeChain s₀ ((adjSchedule x.1 id ctx x.2).1, x.2) := by
  have hg : Grows (fun _ => True) x.1 (adjSchedule x.1 id ctx x.2).1 := adjSchedule_grows trivial h.valid
  refine ⟨hg.validDep h.valid, fun i d hi hd hl => ?_, h.new_ordered id ctx⟩
  dsimp only at hd
  rw [adjSchedule_cmds] at hd
  rcases getElem?_append_singleton.1 hd with hd | ⟨_, rfl⟩
  · obtain ⟨k, hk, hf⟩ := h.chain i d hi hd hl
    exact ⟨k, hk, hg.follows hf⟩
  · exact absurd (hc hl.1) hl.2

theorem VolumeChain.other {P : DeferredCmd CmdCtx → Prop} {s' : Sched CmdCtx} (h : VolumeChain s₀ x)
    (hg : Grows P x.1 s') (hp : ∀ d, P d → d.cmd.cmd.isVolume = false) : VolumeChain s₀ (s', x.2) := by
  have hold : ∀ {i : Nat} {d : DeferredCmd CmdCtx}, s'.cmds[i]? = some d →
      d.cmd.cmd.isVolume = true → x.1.cmds[i]? = some d := by
    intro i d hd hv
    rcases hg.cases hd with hd | ⟨_, hpd⟩
    · exact hd
    · rw [hp d hpd] at hv
      cases hv
  refine ⟨hg.validDep h.valid, fun i d hi hd hl => ?_, fun i j d e hi hij hd hl he hv => ?_⟩
  · obtain ⟨k, hk, hf⟩ := h.chain i d hi (hold hd hl.1) hl
    exact ⟨k, hk, hg.follows hf⟩
  · exact hg.follows (h.ordered i j d e hi hij (hold hd hl.1) hl (hold he hv) hv)

theorem VolumeChain.ite_push (h : VolumeChain s₀ x) (id : Nat) (ctx : CmdCtx) (b : Bool) :
    VolumeChain s₀ (if b then adjSchedule x.1 id ctx x.2 else x) := by
  cases b with
  | true => exact h.push id ctx
  | false => exact h

theorem VolumeChain.ite_aside (h : VolumeChain s₀ x) (id : Nat) {ctx : CmdCtx}
    (hc : ctx.cmd.isVolume = true → ctx.cmd = .attach) (b : Bool) :
    VolumeChain s₀ (if b then (adjSchedule x.1 id ctx x.2).1 else x.1, x.2) := by
  cases b with
  | true => exact h.aside id hc
  | false => exact h

theorem VolumeChain.newMinorStep (h : VolumeChain s₀ x) (res : Resource) (both : Bool) (v : AdjVolume) :
    VolumeChain s₀ (adjustNewMinorStep res both x v) := by
  unfold adjustNewMinorStep
  split
  · have h1 := h.push res.id { cmd := .newMinor, vol := some v.toVolume }
    split
    · refine h1.other (schedulePeerDeviceOptionsOfVol_grows res v.toVolume h1.valid) ?_
      rintro d ⟨_, _, hc⟩
      rw [hc]
      rfl
    · exact h1
  · exact h

theorem VolumeChain.diskStep (h : VolumeChain s₀ x) (id : Nat) (kern : List Volume) (v : AdjVolume) :
    VolumeChain s₀ (adjustDiskStep id kern x v) := by
  unfold adjustDiskStep
  dsimp only
  generalize (matchingVolume v.toVolume kern).getD v.toVolume = k
  have h2 := (h.ite_push id { cmd := .detach, vol := some k } v.adjDetach).ite_push id
    { cmd := .delMinor, vol := some k } v.adjDelMinor
  generalize (if v.adjDelMinor = true then adjSchedule _ id { cmd := .delMinor, vol := some k } _
    else _) = y at h2 ⊢
  have h3 : VolumeChain s₀ (if v.adjAttach = true then (adjSchedule y.1 id
      { cmd := .attach, vol := some v.toVolume } y.2).1 else y.1, y.2) :=
    h2.ite_aside id (fun _ => rfl) v.adjAttach
  generalize (if v.adjAttach = true then (adjSchedule y.1 id
    { cmd := .attach, vol := some v.toVolume } y.2).1 else y.1) = t at h3 ⊢
  have h4 : VolumeChain s₀ (if v.adjDiskOpts = true then
      (if (matchingVolume v.toVolume kern).any (bitmapWillBeEnabled v.toVolume ·) = true then
        (adjSchedule t id { cmd := .diskOptionsEarlyDefaults, vol := some v.toVolume } y.2).1
      else (adjSchedule t id { cmd := .diskOptionsDefaults, vol := some v.toVolume } y.2).1)
      else t, y.2) := by
    split
    · split
      · exact h3.aside id fun hc => by cases hc
      · exact h3.aside id fun hc => by cases hc
    · exact h3
  exact h4.ite_aside id (fun hc => by cases hc) v.adjResize

theorem VolumeChain.foldl {α : Type} {f : Sched CmdCtx × Option Nat → α → Sched CmdCtx × Option Nat}
    (hf : ∀ x v, VolumeChain s₀ x → VolumeChain s₀ (f x v)) (l : List α) (h : VolumeChain s₀ x) :
    VolumeChain s₀ (l.foldl f x) := by
  induction l generalizing x with
  | nil => exact h
  | cons v l ih => exact ih (hf x v h)

end VolumeChain

/-! ## What adjust schedules -/

/-- What `adjust_drbd` leaves in the queues, as far as volumes are concerned: `sm` is the state after
    the new minors, and `sl` the one before `adjust_net`. -/
structure VolumeSpec (res : Resource) (kern : List Volume) (vols : List AdjVolume)
    (s₀ s₁ : Sched CmdCtx) : Prop where
  built : Built s₁
  states : ∃ sm sl, Grows (IsNew res.id) s₀ sm ∧ Grows (IsDisk res.id) sm sl ∧
    (∃ rest, s₁.cmds = sl.cmds ++ rest ∧ ∀ d ∈ rest, d.cmd.cmd.isVolume = false) ∧
    ∀ k, s₀.cmds.length ≤ k → k < sl.cmds.length → s₁.done k = false
  trace : ∀ m, trace res.id m s₁.cmds = trace res.id m s₀.cmds ++
    ((vols.flatMap newCmds).filter (·.touches m) ++ (vols.flatMap (diskCmds kern)).filter (·.touches m))
  ordered : ∀ (i j : Nat) (d e : DeferredCmd CmdCtx), s₀.cmds.length ≤ i → i < j →
    s₁.cmds[i]? = some d → IsVolumeLink d → s₁.cmds[j]? = some e → e.cmd.cmd.isVolume = true →
    Follows s₁.cmds j i

section Spec

variable {cmp : Compare} {res : Resource} {s₀ : Sched CmdCtx}

/-- Commands that are scheduled after the ones for volumes change nothing about them. -/
theorem VolumeSpec.of_local {kern : List Volume} {vols : List AdjVolume} {sm sl s₁ : Sched CmdCtx}
    {dcmd : Option Nat} (hb : Built s₀) (hb₁ : Built s₁) (hm : Grows (IsNew res.id) s₀ sm)
    (hl : Grows (IsDisk res.id) sm sl) (hchain : VolumeChain s₀ (sl, dcmd))
    (htrace : ∀ m, Adm.trace res.id m sl.cmds = Adm.trace res.id m s₀.cmds ++
      ((vols.flatMap newCmds).filter (·.touches m) ++
        (vols.flatMap (diskCmds kern)).filter (·.touches m)))
    {rest : List (DeferredCmd CmdCtx)} (hrest : s₁.cmds = sl.cmds ++ rest)
    (hnv : ∀ d ∈ rest, d.cmd.cmd.isVolume = false)
    (hdone : ∀ (k : Nat) (d : DeferredCmd CmdCtx), sl.cmds[k]? = some d → d.cmd.cmd ≠ .waitCAdj →
      d.stage ≠ .waitConnect → s₁.done k = sl.done k) :
    VolumeSpec res kern vols s₀ s₁ := by
  have hlocal : Grows (IsLocal res.id) s₀ sl := (hm.mono fun _ => .inl).trans (hl.mono fun _ => .inr)
  have hold : ∀ {i : Nat} {d : DeferredCmd CmdCtx}, s₁.cmds[i]? = some d →
      d.cmd.cmd.isVolume = true → sl.cmds[i]? = some d := by
    intro i d hd hv
    rw [hrest, List.getElem?_append] at hd
    split at hd
    · exact hd
    · rw [hnv d (List.mem_of_getElem? hd)] at hv
      cases hv
  refine ⟨hb₁, ⟨sm, sl, hm, hl, ⟨rest, hrest, hnv⟩, fun k hk hlt => ?_⟩, fun m => ?_,
    fun i j d e hi hij hd hlink he hv => ?_⟩
  · have hd := List.getElem?_eq_getElem hlt
    have hloc : IsLocal res.id sl.cmds[k] := by
      rcases hlocal.cases hd with h | h
      · exact absurd (lt_of_getElem?_eq_some h) (by omega)
      · exact h.2
    have hnw := hloc.not_net.2
    have hst : (sl.cmds[k]).stage ≠ .waitConnect := by
      rw [hloc.stage_eq]
      intro hc
      cases hcmd : (sl.cmds[k]).cmd.cmd <;> rw [hcmd] at hc hnw <;>
        first | exact absurd rfl hnw | cases hc
    rw [hdone k _ hd hnw hst, hlocal.done, ← Bool.not_eq_true]
    intro hc
    have := hb.ready.done k hc
    omega
  · rw [← htrace m, hrest, trace_append]
    have hnil : Adm.trace res.id m rest = [] := by
      unfold Adm.trace
      rw [List.filter_eq_nil_iff.2, List.map_nil]
      intro d hd
      simp [CmdCtx.touches, hnv d hd]
    rw [hnil, List.append_nil]
  · rw [hrest]
    exact (hchain.ordered i j d e hi hij (hold hd hlink.1) hlink (hold he hv) hv).append rest

theorem not_volume_of_net {running : Resource} {sl s₁ : Sched CmdCtx}
    {dcmd : Option Nat} (hnet : NetSpec res running sl dcmd s₁) :
    (∃ rest, s₁.cmds = sl.cmds ++ rest ∧ ∀ d ∈ rest, d.cmd.cmd.isVolume = false) ∧
      ∀ (k : Nat) (d : DeferredCmd CmdCtx), sl.cmds[k]? = some d → d.cmd.cmd ≠ .waitCAdj →
        d.stage ≠ .waitConnect → s₁.done k = sl.done k := by
  obtain ⟨_, st₁, st, hr, hg, _, _, hcmds, _, _, hdone⟩ := hnet
  obtain ⟨new₁, h₁, hp₁⟩ := hr.chain.grows.cmds
  obtain ⟨new₂, h₂, hp₂⟩ := hg.grows.cmds
  have hall : s₁.cmds = sl.cmds ++ (new₁ ++ new₂) := by rw [hcmds, h₂, h₁, List.append_assoc]
  refine ⟨⟨new₁ ++ new₂, hall, fun d hd => ?_⟩, fun k d hd => hdone k d ?_⟩
  · rcases List.mem_append.1 hd with hd | hd
    · exact (hp₁ d hd).2.2
    · rw [(hp₂ d hd).2.1]
      rfl
  · rw [hall, List.getElem?_append_left (lt_of_getElem?_eq_some hd)]
    exact hd

/-- **What adjust schedules for volumes.** -/
theorem adjustDrbd_volumes (cmp : Compare) (res : Resource) (running : Option Resource) (net : Bool)
    (hb : Built s₀) :
    VolumeSpec res (running.elim [] (·.volumes))
      (compareVolumes cmp res.volumes (running.elim [] (·.volumes))) s₀
      (adjustDrbd cmp res running none ⟨true, net⟩ s₀) := by
  generalize hkern : running.elim [] (·.volumes) = kern
  generalize hvols : compareVolumes cmp res.volumes kern = vols
  unfold adjustDrbd
  dsimp only
  rw [hkern, hvols, if_pos rfl]
  obtain ⟨hg, hv⟩ := adjustResource_grows cmp res running s₀
  have hall : (vols.filter fun v => Option.all (fun n => decide (v.vnr = n)) none) = vols :=
    List.filter_eq_self.2 fun v _ => rfl
  -- the new minors
  have hm := foldl_pair_grows (fun x v hx => adjustNewMinorStep_grows res (net && true) v hx) vols hv
  have hmt : ∀ m, Adm.trace res.id m (vols.foldl (adjustNewMinorStep res (net && true))
      (adjustResource cmp res running s₀)).1.cmds = Adm.trace res.id m s₀.cmds ++
      (vols.flatMap newCmds).filter (·.touches m) := by
    intro m
    rw [trace_foldl (fun x v => trace_adjustNewMinorStep m res (net && true) v) vols]
    congr 1
    unfold adjustResource
    split
    · rw [trace_adjSchedule]
      simp [CmdCtx.touches, AdmCmd.isVolume]
    · split
      · rfl
      · rw [trace_adjSchedule]
        simp [CmdCtx.touches, AdmCmd.isVolume]
  have hmc : VolumeChain s₀ (vols.foldl (adjustNewMinorStep res (net && true))
      (adjustResource cmp res running s₀)) := by
    refine VolumeChain.foldl (fun x v hx => hx.newMinorStep res (net && true) v) vols ?_
    have h₀ : VolumeChain s₀ (s₀, none) := by
      refine ⟨fun j hj => (by cases hj), fun i d hi hd _ => ?_, fun i j d e hi hij hd _ he _ => ?_⟩
      · exact absurd (lt_of_getElem?_eq_some hd) (by simpa using hi)
      · exact absurd (lt_of_getElem?_eq_some hd) (by simpa using hi)
    unfold adjustResource
    split
    · exact h₀.push _ _
    · split
      · exact h₀
      · exact h₀.push _ _
  unfold adjustNewMinors adjustDisk
  rw [hall]
  generalize vols.foldl (adjustNewMinorStep res (net && true)) (adjustResource cmp res running s₀) = y
    at hm hmt hmc ⊢
  -- the disks
  have hd := foldl_pair_grows (fun x v hx => @adjustDiskStep_grows res kern _ v hx) vols hm.2
  have hdt : ∀ m, Adm.trace res.id m (vols.foldl (adjustDiskStep res.id kern) (y.1, y.2)).1.cmds =
      Adm.trace res.id m s₀.cmds ++ ((vols.flatMap newCmds).filter (·.touches m) ++
        (vols.flatMap (diskCmds kern)).filter (·.touches m)) := by
    intro m
    rw [trace_foldl (fun x v => trace_adjustDiskStep m res.id kern x v) vols, hmt, List.append_assoc]
  have hdc := hmc.foldl (fun x v hx => hx.diskStep res.id kern v) vols
  have hnew := hg.trans hm.1
  generalize vols.foldl (adjustDiskStep res.id kern) (y.1, y.2) = z at hd hdt hdc ⊢
  have hlocal : Grows (IsLocal res.id) s₀ z.1 := (hnew.mono fun _ => .inl).trans (hd.1.mono fun _ => .inr)
  have hbz : Built z.1 := hlocal.built hb
  split
  · have hy : ValidDep z.1 y.2 := hd.1.validDep hm.2
    have hnet : ∃ r : Resource, NetSpec res r z.1 y.2
        (adjustNet cmp res vols running z.1 y.2) := by
      cases running with
      | none => exact ⟨{ id := 0 }, adjustNet_spec cmp vols hbz hy⟩
      | some r => exact ⟨r, adjustNet_spec cmp vols hbz hy⟩
    obtain ⟨r, hnet⟩ := hnet
    obtain ⟨⟨rest, hrest, hnv⟩, hdone⟩ := not_volume_of_net hnet
    exact .of_local hb hnet.built hnew hd.1 hdc hdt hrest hnv hdone
  · exact .of_local hb hbz hnew hd.1 hdc hdt (List.append_nil _).symm (by simp) fun _ _ _ _ _ => rfl

end Spec

/-! ## Runs -/

/-- The commands of a resource in the order in which they are run. -/
def issued (id : Nat) (cmds : List (DeferredCmd CmdCtx)) (ran : List Nat) : List CmdCtx :=
  ((ran.filterMap (cmds[·]?)).filter (·.res = id)).map (·.cmd)

theorem range_filterMap_getElem? {α : Type} (l : List α) :
    (List.range l.length).filterMap (l[·]?) = l := by
  induction l using List.reverseRecOn with
  | nil => rfl
  | append_singleton l a ih =>
    rw [List.length_append, List.length_singleton, List.range_succ, List.filterMap_append]
    have hfront : (List.range l.length).filterMap ((l ++ [a])[·]?) =
        (List.range l.length).filterMap (l[·]?) := by
      refine List.filterMap_congr fun i hi => ?_
      exact List.getElem?_append_left (List.mem_range.1 hi)
    rw [hfront, ih]
    simp

theorem filter_filterMap_getElem? {α : Type} (l : List α) (q : α → Bool) (ns : List Nat) :
    (ns.filterMap (l[·]?)).filter q = (ns.filter fun i => (l[i]?).any q).filterMap (l[·]?) := by
  induction ns with
  | nil => rfl
  | cons n ns ih =>
    cases hn : l[n]? with
    | none => simp [hn, ih]
    | some a => by_cases hq : q a <;> simp [hn, hq, ih]

section Run

variable {res : Resource} {kern : List Volume} {vols : List AdjVolume} {s₀ s₁ s : Sched CmdCtx}

/-- Commands for volumes are the ones of this run. -/
theorem VolumeSpec.index (h : VolumeSpec res kern vols s₀ s₁) (hfresh : ∀ d ∈ s₀.cmds, d.res ≠ res.id)
    {i : Nat} {d : DeferredCmd CmdCtx} (hd : s₁.cmds[i]? = some d) (hres : d.res = res.id)
    (hv : d.cmd.cmd.isVolume = true) :
    s₀.cmds.length ≤ i ∧ (∀ k, s₀.cmds.length ≤ k → k ≤ i → s₁.done k = false) := by
  obtain ⟨sm, sl, hm, hl, ⟨rest, hrest, hnv⟩, hdone⟩ := h.states
  have hlocal : Grows (IsLocal res.id) s₀ sl := (hm.mono fun _ => .inl).trans (hl.mono fun _ => .inr)
  rw [hrest, List.getElem?_append] at hd
  split at hd
  · rename_i hlt
    rcases hlocal.cases hd with h' | h'
    · exact absurd hres (hfresh d (List.mem_of_getElem? h'))
    · exact ⟨h'.1, fun k hk hki => hdone k hk (by omega)⟩
  · rw [hnv d (List.mem_of_getElem? hd)] at hv
    cases hv

/-- **The commands for a minor are run in the order in which they were scheduled**, when none comes
    after its `attach`. -/
theorem issued_touching (h : VolumeSpec res kern vols s₀ s₁)
    (hfresh : ∀ d ∈ s₀.cmds, d.res ≠ res.id) {fuel : Nat}
    (hrun : s₁.runDeferredCmds (fun _ => false) fuel = some s) (m : Nat)
    (hlast : (trace res.id m s₁.cmds).Pairwise fun a _ => a.cmd ≠ .attach) :
    (issued res.id s₁.cmds s.ran).filter (·.touches m) = trace res.id m s₁.cmds := by
  have hr := h.built.ready
  have hinv := (runDeferredCmds_inv hr.running hrun).1
  have hpair : s₁.cmds.Pairwise fun a b => (decide (a.res = res.id) && a.cmd.touches m) = true →
      (decide (b.res = res.id) && b.cmd.touches m) = true → a.cmd.cmd ≠ .attach := by
    unfold trace at hlast
    rw [List.pairwise_map, List.pairwise_filter] at hlast
    exact hlast
  have hcmd : ∀ {i : Nat}, (s₁.cmds[i]?).any (fun d => decide (d.res = res.id) && d.cmd.touches m) =
      true → ∃ d, s₁.cmds[i]? = some d ∧ d.res = res.id ∧ d.cmd.touches m = true ∧
        d.cmd.cmd.isVolume = true := by
    intro i hi
    rw [Option.any_eq_true] at hi
    obtain ⟨d, hd, hq⟩ := hi
    rw [Bool.and_eq_true, decide_eq_true_eq] at hq
    refine ⟨d, hd, hq.1, hq.2, ?_⟩
    have := hq.2
    unfold CmdCtx.touches at this
    exact (Bool.and_eq_true _ _ ▸ this).1
  have hfilter : s.ran.filter (fun i => (s₁.cmds[i]?).any fun d =>
      decide (d.res = res.id) && d.cmd.touches m) = (List.range s₁.cmds.length).filter fun i =>
      (s₁.cmds[i]?).any fun d => decide (d.res = res.id) && d.cmd.touches m := by
    refine hinv.filter_ran hr (fun i j hij hi hj => ?_) fun i hi hp => ?_
    · obtain ⟨d, hd, hdr, hdt, hdv⟩ := hcmd hi
      obtain ⟨e, he, her, het, hev⟩ := hcmd hj
      have hna : d.cmd.cmd ≠ .attach := by
        obtain ⟨hi', rfl⟩ := List.getElem?_eq_some_iff.1 hd
        obtain ⟨hj', rfl⟩ := List.getElem?_eq_some_iff.1 he
        exact List.pairwise_iff_getElem.1 hpair i j hi' hj' hij (by simp [hdr, hdt])
          (by simp [her, het])
      obtain ⟨hi₀, _⟩ := h.index hfresh hd hdr hdv
      obtain ⟨_, hnd⟩ := h.index hfresh he her hev
      exact ⟨h.ordered i j d e hi₀ hij hd ⟨hdv, hna⟩ he hev,
        fun k hk hkj => hnd k (hi₀.trans hk) hkj.le⟩
    · obtain ⟨d, hd, hdr, _, hdv⟩ := hcmd hp
      obtain ⟨hi₀, hnd⟩ := h.index hfresh hd hdr hdv
      exact runDeferredCmds_complete hr (fun _ _ _ _ => rfl) hrun hi (hnd i hi₀ (Nat.le_refl i))
  unfold issued trace
  rw [List.filter_map, List.filter_filter]
  congr 1
  have hq : (s.ran.filterMap (s₁.cmds[·]?)).filter (fun d =>
      (((·.touches m) ∘ (·.cmd)) d : Bool) && decide (d.res = res.id)) =
      (s.ran.filterMap (s₁.cmds[·]?)).filter fun d => decide (d.res = res.id) && d.cmd.touches m :=
    List.filter_congr fun d _ => Bool.and_comm _ _
  refine hq.trans ?_
  rw [filter_filterMap_getElem?, hfilter, ← filter_filterMap_getElem?, range_filterMap_getElem?]

end Run

/-! ## One minor -/

/-- Every configured volume is running with its minor, or neither its number nor its minor is in
    use. -/
def NoCollision (conf kern : List Volume) : Prop :=
  ∀ c ∈ conf, (∃ k ∈ kern, k.vnr = c.vnr ∧ k.deviceMinor = c.deviceMinor) ∨
    ∀ k ∈ kern, k.vnr ≠ c.vnr ∧ k.deviceMinor ≠ c.deviceMinor

/-- Numbers and minors are unique on each side, and the lists are ordered by number.  A configured
    disk is not `none`: `expand_common()` has replaced it. -/
structure VolumeLists (conf kern : List Volume) : Prop where
  conf_sorted : conf.Pairwise (·.vnr < ·.vnr)
  kern_sorted : kern.Pairwise (·.vnr < ·.vnr)
  conf_minors : conf.Pairwise (·.deviceMinor ≠ ·.deviceMinor)
  kern_minors : kern.Pairwise (·.deviceMinor ≠ ·.deviceMinor)
  conf_disk : ∀ c ∈ conf, c.disk ≠ some "none"

/-- The disk or the minor is not the running one. -/
def volumeChanges (c k : Volume) : Bool := !diskEqual c k || decide (c.deviceMinor ≠ k.deviceMinor)

/-- What is scheduled for a minor, and why. -/
inductive MinorCase (conf kern : List Volume) (m : Nat) (L : List CmdCtx) : Prop
  | kept (c k v : Volume) (hc : c ∈ conf) (hk : k ∈ kern) (hcm : c.deviceMinor = m)
      (hkm : k.deviceMinor = m) (hvnr : k.vnr = c.vnr)
      (hv : v.vnr = c.vnr ∧ v.deviceMinor = c.deviceMinor ∧ v.disk = c.disk)
      (hL : L = (if volumeChanges c k && k.hasDisk then [{ cmd := .detach, vol := some k }] else []) ++
        (if volumeChanges c k && c.hasDisk then [{ cmd := .attach, vol := some v }] else []))
  | created (c : Volume) (hc : c ∈ conf) (hcm : c.deviceMinor = m)
      (hnew : ∀ k ∈ kern, k.vnr ≠ c.vnr ∧ k.deviceMinor ≠ c.deviceMinor)
      (hL : L = { cmd := .newMinor, vol := some c } ::
        (if c.disk.isSome then [{ cmd := .attach, vol := some c }] else []))
  | deleted (k : Volume) (hk : k ∈ kern) (hkm : k.deviceMinor = m)
      (hgone : ∀ c ∈ conf, c.deviceMinor ≠ m)
      (hL : L = (if k.hasDisk then [{ cmd := .detach, vol := some k }] else []) ++
        [{ cmd := .delMinor, vol := some k }])
  | absent (hconf : ∀ c ∈ conf, c.deviceMinor ≠ m) (hkern : ∀ k ∈ kern, k.deviceMinor ≠ m) (hL : L = [])

section Minor

variable {conf kern : List Volume} {cmp : Compare}

theorem eq_of_pairwise_ne {α β : Type} {f : α → β} {l : List α} (h : l.Pairwise (f · ≠ f ·)) {a b : α}
    (ha : a ∈ l) (hb : b ∈ l) (hab : f a = f b) : a = b := by
  by_contra hne
  have : Std.Symm fun x y : α => f x ≠ f y := ⟨fun _ _ hxy => hxy.symm⟩
  exact h.forall ha hb hne hab

theorem find?_unique {α : Type} {p : α → Bool} {l : List α} {x : α} (hx : x ∈ l) (hp : p x = true)
    (huniq : ∀ y ∈ l, p y = true → y = x) : l.find? p = some x := by
  cases hf : l.find? p with
  | none => exact absurd hp (List.find?_eq_none.1 hf x hx)
  | some y => rw [huniq y (List.mem_of_find?_eq_some hf) (List.find?_some hf)]

/-- A number stands once in a sorted list of volumes. -/
theorem eq_of_sorted_vnr {vols : List Volume} (h : vols.Pairwise (·.vnr < ·.vnr)) {a b : Volume}
    (ha : a ∈ vols) (hb : b ∈ vols) (hab : a.vnr = b.vnr) : a = b :=
  eq_of_pairwise_ne (h.imp fun hlt => Nat.ne_of_lt hlt) ha hb hab

theorem VolumeLists.kern_vnr (h : VolumeLists conf kern) {a b : Volume} (ha : a ∈ kern) (hb : b ∈ kern)
    (hab : a.vnr = b.vnr) : a = b :=
  eq_of_sorted_vnr h.kern_sorted ha hb hab

theorem VolumeLists.conf_vnr (h : VolumeLists conf kern) {a b : Volume} (ha : a ∈ conf) (hb : b ∈ conf)
    (hab : a.vnr = b.vnr) : a = b :=
  eq_of_sorted_vnr h.conf_sorted ha hb hab

theorem compareVolume_spec (cmp : Compare) (c k : Volume) :
    ((compareVolume cmp c k).vnr = c.vnr ∧ (compareVolume cmp c k).deviceMinor = c.deviceMinor ∧
      (compareVolume cmp c k).disk = c.disk) ∧
    (compareVolume cmp c k).adjNewMinor = decide (c.deviceMinor ≠ k.deviceMinor) ∧
    (compareVolume cmp c k).adjDelMinor = decide (c.deviceMinor ≠ k.deviceMinor) ∧
    (compareVolume cmp c k).adjAttach = (volumeChanges c k && c.hasDisk) ∧
    (compareVolume cmp c k).adjDetach = (volumeChanges c k && k.hasDisk) := by
  unfold compareVolume
  dsimp only
  split
  · exact ⟨⟨rfl, rfl, rfl⟩, rfl, rfl, rfl, rfl⟩
  · exact ⟨⟨rfl, rfl, rfl⟩, rfl, rfl, rfl, rfl⟩

theorem matchingVolume_eq_some (h : kern.Pairwise (·.vnr < ·.vnr)) {v k : Volume} (hk : k ∈ kern)
    (hvnr : k.vnr = v.vnr) : matchingVolume v kern = some k := by
  refine find?_unique hk (decide_eq_true hvnr) fun k' hk' hv => ?_
  exact eq_of_sorted_vnr h hk' hk ((of_decide_eq_true hv).trans hvnr.symm)

theorem matchingVolume_eq_none {v : Volume} (h : ∀ k ∈ kern, k.vnr ≠ v.vnr) :
    matchingVolume v kern = none := List.find?_eq_none.2 fun k hk => by simpa using h k hk

/-- The members of the compared list. -/
theorem mem_compareVolumes (cmp : Compare) (h : VolumeLists conf kern) {v : AdjVolume} :
    v ∈ compareVolumes cmp conf kern ↔ (∃ c ∈ conf, annotate cmp kern c = v) ∨
      ∃ k ∈ goneVolumes conf kern, newToBeDeletedMinorFromTemplate k = v := by
  rw [(compareVolumes_perm cmp h.conf_sorted h.kern_sorted).mem_iff, List.mem_append, List.mem_map,
    List.mem_map]

theorem mem_goneVolumes {k : Volume} :
    k ∈ goneVolumes conf kern ↔ k ∈ kern ∧ ∀ c ∈ conf, c.vnr ≠ k.vnr := by
  unfold goneVolumes
  rw [List.mem_filter, List.all_eq_true]
  simp

theorem annotate_minor (cmp : Compare) (kern : List Volume) (c : Volume) :
    (annotate cmp kern c).vnr = c.vnr ∧ (annotate cmp kern c).deviceMinor = c.deviceMinor := by
  unfold annotate
  split
  · exact ⟨(compareVolume_spec cmp c _).1.1, (compareVolume_spec cmp c _).1.2.1⟩
  · exact ⟨rfl, rfl⟩

/-- A gone volume and a configured one do not share a minor. -/
theorem NoCollision.gone_minor (hno : NoCollision conf kern) (h : VolumeLists conf kern)
    {k : Volume} (hk : k ∈ goneVolumes conf kern) : ∀ c ∈ conf, c.deviceMinor ≠ k.deviceMinor := by
  intro c hc heq
  obtain ⟨hk, hgone⟩ := mem_goneVolumes.1 hk
  rcases hno c hc with ⟨k', hk', hv, hm⟩ | hnew
  · have := eq_of_pairwise_ne h.kern_minors hk' hk (hm.trans heq)
    subst this
    exact hgone c hc hv.symm
  · exact (hnew k hk).2 heq.symm

theorem compareVolumes_minors (cmp : Compare) (hno : NoCollision conf kern) (h : VolumeLists conf kern) :
    (compareVolumes cmp conf kern).Pairwise (·.deviceMinor ≠ ·.deviceMinor) := by
  have hperm := compareVolumes_perm cmp h.conf_sorted h.kern_sorted
  refine (hperm.pairwise_iff fun hxy => Ne.symm hxy).2 ?_
  refine List.pairwise_append.2 ⟨?_, ?_, ?_⟩
  · rw [List.pairwise_map]
    refine h.conf_minors.imp fun {a b} hab => ?_
    rw [(annotate_minor cmp kern a).2, (annotate_minor cmp kern b).2]
    exact hab
  · rw [List.pairwise_map]
    exact h.kern_minors.sublist List.filter_sublist
  · intro u hu w hw
    obtain ⟨c, hc, rfl⟩ := List.mem_map.1 hu
    obtain ⟨k, hk, rfl⟩ := List.mem_map.1 hw
    rw [(annotate_minor cmp kern c).2]
    exact hno.gone_minor h hk c hc

/-- The commands for a volume are about its minor. -/
theorem touches_volume {v : AdjVolume}
    (hk : ∀ k, matchingVolume v.toVolume kern = some k → k.deviceMinor = v.deviceMinor) (m : Nat) :
    (newCmds v).filter (·.touches m) = (if v.deviceMinor = m then newCmds v else []) ∧
      (diskCmds kern v).filter (·.touches m) = if v.deviceMinor = m then diskCmds kern v else [] := by
  have hk' : ((matchingVolume v.toVolume kern).getD v.toVolume).deviceMinor = v.deviceMinor := by
    cases hm : matchingVolume v.toVolume kern with
    | none => rfl
    | some k => exact hk k hm
  have hall : ∀ l : List CmdCtx, (∀ c ∈ l, c.touches m = decide (v.deviceMinor = m)) →
      l.filter (·.touches m) = if v.deviceMinor = m then l else [] := by
    intro l hl
    split
    · rename_i hm
      exact List.filter_eq_self.2 fun c hc => by rw [hl c hc]; simpa using hm
    · rename_i hm
      exact List.filter_eq_nil_iff.2 fun c hc => by rw [hl c hc]; simpa using hm
  refine ⟨hall _ fun c hc => ?_, hall _ fun c hc => ?_⟩
  · unfold newCmds at hc
    split at hc
    · rw [List.mem_singleton] at hc
      rw [hc]
      simp [CmdCtx.touches, AdmCmd.isVolume]
    · cases hc
  · unfold diskCmds at hc
    dsimp only at hc
    generalize (matchingVolume v.toVolume kern).getD v.toVolume = k at hc hk'
    rw [List.mem_append, List.mem_append] at hc
    rcases hc with (hc | hc) | hc
    · split at hc
      · rw [List.mem_singleton] at hc
        rw [hc]
        simp [CmdCtx.touches, AdmCmd.isVolume, hk']
      · cases hc
    · split at hc
      · rw [List.mem_singleton] at hc
        rw [hc]
        simp [CmdCtx.touches, AdmCmd.isVolume, hk']
      · cases hc
    · split at hc
      · rw [List.mem_singleton] at hc
        rw [hc]
        simp [CmdCtx.touches, AdmCmd.isVolume]
      · cases hc

/-- In a list without repetitions one member decides. -/
theorem flatMap_filter_of_unique {α β : Type} {f : α → Nat} {g : α → List β} {q : β → Bool} {m : Nat}
    {l : List α} (hl : l.Pairwise (f · ≠ f ·))
    (hg : ∀ a ∈ l, (g a).filter q = if f a = m then g a else []) :
    (∀ a ∈ l, f a = m → (l.flatMap g).filter q = g a) ∧
      ((∀ a ∈ l, f a ≠ m) → (l.flatMap g).filter q = []) := by
  induction l with
  | nil => exact ⟨fun a ha => (by cases ha), fun _ => rfl⟩
  | cons x l ih =>
    obtain ⟨hx, hl'⟩ := List.pairwise_cons.1 hl
    obtain ⟨ih1, ih2⟩ := ih hl' fun a ha => hg a (List.mem_cons_of_mem _ ha)
    have hgx := hg x List.mem_cons_self
    refine ⟨fun a ha hm => ?_, fun hnone => ?_⟩
    · rw [List.flatMap_cons, List.filter_append, hgx]
      rcases List.mem_cons.1 ha with rfl | ha
      · rw [if_pos hm, ih2 fun b hb hbm => hx b hb (hm.trans hbm.symm), List.append_nil]
      · rw [if_neg fun hxm => hx a ha (hxm.trans hm.symm), ih1 a ha hm, List.nil_append]
    · rw [List.flatMap_cons, List.filter_append, hgx, if_neg (hnone x List.mem_cons_self),
        ih2 fun b hb => hnone b (List.mem_cons_of_mem _ hb), List.nil_append]

/-- **What is scheduled for a minor.** -/
theorem minorCase (cmp : Compare) (hno : NoCollision conf kern) (h : VolumeLists conf kern) (m : Nat) :
    MinorCase conf kern m (((compareVolumes cmp conf kern).flatMap newCmds).filter (·.touches m) ++
      ((compareVolumes cmp conf kern).flatMap (diskCmds kern)).filter (·.touches m)) := by
  have hsound : ∀ v ∈ compareVolumes cmp conf kern, ∀ k,
      matchingVolume v.toVolume kern = some k → k.deviceMinor = v.deviceMinor := by
    intro v hv k hm
    have hkv : k.vnr = v.vnr := by simpa using List.find?_some hm
    have hk := List.mem_of_find?_eq_some hm
    rcases (mem_compareVolumes cmp h).1 hv with ⟨c, hc, rfl⟩ | ⟨k', hk', rfl⟩
    · rw [(annotate_minor cmp kern c).1] at hkv
      rw [(annotate_minor cmp kern c).2]
      rcases hno c hc with ⟨k', hk', hv', hm'⟩ | hnew
      · rw [← h.kern_vnr hk' hk (hv'.trans hkv.symm), hm']
      · exact absurd hkv (hnew k hk).1
    · rw [h.kern_vnr hk (mem_goneVolumes.1 hk').1 hkv]
      rfl
  have hmin := compareVolumes_minors cmp hno h
  obtain ⟨hn1, hn2⟩ := flatMap_filter_of_unique hmin fun v hv => (touches_volume (hsound v hv) m).1
  obtain ⟨hd1, hd2⟩ := flatMap_filter_of_unique hmin fun v hv => (touches_volume (hsound v hv) m).2
  by_cases hconf : ∃ c ∈ conf, c.deviceMinor = m
  · obtain ⟨c, hc, hcm⟩ := hconf
    have hmem : annotate cmp kern c ∈ compareVolumes cmp conf kern :=
      (mem_compareVolumes cmp h).2 (.inl ⟨c, hc, rfl⟩)
    have ham : (annotate cmp kern c).deviceMinor = m := (annotate_minor cmp kern c).2.trans hcm
    rw [hn1 _ hmem ham, hd1 _ hmem ham]
    rcases hno c hc with ⟨k, hk, hv, hm⟩ | hnew
    · -- it is running
      have hann : annotate cmp kern c = compareVolume cmp c k := by
        unfold annotate
        rw [matchingVolume_eq_some h.kern_sorted hk hv]
      obtain ⟨hfields, hnm, hdm, hat, hde⟩ := compareVolume_spec cmp c k
      refine .kept c k (compareVolume cmp c k).toVolume hc hk hcm (hm.trans hcm) hv hfields ?_
      have hmk : matchingVolume (compareVolume cmp c k).toVolume kern = some k :=
        matchingVolume_eq_some h.kern_sorted hk (hv.trans hfields.1.symm)
      rw [hann]
      unfold newCmds diskCmds
      rw [hnm, hdm, hat, hde, hmk]
      simp [hm]
    · -- it is new
      have hann : annotate cmp kern c = newVolume c := by
        unfold annotate
        rw [matchingVolume_eq_none fun k hk => (hnew k hk).1]
      refine .created c hc hcm hnew ?_
      rw [hann]
      unfold newCmds diskCmds newVolume
      dsimp only
      cases c.disk.isSome <;> rfl
  · have hconf' : ∀ c ∈ conf, c.deviceMinor ≠ m := fun c hc hm => hconf ⟨c, hc, hm⟩
    by_cases hkern : ∃ k ∈ kern, k.deviceMinor = m
    · obtain ⟨k, hk, hkm⟩ := hkern
      have hgone : k ∈ goneVolumes conf kern := by
        refine mem_goneVolumes.2 ⟨hk, fun c hc hv => ?_⟩
        rcases hno c hc with ⟨k', hk', hv', hm'⟩ | hnew
        · rw [h.kern_vnr hk' hk (hv'.trans hv)] at hm'
          exact hconf' c hc (hm'.symm.trans hkm)
        · exact (hnew k hk).1 hv.symm
      have hmem : newToBeDeletedMinorFromTemplate k ∈ compareVolumes cmp conf kern :=
        (mem_compareVolumes cmp h).2 (.inr ⟨k, hgone, rfl⟩)
      rw [hn1 _ hmem hkm, hd1 _ hmem hkm]
      refine .deleted k hk hkm hconf' ?_
      have hmk : matchingVolume (newToBeDeletedMinorFromTemplate k).toVolume kern = some k :=
        matchingVolume_eq_some h.kern_sorted hk rfl
      unfold newCmds diskCmds
      rw [hmk]
      unfold newToBeDeletedMinorFromTemplate
      dsimp only
      cases k.hasDisk <;> rfl
    · have hkern' : ∀ k ∈ kern, k.deviceMinor ≠ m := fun k hk hm => hkern ⟨k, hk, hm⟩
      have hnone : ∀ v ∈ compareVolumes cmp conf kern, v.deviceMinor ≠ m := by
        intro v hv
        rcases (mem_compareVolumes cmp h).1 hv with ⟨c, hc, rfl⟩ | ⟨k, hk, rfl⟩
        · rw [(annotate_minor cmp kern c).2]
          exact hconf' c hc
        · exact hkern' k (mem_goneVolumes.1 hk).1
      rw [hn2 hnone, hd2 hnone]
      exact .absent hconf' hkern' rfl

end Minor

/-! ## Convergence -/

/-- Adjust converges: nothing is created that still exists, nothing just created is detached or
    deleted, nothing is attached before it is created, and the configured volumes are left. -/
structure Converges (conf kern : List Volume) (issued : List CmdCtx) : Prop where
  fresh : ∀ pre c post v, issued = pre ++ c :: post → c.cmd = .newMinor → c.vol = some v →
    ∀ t ∈ pre.foldl execCmd (kernelOf kern), t.vnr ≠ v.vnr ∧ t.minor ≠ v.deviceMinor
  kept : ∀ pre c post v, issued = pre ++ c :: post → c.cmd = .detach ∨ c.cmd = .delMinor →
    c.vol = some v → ∀ c' ∈ pre, c'.cmd = .newMinor → ∀ v', c'.vol = some v' →
      v'.deviceMinor ≠ v.deviceMinor
  attached : ∀ pre c post v, issued = pre ++ c :: post → c.cmd = .attach → c.vol = some v →
    (∃ k ∈ kern, k.vnr = v.vnr ∧ k.deviceMinor = v.deviceMinor) ∨
      ∃ c' ∈ pre, c'.cmd = .newMinor ∧ ∃ v', c'.vol = some v' ∧ v'.vnr = v.vnr ∧
        v'.deviceMinor = v.deviceMinor
  final : ∀ t, t ∈ issued.foldl execCmd (kernelOf kern) ↔
    ∃ c ∈ conf, t = ⟨c.vnr, c.deviceMinor, c.disk⟩

section Converges

variable {conf kern : List Volume} {m : Nat} {L : List CmdCtx}

theorem touches_of_vol {c : CmdCtx} {v : Volume} (hc : c.cmd.isVolume = true) (hv : c.vol = some v) :
    c.touches v.deviceMinor = true := by
  unfold CmdCtx.touches
  rw [hc, hv]
  simp

/-- Nothing comes after an `attach`. -/
theorem MinorCase.attach_last (h : MinorCase conf kern m L) : L.Pairwise fun a _ => a.cmd ≠ .attach := by
  cases h with
  | kept c k v _ _ _ _ _ _ hL =>
    rw [hL]
    split <;> split <;> simp
  | created c _ _ _ hL =>
    rw [hL]
    split <;> simp
  | deleted k _ _ _ hL =>
    rw [hL]
    split <;> simp
  | absent _ _ hL => rw [hL]; exact List.Pairwise.nil

/-- A `new-minor` is for a configured volume that is not running, and the only one of its minor. -/
theorem MinorCase.of_newMinor (h : MinorCase conf kern m L) {pre post : List CmdCtx} {c : CmdCtx}
    (hL : L = pre ++ c :: post) (hc : c.cmd = .newMinor) :
    ∃ v ∈ conf, c.vol = some v ∧ (∀ k ∈ kern, k.vnr ≠ v.vnr ∧ k.deviceMinor ≠ v.deviceMinor) ∧
      pre = [] ∧ ∀ c' ∈ L, c'.cmd ≠ .detach ∧ c'.cmd ≠ .delMinor := by
  have hmem : c ∈ L := by rw [hL]; simp
  cases h with
  | kept c k v _ _ _ _ _ _ hL' =>
    rw [hL'] at hmem
    rcases List.mem_append.1 hmem with hm | hm
    · split at hm
      · rw [List.mem_singleton.1 hm] at hc
        cases hc
      · cases hm
    · split at hm
      · rw [List.mem_singleton.1 hm] at hc
        cases hc
      · cases hm
  | created v hv _ hnew hL' =>
    have hpre : pre = [] := by
      cases pre with
      | nil => rfl
      | cons x pre =>
        -- behind the first there is only the `attach`
        rw [hL', List.cons_append] at hL
        obtain ⟨_, htail⟩ := List.cons.inj hL
        have : c ∈ (if v.disk.isSome then [({ cmd := .attach, vol := some v } : CmdCtx)] else []) := by
          rw [htail]
          simp
        split at this
        · rw [List.mem_singleton.1 this] at hc
          cases hc
        · cases this
    subst hpre
    have hcv : c = { cmd := .newMinor, vol := some v } := by
      rw [hL', List.nil_append] at hL
      exact (List.cons.inj hL).1.symm
    refine ⟨v, hv, by rw [hcv], hnew, rfl, fun c' hc' => ?_⟩
    rw [hL'] at hc'
    rcases List.mem_cons.1 hc' with rfl | hc'
    · exact ⟨by simp, by simp⟩
    · split at hc'
      · rw [List.mem_singleton.1 hc']
        exact ⟨by simp, by simp⟩
      · cases hc'
  | deleted k _ _ _ hL' =>
    rw [hL'] at hmem
    rcases List.mem_append.1 hmem with hm | hm
    · split at hm
      · rw [List.mem_singleton.1 hm] at hc
        cases hc
      · cases hm
    · rw [List.mem_singleton.1 hm] at hc
      cases hc
  | absent _ _ hL' =>
    rw [hL'] at hmem
    cases hmem

/-- An `attach` is for a running volume, or comes after the `new-minor`. -/
theorem MinorCase.of_attach (h : MinorCase conf kern m L) {pre post : List CmdCtx} {c : CmdCtx}
    {v : Volume} (hL : L = pre ++ c :: post) (hc : c.cmd = .attach) (hv : c.vol = some v) :
    (∃ k ∈ kern, k.vnr = v.vnr ∧ k.deviceMinor = v.deviceMinor) ∨
      ∃ c' ∈ pre, c'.cmd = .newMinor ∧ c'.vol = some v := by
  have hmem : c ∈ L := by rw [hL]; simp
  cases h with
  | kept c' k w _ hk hcm hkm hvnr hw hL' =>
    rw [hL'] at hmem
    rcases List.mem_append.1 hmem with hm | hm
    · split at hm
      · rw [List.mem_singleton.1 hm] at hc
        cases hc
      · cases hm
    · split at hm
      · rw [List.mem_singleton.1 hm] at hv
        obtain rfl := Option.some.inj hv
        exact .inl ⟨k, hk, hvnr.trans hw.1.symm, hkm.trans (hcm.symm.trans hw.2.1.symm)⟩
      · cases hm
  | created w _ _ _ hL' =>
    cases pre with
    | nil =>
      rw [hL', List.nil_append] at hL
      rw [← (List.cons.inj hL).1] at hc
      cases hc
    | cons x pre =>
      rw [hL', List.cons_append] at hL
      obtain ⟨hx, htail⟩ := List.cons.inj hL
      refine .inr ⟨x, List.mem_cons_self, by rw [← hx], ?_⟩
      have : c ∈ (if w.disk.isSome then [({ cmd := .attach, vol := some w } : CmdCtx)] else []) := by
        rw [htail]
        simp
      split at this
      · rw [List.mem_singleton.1 this] at hv
        rw [← hx, hv]
      · cases this
  | deleted k _ _ _ hL' =>
    rw [hL'] at hmem
    rcases List.mem_append.1 hmem with hm | hm
    · split at hm
      · rw [List.mem_singleton.1 hm] at hc
        cases hc
      · cases hm
    · rw [List.mem_singleton.1 hm] at hc
      cases hc
  | absent _ _ hL' =>
    rw [hL'] at hmem
    cases hmem

theorem filter_eq_singleton {α : Type} {l : List α} {p : α → Bool} {a : α} (hl : l.Nodup) (ha : a ∈ l)
    (hp : ∀ b ∈ l, p b = true ↔ b = a) : l.filter p = [a] := by
  have hperm : (l.filter p).Perm [a] := by
    refine (List.perm_ext_iff_of_nodup (hl.filter p) (List.nodup_singleton a)).2 fun b => ?_
    rw [List.mem_filter, List.mem_singleton]
    exact ⟨fun h => (hp b h.1).1 h.2, fun h => h ▸ ⟨ha, (hp a ha).2 rfl⟩⟩
  exact List.perm_singleton.1 hperm

theorem kernelOf_at_of_mem (h : VolumeLists conf kern) {k : Volume} (hk : k ∈ kern) :
    (kernelOf kern).filter (·.minor = k.deviceMinor) =
      [⟨k.vnr, k.deviceMinor, k.disk.filter (· ≠ "none")⟩] := by
  unfold kernelOf
  rw [List.filter_map]
  have hnd : kern.Nodup := h.kern_minors.imp fun hne heq => hne (by rw [heq])
  have hone : kern.filter (((·.minor = k.deviceMinor) : KernelVolume → Bool) ∘ fun v : Volume =>
      (⟨v.vnr, v.deviceMinor, v.disk.filter (· ≠ "none")⟩ : KernelVolume)) = [k] := by
    refine filter_eq_singleton hnd hk fun b hb => ?_
    simp only [Function.comp_apply, decide_eq_true_eq]
    exact ⟨fun hm => eq_of_pairwise_ne h.kern_minors hb hk hm, fun hm => by rw [hm]⟩
  rw [hone]
  rfl

theorem kernelOf_at_of_not_mem (hk : ∀ k ∈ kern, k.deviceMinor ≠ m) :
    (kernelOf kern).filter (·.minor = m) = [] := by
  rw [List.filter_eq_nil_iff]
  intro t ht
  obtain ⟨k, hk', rfl⟩ := List.mem_map.1 ht
  simpa using hk k hk'

theorem disk_of_diskEqual {c k : Volume} (hc : c.disk ≠ some "none") (h : diskEqual c k = true) :
    k.disk.filter (· ≠ "none") = c.disk := by
  unfold diskEqual at h
  split at h
  · rename_i hcd hkd
    rw [hcd, hkd]
    rfl
  · rename_i d hcd hkd
    rw [hcd, hkd]
    simp at h
    simp [h]
  · cases h
  · rename_i c' d hcd hkd
    simp only [Bool.and_eq_true, decide_eq_true_eq] at h
    rw [hcd] at hc
    rw [hcd, hkd, ← h.1.1]
    have : c' ≠ "none" := fun hn => hc (by rw [hn])
    simp [this]

theorem disk_of_not_hasDisk {v : Volume} (h : v.hasDisk = false) : v.disk.filter (· ≠ "none") = none := by
  unfold Volume.hasDisk at h
  cases hd : v.disk with
  | none => rfl
  | some d =>
    rw [hd] at h
    simp at h
    simp [h]

/-- The configured volume of the minor is left, if there is one. -/
theorem MinorCase.final (h : MinorCase conf kern m L) (hl : VolumeLists conf kern) (t : KernelVolume)
    (ht : t.minor = m) :
    t ∈ L.foldl execCmd ((kernelOf kern).filter (·.minor = m)) ↔
      ∃ c ∈ conf, t = ⟨c.vnr, c.deviceMinor, c.disk⟩ := by
  have hother : ∀ c ∈ conf, c.deviceMinor = m →
      ((∃ c ∈ conf, t = ⟨c.vnr, c.deviceMinor, c.disk⟩) ↔ t = ⟨c.vnr, c.deviceMinor, c.disk⟩) := by
    intro c hc hcm
    constructor
    · rintro ⟨c', hc', rfl⟩
      rw [eq_of_pairwise_ne hl.conf_minors hc' hc (ht.trans hcm.symm)]
    · exact fun h => ⟨c, hc, h⟩
  cases h with
  | kept c k v hc hk hcm hkm hvnr hv hL =>
    have hcd := hl.conf_disk c hc
    have hK := kernelOf_at_of_mem hl hk
    rw [hkm] at hK
    rw [hother c hc hcm, hK, hL]
    have hcno : c.hasDisk = false → c.disk = none := by
      intro hn
      have := disk_of_not_hasDisk hn
      cases hd : c.disk with
      | none => rfl
      | some d =>
        rw [hd] at this hcd
        have hne : d ≠ "none" := fun he => hcd (by rw [he])
        simp [hne] at this
    cases hch : volumeChanges c k with
    | false =>
      have heq : diskEqual c k = true := by
        unfold volumeChanges at hch
        rw [Bool.or_eq_false_iff] at hch
        simpa using hch.1
      rw [disk_of_diskEqual hcd heq]
      simp [hvnr, hcm]
    | true =>
      cases hkd : k.hasDisk with
      | false =>
        have hnone := disk_of_not_hasDisk hkd
        cases hcd' : c.hasDisk with
        | false =>
          rw [hnone]
          simp [hcno hcd', hvnr, hcm]
        | true => simp [execCmd, hv.2.1, hv.2.2, hvnr, hcm]
      | true =>
        cases hcd' : c.hasDisk with
        | false => simp [execCmd, hkm, hcno hcd', hvnr, hcm]
        | true => simp [execCmd, hkm, hv.2.1, hv.2.2, hvnr, hcm]
  | created c hc hcm hnew hL =>
    have hK := kernelOf_at_of_not_mem fun k hk => (hcm ▸ (hnew k hk).2 : k.deviceMinor ≠ m)
    rw [hother c hc hcm, hK, hL]
    cases hd : c.disk with
    | none => simp [execCmd]
    | some d => simp [execCmd, hd]
  | deleted k hk hkm hgone hL =>
    have hK := kernelOf_at_of_mem hl hk
    rw [hkm] at hK
    have hnone : ¬∃ c ∈ conf, t = ⟨c.vnr, c.deviceMinor, c.disk⟩ := by
      rintro ⟨c, hc, rfl⟩
      exact hgone c hc ht
    rw [hK, hL]
    refine iff_of_false ?_ hnone
    cases k.hasDisk <;> simp [execCmd, hkm]
  | absent hconf hkern hL =>
    have hnone : ¬∃ c ∈ conf, t = ⟨c.vnr, c.deviceMinor, c.disk⟩ := by
      rintro ⟨c, hc, rfl⟩
      exact hconf c hc ht
    rw [kernelOf_at_of_not_mem hkern, hL]
    exact iff_of_false (by simp) hnone

/-- Without collisions adjust converges. -/
theorem converges_of_minorCase {issued : List CmdCtx} (hl : VolumeLists conf kern)
    (hcase : ∀ m, MinorCase conf kern m (issued.filter (·.touches m))) :
    Converges conf kern issued := by
  have hsplit : ∀ {pre post : List CmdCtx} {c : CmdCtx} {v : Volume}, issued = pre ++ c :: post →
      c.cmd.isVolume = true → c.vol = some v → issued.filter (·.touches v.deviceMinor) =
        pre.filter (·.touches v.deviceMinor) ++ c :: post.filter (·.touches v.deviceMinor) := by
    intro pre post c v hi hc hv
    rw [hi, List.filter_append, List.filter_cons, if_pos (touches_of_vol hc hv)]
  refine ⟨fun pre c post v hi hc hv t ht => ?_, fun pre c post v hi hc hv c' hc' hcn v' hv' heq => ?_,
    fun pre c post v hi hc hv => ?_, fun t => ?_⟩
  · have hvol : c.cmd.isVolume = true := by rw [hc]; rfl
    obtain ⟨w, hw, hcw, hnew, hpre, _⟩ := (hcase v.deviceMinor).of_newMinor (hsplit hi hvol hv) hc
    obtain rfl := Option.some.inj (hv.symm.trans hcw)
    rcases mem_foldl_execCmd ht with ⟨k, hk, h1, h2⟩ | ⟨c', hc', hcn, v', hv', h1, h2⟩
    · obtain ⟨k', hk', rfl⟩ := List.mem_map.1 hk
      rw [← h1, ← h2]
      exact hnew k' hk'
    · -- another new volume would have its own number and minor
      have hvol' : c'.cmd.isVolume = true := by rw [hcn]; rfl
      obtain ⟨p, q, hpq⟩ := List.append_of_mem hc'
      have hi' : issued = p ++ c' :: (q ++ c :: post) := by rw [hi, hpq]; simp
      obtain ⟨w', hw', hcw', _, _, _⟩ :=
        (hcase v'.deviceMinor).of_newMinor (hsplit hi' hvol' hv') hcn
      obtain rfl := Option.some.inj (hv'.symm.trans hcw')
      have hne : v' ≠ v := by
        rintro rfl
        have : c' ∈ pre.filter (·.touches v'.deviceMinor) :=
          List.mem_filter.2 ⟨hc', touches_of_vol hvol' hv'⟩
        rw [hpre] at this
        cases this
      rw [← h1, ← h2]
      exact ⟨fun heq => hne (hl.conf_vnr hw' hw heq),
        fun heq => hne (eq_of_pairwise_ne hl.conf_minors hw' hw heq)⟩
  · have hvol : c.cmd.isVolume = true := by rcases hc with hc | hc <;> rw [hc] <;> rfl
    have hvol' : c'.cmd.isVolume = true := by rw [hcn]; rfl
    obtain ⟨p, q, hpq⟩ := List.append_of_mem hc'
    have hi' : issued = p ++ c' :: (q ++ c :: post) := by rw [hi, hpq]; simp
    obtain ⟨_, _, _, _, _, hnone⟩ :=
      (hcase v'.deviceMinor).of_newMinor (hsplit hi' hvol' hv') hcn
    have hmem : c ∈ issued.filter (·.touches v'.deviceMinor) := by
      refine List.mem_filter.2 ⟨by rw [hi]; simp, ?_⟩
      rw [heq]
      exact touches_of_vol hvol hv
    rcases hc with hc | hc
    · exact (hnone c hmem).1 hc
    · exact (hnone c hmem).2 hc
  · have hvol : c.cmd.isVolume = true := by rw [hc]; rfl
    rcases (hcase v.deviceMinor).of_attach (hsplit hi hvol hv) hc hv with h | ⟨c', hc', hcn, hv'⟩
    · exact .inl h
    · exact .inr ⟨c', List.mem_of_mem_filter hc', hcn, v, hv', rfl, rfl⟩
  · have hfin := (hcase t.minor).final hl t rfl
    rw [← hfin, ← foldl_execCmd_at, List.mem_filter]
    simp

/-- A `new-minor` that collides is run before every `del-minor`. -/
theorem not_converges_of_collision {res : Resource} {cmp : Compare} {s₀ s₁ s : Sched CmdCtx} {fuel : Nat}
    (hspec : VolumeSpec res kern (compareVolumes cmp conf kern) s₀ s₁)
    (hfresh : ∀ d ∈ s₀.cmds, d.res ≠ res.id) (hl : VolumeLists conf kern)
    (hrun : s₁.runDeferredCmds (fun _ => false) fuel = some s) (hno : ¬NoCollision conf kern) :
    ¬Converges conf kern (issued res.id s₁.cmds s.ran) := by
  have hr := hspec.built.ready
  have hinv := (runDeferredCmds_inv hr.running hrun).1
  -- a configured volume that is not running as it is, and a running one in its way
  obtain ⟨c, hc, hnot, k, hk, hcol⟩ : ∃ c ∈ conf,
      (¬∃ k ∈ kern, k.vnr = c.vnr ∧ k.deviceMinor = c.deviceMinor) ∧
      ∃ k ∈ kern, k.vnr = c.vnr ∨ k.deviceMinor = c.deviceMinor := by
    unfold NoCollision at hno
    push Not at hno
    obtain ⟨c, hc, h1, k, hk, h2⟩ := hno
    refine ⟨c, hc, ?_, k, hk, ?_⟩
    · rintro ⟨k', hk', hv, hm⟩
      exact h1 k' hk' hv hm
    · by_cases hv : k.vnr = c.vnr
      · exact .inl hv
      · exact .inr (h2 hv)
  have hnew : (annotate cmp kern c).adjNewMinor = true := by
    unfold annotate
    split
    · rename_i k' hk'
      rw [(compareVolume_spec cmp c k').2.1, decide_eq_true_eq]
      intro hm
      exact hnot ⟨k', List.mem_of_find?_eq_some hk', by simpa using List.find?_some hk', hm.symm⟩
    · rfl
  generalize hcv : annotate cmp kern c = v at hnew
  have hvv : v.vnr = c.vnr ∧ v.deviceMinor = c.deviceMinor := hcv ▸ annotate_minor cmp kern c
  have hvmem : v ∈ compareVolumes cmp conf kern := (mem_compareVolumes cmp hl).2 (.inl ⟨c, hc, hcv⟩)
  -- its `new-minor` is scheduled
  have htrace : ({ cmd := .newMinor, vol := some v.toVolume } : CmdCtx) ∈
      trace res.id v.deviceMinor s₁.cmds := by
    rw [hspec.trace]
    refine List.mem_append_right _ (List.mem_append_left _ (List.mem_filter.2 ⟨?_, ?_⟩))
    · refine List.mem_flatMap.2 ⟨v, hvmem, ?_⟩
      unfold newCmds
      rw [if_pos hnew]
      exact List.mem_singleton_self _
    · exact touches_of_vol rfl rfl
  obtain ⟨d, hd, hdc⟩ := List.mem_map.1 htrace
  rw [List.mem_filter, Bool.and_eq_true, decide_eq_true_eq] at hd
  obtain ⟨i, hi⟩ := List.mem_iff_getElem?.1 hd.1
  have hdcmd : d.cmd.cmd = .newMinor := by rw [hdc]
  have hdv : d.cmd.cmd.isVolume = true := by rw [hdcmd]; rfl
  obtain ⟨hi₀, hnd⟩ := hspec.index hfresh hi hd.2.1 hdv
  have hiran := runDeferredCmds_complete hr (fun _ _ _ _ => rfl) hrun (lt_of_getElem?_eq_some hi)
    (hnd i hi₀ (Nat.le_refl i))
  obtain ⟨pre, post, hran⟩ := List.append_of_mem hiran
  -- nothing is deleted before
  have hnodel : ∀ c' ∈ issued res.id s₁.cmds pre, c'.cmd ≠ .delMinor := by
    intro c' hc' hdel
    unfold issued at hc'
    obtain ⟨e, he, rfl⟩ := List.mem_map.1 hc'
    rw [List.mem_filter, List.mem_filterMap, decide_eq_true_eq] at he
    obtain ⟨⟨j, hj, hej⟩, her⟩ := he
    have hev : e.cmd.cmd.isVolume = true := by rw [hdel]; rfl
    obtain ⟨hj₀, hjnd⟩ := hspec.index hfresh hej her hev
    have hij : i < j := by
      obtain ⟨sm, sl, hm, hdk, ⟨rest, hrest, hnv⟩, _⟩ := hspec.states
      have hsl : ∀ {n : Nat} {f : DeferredCmd CmdCtx}, s₁.cmds[n]? = some f →
          f.cmd.cmd.isVolume = true → sl.cmds[n]? = some f := by
        intro n f hf hv
        rw [hrest, List.getElem?_append] at hf
        split at hf
        · exact hf
        · rw [hnv f (List.mem_of_getElem? hf)] at hv
          cases hv
      have hilt : i < sm.cmds.length := by
        rcases hdk.cases (hsl hi hdv) with h | ⟨_, h⟩
        · exact lt_of_getElem?_eq_some h
        · have := h.2.2
          rw [hdcmd] at this
          simp at this
      rcases hdk.cases (hsl hej hev) with h | ⟨h, _⟩
      · rcases hm.cases h with h' | ⟨_, h'⟩
        · exact absurd (lt_of_getElem?_eq_some h') (by omega)
        · have := h'.2.2
          rw [hdel] at this
          simp at this
      · omega
    have hfol := hspec.ordered i j d e hi₀ hij hi ⟨hdv, by rw [hdcmd]; simp⟩ hej hev
    obtain ⟨p, q, rfl⟩ := List.append_of_mem hj
    have hran' : s.ran = p ++ j :: (q ++ i :: post) := by rw [hran]; simp
    have hip := hinv.before hr hfol (by omega) (fun n hn hnj => hjnd n (hi₀.trans hn) hnj.le) hran'
    have hnodup := hinv.nodup
    rw [hran'] at hnodup
    exact (List.nodup_append.1 hnodup).2.2 i hip i (by simp) rfl
  intro hconv
  have hissued : issued res.id s₁.cmds s.ran = issued res.id s₁.cmds pre ++
      d.cmd :: issued res.id s₁.cmds post := by
    unfold issued
    rw [hran, List.filterMap_append, List.filterMap_cons_some hi, List.filter_append,
      List.filter_cons, if_pos (by simpa using hd.2.1), List.map_append, List.map_cons]
  have hkK : (⟨k.vnr, k.deviceMinor, k.disk.filter (· ≠ "none")⟩ : KernelVolume) ∈ kernelOf kern :=
    List.mem_map_of_mem hk
  obtain ⟨t, ht, h1, h2⟩ := foldl_execCmd_keeps hnodel hkK
  obtain ⟨g1, g2⟩ := hconv.fresh _ d.cmd _ v.toVolume hissued hdcmd (by rw [hdc]) t ht
  rcases hcol with hcol | hcol
  · exact g1 (h1.trans (hcol.trans hvv.1.symm))
  · exact g2 (h2.trans (hcol.trans hvv.2.symm))

end Converges

/-- **Convergence on volumes.**  For all configured and running volumes with unique numbers and
    minors, whatever commands of other resources are scheduled before: the run of the commands of
    adjust ends, and it creates nothing that still exists, deletes or detaches nothing just created,
    attaches nothing before it is created, and leaves exactly the configured volumes, if and only if
    every configured volume is running with its minor or has a number and a minor that are not in
    use. -/
theorem adjust_converges_iff (cmp : Compare) (res : Resource) (running : Option Resource) (net : Bool)
    {s₀ : Sched CmdCtx} (hb : Built s₀) (hfresh : ∀ d ∈ s₀.cmds, d.res ≠ res.id)
    (hl : VolumeLists res.volumes (running.elim [] (·.volumes))) :
    (∃ fuel s, (adjustDrbd cmp res running none ⟨true, net⟩ s₀).runDeferredCmds (fun _ => false) fuel =
      some s) ∧
    ∀ fuel s, (adjustDrbd cmp res running none ⟨true, net⟩ s₀).runDeferredCmds (fun _ => false) fuel =
      some s →
      (Converges res.volumes (running.elim [] (·.volumes))
        (issued res.id (adjustDrbd cmp res running none ⟨true, net⟩ s₀).cmds s.ran) ↔
        NoCollision res.volumes (running.elim [] (·.volumes))) := by
  have hspec := adjustDrbd_volumes cmp res running net hb
  generalize running.elim [] (·.volumes) = kern at hl hspec ⊢
  refine ⟨⟨_, runDeferredCmds_returns hspec.built.ready hspec.built.ready.running
    (Nat.le_add_left _ _)⟩, fun fuel s hs => ?_⟩
  by_cases hno : NoCollision res.volumes kern
  · refine iff_of_true (converges_of_minorCase hl fun m => ?_) hno
    have hcase := minorCase cmp hno hl m
    have htrace := hspec.trace m
    have hnone : trace res.id m s₀.cmds = [] := by
      unfold trace
      rw [List.filter_eq_nil_iff.2, List.map_nil]
      intro d hd
      simp [hfresh d hd]
    rw [hnone, List.nil_append] at htrace
    rw [← htrace] at hcase
    rw [issued_touching hspec hfresh hs m hcase.attach_last]
    exact hcase
  · exact iff_of_false (not_converges_of_collision hspec hfresh hl hs hno) hno

/-! ### Two volumes -/

/-- A volume that changes its minor is created while it still exists. -/
theorem adjust_creates_existing : ∃ s,
    (adjustDrbd compareAsStrings { id := 0, volumes := [⟨0, 2, none, "internal", []⟩] }
      (some { id := 1, volumes := [⟨0, 1, none, "internal", []⟩] }) none {} {}).runDeferredCmds
      (fun _ => false) 3 = some s ∧
    ¬Converges [⟨0, 2, none, "internal", []⟩] [⟨0, 1, none, "internal", []⟩]
      (issued 0 (adjustDrbd compareAsStrings { id := 0, volumes := [⟨0, 2, none, "internal", []⟩] }
        (some { id := 1, volumes := [⟨0, 1, none, "internal", []⟩] }) none {} {}).cmds s.ran) := by
  refine ⟨_, rfl, fun h => ?_⟩
  have hfresh := h.fresh [] { cmd := .newMinor, vol := some ⟨0, 2, none, "internal", []⟩ }
    [{ cmd := .delMinor, vol := some ⟨0, 1, none, "internal", []⟩ }] _ rfl rfl rfl ⟨0, 1, none⟩
    (by decide)
  exact hfresh.1 rfl

/-- Volume 1 takes the place of volume 0. -/
theorem adjust_converges_replaced : ∃ fuel s,
    (adjustDrbd compareAsStrings { id := 0, volumes := [⟨1, 2, some "/dev/b", "internal", []⟩] }
      (some { id := 1, volumes := [⟨0, 1, some "/dev/a", "internal", []⟩] }) none ⟨true, true⟩
      {}).runDeferredCmds (fun _ => false) fuel = some s ∧
    Converges [⟨1, 2, some "/dev/b", "internal", []⟩] [⟨0, 1, some "/dev/a", "internal", []⟩]
      (issued 0 (adjustDrbd compareAsStrings
        { id := 0, volumes := [⟨1, 2, some "/dev/b", "internal", []⟩] }
        (some { id := 1, volumes := [⟨0, 1, some "/dev/a", "internal", []⟩] }) none ⟨true, true⟩
        {}).cmds s.ran) := by
  obtain ⟨⟨fuel, s, hs⟩, hiff⟩ := adjust_converges_iff compareAsStrings
    { id := 0, volumes := [⟨1, 2, some "/dev/b", "internal", []⟩] }
    (some { id := 1, volumes := [⟨0, 1, some "/dev/a", "internal", []⟩] }) true .init
    (fun d hd => by cases hd) ⟨by simp, by simp, by simp, by simp, by simp⟩
  refine ⟨fuel, s, hs, (hiff fuel s hs).2 ?_⟩
  · intro c hc
    obtain rfl := List.mem_singleton.1 hc
    refine .inr fun k hk => ?_
    obtain rfl := List.mem_singleton.1 hk
    decide

end DrbdUtils.Adm
