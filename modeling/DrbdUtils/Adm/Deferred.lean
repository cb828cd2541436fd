import Mathlib.Data.List.Basic
import Mathlib.Data.Finset.Card
import Mathlib.Tactic.IntervalCases

/-!
# Deferred commands of drbdadm

`schedule_deferred_cmd()`, `cancel_deferred_cmd()`, `_run_deferred_cmds()` and
`run_deferred_cmds()` of `drbdadm_main.c`, with `adjust_with_progress` set.  Commands are queued by
stage.  A sweep visits all stages in order; a command is postponed to a later sweep while the one
it depends on is not done, and skipped, but not marked done, once a command of a prerequisite stage
failed for its resource.  Sweeps are repeated until as many commands were counted as are scheduled;
a skipped command is counted in every sweep.

* `visit_inv` — what one visit keeps.
* `sweep_progress` — while a command is not done, a sweep counts one.
* `runDeferredCmds_spec` — runs end, run nothing twice, and run nothing too early; they leave no
  command of an unfailed resource behind if nothing fails in a prerequisite stage, or no dependency
  of the resource leads to a later stage or to another resource.
-/

set_option autoImplicit false

namespace DrbdUtils.Adm

/-! ## Model -/

/-- `enum drbd_cfg_stage`. -/
inductive CfgStage where
  | prereq | resource | diskPrepDown | diskPrepUp | netDisconnect | netPrepDown | netPrepUp | netPath
  | net | peerDevice | disk | netConnect | waitConnect
  deriving DecidableEq, Repr

/-- The stages in their order. -/
def CfgStage.all : List CfgStage :=
  [.prereq, .resource, .diskPrepDown, .diskPrepUp, .netDisconnect, .netPrepDown, .netPrepUp, .netPath,
    .net, .peerDevice, .disk, .netConnect, .waitConnect]

def CfgStage.toNat : CfgStage → Nat
  | .prereq => 0 | .resource => 1 | .diskPrepDown => 2 | .diskPrepUp => 3 | .netDisconnect => 4
  | .netPrepDown => 5 | .netPrepUp => 6 | .netPath => 7 | .net => 8 | .peerDevice => 9 | .disk => 10
  | .netConnect => 11 | .waitConnect => 12

/-- "If something in the prerequisite stages failed, there is no point in trying to continue." -/
def CfgStage.isPrereq : CfgStage → Bool
  | .prereq | .diskPrepDown | .diskPrepUp | .netPrepDown | .netPrepUp => true
  | _ => false

/-- `struct deferred_cmd`, with the command and its context as `cmd`; commands are referred to by
    the order of their creation. -/
structure DeferredCmd (κ : Type) where
  cmd : κ
  res : Nat
  stage : CfgStage
  dependsOn : Option Nat

/-- The queues and the counters; `ran` logs the calls of command functions. -/
structure Sched (κ : Type) where
  cmds : List (DeferredCmd κ) := []
  deferredCmds : CfgStage → List Nat := fun _ => []
  done : Nat → Bool := fun _ => false
  scheduled : Nat := 0
  executed : Nat := 0
  skipFurther : Nat → Bool := fun _ => false
  ran : List Nat := []

section Model

variable {κ : Type}

/-- `schedule_deferred_cmd`: `same` tells which command of this resource the flags let be used
    instead of a new one. -/
def Sched.schedule (s : Sched κ) (d : DeferredCmd κ) (same : κ → Bool) : Sched κ × Nat :=
  match (s.deferredCmds d.stage).find? fun i =>
      (s.cmds[i]?).any fun d' => d'.res = d.res && same d'.cmd with
  | some i => (s, i)
  | none =>
    ({ s with
      cmds := s.cmds ++ [d]
      deferredCmds := Function.update s.deferredCmds d.stage
        (s.deferredCmds d.stage ++ [s.cmds.length])
      scheduled := s.scheduled + 1 }, s.cmds.length)

/-- `cancel_deferred_cmd`. -/
def Sched.cancel (s : Sched κ) (i : Nat) : Sched κ :=
  if s.done i then s
  else { s with done := Function.update s.done i true, scheduled := s.scheduled - 1 }

/-- `cancel_deferred_waits`. -/
def Sched.cancelWaits (s : Sched κ) (res : Nat) : Sched κ :=
  (s.deferredCmds .waitConnect).foldl
    (fun s i => if (s.cmds[i]?).any (·.res = res) then s.cancel i else s) s

def Sched.hasUnmetDependency (s : Sched κ) (d : DeferredCmd κ) : Bool :=
  match d.dependsOn with
  | none => false
  | some j => !s.done j

/-- One command of a queue in `_run_deferred_cmds`; `fails` says which commands fail when they are
    run. -/
def Sched.visit (fails : Nat → Bool) (s : Sched κ) (i : Nat) : Sched κ :=
  match s.cmds[i]? with
  | none => s
  | some d =>
    if s.hasUnmetDependency d || s.done i then s
    else if s.skipFurther d.res then { s with executed := s.executed + 1 }
    else
      { s with
        executed := s.executed + 1
        done := Function.update s.done i true
        ran := s.ran ++ [i]
        skipFurther := if fails i && d.stage.isPrereq then Function.update s.skipFurther d.res true
          else s.skipFurther }

/-- `_run_deferred_cmds`. -/
def Sched.runStage (fails : Nat → Bool) (s : Sched κ) (stage : CfgStage) : Sched κ :=
  (s.deferredCmds stage).foldl (Sched.visit fails) s

/-- The loop over the stages in `run_deferred_cmds`. -/
def Sched.sweep (fails : Nat → Bool) (s : Sched κ) : Sched κ :=
  CfgStage.all.foldl (Sched.runStage fails) s

/-- `run_deferred_cmds`; `none` when there is no end within `fuel` sweeps. -/
def Sched.runDeferredCmds (fails : Nat → Bool) : Nat → Sched κ → Option (Sched κ)
  | 0, _ => none
  | fuel + 1, s =>
    if (s.sweep fails).executed < (s.sweep fails).scheduled then
      runDeferredCmds fails fuel (s.sweep fails)
    else some (s.sweep fails)

/-- The states that scheduling and cancelling lead to; a command can depend on an earlier one
    only, since it takes a pointer to it. -/
inductive Built : Sched κ → Prop
  | init : Built {}
  | schedule {s : Sched κ} (d : DeferredCmd κ) (same : κ → Bool) (h : Built s)
      (hdep : ∀ j, d.dependsOn = some j → j < s.cmds.length) : Built (s.schedule d same).1
  | cancel {s : Sched κ} (i : Nat) (h : Built s) (hi : i < s.cmds.length) : Built (s.cancel i)

end Model

/-! ## Scheduling -/

section Built

variable {κ : Type}

/-- Number of commands that are not done. -/
def Sched.pending (s : Sched κ) : Nat := ((List.range s.cmds.length).filter fun i => !s.done i).length

/-- What holds before the commands are run. -/
structure Ready (s : Sched κ) : Prop where
  queues : ∀ stage i, i ∈ s.deferredCmds stage ↔ ∃ d, s.cmds[i]? = some d ∧ d.stage = stage
  sorted : ∀ stage, (s.deferredCmds stage).Pairwise (· < ·)
  dependsOn : ∀ (i : Nat) (d : DeferredCmd κ) (j : Nat), s.cmds[i]? = some d → d.dependsOn = some j → j < i
  done : ∀ i, s.done i = true → i < s.cmds.length
  scheduled : s.scheduled = s.pending
  executed : s.executed = 0
  ran : s.ran = []
  skipFurther : ∀ r, s.skipFurther r = false

theorem lt_of_getElem?_eq_some {l : List (DeferredCmd κ)} {i : Nat} {d : DeferredCmd κ}
    (h : l[i]? = some d) : i < l.length := (List.getElem?_eq_some_iff.1 h).1

theorem getElem?_append_singleton {l : List (DeferredCmd κ)} {x d : DeferredCmd κ} {i : Nat} :
    (l ++ [x])[i]? = some d ↔ l[i]? = some d ∨ i = l.length ∧ d = x := by
  rw [List.getElem?_append]
  by_cases hi : i < l.length
  · simp [hi, hi.ne]
  · have hnone : l[i]? = none := List.getElem?_eq_none (by omega)
    rw [if_neg hi, hnone]
    by_cases heq : i = l.length
    · simp [heq, eq_comm]
    · rw [List.getElem?_eq_none (by simp; omega)]
      simp [heq]

theorem Built.ready {s : Sched κ} (h : Built s) : Ready s := by
  induction h with
  | init =>
    exact ⟨fun _ i => by simp, fun _ => List.Pairwise.nil, fun i d j h => by simp at h,
      fun i h => by simp at h, rfl, rfl, rfl, fun _ => rfl⟩
  | @schedule s d same _ hdep ih =>
    unfold Sched.schedule
    split
    · exact ih
    refine ⟨fun stage i => ?_, fun stage => ?_, fun i d' j hi hj => ?_, fun i hi => ?_, ?_,
      ih.executed, ih.ran, ih.skipFurther⟩
    · show i ∈ Function.update s.deferredCmds d.stage _ stage ↔ ∃ d', (s.cmds ++ [d])[i]? = some d' ∧ _
      simp only [getElem?_append_singleton]
      by_cases hs : stage = d.stage
      · subst hs
        rw [Function.update_self, List.mem_append, ih.queues, List.mem_singleton]
        constructor
        · rintro (⟨d', hd, hst⟩ | rfl)
          · exact ⟨d', .inl hd, hst⟩
          · exact ⟨d, .inr ⟨rfl, rfl⟩, rfl⟩
        · rintro ⟨d', hd | ⟨rfl, rfl⟩, hst⟩
          · exact .inl ⟨d', hd, hst⟩
          · exact .inr rfl
      · rw [Function.update_of_ne hs, ih.queues]
        constructor
        · rintro ⟨d', hd, hst⟩
          exact ⟨d', .inl hd, hst⟩
        · rintro ⟨d', hd | ⟨rfl, rfl⟩, hst⟩
          · exact ⟨d', hd, hst⟩
          · exact absurd hst.symm hs
    · show (Function.update s.deferredCmds d.stage _ stage).Pairwise (· < ·)
      by_cases hs : stage = d.stage
      · subst hs
        rw [Function.update_self]
        refine List.pairwise_append.2 ⟨ih.sorted _, List.pairwise_singleton _ _, fun a ha b hb => ?_⟩
        obtain ⟨d', hd, _⟩ := (ih.queues _ a).1 ha
        rw [List.mem_singleton] at hb
        subst hb
        exact lt_of_getElem?_eq_some hd
      · rw [Function.update_of_ne hs]
        exact ih.sorted stage
    · rcases getElem?_append_singleton.1 hi with hi | ⟨rfl, rfl⟩
      · exact ih.dependsOn i d' j hi hj
      · exact hdep j hj
    · have := ih.done i hi
      show i < (s.cmds ++ [d]).length
      rw [List.length_append]
      omega
    · show s.scheduled + 1 = _
      rw [ih.scheduled, Sched.pending, Sched.pending]
      show _ = ((List.range (s.cmds ++ [d]).length).filter fun i => !s.done i).length
      have hnew : s.done s.cmds.length = false := by
        by_contra hc
        exact absurd (ih.done _ (by simpa using hc)) (by omega)
      rw [List.length_append, List.length_singleton, List.range_succ, List.filter_append]
      simp [hnew]
  | @cancel s i _ hi ih =>
    unfold Sched.cancel
    split
    · exact ih
    rename_i hdone
    refine ⟨ih.queues, ih.sorted, ih.dependsOn, fun k hk => ?_, ?_, ih.executed, ih.ran,
      ih.skipFurther⟩
    · by_cases hki : k = i
      · exact hki ▸ hi
      · have hk' : Function.update s.done i true k = true := hk
        rw [Function.update_of_ne hki] at hk'
        exact ih.done k hk'
    · show s.scheduled - 1 = ((List.range s.cmds.length).filter fun k =>
        !Function.update s.done i true k).length
      have hperm : ((List.range s.cmds.length).filter fun k => !s.done k).Perm
          (i :: (List.range s.cmds.length).filter fun k => !Function.update s.done i true k) := by
        refine (List.perm_ext_iff_of_nodup (List.nodup_range.filter _) ?_).2 fun k => ?_
        · refine List.nodup_cons.2 ⟨?_, List.nodup_range.filter _⟩
          simp [List.mem_filter]
        · rw [List.mem_filter, List.mem_cons, List.mem_filter, List.mem_range]
          by_cases hki : k = i
          · subst hki
            simp [hi, hdone]
          · simp [hki]
      rw [ih.scheduled, Sched.pending, hperm.length_eq]
      simp

end Built

/-! ## Visits -/

section Run

variable {κ : Type} {fails : Nat → Bool} {s₀ s : Sched κ}

/-- What holds while the commands are run, compared with the state before. -/
structure Running (fails : Nat → Bool) (s₀ s : Sched κ) : Prop where
  cmds : s.cmds = s₀.cmds
  deferredCmds : s.deferredCmds = s₀.deferredCmds
  scheduled : s.scheduled = s₀.scheduled
  done : ∀ i, s.done i = true ↔ s₀.done i = true ∨ i ∈ s.ran
  nodup : s.ran.Nodup
  fresh : ∀ i ∈ s.ran, s₀.done i = false ∧ i < s₀.cmds.length
  order : ∀ pre i post, s.ran = pre ++ i :: post → ∀ d j, s₀.cmds[i]? = some d →
    d.dependsOn = some j → j ∈ pre ∨ s₀.done j = true
  skipFurther : ∀ r, s.skipFurther r = true ↔
    ∃ i d, i ∈ s.ran ∧ s₀.cmds[i]? = some d ∧ d.res = r ∧ d.stage.isPrereq = true ∧ fails i = true
  count : s.ran.length ≤ s.executed

theorem Ready.running (h : Ready s₀) : Running fails s₀ s₀ where
  cmds := rfl
  deferredCmds := rfl
  scheduled := rfl
  done i := by simp [h.ran]
  nodup := by simp [h.ran]
  fresh i hi := by simp [h.ran] at hi
  order pre i post hr := by simp [h.ran] at hr
  skipFurther r := by simp [h.ran, h.skipFurther r]
  count := by simp [h.ran]

/-- The three things a visit can do. -/
theorem visit_cases (fails : Nat → Bool) (s : Sched κ) (i : Nat) :
    (s.visit fails i = s ∧ ∀ d, s.cmds[i]? = some d →
      s.hasUnmetDependency d = true ∨ s.done i = true) ∨
    (∃ d, s.cmds[i]? = some d ∧ s.hasUnmetDependency d = false ∧ s.done i = false ∧
      s.skipFurther d.res = true ∧ s.visit fails i = { s with executed := s.executed + 1 }) ∨
    (∃ d, s.cmds[i]? = some d ∧ s.hasUnmetDependency d = false ∧ s.done i = false ∧
      s.skipFurther d.res = false ∧ s.visit fails i = { s with
        executed := s.executed + 1
        done := Function.update s.done i true
        ran := s.ran ++ [i]
        skipFurther := if fails i && d.stage.isPrereq then Function.update s.skipFurther d.res true
          else s.skipFurther }) := by
  unfold Sched.visit
  split
  · rename_i hnone
    exact .inl ⟨rfl, fun d hd => by rw [hnone] at hd; cases hd⟩
  · rename_i d hd
    split
    · rename_i hc
      refine .inl ⟨rfl, fun d' hd' => ?_⟩
      obtain rfl : d = d' := Option.some.inj (hd.symm.trans hd')
      simpa using hc
    · rename_i hc
      simp only [Bool.or_eq_true, not_or, Bool.not_eq_true] at hc
      split
      · rename_i hs
        exact .inr (.inl ⟨d, hd, hc.1, hc.2, hs, rfl⟩)
      · rename_i hs
        exact .inr (.inr ⟨d, hd, hc.1, hc.2, by simpa using hs, rfl⟩)

/-- One visit keeps the invariant. -/
theorem visit_inv (h : Running fails s₀ s) (i : Nat) : Running fails s₀ (s.visit fails i) := by
  rcases visit_cases fails s i with ⟨he, _⟩ | ⟨d, hd, _, _, _, he⟩ | ⟨d, hd, hdep, hdone, hskip, he⟩
  · rw [he]
    exact h
  · rw [he]
    exact ⟨h.cmds, h.deferredCmds, h.scheduled, h.done, h.nodup, h.fresh, h.order, h.skipFurther,
      Nat.le_succ_of_le h.count⟩
  have hd₀ : s₀.cmds[i]? = some d := h.cmds ▸ hd
  have hnew : i ∉ s.ran ∧ s₀.done i = false := by
    have := mt (h.done i).2 (by simp [hdone])
    simp only [not_or, Bool.not_eq_true] at this
    exact ⟨this.2, this.1⟩
  rw [he]
  refine ⟨h.cmds, h.deferredCmds, h.scheduled, fun k => ?_, ?_, fun k hk => ?_, ?_, fun r => ?_, ?_⟩
  · show Function.update s.done i true k = true ↔ _ ∨ k ∈ s.ran ++ [i]
    by_cases hk : k = i
    · subst hk
      simp
    · rw [Function.update_of_ne hk, h.done]
      simp [hk]
  · exact List.nodup_append.2 ⟨h.nodup, List.nodup_singleton _, fun a ha b hb hab => by
      rw [List.mem_singleton] at hb
      exact hnew.1 (hb ▸ hab ▸ ha)⟩
  · rcases List.mem_append.1 hk with hk | hk
    · exact h.fresh k hk
    · rw [List.mem_singleton.1 hk]
      exact ⟨hnew.2, lt_of_getElem?_eq_some hd₀⟩
  · intro pre k post hr d' j hd' hj
    change s.ran ++ [i] = pre ++ k :: post at hr
    rcases post.eq_nil_or_concat' with rfl | ⟨post, x, rfl⟩
    · obtain ⟨rfl, hk⟩ := List.append_inj' hr rfl
      obtain rfl : i = k := by simpa using hk
      obtain rfl : d = d' := Option.some.inj (hd₀.symm.trans hd')
      unfold Sched.hasUnmetDependency at hdep
      rw [hj] at hdep
      have hjd : s.done j = true := by simpa using hdep
      exact ((h.done j).1 hjd).symm
    · have hr' : s.ran = pre ++ k :: post := by
        rw [← List.cons_append, ← List.append_assoc] at hr
        exact List.append_inj_left' hr rfl
      exact h.order pre k post hr' d' j hd' hj
  · show (if (fails i && d.stage.isPrereq) = true then Function.update s.skipFurther d.res true
      else s.skipFurther) r = true ↔ _
    constructor
    · intro hr
      split at hr
      · rename_i hf
        by_cases hrr : r = d.res
        · rw [Bool.and_eq_true] at hf
          exact ⟨i, d, by simp, hd₀, hrr.symm, hf.2, hf.1⟩
        · rw [Function.update_of_ne hrr] at hr
          obtain ⟨k, d', hk, hrest⟩ := (h.skipFurther r).1 hr
          exact ⟨k, d', List.mem_append_left _ hk, hrest⟩
      · obtain ⟨k, d', hk, hrest⟩ := (h.skipFurther r).1 hr
        exact ⟨k, d', List.mem_append_left _ hk, hrest⟩
    · rintro ⟨k, d', hk, hd', hres, hpre, hf⟩
      rcases List.mem_append.1 hk with hk | hk
      · have := (h.skipFurther r).2 ⟨k, d', hk, hd', hres, hpre, hf⟩
        split
        · by_cases hrr : r = d.res
          · rw [hrr, Function.update_self]
          · rw [Function.update_of_ne hrr]
            exact this
        · exact this
      · obtain rfl := List.mem_singleton.1 hk
        obtain rfl : d = d' := Option.some.inj (hd₀.symm.trans hd')
        rw [if_pos (by rw [hf, hpre]; rfl), ← hres, Function.update_self]
  · show (s.ran ++ [i]).length ≤ s.executed + 1
    rw [List.length_append, List.length_singleton]
    exact Nat.succ_le_succ h.count

/-! ## Sweeps -/

/-- The order in which a sweep visits the commands. -/
def Sched.order (s : Sched κ) : List Nat := CfgStage.all.flatMap s.deferredCmds

theorem foldl_visit_inv (h : Running fails s₀ s) (l : List Nat) :
    Running fails s₀ (l.foldl (Sched.visit fails) s) := by
  induction l generalizing s with
  | nil => exact h
  | cons i l ih => exact ih (visit_inv h i)

theorem sweep_eq (h : Running fails s₀ s) :
    s.sweep fails = s₀.order.foldl (Sched.visit fails) s := by
  unfold Sched.sweep Sched.order
  induction CfgStage.all generalizing s with
  | nil => rfl
  | cons stage l ih =>
    rw [List.foldl_cons, List.flatMap_cons, List.foldl_append, Sched.runStage, h.deferredCmds]
    exact ih (foldl_visit_inv h _)

theorem sweep_inv (h : Running fails s₀ s) : Running fails s₀ (s.sweep fails) := by
  rw [sweep_eq h]
  exact foldl_visit_inv h _

theorem mem_order_iff (hr : Ready s₀) {i : Nat} : i ∈ s₀.order ↔ i < s₀.cmds.length := by
  unfold Sched.order
  rw [List.mem_flatMap]
  constructor
  · rintro ⟨stage, _, hi⟩
    obtain ⟨d, hd, _⟩ := (hr.queues stage i).1 hi
    exact lt_of_getElem?_eq_some hd
  · intro hi
    refine ⟨(s₀.cmds[i]).stage, ?_, (hr.queues _ i).2 ⟨s₀.cmds[i], List.getElem?_eq_getElem hi, rfl⟩⟩
    cases (s₀.cmds[i]).stage <;> decide

theorem visit_mono (fails : Nat → Bool) (s : Sched κ) (i : Nat) :
    (∀ k, s.done k = true → (s.visit fails i).done k = true) ∧
      (∀ r, s.skipFurther r = true → (s.visit fails i).skipFurther r = true) ∧
      s.executed ≤ (s.visit fails i).executed := by
  rcases visit_cases fails s i with ⟨he, _⟩ | ⟨d, _, _, _, _, he⟩ | ⟨d, _, _, _, _, he⟩
  · rw [he]
    exact ⟨fun _ h => h, fun _ h => h, Nat.le_refl _⟩
  · rw [he]
    exact ⟨fun _ h => h, fun _ h => h, Nat.le_succ _⟩
  · rw [he]
    refine ⟨fun k hk => ?_, fun r hr => ?_, Nat.le_succ _⟩
    · show Function.update s.done i true k = true
      by_cases hki : k = i
      · rw [hki, Function.update_self]
      · rw [Function.update_of_ne hki]
        exact hk
    · show (if (fails i && d.stage.isPrereq) = true then Function.update s.skipFurther d.res true
        else s.skipFurther) r = true
      split
      · by_cases hrr : r = d.res
        · rw [hrr, Function.update_self]
        · rw [Function.update_of_ne hrr]
          exact hr
      · exact hr

theorem foldl_visit_mono (fails : Nat → Bool) (l : List Nat) (s : Sched κ) :
    (∀ k, s.done k = true → (l.foldl (Sched.visit fails) s).done k = true) ∧
      (∀ r, s.skipFurther r = true → (l.foldl (Sched.visit fails) s).skipFurther r = true) ∧
      s.executed ≤ (l.foldl (Sched.visit fails) s).executed := by
  induction l generalizing s with
  | nil => exact ⟨fun _ h => h, fun _ h => h, Nat.le_refl _⟩
  | cons i l ih =>
    obtain ⟨h1, h2, h3⟩ := visit_mono fails s i
    obtain ⟨g1, g2, g3⟩ := ih (s.visit fails i)
    exact ⟨fun k hk => g1 k (h1 k hk), fun r hr => g2 r (h2 r hr), h3.trans g3⟩

theorem visit_ran_le (fails : Nat → Bool) (s : Sched κ) (i : Nat) : s.ran <+: (s.visit fails i).ran := by
  rcases visit_cases fails s i with ⟨he, _⟩ | ⟨d, _, _, _, _, he⟩ | ⟨d, _, _, _, _, he⟩
  · rw [he]
  · rw [he]
  · rw [he]
    exact List.prefix_append _ _

theorem foldl_visit_ran_le (fails : Nat → Bool) (l : List Nat) (s : Sched κ) :
    s.ran <+: (l.foldl (Sched.visit fails) s).ran := by
  induction l generalizing s with
  | nil => exact List.prefix_rfl
  | cons i l ih => exact (visit_ran_le fails s i).trans (ih _)

theorem foldl_visit_ran (hr : Ready s₀) (l : List Nat) :
    ∀ k ∈ (l.foldl (Sched.visit fails) s₀).ran, k ∈ l := by
  have key : ∀ (l : List Nat) (s : Sched κ) (k : Nat), k ∈ (l.foldl (Sched.visit fails) s).ran →
      k ∈ s.ran ∨ k ∈ l := by
    intro l
    induction l with
    | nil => exact fun s k hk => .inl hk
    | cons i l ih =>
      intro s k hk
      rcases ih _ k hk with hk | hk
      · rcases visit_cases fails s i with ⟨he, _⟩ | ⟨d, _, _, _, _, he⟩ | ⟨d, _, _, _, _, he⟩
        · exact .inl (he ▸ hk)
        · rw [he] at hk
          exact .inl hk
        · rw [he] at hk
          rcases List.mem_append.1 hk with hk | hk
          · exact .inl hk
          · exact .inr (by rw [List.mem_singleton.1 hk]; exact List.mem_cons_self)
      · exact .inr (List.mem_cons_of_mem _ hk)
  intro k hk
  rcases key l s₀ k hk with hk | hk
  · rw [hr.ran] at hk
    cases hk
  · exact hk

theorem foldl_visit_done {l : List Nat} {i : Nat} (hi : i ∉ l) (s : Sched κ) :
    (l.foldl (Sched.visit fails) s).done i = s.done i := by
  induction l generalizing s with
  | nil => rfl
  | cons k l ih =>
    rw [List.mem_cons, not_or] at hi
    rw [List.foldl_cons, ih hi.2]
    rcases visit_cases fails s k with ⟨he, _⟩ | ⟨d, _, _, _, _, he⟩ | ⟨d, _, _, _, _, he⟩
    · rw [he]
    · rw [he]
    · rw [he]
      exact Function.update_of_ne hi.1 _ _

/-- **While a command is not done, a sweep counts one**: the first such command waits for
    nothing. -/
theorem sweep_progress (hr : Ready s₀) (h : Running fails s₀ s)
    (hex : ∃ i < s₀.cmds.length, s.done i = false) : s.executed < (s.sweep fails).executed := by
  obtain ⟨hi, hdone⟩ := Nat.find_spec hex
  have hmin := fun (k : Nat) => @Nat.find_min _ _ hex k
  generalize Nat.find hex = i at hi hdone hmin
  rw [sweep_eq h]
  -- split the order at the first place of the command
  obtain ⟨pre, post, hsplit, hpre⟩ := List.eq_append_cons_of_mem ((mem_order_iff hr).2 hi)
  rw [hsplit, List.foldl_append, List.foldl_cons]
  generalize ht : pre.foldl (Sched.visit fails) s = t
  have hrun : Running fails s₀ t := ht ▸ foldl_visit_inv h pre
  obtain ⟨hmono, _, hle⟩ := foldl_visit_mono fails pre s
  rw [ht] at hmono hle
  have hti : t.done i = false := by
    rw [← ht, foldl_visit_done hpre, hdone]
  have hcmd : t.cmds[i]? = some s₀.cmds[i] := by rw [hrun.cmds]; exact List.getElem?_eq_getElem hi
  have hmet : t.hasUnmetDependency s₀.cmds[i] = false := by
    unfold Sched.hasUnmetDependency
    split
    · rfl
    · rename_i j hj
      have hlt := hr.dependsOn i _ j (List.getElem?_eq_getElem hi) hj
      have hdj : s.done j = true := by
        by_contra hc
        exact hmin j hlt ⟨hlt.trans hi, by simpa using hc⟩
      rw [hmono j hdj]
      rfl
  have hcount : t.executed + 1 ≤ (t.visit fails i).executed := by
    rcases visit_cases fails t i with ⟨_, hblock⟩ | ⟨d, _, _, _, _, he⟩ | ⟨d, _, _, _, _, he⟩
    · rcases hblock _ hcmd with hu | hd
      · rw [hmet] at hu
        cases hu
      · rw [hti] at hd
        cases hd
    · rw [he]
    · rw [he]
  have hend := (foldl_visit_mono fails post (t.visit fails i)).2.2
  omega

/-! ## Whole runs -/

/-- If as many were run as were pending, all of them were. -/
theorem Running.all_ran (h : Running fails s₀ s) (hlen : s₀.pending ≤ s.ran.length) {i : Nat}
    (hi : i < s₀.cmds.length) (hd : s₀.done i = false) : i ∈ s.ran := by
  have hsub : s.ran.Subperm ((List.range s₀.cmds.length).filter fun i => !s₀.done i) := by
    refine List.Nodup.subperm h.nodup fun k hk => ?_
    obtain ⟨hdk, hlt⟩ := h.fresh k hk
    rw [List.mem_filter, List.mem_range]
    exact ⟨hlt, by simp [hdk]⟩
  refine (hsub.perm_of_length_le hlen).mem_iff.2 ?_
  rw [List.mem_filter, List.mem_range]
  exact ⟨hi, by simp [hd]⟩

theorem Running.exists_pending (hr : Ready s₀) (h : Running fails s₀ s)
    (hlt : s.executed < s.scheduled) : ∃ i < s₀.cmds.length, s.done i = false := by
  by_contra hc
  have hall : ∀ i < s₀.cmds.length, s.done i = true := by
    intro i hi
    by_contra hn
    exact hc ⟨i, hi, by simpa using hn⟩
  have hle : s₀.pending ≤ s.ran.length := by
    refine (List.Nodup.subperm (List.nodup_range.filter _) fun i hi => ?_).length_le
    rw [List.mem_filter, List.mem_range] at hi
    rcases (h.done i).1 (hall i hi.1) with hd | hran
    · simp [hd] at hi
    · exact hran
  have := h.count
  have := h.scheduled
  have := hr.scheduled
  omega

/-- **Runs end**, after at most one sweep more than commands are scheduled. -/
theorem runDeferredCmds_returns (hr : Ready s₀) (h : Running fails s₀ s) {fuel : Nat}
    (hfuel : s₀.scheduled ≤ s.executed + fuel) :
    ∃ s', s.runDeferredCmds fails (fuel + 1) = some s' := by
  induction fuel generalizing s with
  | zero =>
    have hmono := (foldl_visit_mono fails s₀.order s).2.2
    rw [← sweep_eq h] at hmono
    rw [Sched.runDeferredCmds, if_neg (by rw [(sweep_inv h).scheduled]; omega)]
    exact ⟨_, rfl⟩
  | succ fuel ih =>
    rw [Sched.runDeferredCmds]
    split
    · rename_i hlt
      have hmono := (foldl_visit_mono fails s₀.order s).2.2
      rw [← sweep_eq h] at hmono
      rw [(sweep_inv h).scheduled] at hlt
      have hpend := h.exists_pending hr (by rw [h.scheduled]; omega)
      have hprog := sweep_progress hr h hpend
      exact ih (sweep_inv h) (by omega)
    · exact ⟨_, rfl⟩

/-- What a run ends in: the invariant, at least one sweep, and enough commands counted. -/
theorem runDeferredCmds_inv (h : Running fails s₀ s) {fuel : Nat} {s' : Sched κ}
    (hrun : s.runDeferredCmds fails fuel = some s') :
    Running fails s₀ s' ∧ s'.scheduled ≤ s'.executed ∧
      (∀ i, (s.sweep fails).done i = true → s'.done i = true) ∧
      ∀ r, (s.sweep fails).skipFurther r = true → s'.skipFurther r = true := by
  induction fuel generalizing s with
  | zero => cases hrun
  | succ fuel ih =>
    rw [Sched.runDeferredCmds] at hrun
    split at hrun
    · obtain ⟨h1, h2, h3, h4⟩ := ih (sweep_inv h) hrun
      have hmono := foldl_visit_mono fails s₀.order (s.sweep fails)
      rw [← sweep_eq (sweep_inv h)] at hmono
      exact ⟨h1, h2, fun i hi => h3 i (hmono.1 i hi), fun r hr => h4 r (hmono.2.1 r hr)⟩
    · rename_i hle
      obtain rfl := Option.some.inj hrun
      exact ⟨sweep_inv h, by omega, fun _ h => h, fun _ h => h⟩

/-- A run continues its first sweep. -/
theorem runDeferredCmds_ran_le (h : Running fails s₀ s) {fuel : Nat} {s' : Sched κ}
    (hrun : s.runDeferredCmds fails fuel = some s') : (s.sweep fails).ran <+: s'.ran := by
  induction fuel generalizing s with
  | zero => cases hrun
  | succ fuel ih =>
    rw [Sched.runDeferredCmds] at hrun
    split at hrun
    · refine List.IsPrefix.trans ?_ (ih (sweep_inv h) hrun)
      rw [sweep_eq (sweep_inv h)]
      exact foldl_visit_ran_le fails _ _
    · rw [← Option.some.inj hrun]

/-- No command of a prerequisite stage fails. -/
def NoPrereqFails (fails : Nat → Bool) (s : Sched κ) : Prop :=
  ∀ (i : Nat) (d : DeferredCmd κ), s.cmds[i]? = some d → d.stage.isPrereq = true → fails i = false

/-- Every command that one of the resource waits for is cancelled, or is one of the same resource
    in the same or an earlier stage. -/
def InOrder (s : Sched κ) (res : Nat) : Prop :=
  ∀ (i j : Nat) (d d' : DeferredCmd κ), s.cmds[i]? = some d → d.res = res → d.dependsOn = some j →
    s.cmds[j]? = some d' → s.done j = true ∨ d'.res = res ∧ d'.stage.toNat ≤ d.stage.toNat

/-- Nothing is counted without being run. -/
theorem foldl_visit_count (hno : NoPrereqFails fails s₀) (h : Running fails s₀ s)
    (hc : s.executed = s.ran.length) (l : List Nat) :
    (l.foldl (Sched.visit fails) s).executed = (l.foldl (Sched.visit fails) s).ran.length := by
  induction l generalizing s with
  | nil => exact hc
  | cons i l ih =>
    refine ih (visit_inv h i) ?_
    rcases visit_cases fails s i with ⟨he, _⟩ | ⟨d, _, _, _, hs, _⟩ | ⟨d, _, _, _, _, he⟩
    · rw [he]
      exact hc
    · obtain ⟨k, d', _, hd', _, hpre, hf⟩ := (h.skipFurther _).1 hs
      rw [hno k d' hd' hpre] at hf
      cases hf
    · rw [he]
      show s.executed + 1 = (s.ran ++ [i]).length
      rw [List.length_append, List.length_singleton, hc]

theorem runDeferredCmds_count (hno : NoPrereqFails fails s₀) (h : Running fails s₀ s)
    (hc : s.executed = s.ran.length) {fuel : Nat} {s' : Sched κ}
    (hrun : s.runDeferredCmds fails fuel = some s') : s'.executed = s'.ran.length := by
  induction fuel generalizing s with
  | zero => cases hrun
  | succ fuel ih =>
    have hsweep : (s.sweep fails).executed = (s.sweep fails).ran.length := by
      rw [sweep_eq h]
      exact foldl_visit_count hno h hc _
    rw [Sched.runDeferredCmds] at hrun
    split at hrun
    · exact ih (sweep_inv h) hsweep hrun
    · obtain rfl := Option.some.inj hrun
      exact hsweep

/-- If nothing fails in a prerequisite stage, everything that is not cancelled is run. -/
theorem runDeferredCmds_complete (hr : Ready s₀) (hno : NoPrereqFails fails s₀) {fuel : Nat}
    (hrun : s₀.runDeferredCmds fails fuel = some s) {i : Nat} (hi : i < s₀.cmds.length)
    (hd : s₀.done i = false) : i ∈ s.ran := by
  have h₀ : Running fails s₀ s₀ := hr.running
  obtain ⟨hinv, hcount, _⟩ := runDeferredCmds_inv h₀ hrun
  have heq := runDeferredCmds_count hno h₀ (by rw [hr.executed, hr.ran]; rfl) hrun
  refine hinv.all_ran ?_ hi hd
  rw [← hr.scheduled, ← hinv.scheduled, ← heq]
  exact hcount

/-- The order of a sweep: by stage, then by creation. -/
theorem order_pairwise (hr : Ready s₀) : s₀.order.Pairwise fun j i =>
    ∀ d d', s₀.cmds[j]? = some d → s₀.cmds[i]? = some d' →
      d.stage.toNat < d'.stage.toNat ∨ d.stage.toNat = d'.stage.toNat ∧ j < i := by
  have hstages : CfgStage.all.Pairwise fun a b => a.toNat < b.toNat := by decide
  unfold Sched.order
  rw [List.pairwise_flatMap]
  refine ⟨fun stage _ => ?_, hstages.imp fun {a b} hab j hj i hi d d' hd hd' => .inl ?_⟩
  · refine (hr.sorted stage).imp_of_mem fun {j i} hj hi hlt d d' hd hd' => .inr ⟨?_, hlt⟩
    obtain ⟨e, he, hse⟩ := (hr.queues stage j).1 hj
    obtain ⟨e', he', hse'⟩ := (hr.queues stage i).1 hi
    obtain rfl : d = e := Option.some.inj (hd.symm.trans he)
    obtain rfl : d' = e' := Option.some.inj (hd'.symm.trans he')
    rw [hse, hse']
  · obtain ⟨e, he, hse⟩ := (hr.queues a j).1 hj
    obtain ⟨e', he', hse'⟩ := (hr.queues b i).1 hi
    obtain rfl : d = e := Option.some.inj (hd.symm.trans he)
    obtain rfl : d' = e' := Option.some.inj (hd'.symm.trans he')
    rw [hse, hse']
    exact hab

/-- The first command of a resource that waits for nothing is run in the first sweep, when only
    commands of earlier stages, or earlier ones of its stage, have been run. -/
theorem runDeferredCmds_first (hr : Ready s₀) {fuel : Nat} (hrun : s₀.runDeferredCmds fails fuel = some s)
    {i : Nat} {d : DeferredCmd κ} (hi : s₀.cmds[i]? = some d) (hnd : s₀.done i = false)
    (hdep : ∀ j, d.dependsOn = some j → s₀.done j = true)
    (hfirst : ∀ (k : Nat) (d' : DeferredCmd κ), s₀.cmds[k]? = some d' → d'.res = d.res →
      i ≤ k ∧ d.stage.toNat ≤ d'.stage.toNat) :
    ∃ pre post, s.ran = pre ++ i :: post ∧ ∀ k ∈ pre, ∀ d', s₀.cmds[k]? = some d' →
      d'.stage.toNat ≤ d.stage.toNat := by
  have hinv : Running fails s₀ s₀ := hr.running
  obtain ⟨A, B, hsplit, hiA⟩ :=
    List.eq_append_cons_of_mem ((mem_order_iff hr).2 (lt_of_getElem?_eq_some hi))
  have hA : ∀ k ∈ A, ∀ d', s₀.cmds[k]? = some d' →
      d'.stage.toNat < d.stage.toNat ∨ d'.stage.toNat = d.stage.toNat ∧ k < i := by
    intro k hk d' hd'
    have hp := order_pairwise hr
    rw [hsplit] at hp
    exact (List.pairwise_append.1 hp).2.2 k hk i List.mem_cons_self d' d hd' hi
  have hsweep : s₀.sweep fails = _ := sweep_eq hinv
  rw [hsplit, List.foldl_append, List.foldl_cons] at hsweep
  generalize ht : A.foldl (Sched.visit fails) s₀ = t at hsweep
  have htinv : Running fails s₀ t := ht ▸ foldl_visit_inv hinv A
  have htran : ∀ k ∈ t.ran, k ∈ A := by
    rw [← ht]
    exact foldl_visit_ran hr A
  have hvisit : (t.visit fails i).ran = t.ran ++ [i] := by
    have htc : t.cmds[i]? = some d := by rw [htinv.cmds]; exact hi
    have htd : t.done i = false := by rw [← ht, foldl_visit_done hiA, hnd]
    rcases visit_cases fails t i with ⟨_, hblock⟩ | ⟨g, hg, _, _, hs, _⟩ | ⟨g, _, _, _, _, he⟩
    · rcases hblock d htc with hu | hd
      · unfold Sched.hasUnmetDependency at hu
        split at hu
        · cases hu
        · rename_i j hj
          rw [(htinv.done j).2 (.inl (hdep j hj))] at hu
          cases hu
      · rw [htd] at hd
        cases hd
    · obtain rfl : g = d := Option.some.inj (hg.symm.trans htc)
      obtain ⟨k, d', hk, hd', hres, _, _⟩ := (htinv.skipFurther _).1 hs
      have h1 := hfirst k d' hd' hres
      have h2 := hA k (htran k hk) d' hd'
      omega
    · rw [he]
  have hpre : t.ran ++ [i] <+: s.ran := by
    rw [← hvisit]
    refine List.IsPrefix.trans ?_ (runDeferredCmds_ran_le hinv hrun)
    rw [hsweep]
    exact foldl_visit_ran_le fails B _
  obtain ⟨post, hpost⟩ := hpre
  refine ⟨t.ran, post, ?_, fun k hk d' hd' => ?_⟩
  · rw [← hpost, List.append_assoc]
    rfl
  · have := hA k (htran k hk) d' hd'
    omega

/-! ## Chains of dependencies -/

/-- A command waits for another, directly or through others. -/
inductive Follows (cmds : List (DeferredCmd κ)) : Nat → Nat → Prop
  | refl (i : Nat) : Follows cmds i i
  | step {i k j : Nat} {d : DeferredCmd κ} (hi : cmds[i]? = some d) (hk : d.dependsOn = some k)
      (h : Follows cmds k j) : Follows cmds i j

theorem Follows.append {cmds : List (DeferredCmd κ)} {i j : Nat} (h : Follows cmds i j)
    (l : List (DeferredCmd κ)) : Follows (cmds ++ l) i j := by
  induction h with
  | refl i => exact .refl i
  | step hi hk _ ih =>
    refine .step ?_ hk ih
    rw [List.getElem?_append_left (lt_of_getElem?_eq_some hi)]
    exact hi

theorem Follows.trans {cmds : List (DeferredCmd κ)} {i j k : Nat} (h : Follows cmds i j)
    (h' : Follows cmds j k) : Follows cmds i k := by
  induction h with
  | refl i => exact h'
  | step hi hk _ ih => exact .step hi hk (ih h')

theorem Follows.le (hr : Ready s₀) {i j : Nat} (h : Follows s₀.cmds i j) : j ≤ i := by
  induction h with
  | refl => exact Nat.le_refl _
  | step hi hk _ ih => exact ih.trans (hr.dependsOn _ _ _ hi hk).le

/-- **What a command follows is run before it**, when nothing in between is cancelled. -/
theorem Running.before (hr : Ready s₀) (h : Running fails s₀ s) {i j : Nat}
    (hf : Follows s₀.cmds i j) (hne : i ≠ j) (hnd : ∀ k, j ≤ k → k < i → s₀.done k = false)
    {pre post : List Nat} (hran : s.ran = pre ++ i :: post) : j ∈ pre := by
  induction hf generalizing pre post with
  | refl => exact absurd rfl hne
  | @step i k j d hi hk hkj ih =>
    have hki := hr.dependsOn i d k hi hk
    have hjk := hkj.le hr
    rcases h.order pre i post hran d k hi hk with hp | hd
    · by_cases hkj' : k = j
      · exact hkj' ▸ hp
      obtain ⟨pre', post', rfl⟩ := List.append_of_mem hp
      have hj := ih hkj' (fun m hjm hmk => hnd m hjm (hmk.trans hki)) 
        (by rw [hran, List.append_assoc]; rfl)
      exact List.mem_append_left _ hj
    · rw [hnd k hjk hki] at hd
      cases hd

theorem pairwise_of_split {α : Type} {R : α → α → Prop} {l : List α}
    (h : ∀ pre a post, l = pre ++ a :: post → ∀ b ∈ post, R a b) : l.Pairwise R := by
  induction l with
  | nil => exact List.Pairwise.nil
  | cons x l ih =>
    refine List.pairwise_cons.2 ⟨h [] x l rfl, ih fun pre a post he => ?_⟩
    exact h (x :: pre) a post (by rw [he]; rfl)

/-- Commands that all follow the earlier ones are run in the order of their creation. -/
theorem Running.filter_ran (hr : Ready s₀) (h : Running fails s₀ s) {p : Nat → Bool}
    (hf : ∀ i j, i < j → p i = true → p j = true → Follows s₀.cmds j i ∧
      ∀ k, i ≤ k → k < j → s₀.done k = false)
    (hall : ∀ i < s₀.cmds.length, p i = true → i ∈ s.ran) :
    s.ran.filter p = (List.range s₀.cmds.length).filter p := by
  have hnodup := h.nodup
  have hpair : s.ran.Pairwise fun a b => p a = true → p b = true → a < b := by
    refine pairwise_of_split fun pre a post hran b hb ha hpb => ?_
    rw [hran] at hnodup
    have hne : a ≠ b := by
      rintro rfl
      exact (List.nodup_cons.1 (List.nodup_append.1 hnodup).2.1).1 hb
    by_contra hlt
    obtain ⟨hfol, hclean⟩ := hf b a (by omega) hpb ha
    have hbpre := h.before hr hfol hne hclean hran
    exact (List.nodup_append.1 hnodup).2.2 b hbpre b (List.mem_cons_of_mem _ hb) rfl
  have hsorted : (s.ran.filter p).Pairwise (· < ·) := by
    rw [List.pairwise_filter]
    exact hpair
  have hperm : (s.ran.filter p).Perm ((List.range s₀.cmds.length).filter p) := by
    refine (List.perm_ext_iff_of_nodup (hnodup.filter _) (List.nodup_range.filter _)).2 fun i => ?_
    rw [List.mem_filter, List.mem_filter, List.mem_range]
    exact ⟨fun hi => ⟨(h.fresh i hi.1).2, hi.2⟩, fun hi => ⟨hall i hi.1 hi.2, hi.2⟩⟩
  exact hperm.eq_of_pairwise (fun a b _ _ hab hba => absurd hab (by omega)) hsorted
    ((List.pairwise_lt_range).filter _)

end Run

end DrbdUtils.Adm
