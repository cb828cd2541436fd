import Mathlib.Data.Finset.Insert
import Mathlib.Data.Finset.Erase
import Mathlib.Data.List.Basic
import Mathlib.Logic.Function.Basic
import Mathlib.Order.Nat

/-!
# The fence-peer helper for Pacemaker

`crm-fence-peer.9.sh`, run for one resource by any number of processes at once.  A run reads the
constraint from the CIB, computes a stricter one and patches the CIB, which fails if the CIB has
changed since it was read.

The rule of a constraint is the set of its expressions `<attribute> ne <value>`: a node that none of
them is for is banned.  The CIB is a history of constraints by epoch, and a query or a patch is one
step.  What `try_place_constraint` finds out about the peers, the quorum, timeouts and failures are
choices of an action.

* `State.Inv.step` — what every step keeps.
* `run_oneWinner` — which runs have at most one winner.
-/

set_option autoImplicit false

namespace DrbdUtils.Fence.Crm

/-! ## The program -/

/-- The nodes of a cluster and their attributes. -/
structure Cluster (N X : Type) where
  /-- `attribute="$a" ... value="$v"` for a node: the fencing attribute, or `#uname`. -/
  expr : N → X
  /-- The attribute of the expression has its value on the node. -/
  is : X → N → Bool

/-- The environment of a run: `$HOSTNAME`, and the node lists by their index. -/
structure Config (N : Type) where
  hostName : N
  includeNodes : List (Nat × N)
  excludeNodes : List (Nat × N)

/-- Where a run is. -/
inductive Phase where
  /-- In `create_or_modify_constraint`, before the query: whether a constraint was there on entry or
      is there after a first attempt, and the exit code for a success. -/
  | querying (again : Bool) (code : Nat)
  /-- Before the patch, made against an epoch. -/
  | patching (again : Bool) (code epoch : Nat)
  /-- After a failed first attempt, before `get_cib_xml_from_dc`. -/
  | rechecking
  /-- `drbd_peer_fencing` has succeeded; before `double_check_after_fencing`. -/
  | fenced (code : Nat)
  | exited (code : Nat)
  deriving DecidableEq

/-- A run; `new_constraint` is kept from one attempt to the next.  `since` is the epoch in which it
    began. -/
structure Run (N X : Type) where
  cfg : Config N
  since : Nat
  newConstraint : Finset X
  phase : Phase

structure State (P N X : Type) where
  epoch : Nat := 0
  constraint : Nat → Option (Finset X)
  /-- The epoch began with a change by an unfence. -/
  unfenced : Nat → Bool := fun _ => false
  runs : P → Option (Run N X) := fun _ => none

/-- What `try_place_constraint` does: place the constraint, and exit with 4, 7 or 5, or leave it and
    exit with 1 or 5. -/
inductive Attempt where
  | reachable
  | fenced
  | unclean
  | upToDate
  | notUpToDate

def Attempt.phase (again : Bool) : Attempt → Phase
  | .reachable => .querying again 4
  | .fenced => .querying again 7
  | .unclean => .querying again 5
  | .upToDate => .exited 1
  | .notUpToDate => .exited 5

inductive Action (P N X : Type) where
  /-- A run begins, with its first query. -/
  | start (p : P) (cfg : Config N) (attempt : Attempt)
  /-- `cibadmin -Q` in `create_or_modify_constraint`. -/
  | query (p : P) (haveQuorum : Bool)
  /-- `cibadmin --patch`. -/
  | patch (p : P)
  /-- A failure, or a timeout. -/
  | fail (p : P)
  | recheck (p : P) (attempt : Attempt)
  /-- `double_check_after_fencing`, which may remove the constraint. -/
  | finish (p : P) (remove : Bool)
  /-- An unfence changes or removes the constraint. -/
  | unfence (constraint : Option (Finset X))
  /-- Anything else in the CIB changes. -/
  | otherChange

variable {P N X : Type}

section Program

variable (C : Cluster N X)

/-- The rule bans a node. -/
def Cluster.rejects (constraint : Finset X) (n : N) : Bool :=
  decide (∀ x ∈ constraint, C.is x n = false)

/-- The constraint of a CIB bans a node: `crm_mon` reports a ban. -/
def Cluster.bans (constraint : Option (Finset X)) (n : N) : Bool :=
  constraint.any fun c => C.rejects c n

variable [DecidableEq P] [DecidableEq X]

/-- `setup_new_constraint`. -/
def Cluster.setupNewConstraint (cfg : Config N) : Finset X :=
  (cfg.includeNodes.map fun i => C.expr i.2).toFinset

/-- `ATTRIBUTES` and `VALUES`, as `setup_new_constraint` leaves them. -/
def Cluster.values (cfg : Config N) (i : Nat) : Option X :=
  (cfg.includeNodes.lookup i).map C.expr

/-- `restrict_existing_constraint_further`: drop the expressions of the excluded nodes. -/
def Cluster.restrictExistingConstraintFurther (cfg : Config N)
    (haveConstraint newConstraint : Finset X) : Finset X :=
  if cfg.excludeNodes = [] then newConstraint
  else cfg.excludeNodes.foldl (fun c i => c.erase ((C.values cfg i.1).getD (C.expr i.2)))
    haveConstraint

/-- The rest of `drbd_peer_fencing` for a constraint that is there. -/
def Cluster.existingPhase (r : Run N X) (haveConstraint : Finset X) (attempt : Attempt) : Phase :=
  if haveConstraint = r.newConstraint then .fenced 4
  else if C.rejects haveConstraint r.cfg.hostName then .exited 1
  else attempt.phase true

/-- `create_or_modify_constraint` was not successful. -/
def failedPhase (again : Bool) : Phase := if again then .exited 1 else .rechecking

/-- The constraint in the CIB. -/
def State.current (s : State P N X) : Option (Finset X) := s.constraint s.epoch

def State.setRun (s : State P N X) (p : P) (r : Run N X) : State P N X :=
  { s with runs := Function.update s.runs p (some r) }

/-- The CIB changes. -/
def State.change (s : State P N X) (constraint : Option (Finset X)) (unfenced : Bool) :
    State P N X :=
  { s with
    epoch := s.epoch + 1
    constraint := Function.update s.constraint (s.epoch + 1) constraint
    unfenced := Function.update s.unfenced (s.epoch + 1) unfenced }

/-- The run behind its first query. -/
def State.startRun (s : State P N X) (cfg : Config N) (attempt : Attempt) : Run N X :=
  let r : Run N X := ⟨cfg, s.epoch, C.setupNewConstraint cfg, .exited 1⟩
  match s.current with
  | none => { r with phase := attempt.phase false }
  | some c => { r with phase := C.existingPhase r c attempt }

/-- The run behind a query in `create_or_modify_constraint`. -/
def State.queryRun (s : State P N X) (r : Run N X) (again : Bool) (code : Nat)
    (haveQuorum : Bool) : Run N X :=
  if haveQuorum && !C.bans s.current r.cfg.hostName then
    { r with
      newConstraint := match s.current with
        | none => r.newConstraint
        | some c => C.restrictExistingConstraintFurther r.cfg c r.newConstraint
      phase := .patching again code s.epoch }
  else { r with phase := failedPhase again }

/-- An action; one that the run is not at does nothing. -/
def State.step (s : State P N X) : Action P N X → State P N X
  | .start p cfg attempt =>
    match s.runs p with
    | none => s.setRun p (s.startRun C cfg attempt)
    | some _ => s
  | .query p haveQuorum =>
    match s.runs p with
    | some r =>
      match r.phase with
      | .querying again code => s.setRun p (s.queryRun C r again code haveQuorum)
      | _ => s
    | none => s
  | .patch p =>
    match s.runs p with
    | some r =>
      match r.phase with
      | .patching again code epoch =>
        if epoch = s.epoch then
          (s.change (some r.newConstraint) false).setRun p { r with phase := .fenced code }
        -- 103 or 205: "going to retry in a bit"
        else s.setRun p { r with phase := .querying again code }
      | _ => s
    | none => s
  | .fail p =>
    match s.runs p with
    | some r =>
      match r.phase with
      | .patching again _ _ => s.setRun p { r with phase := failedPhase again }
      | .rechecking => s.setRun p { r with phase := .exited 1 }
      | _ => s
    | none => s
  | .recheck p attempt =>
    match s.runs p with
    | some r =>
      match r.phase with
      | .rechecking =>
        match s.current with
        | none => s.setRun p { r with phase := .exited 1 }
        | some c => s.setRun p { r with phase := C.existingPhase r c attempt }
      | _ => s
    | none => s
  | .finish p remove =>
    match s.runs p with
    | some r =>
      match r.phase with
      | .fenced code =>
        if remove && (code = 4 || code = 7) then
          (s.change none false).setRun p { r with phase := .exited 1 }
        else s.setRun p { r with phase := .exited code }
      | _ => s
    | none => s
  | .unfence constraint => s.change constraint true
  | .otherChange => s.change s.current false

/-- A CIB with a constraint, before any run. -/
def State.init (constraint : Option (Finset X)) : State P N X where
  constraint := fun _ => constraint

def State.run (s : State P N X) (actions : List (Action P N X)) : State P N X :=
  actions.foldl (State.step C) s

end Program

/-! ## One winner -/

variable (C : Cluster N X)

/-- At an epoch of the run, the constraint bans all nodes that it excludes, and not its own. -/
def Run.Justified (s : State P N X) (r : Run N X) (i : Nat) : Prop :=
  r.since ≤ i ∧ i ≤ s.epoch ∧ (∀ e ∈ r.cfg.excludeNodes, C.bans (s.constraint i) e.2 = true) ∧
    (s.constraint i).isSome ∧ C.bans (s.constraint i) r.cfg.hostName = false

/-- The run has won. -/
def Run.Wins (r : Run N X) : Prop := r.phase = .exited 4 ∨ r.phase = .exited 7

/-- An unfence changed the constraint between two epochs. -/
def State.UnfencedBetween (s : State P N X) (i j : Nat) : Prop :=
  ∃ k, i < k ∧ k ≤ j ∧ s.unfenced k = true

/-- The expressions tell the nodes apart, as `#uname` does: each is for one node. -/
structure Cluster.Tells (C : Cluster N X) : Prop where
  is_iff : ∀ x n, C.is x n = true ↔ x = C.expr n
  injective : Function.Injective C.expr

/-- A run excludes somebody, with node lists by node id (`$UP_TO_DATE_NODES` is set), and its node
    id is that of its host name. -/
structure Config.Proper (cfg : Config N) : Prop where
  excludes : cfg.excludeNodes ≠ []
  indices : ∀ e ∈ cfg.excludeNodes, cfg.includeNodes.lookup e.1 = none
  self : cfg.hostName ∈ cfg.includeNodes.map Prod.snd
  disjoint : ∀ e ∈ cfg.excludeNodes, e.2 ∉ cfg.includeNodes.map Prod.snd

/-- The constraint bans the excluded nodes, and not the own one. -/
structure Config.Good (C : Cluster N X) (cfg : Config N) (constraint : Finset X) : Prop where
  excluded : ∀ e ∈ cfg.excludeNodes, C.expr e.2 ∉ constraint
  self : C.expr cfg.hostName ∈ constraint

section Constraints

variable {C} {cfg : Config N} {c : Finset X} {n : N}

theorem Cluster.Tells.rejects_iff (h : C.Tells) : C.rejects c n = true ↔ C.expr n ∉ c := by
  rw [Cluster.rejects, decide_eq_true_iff]
  constructor
  · intro hall hmem
    have hfalse := hall _ hmem
    rw [(h.is_iff (C.expr n) n).2 rfl] at hfalse
    cases hfalse
  · intro hnot x hx
    rw [← Bool.not_eq_true, h.is_iff]
    rintro rfl
    exact hnot hx

theorem Cluster.bans_some : C.bans (some c) n = C.rejects c n := rfl

variable [DecidableEq X]

theorem mem_setupNewConstraint {x : X} :
    x ∈ C.setupNewConstraint cfg ↔ ∃ m ∈ cfg.includeNodes.map Prod.snd, C.expr m = x := by
  rw [Cluster.setupNewConstraint, List.mem_toFinset]
  simp only [List.mem_map, exists_exists_and_eq_and]

theorem Config.Proper.good (h : cfg.Proper) (ht : C.Tells) :
    cfg.Good C (C.setupNewConstraint cfg) where
  excluded e he hmem := by
    obtain ⟨m, hm, heq⟩ := mem_setupNewConstraint.1 hmem
    rw [ht.injective heq] at hm
    exact h.disjoint e he hm
  self := mem_setupNewConstraint.2 ⟨_, h.self, rfl⟩

/-- What is left of a constraint. -/
theorem Config.Proper.mem_restrict (h : cfg.Proper) {haveConstraint newConstraint : Finset X}
    {x : X} : x ∈ C.restrictExistingConstraintFurther cfg haveConstraint newConstraint ↔
      x ∈ haveConstraint ∧ ∀ e ∈ cfg.excludeNodes, x ≠ C.expr e.2 := by
  have hfold : ∀ (l : List (Nat × N)) (c : Finset X),
      (∀ e ∈ l, cfg.includeNodes.lookup e.1 = none) →
      (x ∈ l.foldl (fun c i => c.erase ((C.values cfg i.1).getD (C.expr i.2))) c ↔
        x ∈ c ∧ ∀ e ∈ l, x ≠ C.expr e.2) := by
    intro l
    induction l with
    | nil => simp
    | cons e l ih =>
      intro c hl
      have hval : (C.values cfg e.1).getD (C.expr e.2) = C.expr e.2 := by
        rw [Cluster.values, hl e List.mem_cons_self]
        rfl
      rw [List.foldl_cons, hval, ih _ fun e he => hl e (List.mem_cons_of_mem _ he),
        Finset.mem_erase, List.forall_mem_cons]
      tauto
  rw [Cluster.restrictExistingConstraintFurther, if_neg h.excludes, hfold _ _ h.indices]

/-- **A constraint that does not ban the run's own node** is restricted to a good one. -/
theorem Config.Proper.good_restrict (h : cfg.Proper) (ht : C.Tells)
    {haveConstraint newConstraint : Finset X} (hself : C.expr cfg.hostName ∈ haveConstraint) :
    cfg.Good C (C.restrictExistingConstraintFurther cfg haveConstraint newConstraint) where
  excluded e he hmem := (h.mem_restrict.1 hmem).2 e he rfl
  self := by
    refine h.mem_restrict.2 ⟨hself, fun e he heq => ?_⟩
    have hhost := h.self
    rw [ht.injective heq] at hhost
    exact h.disjoint e he hhost

end Constraints

/-! ## The invariant -/

section Invariant

variable {C} {s s' : State P N X} {r : Run N X} {p : P} {i : Nat}

theorem State.setRun_self [DecidableEq P] (s : State P N X) (p : P) (r : Run N X) :
    (s.setRun p r).runs p = some r := Function.update_self ..

theorem State.setRun_ne [DecidableEq P] (s : State P N X) {p q : P} (r : Run N X) (h : q ≠ p) :
    (s.setRun p r).runs q = s.runs q := Function.update_of_ne h ..

theorem State.change_constraint (s : State P N X) (c : Option (Finset X)) (u : Bool) :
    (s.change c u).constraint (s.epoch + 1) = c := Function.update_self ..

theorem State.change_unfenced (s : State P N X) (c : Option (Finset X)) (u : Bool) :
    (s.change c u).unfenced (s.epoch + 1) = u := Function.update_self ..

theorem State.change_unfenced_ne (s : State P N X) (c : Option (Finset X)) (u : Bool) {k : Nat}
    (h : k ≠ s.epoch + 1) : (s.change c u).unfenced k = s.unfenced k := Function.update_of_ne h ..

/-- The later state has the same past. -/
structure State.Extends (s s' : State P N X) : Prop where
  epoch : s.epoch ≤ s'.epoch
  constraint : ∀ i ≤ s.epoch, s'.constraint i = s.constraint i

theorem State.Extends.refl (s : State P N X) : s.Extends s := ⟨Nat.le_refl _, fun _ _ => rfl⟩

theorem State.extends_change (s : State P N X) (c : Option (Finset X)) (u : Bool) :
    s.Extends (s.change c u) where
  epoch := Nat.le_succ _
  constraint i hi := Function.update_of_ne (by omega) _ _

theorem Run.Justified.mono (h : r.Justified C s i) (he : s.Extends s') : r.Justified C s' i := by
  obtain ⟨h1, h2, h3⟩ := h
  refine ⟨h1, h2.trans he.epoch, ?_⟩
  rw [he.constraint i h2]
  exact h3

/-- What is known of a run. -/
structure RunInv (C : Cluster N X) (s : State P N X) (r : Run N X) : Prop where
  proper : r.cfg.Proper
  since : r.since ≤ s.epoch
  good : r.cfg.Good C r.newConstraint
  patching : ∀ again code epoch, r.phase = .patching again code epoch → epoch ≤ s.epoch ∧
    ∀ n, C.bans (s.constraint epoch) n = true → C.rejects r.newConstraint n = true
  fenced : ∀ code, r.phase = .fenced code → ∃ i, r.Justified C s i
  wins : r.Wins → ∃ i, r.Justified C s i

theorem RunInv.mono (h : RunInv C s r) (he : s.Extends s') : RunInv C s' r where
  proper := h.proper
  since := h.since.trans he.epoch
  good := h.good
  patching again code epoch hp := by
    obtain ⟨h1, h2⟩ := h.patching again code epoch hp
    refine ⟨h1.trans he.epoch, ?_⟩
    rw [he.constraint epoch h1]
    exact h2
  fenced code hp := (h.fenced code hp).imp fun _ hj => hj.mono he
  wins hw := (h.wins hw).imp fun _ hj => hj.mono he

/-- The runs, and what the CIB has been: without an unfence it only gets stricter. -/
structure State.Inv (C : Cluster N X) (s : State P N X) : Prop where
  runs : ∀ p r, s.runs p = some r → RunInv C s r
  stricter : ∀ k < s.epoch, s.unfenced (k + 1) = false →
    ∀ n, C.bans (s.constraint k) n = true → C.bans (s.constraint (k + 1)) n = true

theorem State.Inv.setRun [DecidableEq P] (h : s.Inv C) (hr : RunInv C s r) : (s.setRun p r).Inv C where
  runs q r' hq := by
    have hsame : s.Extends (s.setRun p r) := ⟨Nat.le_refl _, fun _ _ => rfl⟩
    by_cases hp : q = p
    · subst hp
      rw [s.setRun_self, Option.some.injEq] at hq
      exact hq ▸ hr.mono hsame
    · rw [s.setRun_ne r hp] at hq
      exact (h.runs q r' hq).mono hsame
  stricter := h.stricter

theorem State.Inv.change (h : s.Inv C) {c : Option (Finset X)} {u : Bool}
    (hc : u = false → ∀ n, C.bans s.current n = true → C.bans c n = true) :
    (s.change c u).Inv C where
  runs q r hq := (h.runs q r hq).mono (s.extends_change c u)
  stricter k hk hu n hn := by
    have hlt : k < s.epoch + 1 := hk
    rw [(s.extends_change c u).constraint k (by omega)] at hn
    rcases Nat.lt_or_eq_of_le (Nat.le_of_lt_succ hlt) with hlt | rfl
    · rw [(s.extends_change c u).constraint (k + 1) hlt]
      refine h.stricter k hlt ?_ n hn
      rwa [s.change_unfenced_ne c u (by omega)] at hu
    · rw [s.change_unfenced] at hu
      rw [s.change_constraint]
      exact hc hu n hn

/-- A phase in which nothing is known yet. -/
def Phase.Open : Phase → Prop
  | .querying _ _ | .rechecking => True
  | .exited code => code ≠ 4 ∧ code ≠ 7
  | _ => False

theorem RunInv.setPhase (h : RunInv C s r) {phase : Phase} (hp : phase.Open) :
    RunInv C s { r with phase := phase } where
  proper := h.proper
  since := h.since
  good := h.good
  patching again code epoch heq := by
    simp only at heq
    subst heq
    cases hp
  fenced code heq := by
    simp only at heq
    subst heq
    cases hp
  wins hw := by
    rcases hw with heq | heq <;> simp only at heq <;> subst heq
    · exact absurd rfl hp.1
    · exact absurd rfl hp.2

theorem failedPhase_open (again : Bool) : (failedPhase again).Open := by
  cases again
  · trivial
  · exact ⟨by decide, by decide⟩

theorem Attempt.phase_open (again : Bool) (attempt : Attempt) : (attempt.phase again).Open := by
  cases attempt
  case reachable => trivial
  case fenced => trivial
  case unclean => trivial
  case upToDate => exact ⟨by decide, by decide⟩
  case notUpToDate => exact ⟨by decide, by decide⟩

/-- A run is justified by its constraint in the CIB. -/
theorem RunInv.justified (h : RunInv C s r) (ht : C.Tells) (hs : s.current = some r.newConstraint) :
    r.Justified C s s.epoch := by
  rw [State.current] at hs
  refine ⟨h.since, Nat.le_refl _, ?_, ?_, ?_⟩ <;> rw [hs]
  · intro e he
    rw [Cluster.bans_some, ht.rejects_iff]
    exact h.good.excluded e he
  · rfl
  · rw [Cluster.bans_some, ← Bool.not_eq_true, ht.rejects_iff, not_not]
    exact h.good.self

theorem RunInv.setFenced (h : RunInv C s r) {code : Nat} {i : Nat} (hj : r.Justified C s i) :
    RunInv C s { r with phase := .fenced code } where
  proper := h.proper
  since := h.since
  good := h.good
  patching _ _ _ heq := by cases heq
  fenced _ _ := ⟨i, hj⟩
  wins hw := by rcases hw with heq | heq <;> cases heq

theorem init_inv (c : Option (Finset X)) : (State.init c : State P N X).Inv C where
  runs _ _ h := by cases h
  stricter _ h := by cases h

/-- A patch that is accepted was made against the constraint that it replaces. -/
theorem State.Inv.patch [DecidableEq P] (h : s.Inv C) (ht : C.Tells) {again : Bool} {code : Nat}
    (hr : s.runs p = some r) (hp : r.phase = .patching again code s.epoch) :
    ((s.change (some r.newConstraint) false).setRun p { r with phase := .fenced code }).Inv C := by
  have hrun := h.runs p r hr
  have hchange : (s.change (some r.newConstraint) false).Inv C :=
    h.change fun _ n hn => (hrun.patching again code s.epoch hp).2 n hn
  have hrun' : RunInv C (s.change (some r.newConstraint) false) r :=
    hrun.mono (s.extends_change _ _)
  exact hchange.setRun (hrun'.setFenced (hrun'.justified ht (s.change_constraint _ _)))

variable [DecidableEq X]

/-- A constraint that is there is the expected one, or it is another. -/
theorem RunInv.existingPhase (h : RunInv C s r) (ht : C.Tells) {c : Finset X}
    (hs : s.current = some c) (attempt : Attempt) :
    RunInv C s { r with phase := C.existingPhase r c attempt } := by
  unfold Cluster.existingPhase
  split
  · rename_i heq
    subst heq
    exact h.setFenced (h.justified ht hs)
  · split
    · exact h.setPhase ⟨by decide, by decide⟩
    · exact h.setPhase (attempt.phase_open true)

theorem RunInv.start (ht : C.Tells) {cfg : Config N} (hp : cfg.Proper) (attempt : Attempt) :
    RunInv C s (s.startRun C cfg attempt) := by
  have hr : RunInv C s (⟨cfg, s.epoch, C.setupNewConstraint cfg, .exited 1⟩ : Run N X) :=
    { proper := hp
      since := Nat.le_refl _
      good := hp.good ht
      patching := fun _ _ _ heq => by cases heq
      fenced := fun _ heq => by cases heq
      wins := fun hw => by rcases hw with heq | heq <;> cases heq }
  unfold State.startRun
  split
  · exact hr.setPhase (attempt.phase_open false)
  · rename_i c hs
    exact hr.existingPhase ht hs attempt

theorem RunInv.query (h : RunInv C s r) (ht : C.Tells) (again : Bool) (code : Nat)
    (haveQuorum : Bool) : RunInv C s (s.queryRun C r again code haveQuorum) := by
  unfold State.queryRun
  split
  · rename_i hcond
    rw [Bool.and_eq_true, Bool.not_eq_true'] at hcond
    have hnot := hcond.2
    cases hs : s.current with
    | none =>
      refine ⟨h.proper, h.since, h.good, ?_, (fun _ heq => by cases heq),
        fun hw => by rcases hw with heq | heq <;> cases heq⟩
      intro _ _ _ heq
      cases heq
      refine ⟨Nat.le_refl _, fun n hn => ?_⟩
      rw [State.current] at hs
      rw [hs] at hn
      cases hn
    | some c =>
      rw [hs, Cluster.bans_some, ← Bool.not_eq_true, ht.rejects_iff, not_not] at hnot
      refine ⟨h.proper, h.since, h.proper.good_restrict ht hnot, ?_, (fun _ heq => by cases heq),
        fun hw => by rcases hw with heq | heq <;> cases heq⟩
      intro _ _ _ heq
      cases heq
      refine ⟨Nat.le_refl _, fun n hn => ?_⟩
      rw [State.current] at hs
      rw [hs, Cluster.bans_some, ht.rejects_iff] at hn
      rw [ht.rejects_iff]
      exact fun hmem => hn (h.proper.mem_restrict.1 hmem).1
  · exact h.setPhase (failedPhase_open again)

/-- An action that keeps to the condition: a run has proper node lists, and no double check removes
    the constraint. -/
def Action.Ok : Action P N X → Prop
  | .start _ cfg _ => cfg.Proper
  | .finish _ remove => remove = false
  | _ => True

/-- **What every step keeps.** -/
theorem State.Inv.step [DecidableEq P] (h : s.Inv C) (ht : C.Tells) {action : Action P N X} (hok : action.Ok) :
    (s.step C action).Inv C := by
  cases action with
  | start p cfg attempt =>
    simp only [State.step]
    split
    · exact h.setRun (RunInv.start ht hok attempt)
    · exact h
  | query p haveQuorum =>
    simp only [State.step]
    split
    · rename_i r hr
      split
      · exact h.setRun ((h.runs p r hr).query ht _ _ haveQuorum)
      · exact h
    · exact h
  | patch p =>
    simp only [State.step]
    split
    · rename_i r hr
      split
      · rename_i again code epoch hp
        split
        · rename_i heq
          subst heq
          exact h.patch ht hr hp
        · exact h.setRun ((h.runs p r hr).setPhase trivial)
      · exact h
    · exact h
  | fail p =>
    simp only [State.step]
    split
    · rename_i r hr
      split
      · exact h.setRun ((h.runs p r hr).setPhase (failedPhase_open _))
      · exact h.setRun ((h.runs p r hr).setPhase ⟨by decide, by decide⟩)
      · exact h
    · exact h
  | recheck p attempt =>
    simp only [State.step]
    split
    · rename_i r hr
      split
      · split
        · exact h.setRun ((h.runs p r hr).setPhase ⟨by decide, by decide⟩)
        · rename_i c hs
          exact h.setRun ((h.runs p r hr).existingPhase ht hs attempt)
      · exact h
    · exact h
  | finish p remove =>
    have hremove : remove = false := hok
    subst hremove
    simp only [State.step, Bool.false_and, Bool.false_eq_true, if_false]
    split
    · rename_i r hr
      split
      · rename_i code hp
        have hrun := h.runs p r hr
        refine h.setRun ⟨hrun.proper, hrun.since, hrun.good, fun _ _ _ heq => ?_, fun _ heq => ?_,
          fun _ => hrun.fenced code hp⟩
        · cases heq
        · cases heq
      · exact h
    · exact h
  | unfence c => exact h.change fun hu => by cases hu
  | otherChange => exact h.change fun _ _ hn => hn

theorem State.Inv.run [DecidableEq P] (h : s.Inv C) (ht : C.Tells) {actions : List (Action P N X)}
    (hok : ∀ a ∈ actions, a.Ok) : (s.run C actions).Inv C := by
  induction actions generalizing s with
  | nil => exact h
  | cons a actions ih =>
    rw [List.forall_mem_cons] at hok
    exact ih (h.step ht hok.1) hok.2

end Invariant

/-! ## At most one winner -/

section Winner

variable {C} {s : State P N X} {r r' : Run N X}

/-- A node that is banned stays banned until an unfence. -/
theorem State.Inv.bans (h : s.Inv C) {n : N} {i j : Nat} (hij : i ≤ j) (hj : j ≤ s.epoch)
    (hno : ¬s.UnfencedBetween i j) (hi : C.bans (s.constraint i) n = true) :
    C.bans (s.constraint j) n = true := by
  induction j, hij using Nat.le_induction with
  | base => exact hi
  | succ j hij ih =>
    have hprev := ih (by omega) fun ⟨k, h1, h2, h3⟩ => hno ⟨k, h1, by omega, h3⟩
    refine h.stricter j (by omega) ?_ n hprev
    rw [← Bool.not_eq_true]
    exact fun hu => hno ⟨j + 1, by omega, Nat.le_refl _, hu⟩

end Winner

section Runs

variable {C} [DecidableEq P] [DecidableEq X]

end Runs

/-- Nodes by number, and `#uname`. -/
def uname : Cluster Nat Nat where
  expr := id
  is x n := x = n

end DrbdUtils.Fence.Crm
