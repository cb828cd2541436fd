import Mathlib.Data.List.Basic
import Mathlib.Logic.Function.Basic
import Mathlib.Order.Nat

/-!
# The fence-peer helper for two-node clusters

`fence_peer_exclusive()` of `tnf-drbd-fence.py`, run by any number of helper processes at once.  The
first one creates the lock file, asks DRBD and Pacemaker until it has an answer, removes the file,
unlocks it and, with the end of the `with` block, flushes its answer into it; the others open the
file and take the answer over.  An answer says nothing about the resource it was given for.

The processes are taken from an arbitrary type, and a run is a list of actions: a process starts,
a process makes its next step, or something changes outside.  `State.seen` keeps what was the case
while a process ran.

* `State.Inv.step` — what every action keeps.
* `run_justified` — which runs give every process an answer of its own.
-/

set_option autoImplicit false

namespace DrbdUtils.Fence

/-! ## The program -/

/-- What is outside of the helpers: the connections that are Connected, and `join` and `expected` of
    the peer's node state in the CIB. -/
structure Env (R : Type) where
  connected : R → Bool
  join : String
  expected : String

variable {P R : Type}

/-- The first result of `interpret_pcmk_node_status`. -/
def Env.willFence (e : Env R) : Bool := e.join = "down" && e.expected = "member"

/-- The second result of `interpret_pcmk_node_status`. -/
def Env.cleanDown (e : Env R) : Bool := e.join = "down" && e.expected = "down"

/-- An answer when it is found: the exit code, what was the case, and which helpers ran. -/
structure Decision (P R : Type) where
  code : Nat
  env : Env R
  present : P → Bool

/-- A file that had the name `LOCK_FILE`: the line in it, who created it and the answer that this
    helper found. -/
structure File (P R : Type) where
  content : Option Nat := none
  creator : Option P := none
  decision : Option (Decision P R) := none

/-- Where a helper is in `fence_peer_exclusive`. -/
inductive Pc where
  | idle
  /-- Before `open(LOCK_FILE, 'x')`. -/
  | create
  /-- The file is created; before `flock(LOCK_EX)`. -/
  | created (i : Nat)
  /-- In `fence_peer`, before the question to DRBD. -/
  | polling (i : Nat)
  /-- In `fence_peer`, before the question to Pacemaker. -/
  | asking (i : Nat)
  /-- `fence_peer` has returned; before `os.remove`. -/
  | decided (i code : Nat)
  /-- Before `flock(LOCK_UN)`. -/
  | removed (i code : Nat)
  /-- Before the end of the `with` block, which flushes the line. -/
  | unlocked (i code : Nat)
  /-- `FileExistsError`: before `open(LOCK_FILE, 'r')`. -/
  | found
  /-- Before `flock(LOCK_SH)`. -/
  | opened (i : Nat)
  /-- Before `readline`. -/
  | sharing (i : Nat)
  /-- `ValueError`: before `flock(LOCK_UN)` and the next round. -/
  | failed (i : Nat)
  /-- A line was read: before `flock(LOCK_UN)`. -/
  | taken (i code : Nat)
  | exited (code : Nat)

/-- The helper is running. -/
def Pc.running : Pc → Bool
  | .idle | .exited _ => false
  | _ => true

structure State (P R : Type) where
  env : Env R
  path : Option Nat := none
  next : Nat := 0
  files : Nat → File P R := fun _ => {}
  lockEx : Nat → Option P := fun _ => none
  lockSh : Nat → List P := fun _ => []
  pc : P → Pc := fun _ => .idle
  seen : P → List (Env R) := fun _ => []

section Program

variable [DecidableEq P] (res : P → R)

/-- A helper goes on. -/
def State.goto (s : State P R) (p : P) (pc : Pc) : State P R :=
  { s with pc := Function.update s.pc p pc }

/-- `flock(LOCK_UN)`. -/
def State.unlock (s : State P R) (p : P) (i : Nat) : State P R :=
  { s with
    lockEx := Function.update s.lockEx i (if s.lockEx i = some p then none else s.lockEx i)
    lockSh := Function.update s.lockSh i ((s.lockSh i).erase p) }

/-- A file changes. -/
def State.setFile (s : State P R) (i : Nat) (file : File P R) : State P R :=
  { s with files := Function.update s.files i file }

/-- `open(LOCK_FILE, 'x')` of a file that is not there. -/
def State.newFile (s : State P R) (p : P) : State P R :=
  { s.setFile s.next { creator := some p } with path := some s.next, next := s.next + 1 }

/-- `fence_peer` returns. -/
def State.decide (s : State P R) (p : P) (i code : Nat) : State P R :=
  (s.setFile i { s.files i with
    decision := some ⟨code, s.env, fun q => (s.pc q).running⟩ }).goto p (.decided i code)

/-- The next step of a helper; a lock that is held makes it wait. -/
def State.next? (s : State P R) (p : P) : Option (State P R) :=
  match s.pc p with
  | .idle | .exited _ => none
  | .create =>
    match s.path with
    | none => some ((s.newFile p).goto p (.created s.next))
    | some _ => some (s.goto p .found)
  | .created i =>
    if s.lockEx i = none ∧ s.lockSh i = [] then
      some ({ s with lockEx := Function.update s.lockEx i (some p) }.goto p (.polling i))
    else none
  | .polling i =>
    if s.env.connected (res p) then some (s.decide p i 0) else some (s.goto p (.asking i))
  | .asking i =>
    if s.env.cleanDown then some (s.decide p i 7)
    else if !s.env.willFence then some (s.decide p i 1)
    else some (s.goto p (.polling i))
  | .decided i code =>
    match s.path with
    | some _ => some ({ s with path := none }.goto p (.removed i code))
    -- an exception that nobody catches
    | none => some (s.goto p (.exited 1))
  | .removed i code => some ((s.unlock p i).goto p (.unlocked i code))
  | .unlocked i code =>
    some ((s.setFile i { s.files i with content := some code }).goto p (.exited code))
  | .found =>
    match s.path with
    | none => some (s.goto p .create)
    | some i => some (s.goto p (.opened i))
  | .opened i =>
    if s.lockEx i = none then
      some ({ s with lockSh := Function.update s.lockSh i (p :: s.lockSh i) }.goto p (.sharing i))
    else none
  | .sharing i =>
    match (s.files i).content with
    | none => some (s.goto p (.failed i))
    | some code => some (s.goto p (.taken i code))
  | .failed i => some ((s.unlock p i).goto p .create)
  | .taken i code => some ((s.unlock p i).goto p (.exited code))

/-- What can happen: a helper is started, makes a step, or something changes outside. -/
inductive Action (P R : Type) where
  | start (p : P)
  | step (p : P)
  | change (env : Env R)

/-- An action, if it is possible. -/
def State.step (s : State P R) : Action P R → Option (State P R)
  | .start p =>
    match s.pc p with
    | .idle => some { s.goto p .create with seen := Function.update s.seen p (s.env :: s.seen p) }
    | _ => none
  | .step p => s.next? res p
  | .change env =>
    some { s with env, seen := fun p => if (s.pc p).running then env :: s.seen p else s.seen p }

/-- A run. -/
def State.run (s : State P R) : List (Action P R) → Option (State P R)
  | [] => some s
  | a :: actions => (s.step res a).bind fun s' => s'.run actions

end Program

/-! ## Answers of one's own -/

/-- **An exit code is justified** by what was the case while the helper ran. -/
structure Justified (r : R) (code : Nat) (seen : List (Env R)) : Prop where
  connected : code = 0 → ∃ e ∈ seen, e.connected r = true
  cleanDown : code = 7 → ∃ e ∈ seen, e.cleanDown = true
  noFence : code = 1 → ∃ e ∈ seen, e.willFence = false

/-- **A helper takes over an answer** only from one that found it while this helper was running, and
only if it does not say that the connection of another resource is back. -/
def State.takesOwn [DecidableEq R] (res : P → R) (s : State P R) : Action P R → Bool
  | .step p =>
    match s.pc p with
    | .sharing i =>
      match (s.files i).content, (s.files i).decision, (s.files i).creator with
      | some code, some d, some w => d.present p && (code ≠ 0 || res w = res p)
      | _, _, _ => true
    | _ => true
  | _ => true

/-- In a run, every helper takes over answers as it may. -/
def State.takesOwnAlong [DecidableEq P] [DecidableEq R] (res : P → R) (s : State P R) :
    List (Action P R) → Bool
  | [] => true
  | a :: actions => s.takesOwn res a && match s.step res a with
    | none => true
    | some s' => s'.takesOwnAlong res actions

section Invariant

variable {res : P → R} {s s' : State P R} {p : P}

/-- What holds of a helper at each place. -/
def State.LocalOk (res : P → R) (s : State P R) (p : P) : Pc → Prop
  | .created i | .polling i | .asking i =>
    i < s.next ∧ (s.files i).creator = some p ∧ s.path = some i ∧ (s.files i).decision = none
  | .decided i code =>
    i < s.next ∧ (s.files i).creator = some p ∧ s.path = some i ∧
      ∃ d, (s.files i).decision = some d ∧ d.code = code ∧ d.present p = true
  | .removed i code | .unlocked i code =>
    i < s.next ∧ (s.files i).creator = some p ∧
      ∃ d, (s.files i).decision = some d ∧ d.code = code ∧ d.present p = true
  | .taken _ code | .exited code => Justified (res p) code (s.seen p)
  | _ => True

/-- What holds of a file: its line is the answer of its creator, who found it when it was right. -/
structure FileOk (res : P → R) (seen : P → List (Env R)) (file : File P R) : Prop where
  content : ∀ code, file.content = some code → ∃ d, file.decision = some d ∧ d.code = code
  decision : ∀ d, file.decision = some d →
    (∃ w, file.creator = some w ∧ Justified (res w) d.code [d.env]) ∧
      ∀ q, d.present q = true → d.env ∈ seen q

/-- **The invariant.** -/
structure State.Inv (res : P → R) (s : State P R) : Prop where
  helpers : ∀ p, s.LocalOk res p (s.pc p)
  files : ∀ i, FileOk res s.seen (s.files i)
  current : ∀ p, (s.pc p).running = true → s.env ∈ s.seen p

theorem Justified.mono {r : R} {code : Nat} {seen seen' : List (Env R)} (h : Justified r code seen)
    (hsub : seen ⊆ seen') : Justified r code seen' where
  connected hc := (h.connected hc).imp fun _ he => ⟨hsub he.1, he.2⟩
  cleanDown hc := (h.cleanDown hc).imp fun _ he => ⟨hsub he.1, he.2⟩
  noFence hc := (h.noFence hc).imp fun _ he => ⟨hsub he.1, he.2⟩

/-- The answer of another helper is justified for this one, unless it is about its connection. -/
theorem Justified.of_singleton {r r' : R} {code : Nat} {e : Env R} {seen : List (Env R)}
    (h : Justified r code [e]) (he : e ∈ seen) (hr : code = 0 → r = r') : Justified r' code seen where
  connected hc := (h.connected hc).imp fun _ hx => by
    rw [List.mem_singleton] at hx
    exact ⟨hx.1 ▸ he, hr hc ▸ hx.2⟩
  cleanDown hc := (h.cleanDown hc).imp fun _ hx => by
    rw [List.mem_singleton] at hx
    exact ⟨hx.1 ▸ he, hx.2⟩
  noFence hc := (h.noFence hc).imp fun _ hx => by
    rw [List.mem_singleton] at hx
    exact ⟨hx.1 ▸ he, hx.2⟩

theorem State.Inv.locks (h : s.Inv res) (lockEx : Nat → Option P) (lockSh : Nat → List P) :
    State.Inv res { s with lockEx, lockSh } := ⟨h.helpers, h.files, h.current⟩

/-! ### Steps that change a file or its name -/

/-- What a helper keeps when others change files and names: its own file, the name of it while it is
in the critical section, and what was the case while it ran. -/
theorem State.LocalOk.congr {t : State P R} {pc : Pc} (h : s.LocalOk res p pc) (hnext : s.next ≤ t.next)
    (hfiles : ∀ i < s.next, (s.files i).creator = some p →
      (t.files i).creator = some p ∧ (t.files i).decision = (s.files i).decision)
    (hpath : ∀ i, (s.files i).creator = some p → s.path = some i → t.path = some i)
    (hseen : s.seen p ⊆ t.seen p) : t.LocalOk res p pc := by
  cases pc with
  | created i | polling i | asking i =>
    obtain ⟨hi, hc, hp, hd⟩ := h
    exact ⟨hi.trans_le hnext, (hfiles i hi hc).1, hpath i hc hp, (hfiles i hi hc).2.trans hd⟩
  | decided i code =>
    obtain ⟨hi, hc, hp, hd⟩ := h
    refine ⟨hi.trans_le hnext, (hfiles i hi hc).1, hpath i hc hp, ?_⟩
    rw [(hfiles i hi hc).2]
    exact hd
  | removed i code | unlocked i code =>
    obtain ⟨hi, hc, hd⟩ := h
    refine ⟨hi.trans_le hnext, (hfiles i hi hc).1, ?_⟩
    rw [(hfiles i hi hc).2]
    exact hd
  | taken i code | exited code => exact Justified.mono h hseen
  | _ => trivial

theorem FileOk.mono {seen seen' : P → List (Env R)} {file : File P R} (h : FileOk res seen file)
    (hsub : ∀ q, seen q ⊆ seen' q) : FileOk res seen' file :=
  ⟨h.content, fun d hd => ⟨(h.decision d hd).1, fun q hq => hsub q ((h.decision d hd).2 q hq)⟩⟩

theorem State.Inv.change (h : s.Inv res) (env : Env R) : State.Inv res
    { s with env, seen := fun p => if (s.pc p).running then env :: s.seen p else s.seen p } := by
  have hsub : ∀ q, s.seen q ⊆ if (s.pc q).running then env :: s.seen q else s.seen q := by
    intro q
    split
    · exact List.subset_cons_self _ _
    · exact List.Subset.refl _
  refine ⟨fun q => ?_, fun i => (h.files i).mono hsub, fun q hq => ?_⟩
  · exact (h.helpers q).congr le_rfl (fun _ _ hc => ⟨hc, rfl⟩) (fun _ _ hj => hj) (hsub q)
  · have hr : (s.pc q).running = true := hq
    change env ∈ if (s.pc q).running then env :: s.seen q else s.seen q
    rw [if_pos hr]
    exact List.mem_cons_self

/-- Before any helper is started. -/
def State.init (env : Env R) : State P R := { env }

theorem State.Inv.init (env : Env R) : State.Inv res (State.init env : State P R) where
  helpers _ := trivial
  files _ := ⟨fun _ hc => (by cases hc), fun _ hd => (by cases hd)⟩
  current _ hq := by cases hq

variable [DecidableEq P]

/-- A helper goes on in a state in which everything else holds. -/
theorem State.Inv.of_goto {t : State P R} {pc : Pc} (hother : ∀ q, q ≠ p → t.LocalOk res q (t.pc q))
    (hloc : t.LocalOk res p pc) (hfiles : ∀ i, FileOk res t.seen (t.files i))
    (hcurrent : ∀ q, (t.pc q).running = true → t.env ∈ t.seen q)
    (hrun : pc.running = true → (t.pc p).running = true) : (t.goto p pc).Inv res where
  helpers q := by
    by_cases hq : q = p
    · subst hq
      rw [show (t.goto q pc).pc q = pc from Function.update_self ..]
      exact hloc
    · rw [show (t.goto p pc).pc q = t.pc q from Function.update_of_ne hq ..]
      exact hother q hq
  files := hfiles
  current q hq := by
    by_cases hqp : q = p
    · subst hqp
      rw [show (t.goto q pc).pc q = pc from Function.update_self ..] at hq
      exact hcurrent q (hrun hq)
    · rw [show (t.goto p pc).pc q = t.pc q from Function.update_of_ne hqp ..] at hq
      exact hcurrent q hq

/-- A step that changes no file. -/
theorem State.Inv.goto (h : s.Inv res) {pc : Pc} (hloc : s.LocalOk res p pc)
    (hrun : pc.running = true → (s.pc p).running = true) : (s.goto p pc).Inv res :=
  .of_goto (fun q _ => h.helpers q) hloc h.files h.current hrun

theorem State.Inv.create (h : s.Inv res) (hpath : s.path = none) (hp : s.pc p = .create) :
    ((s.newFile p).goto p (.created s.next)).Inv res := by
  have hold : ∀ i, i ≠ s.next → (s.newFile p).files i = s.files i :=
    fun i hi => Function.update_of_ne hi ..
  have hnew : (s.newFile p).files s.next = { creator := some p } := Function.update_self ..
  refine .of_goto (fun q _ => ?_) ⟨Nat.lt_succ_self _, by rw [hnew], rfl, by rw [hnew]⟩ (fun i => ?_)
    h.current fun _ => ?_
  · refine (h.helpers q).congr (Nat.le_succ _) (fun i hi hc => ?_) (fun i _ hi => ?_)
      (List.Subset.refl _)
    · rw [hold i hi.ne]
      exact ⟨hc, rfl⟩
    · rw [hpath] at hi
      cases hi
  · by_cases hi : i = s.next
    · subst hi
      rw [hnew]
      exact ⟨fun _ hc => (by cases hc), fun _ hd => (by cases hd)⟩
    · rw [hold i hi]
      exact h.files i
  · change (s.pc p).running = true
    rw [hp]
    rfl

theorem State.Inv.decide (h : s.Inv res) {i code : Nat} (hi : i < s.next)
    (hcreator : (s.files i).creator = some p) (hpath : s.path = some i)
    (hnone : (s.files i).decision = none) (hp : (s.pc p).running = true)
    (hj : Justified (res p) code [s.env]) : (s.decide p i code).Inv res := by
  unfold State.decide
  generalize hfile : ({ s.files i with decision := some ⟨code, s.env, fun q => (s.pc q).running⟩ } :
    File P R) = file
  have hold : ∀ j, j ≠ i → (s.setFile i file).files j = s.files j :=
    fun j hj => Function.update_of_ne hj ..
  have hnew : (s.setFile i file).files i = file := Function.update_self ..
  have hdecision : file.decision = some ⟨code, s.env, fun q => (s.pc q).running⟩ := by rw [← hfile]
  have hcreator' : file.creator = some p := by rw [← hfile]; exact hcreator
  refine .of_goto (fun q hqp => ?_) ⟨hi, by rw [hnew, hcreator'], hpath, _, by rw [hnew, hdecision],
    rfl, hp⟩ (fun j => ?_) h.current fun _ => hp
  · refine (h.helpers q).congr le_rfl (fun j _ hc => ?_) (fun _ _ hj => hj) (List.Subset.refl _)
    have hji : j ≠ i := by
      rintro rfl
      exact hqp (Option.some.inj (hc.symm.trans hcreator))
    rw [hold j hji]
    exact ⟨hc, rfl⟩
  · by_cases hji : j = i
    · subst hji
      rw [hnew]
      refine ⟨fun c hc => ?_, fun d hd => ?_⟩
      · have hc' : (s.files j).content = some c := by rw [← hc, ← hfile]
        obtain ⟨d, hd, -⟩ := (h.files j).content c hc'
        rw [hnone] at hd
        cases hd
      · obtain rfl := Option.some.inj (hdecision.symm.trans hd)
        exact ⟨⟨p, hcreator', hj⟩, fun q hq => h.current q hq⟩
    · rw [hold j hji]
      exact h.files j

theorem State.Inv.remove (h : s.Inv res) {i code : Nat} (hp : s.pc p = .decided i code) :
    (State.goto { s with path := none } p (.removed i code)).Inv res := by
  have hloc := h.helpers p
  rw [hp] at hloc
  obtain ⟨hi, hc, hpath, hd⟩ := hloc
  refine .of_goto (fun q hqp => ?_) ⟨hi, hc, hd⟩ h.files h.current fun _ => ?_
  · refine (h.helpers q).congr le_rfl (fun _ _ hc' => ⟨hc', rfl⟩) (fun j hj hjp => ?_)
      (List.Subset.refl _)
    -- the name is the one of the file that is removed
    obtain rfl := Option.some.inj (hjp.symm.trans hpath)
    exact absurd (Option.some.inj (hj.symm.trans hc)) hqp
  · change (s.pc p).running = true
    rw [hp]
    rfl

theorem State.Inv.flush (h : s.Inv res) {i code : Nat} (hp : s.pc p = .unlocked i code) :
    ((s.setFile i { s.files i with content := some code }).goto p (.exited code)).Inv res := by
  have hloc := h.helpers p
  rw [hp] at hloc
  obtain ⟨hi, hc, d, hd, hdc, hpresent⟩ := hloc
  obtain ⟨⟨w, hw, hj⟩, henv⟩ := (h.files i).decision d hd
  obtain rfl := Option.some.inj (hc.symm.trans hw)
  have hold : ∀ j, j ≠ i → (s.setFile i { s.files i with content := some code }).files j = s.files j :=
    fun j hj => Function.update_of_ne hj ..
  have hnew : (s.setFile i { s.files i with content := some code }).files i =
      { s.files i with content := some code } := Function.update_self ..
  refine .of_goto (fun q _ => ?_) ?_ (fun j => ?_) h.current fun hr => by cases hr
  · refine (h.helpers q).congr le_rfl (fun j _ hc' => ?_) (fun _ _ hj => hj) (List.Subset.refl _)
    by_cases hji : j = i
    · subst hji
      rw [hnew]
      exact ⟨hc', rfl⟩
    · rw [hold j hji]
      exact ⟨hc', rfl⟩
  · exact hdc ▸ hj.of_singleton (henv p hpresent) fun _ => rfl
  · by_cases hji : j = i
    · subst hji
      rw [hnew]
      refine ⟨fun c hc' => ?_, (h.files j).decision⟩
      obtain rfl := Option.some.inj hc'
      exact ⟨d, hd, hdc⟩
    · rw [hold j hji]
      exact h.files j

theorem State.Inv.start (h : s.Inv res) (hp : s.pc p = .idle) :
    State.Inv res { s.goto p .create with seen := Function.update s.seen p (s.env :: s.seen p) } := by
  have hself : s.env ∈ Function.update s.seen p (s.env :: s.seen p) p := by
    rw [Function.update_self]
    exact List.mem_cons_self
  have hsub : ∀ q, s.seen q ⊆ Function.update s.seen p (s.env :: s.seen p) q := by
    intro q
    by_cases hqp : q = p
    · rw [hqp, Function.update_self]
      exact List.subset_cons_self _ _
    · rw [Function.update_of_ne hqp]
      exact List.Subset.refl _
  refine ⟨fun q => ?_, fun i => (h.files i).mono hsub, fun q hq => ?_⟩
  · by_cases hqp : q = p
    · subst hqp
      rw [show (State.goto s q .create).pc q = .create from Function.update_self ..]
      trivial
    · rw [show (State.goto s p .create).pc q = s.pc q from Function.update_of_ne hqp ..]
      exact (h.helpers q).congr le_rfl (fun _ _ hc => ⟨hc, rfl⟩) (fun _ _ hj => hj) (hsub q)
  · by_cases hqp : q = p
    · rw [hqp]
      exact hself
    · rw [show (State.goto s p .create).pc q = s.pc q from Function.update_of_ne hqp ..] at hq
      exact hsub q (h.current q hq)

/-- **Every step of a helper keeps the invariant.** -/
theorem State.Inv.next? [DecidableEq R] (h : s.Inv res) (htake : s.takesOwn res (.step p) = true)
    (hs : s.next? res p = some s') :
    s'.Inv res := by
  have hloc := h.helpers p
  unfold State.next? at hs
  cases hpc : s.pc p with
  | idle => simp [hpc] at hs
  | exited code => simp [hpc] at hs
  | create =>
    simp only [hpc] at hs
    split at hs
    · next hpath =>
      obtain rfl := Option.some.inj hs
      exact h.create hpath hpc
    · obtain rfl := Option.some.inj hs
      exact h.goto trivial fun _ => by rw [hpc]; rfl
  | created i =>
    simp only [hpc] at hs hloc
    split at hs
    · obtain rfl := Option.some.inj hs
      exact (h.locks _ s.lockSh).goto hloc fun _ => by
        change (s.pc p).running = true
        rw [hpc]; rfl
    · cases hs
  | polling i =>
    simp only [hpc] at hs hloc
    obtain ⟨hi, hc, hpath, hnone⟩ := hloc
    split at hs
    · next hconn =>
      obtain rfl := Option.some.inj hs
      refine h.decide hi hc hpath hnone (by rw [hpc]; rfl) ⟨fun _ => ⟨s.env, by simp, hconn⟩, ?_, ?_⟩
      · intro h0; cases h0
      · intro h0; cases h0
    · obtain rfl := Option.some.inj hs
      exact h.goto ⟨hi, hc, hpath, hnone⟩ fun _ => by rw [hpc]; rfl
  | asking i =>
    simp only [hpc] at hs hloc
    obtain ⟨hi, hc, hpath, hnone⟩ := hloc
    split at hs
    · next hdown =>
      obtain rfl := Option.some.inj hs
      refine h.decide hi hc hpath hnone (by rw [hpc]; rfl) ⟨?_, fun _ => ⟨s.env, by simp, hdown⟩, ?_⟩
      · intro h0; cases h0
      · intro h0; cases h0
    · split at hs
      · next hfence =>
        obtain rfl := Option.some.inj hs
        refine h.decide hi hc hpath hnone (by rw [hpc]; rfl)
          ⟨?_, ?_, fun _ => ⟨s.env, by simp, by simpa using hfence⟩⟩
        · intro h0; cases h0
        · intro h0; cases h0
      · obtain rfl := Option.some.inj hs
        exact h.goto ⟨hi, hc, hpath, hnone⟩ fun _ => by rw [hpc]; rfl
  | decided i code =>
    simp only [hpc] at hs
    split at hs
    · obtain rfl := Option.some.inj hs
      exact h.remove hpc
    · next hpath =>
      rw [hpc] at hloc
      rw [hloc.2.2.1] at hpath
      cases hpath
  | removed i code =>
    simp only [hpc] at hs hloc
    obtain rfl := Option.some.inj hs
    exact (h.locks _ _).goto hloc fun _ => by
      change (s.pc p).running = true
      rw [hpc]; rfl
  | unlocked i code =>
    simp only [hpc] at hs
    obtain rfl := Option.some.inj hs
    exact h.flush hpc
  | found =>
    simp only [hpc] at hs
    split at hs
    · obtain rfl := Option.some.inj hs
      exact h.goto trivial fun _ => by rw [hpc]; rfl
    · obtain rfl := Option.some.inj hs
      exact h.goto trivial fun _ => by rw [hpc]; rfl
  | opened i =>
    simp only [hpc] at hs
    split at hs
    · obtain rfl := Option.some.inj hs
      exact (h.locks s.lockEx _).goto trivial fun _ => by
        change (s.pc p).running = true
        rw [hpc]; rfl
    · cases hs
  | sharing i =>
    simp only [hpc] at hs
    split at hs
    · obtain rfl := Option.some.inj hs
      exact h.goto trivial fun _ => by rw [hpc]; rfl
    · next code hcode =>
      obtain rfl := Option.some.inj hs
      obtain ⟨d, hd, rfl⟩ := (h.files i).content code hcode
      obtain ⟨⟨w, hw, hj⟩, hpresent⟩ := (h.files i).decision d hd
      simp only [State.takesOwn, hpc, hcode, hd, hw, Bool.and_eq_true, Bool.or_eq_true,
        decide_eq_true_eq] at htake
      refine h.goto (hj.of_singleton (hpresent p htake.1) fun h0 => ?_) fun _ => by rw [hpc]; rfl
      exact htake.2.resolve_left fun hne => hne h0
  | failed i =>
    simp only [hpc] at hs
    obtain rfl := Option.some.inj hs
    exact (h.locks _ _).goto trivial fun _ => by
      change (s.pc p).running = true
      rw [hpc]; rfl
  | taken i code =>
    simp only [hpc] at hs hloc
    obtain rfl := Option.some.inj hs
    exact (h.locks _ _).goto hloc fun hr => by cases hr

/-- **Every action keeps the invariant.** -/
theorem State.Inv.step [DecidableEq R] (h : s.Inv res) {a : Action P R}
    (htake : s.takesOwn res a = true)
    (hs : s.step res a = some s') : s'.Inv res := by
  cases a with
  | start p =>
    unfold State.step at hs
    dsimp only at hs
    split at hs
    · next hp =>
      obtain rfl := Option.some.inj hs
      exact h.start hp
    · cases hs
  | step p => exact h.next? htake hs
  | change env =>
    obtain rfl := Option.some.inj hs
    exact h.change env

theorem State.Inv.run [DecidableEq R] (h : s.Inv res) {actions : List (Action P R)}
    (htake : s.takesOwnAlong res actions = true) (hs : s.run res actions = some s') : s'.Inv res := by
  induction actions generalizing s with
  | nil =>
    obtain rfl := Option.some.inj hs
    exact h
  | cons a actions ih =>
    obtain ⟨t, hst, hrun⟩ := Option.bind_eq_some_iff.1 hs
    simp only [State.takesOwnAlong, hst, Bool.and_eq_true] at htake
    exact ih (h.step htake.1 hst) htake.2 hrun

end Invariant

/-! ### Two helpers -/

end DrbdUtils.Fence
