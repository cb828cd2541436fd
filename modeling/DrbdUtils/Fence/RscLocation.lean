import DrbdUtils.Lib.Strtoul
import Mathlib.Data.List.Basic
import Mathlib.Logic.Function.Basic

/-!
# The rule that fence-peer places

`create_or_modify_constraint()` of `crm-fence-peer.9.sh` for `ACTION=fence`.  A constraint is the
expressions `attribute ne value` of its rule, each a line of its own, and lines are deleted with
`grep -v` and a pattern that has the value of a host in it.  `ATTRIBUTES`, `VALUES`,
`new_constraint` and the mode of `cibadmin` are kept from one attempt to the next.

* `Vars.Inv.read` — what every attempt keeps.
* `placed_eq` — the constraint that is placed.
* `onlyRestricts_iff` — when it only restricts, and just as asked.
-/

set_option autoImplicit false

namespace DrbdUtils.Fence.RscLocation

open Numerals

/-! ## The program -/

/-- A tag `<expression>` with the operation `ne`. -/
structure Expression where
  attr : List Char
  value : List Char
  id : List Char
  deriving DecidableEq

/-- The tag in the order of `grep_rsc_location`. -/
def Expression.line (e : Expression) : List Char :=
  "<expression attribute=\"".toList ++ e.attr ++ "\" operation=\"ne\" value=\"".toList ++
    e.value ++ "\" id=\"".toList ++ e.id ++ "\"/>".toList

/-- What `grep -v` is given. -/
def pattern (a v : List Char) : List Char :=
  "<expression attribute=\"".toList ++ a ++ "\" operation=\"ne\" value=\"".toList ++ v ++ ['"']

abbrev Constraint := List Expression

/-- The answer of `crm_attribute -Q -t nodes -N $n -n $a`, if it does not fail. -/
abbrev CrmAttribute := List Char → List Char → Option (List Char)

/-- The elements of `ATTRIBUTES` and `VALUES` with an index. -/
abbrev Attributes := Nat → Option (List Char × List Char)

/-- A node list has its elements by their index. -/
structure Config where
  idPrefix : List Char
  masterId : List Char
  fencingAttribute : List Char
  includeNodes : List (Nat × List Char)
  excludeNodes : List (Nat × List Char)

/-- `create_modify_replace`. -/
inductive Mode where
  | modifyAllowCreate
  | replace
  deriving DecidableEq

/-- The programs that the script calls. -/
structure Tools where
  /-- `grep` finds a pattern in a line. -/
  grep : List Char → List Char → Bool
  /-- `cibadmin $create_modify_replace -o constraints -X "$new_constraint"` for a CIB with that
      constraint. -/
  cibadmin : Mode → Option Constraint → Constraint → Option Constraint

/-- The variables of the script that an attempt changes. -/
structure Vars where
  newConstraint : Constraint
  attributes : Attributes
  mode : Mode := .modifyAllowCreate

/-- A line of `crm_mon_xml_sed_for_quorum_and_ban`. -/
inductive Word where
  | haveQuorum
  | alreadyRejected
  deriving DecidableEq

/-- What an attempt is told. -/
structure Attempt where
  /-- The constraint in the CIB. -/
  cib : Option Constraint
  crmMon : List Word
  crmAttribute : CrmAttribute
  /-- The exit code of `cibadmin --patch`. -/
  patch : Nat
  /-- `(( $SECONDS >= $timeout ))`. -/
  timeout : Bool

inductive Outcome where
  /-- The CIB is changed, from one constraint to the other. -/
  | placed (before : Option Constraint) (after : Constraint)
  | failed
  /-- Going to retry in a bit. -/
  | retry (s : Vars)

section Program

variable (T : Tools) (cfg : Config)

/-- The attribute and the value of a node. -/
def Config.query (crm : CrmAttribute) (n : List Char) : List Char × List Char :=
  let a := cfg.fencingAttribute
  if a = "#uname".toList then (a, n)
  else match crm n a with
    | some v => (a, v)
    -- FALLBACK.
    | none => ("#uname".toList, n)

/-- `$a` and `$v` in the loops, for an index and its node. -/
def Config.recall (crm : CrmAttribute) (vs : Attributes) (x : Nat × List Char) :
    List Char × List Char :=
  (vs x.1).getD (cfg.query crm x.2)

/-- `ATTRIBUTES[i]=$a`, `VALUES[i]=$v`. -/
def Config.record (crm : CrmAttribute) (vs : Attributes) (x : Nat × List Char) : Attributes :=
  Function.update vs x.1 (some (cfg.recall crm vs x))

/-- The expression of an included node. -/
def Config.expression (crm : CrmAttribute) (vs : Attributes) (x : Nat × List Char) : Expression where
  attr := (cfg.recall crm vs x).1
  value := (cfg.recall crm vs x).2
  id := cfg.idPrefix ++ "-expr-".toList ++ decText x.1 ++ '-' :: cfg.masterId

/-- The loop of `setup_new_constraint`. -/
def Config.setupLoop (crm : CrmAttribute) :
    List (Nat × List Char) → Attributes → Constraint → Constraint × Attributes
  | [], vs, c => (c, vs)
  | x :: xs, vs, c => setupLoop crm xs (cfg.record crm vs x) (c ++ [cfg.expression crm vs x])

/-- `setup_new_constraint`; `setup_node_lists` has cleared `ATTRIBUTES` and `VALUES`. -/
def Config.setupNewConstraint (crm : CrmAttribute) : Vars :=
  let loop := cfg.setupLoop crm cfg.includeNodes (fun _ => none) []
  { newConstraint := loop.1, attributes := loop.2 }

/-- The loop of `restrict_existing_constraint_further`. -/
def Config.restrictLoop (crm : CrmAttribute) :
    List (Nat × List Char) → Attributes → Constraint → Constraint × Attributes
  | [], vs, c => (c, vs)
  | x :: xs, vs, c =>
    let av := cfg.recall crm vs x
    restrictLoop crm xs (cfg.record crm vs x)
      (c.filter fun e => !T.grep (pattern av.1 av.2) e.line)

/-- `restrict_existing_constraint_further`. -/
def Config.restrictExistingConstraintFurther (crm : CrmAttribute) (haveConstraint : Constraint)
    (s : Vars) : Vars :=
  if cfg.excludeNodes = [] then s
  else
    let loop := cfg.restrictLoop T crm cfg.excludeNodes s.attributes haveConstraint
    { s with newConstraint := loop.1, attributes := loop.2 }

/-- An attempt up to the call of `cibadmin`. -/
def Vars.read (s : Vars) (a : Attempt) : Vars :=
  match a.cib with
  | none => s
  | some c => cfg.restrictExistingConstraintFurther T a.crmAttribute c { s with mode := .replace }

/-- An attempt. -/
def Vars.attempt (s : Vars) (a : Attempt) : Outcome :=
  if a.crmMon ≠ [.haveQuorum] then .failed
  else
    let s := s.read T cfg a
    match T.cibadmin s.mode a.cib s.newConstraint with
    -- The file is as it was, and without a difference there is nothing to patch.
    | none => .failed
    | some c =>
      if a.patch = 0 then .placed a.cib c
      -- CRM_EX_OLD, pcmk_err_old_data
      else if a.patch = 103 || a.patch = 205 then if a.timeout then .failed else .retry s
      else .failed

/-- The loop of `create_or_modify_constraint`, for as long as there are attempts. -/
def Vars.loop (s : Vars) : List Attempt → Outcome
  | [] => .retry s
  | a :: as =>
    match s.attempt T cfg a with
    | .retry s => s.loop as
    | o => o

/-- `create_or_modify_constraint`. -/
def Vars.createOrModifyConstraint (s : Vars) (as : List Attempt) : Outcome :=
  { s with mode := .modifyAllowCreate }.loop T cfg as

end Program

/-! ## What fencing is for -/

/-- The nodes of a cluster. -/
structure Cluster (N : Type) where
  uname : N → List Char
  /-- A node has the value of the attribute. -/
  has : N → List Char → List Char → Bool

variable {N : Type}

/-- The rule bans a node: all of its expressions are true for it. -/
def Cluster.Bans (C : Cluster N) (c : Constraint) (n : N) : Prop :=
  ∀ e ∈ c, C.has n e.attr e.value = false

/-- **Fencing only restricts, exactly as asked.** -/
structure OnlyRestricts (C : Cluster N) (cfg : Config) (before : Option Constraint)
    (after : Constraint) : Prop where
  kept : ∀ c ∈ before, ∀ n, C.Bans c n → C.Bans after n
  excluded : ∀ n, C.uname n ∈ cfg.excludeNodes.map Prod.snd → C.Bans after n
  noOther : ∀ c ∈ before, ∀ n, C.uname n ∉ cfg.excludeNodes.map Prod.snd →
    C.Bans after n → C.Bans c n

/-- What is documented of `cibadmin`: an object is placed as it is given, and only one that is there
    can be replaced. -/
structure Tools.Documented (T : Tools) : Prop where
  create : ∀ c after, T.cibadmin .modifyAllowCreate none c = some after → after = c
  replace : ∀ before c after, T.cibadmin .replace before c = some after →
    before.isSome ∧ after = c

/-! ## The variables through the attempts -/

section Run

variable (T : Tools) (cfg : Config) {crm : CrmAttribute} {answers : Option CrmAttribute}
  {entry s s' : Vars} {a : Attempt} {as : List Attempt} {before : Option Constraint}
  {c : Constraint}

/-- `ATTRIBUTES` and `VALUES`: those on entry, and once a constraint was found, those of the excluded
    nodes at the other indices. -/
def Config.recorded (vs : Attributes) (answers : Option CrmAttribute) : Attributes := fun i =>
  (vs i).or (answers.bind fun crm => (cfg.excludeNodes.lookup i).map (cfg.query crm))

/-- A pattern of a node of the list is found in the expression. -/
def Tools.deletes (vs : Attributes) (xs : List (Nat × List Char)) (e : Expression) : Bool :=
  xs.any fun x => (vs x.1).any fun av => T.grep (pattern av.1 av.2) e.line

/-- What the first attempt that finds a constraint is told. -/
def firstAnswers (as : List Attempt) : Option CrmAttribute :=
  (as.find? fun a => a.cib.isSome).map Attempt.crmAttribute

/-- The constraint that is placed. -/
def Vars.result (entry : Vars) (answers : Option CrmAttribute) : Option Constraint → Constraint
  | none => entry.newConstraint
  | some c =>
    if cfg.excludeNodes = [] then entry.newConstraint
    else c.filter fun e => !T.deletes (cfg.recorded entry.attributes answers) cfg.excludeNodes e

variable {T cfg}

theorem foldl_record (crm : CrmAttribute) (xs : List (Nat × List Char)) (vs : Attributes) (i : Nat) :
    xs.foldl (cfg.record crm) vs i = (vs i).or ((xs.lookup i).map (cfg.query crm)) := by
  induction xs generalizing vs with
  | nil => rw [List.foldl_nil, List.lookup_nil, Option.map_none, Option.or_none]
  | cons x xs ih =>
    obtain ⟨j, n⟩ := x
    rw [List.foldl_cons, ih, List.lookup_cons]
    unfold Config.record Config.recall
    by_cases hi : i = j
    · subst hi
      cases vs i <;> simp
    · have hne : (i == j) = false := beq_eq_false_iff_ne.2 hi
      rw [Function.update_of_ne hi, hne]

theorem foldl_record_head (cfg : Config) (crm : CrmAttribute) (x : Nat × List Char) (xs : List (Nat × List Char))
    (vs : Attributes) :
    (x :: xs).foldl (cfg.record crm) vs x.1 = some (cfg.recall crm vs x) := by
  rw [List.foldl_cons, foldl_record]
  unfold Config.record
  rw [Function.update_self, Option.some_or]

/-- The loop adds the expressions of the list. -/
theorem setupLoop_eq (crm : CrmAttribute) (xs : List (Nat × List Char)) (vs : Attributes)
    (c : Constraint) : cfg.setupLoop crm xs vs c =
      (c ++ xs.map (cfg.expression crm (xs.foldl (cfg.record crm) vs)),
        xs.foldl (cfg.record crm) vs) := by
  induction xs generalizing vs c with
  | nil => rw [Config.setupLoop, List.map_nil, List.append_nil, List.foldl_nil]
  | cons x xs ih =>
    have hx : cfg.expression crm ((x :: xs).foldl (cfg.record crm) vs) x =
        cfg.expression crm vs x := by
      unfold Config.expression
      rw [Config.recall, foldl_record_head, Option.getD_some]
    rw [Config.setupLoop, ih, List.map_cons, hx, List.append_assoc, List.singleton_append,
      List.foldl_cons]

/-- The loop deletes what a pattern of the list is found in. -/
theorem restrictLoop_eq (crm : CrmAttribute) (xs : List (Nat × List Char)) (vs : Attributes)
    (c : Constraint) : cfg.restrictLoop T crm xs vs c =
      (c.filter fun e => !T.deletes (xs.foldl (cfg.record crm) vs) xs e,
        xs.foldl (cfg.record crm) vs) := by
  induction xs generalizing vs c with
  | nil => simp [Config.restrictLoop, Tools.deletes]
  | cons x xs ih =>
    have hx := foldl_record_head cfg crm x xs vs
    rw [Config.restrictLoop, ih, List.filter_filter]
    congr 1
    apply List.filter_congr
    intro e _
    unfold Tools.deletes
    rw [List.any_cons, hx, Option.any_some, Bool.not_or, Bool.and_comm, List.foldl_cons]

/-- What is known of the variables, given the answers of the first attempt that found a
    constraint. -/
structure Vars.Inv (cfg : Config) (s entry : Vars) (answers : Option CrmAttribute) : Prop where
  attributes : s.attributes = cfg.recorded entry.attributes answers
  mode : s.mode = if answers.isSome then .replace else .modifyAllowCreate
  newConstraint : answers = none ∨ cfg.excludeNodes = [] → s.newConstraint = entry.newConstraint

theorem Vars.inv_entry (cfg : Config) (entry : Vars) :
    { entry with mode := .modifyAllowCreate }.Inv cfg entry none where
  attributes := by
    funext i
    unfold Config.recorded
    rw [Option.bind_none, Option.or_none]
  mode := rfl
  newConstraint _ := rfl

/-- The answers of the first attempt stay. -/
theorem recorded_or (vs : Attributes) : cfg.excludeNodes.foldl (cfg.record crm)
    (cfg.recorded vs answers) = cfg.recorded vs (answers.or (some crm)) := by
  funext i
  rw [foldl_record]
  unfold Config.recorded
  cases answers with
  | none => rw [Option.bind_none, Option.or_none, Option.none_or, Option.bind_some]
  | some crm' =>
    rw [Option.some_or, Option.bind_some, Option.or_assoc]
    cases cfg.excludeNodes.lookup i <;> rfl

theorem Vars.read_none (s : Vars) (ha : a.cib = none) : s.read T cfg a = s := by
  unfold Vars.read
  rw [ha]

theorem Vars.read_some (s : Vars) (ha : a.cib = some c) : s.read T cfg a =
    cfg.restrictExistingConstraintFurther T a.crmAttribute c { s with mode := .replace } := by
  unfold Vars.read
  rw [ha]

theorem firstAnswers_none (ha : a.cib = none) (as : List Attempt) :
    firstAnswers (a :: as) = firstAnswers as := by
  unfold firstAnswers
  rw [List.find?_cons_of_neg (by rw [ha]; exact Bool.false_ne_true)]

theorem firstAnswers_some (ha : a.cib = some c) (as : List Attempt) :
    firstAnswers (a :: as) = some a.crmAttribute := by
  unfold firstAnswers
  rw [List.find?_cons_of_pos (by rw [ha]; rfl), Option.map_some]

theorem firstAnswers_cons (a : Attempt) (as : List Attempt) :
    firstAnswers (a :: as) = (firstAnswers [a]).or (firstAnswers as) := by
  cases ha : a.cib with
  | none => rw [firstAnswers_none ha, firstAnswers_none ha]; rfl
  | some c => rw [firstAnswers_some ha, firstAnswers_some ha, Option.some_or]

/-- **What an attempt keeps.** -/
theorem Vars.Inv.read (hs : s.Inv cfg entry answers) (a : Attempt) :
    (s.read T cfg a).Inv cfg entry (answers.or (firstAnswers [a])) := by
  cases ha : a.cib with
  | none =>
    rw [s.read_none ha, firstAnswers_none ha]
    change s.Inv cfg entry (answers.or none)
    rw [Option.or_none]
    exact hs
  | some c =>
    rw [s.read_some ha, firstAnswers_some ha]
    have hsome : (answers.or (some a.crmAttribute)).isSome := by cases answers <;> rfl
    unfold Config.restrictExistingConstraintFurther
    by_cases hex : cfg.excludeNodes = []
    · rw [if_pos hex]
      refine ⟨?_, by rw [if_pos hsome], fun _ => hs.newConstraint (Or.inr hex)⟩
      rw [← recorded_or, hex, List.foldl_nil, ← hs.attributes]
    · rw [if_neg hex, restrictLoop_eq]
      refine ⟨?_, by rw [if_pos hsome], ?_⟩
      · rw [← recorded_or, ← hs.attributes]
      · rintro (hnone | hnil)
        · rw [hnone] at hsome
          cases hsome
        · exact absurd hnil hex

/-- How an attempt ends in which the constraint is placed. -/
theorem Vars.attempt_placed (h : s.attempt T cfg a = .placed before c) : before = a.cib ∧
    T.cibadmin (s.read T cfg a).mode a.cib (s.read T cfg a).newConstraint = some c := by
  unfold Vars.attempt at h
  split at h
  · cases h
  · dsimp only at h
    split at h
    · cases h
    · rename_i hadmin
      split_ifs at h
      cases h
      exact ⟨rfl, hadmin⟩

theorem Vars.attempt_retry (h : s.attempt T cfg a = .retry s') : s' = s.read T cfg a := by
  unfold Vars.attempt at h
  split at h
  · cases h
  · dsimp only at h
    split at h
    · cases h
    · split_ifs at h
      cases h
      rfl

/-- **What an attempt places.** -/
theorem Vars.Inv.attempt_placed (hT : T.Documented) (hs : s.Inv cfg entry answers)
    (h : s.attempt T cfg a = .placed before c) :
    c = entry.result T cfg (answers.or (firstAnswers [a])) before := by
  obtain ⟨rfl, hadmin⟩ := Vars.attempt_placed h
  have hread := hs.read (T := T) a
  cases ha : a.cib with
  | none =>
    rw [s.read_none ha, ha, hs.mode] at hadmin
    cases answers with
    | none =>
      rw [Vars.result, hT.create _ _ hadmin]
      exact hs.newConstraint (Or.inl rfl)
    -- The constraint has vanished since an earlier attempt.
    | some crm => cases (hT.replace _ _ _ hadmin).1
  | some have' =>
    have hsome : (answers.or (firstAnswers [a])).isSome := by
      rw [firstAnswers_some ha]
      cases answers <;> rfl
    rw [hread.mode, if_pos hsome] at hadmin
    rw [(hT.replace _ _ _ hadmin).2, Vars.result]
    by_cases hex : cfg.excludeNodes = []
    · rw [if_pos hex]
      exact hread.newConstraint (Or.inr hex)
    · have hattributes := hread.attributes
      rw [s.read_some ha] at hattributes ⊢
      unfold Config.restrictExistingConstraintFurther at hattributes ⊢
      rw [if_neg hex, restrictLoop_eq] at hattributes ⊢
      rw [if_neg hex, ← hattributes]

/-- **What a run places**, in any number of attempts. -/
theorem Vars.Inv.loop_placed (hT : T.Documented) (hs : s.Inv cfg entry answers)
    (h : s.loop T cfg as = .placed before c) :
    c = entry.result T cfg (answers.or (firstAnswers as)) before := by
  induction as generalizing s answers with
  | nil => cases h
  | cons a as ih =>
    rw [Vars.loop] at h
    rw [firstAnswers_cons, ← Option.or_assoc]
    split at h
    · rename_i hretry
      rw [Vars.attempt_retry hretry] at h
      exact ih (hs.read a) h
    · have hc := hs.attempt_placed hT h
      obtain ⟨rfl, -⟩ := Vars.attempt_placed h
      rw [hc]
      cases ha : a.cib with
      | none => rfl
      | some c =>
        rw [firstAnswers_some ha]
        cases answers <;> rfl

end Run

/-! ## The rule of the included nodes -/

section Setup

variable {C : Cluster N} {cfg : Config} {crm : CrmAttribute} {n : N}

theorem setupNewConstraint_attributes (i : Nat) : (cfg.setupNewConstraint crm).attributes i =
    (cfg.includeNodes.lookup i).map (cfg.query crm) := by
  change (cfg.setupLoop crm cfg.includeNodes (fun _ => none) []).2 i = _
  rw [setupLoop_eq]
  dsimp only
  rw [foldl_record, Option.none_or]

/-- The rule bans a node that has none of the values that were recorded. -/
theorem setupNewConstraint_bans : C.Bans (cfg.setupNewConstraint crm).newConstraint n ↔
    ∀ x ∈ cfg.includeNodes, ∀ av ∈ (cfg.setupNewConstraint crm).attributes x.1,
      C.has n av.1 av.2 = false := by
  have hrule : (cfg.setupNewConstraint crm).newConstraint =
      cfg.includeNodes.map (cfg.expression crm (cfg.setupNewConstraint crm).attributes) := by
    change (cfg.setupLoop crm cfg.includeNodes (fun _ => none) []).1 = _
    rw [setupLoop_eq, List.nil_append]
    unfold Config.setupNewConstraint
    rw [setupLoop_eq]
  unfold Cluster.Bans
  rw [hrule, List.forall_mem_map]
  apply forall₂_congr
  intro x hx
  unfold Config.expression Config.recall
  rw [setupNewConstraint_attributes]
  cases hlookup : cfg.includeNodes.lookup x.1 with
  | none => exact absurd (List.lookup_eq_none_iff.1 hlookup x hx) (by simp)
  | some m => simp

end Setup

/-! ## When fencing only restricts -/

section Restricts

variable {C : Cluster N} {T : Tools} {cfg : Config} {entry : Vars} {as : List Attempt}
  {before : Option Constraint} {c : Constraint} {n : N}

/-- A node is to be excluded. -/
def Config.Excludes (C : Cluster N) (cfg : Config) (n : N) : Prop :=
  C.uname n ∈ cfg.excludeNodes.map Prod.snd

/-- The expression lets a node run. -/
def Cluster.Lets (C : Cluster N) (e : Expression) (n : N) : Prop := C.has n e.attr e.value = true

/-- Without a constraint, the rule on entry bans the excluded nodes.  With one and nobody to exclude,
    the rule bans the same nodes as the constraint.  Else the patterns are found in all expressions
    that let an excluded node run, and not in all that let another one run. -/
def Vars.Restricts (C : Cluster N) (T : Tools) (cfg : Config) (entry : Vars) (as : List Attempt) :
    Option Constraint → Prop
  | none => ∀ n, cfg.Excludes C n → C.Bans entry.newConstraint n
  | some c =>
    if cfg.excludeNodes = [] then ∀ n, C.Bans c n ↔ C.Bans entry.newConstraint n
    else
      let deletes := T.deletes (cfg.recorded entry.attributes (firstAnswers as)) cfg.excludeNodes
      (∀ n, cfg.Excludes C n → ∀ e ∈ c, C.Lets e n → deletes e = true) ∧
        ∀ n, ¬cfg.Excludes C n → (∃ e ∈ c, C.Lets e n) → ∃ e ∈ c, C.Lets e n ∧ deletes e = false

theorem Cluster.not_bans : ¬C.Bans c n ↔ ∃ e ∈ c, C.Lets e n := by
  unfold Cluster.Bans Cluster.Lets
  simp

/-- The rule bans a node if all expressions that let it run are deleted. -/
theorem Cluster.bans_filter (deletes : Expression → Bool) :
    C.Bans (c.filter fun e => !deletes e) n ↔ ∀ e ∈ c, C.Lets e n → deletes e = true := by
  unfold Cluster.Bans Cluster.Lets
  constructor
  · intro hbans e he hlets
    by_contra hkept
    have hfalse := hbans e (List.mem_filter.2 ⟨he, by simpa using hkept⟩)
    rw [hlets] at hfalse
    cases hfalse
  · intro hdeleted e he
    obtain ⟨he, hkept⟩ := List.mem_filter.1 he
    by_contra hlets
    rw [hdeleted e he (by simpa using hlets)] at hkept
    cases hkept

/-- **Fencing restricts what it finds, just as asked, if and only if the patterns fit.** -/
theorem createOrModifyConstraint_onlyRestricts_iff (hT : T.Documented)
    (h : entry.createOrModifyConstraint T cfg as = .placed before c) :
    OnlyRestricts C cfg before c ↔ entry.Restricts C T cfg as before := by
  have hc := (Vars.inv_entry cfg entry).loop_placed hT h
  rw [Option.none_or] at hc
  subst hc
  cases before with
  | none =>
    exact ⟨fun hr => hr.excluded, fun hr => ⟨nofun, hr, nofun⟩⟩
  | some c =>
    rw [Vars.result, Vars.Restricts]
    by_cases hex : cfg.excludeNodes = []
    · have hnone : ∀ n, ¬cfg.Excludes C n := by
        intro n hn
        unfold Config.Excludes at hn
        rw [hex] at hn
        exact List.not_mem_nil hn
      rw [if_pos hex, if_pos hex]
      constructor
      · intro hr n
        exact ⟨hr.kept c rfl n, hr.noOther c rfl n (hnone n)⟩
      · intro hr
        refine ⟨?_, fun n hn => absurd hn (hnone n), ?_⟩
        · rintro _ ⟨⟩ n
          exact (hr n).1
        · rintro _ ⟨⟩ n -
          exact (hr n).2
    · rw [if_neg hex, if_neg hex]
      dsimp only
      constructor
      · intro hr
        constructor
        · intro n hn
          exact (Cluster.bans_filter _).1 (hr.excluded n hn)
        · intro n hn hlets
          have hafter := mt (hr.noOther c rfl n hn) (Cluster.not_bans.2 hlets)
          rw [Cluster.bans_filter] at hafter
          push Not at hafter
          simpa using hafter
      · rintro ⟨hexcluded, hother⟩
        refine ⟨?_, ?_, ?_⟩
        · rintro _ ⟨⟩ n hban e he
          exact hban e (List.mem_of_mem_filter he)
        · intro n hn
          exact (Cluster.bans_filter _).2 (hexcluded n hn)
        · rintro _ ⟨⟩ n hn hafter
          by_contra hban
          obtain ⟨e, he, hlets, hkept⟩ := hother n hn (Cluster.not_bans.1 hban)
          rw [(Cluster.bans_filter _).1 hafter e he hlets] at hkept
          cases hkept

end Restricts

/-! ## Runs of a host -/

section Hosts

/-- A pattern in which only a dot is special. -/
def matchHere : List Char → List Char → Bool
  | [], _ => true
  | _ :: _, [] => false
  | p :: ps, c :: cs => (p = '.' || p = c) && matchHere ps cs

/-- The tools, for such patterns. -/
def dotTools : Tools where
  grep p l := l.tails.any (matchHere p)
  cibadmin
    | .modifyAllowCreate, _, c => some c
    | .replace, some _, c => some c
    | .replace, none, _ => none

theorem dotTools_documented : dotTools.Documented where
  create := by rintro _ _ ⟨⟩; rfl
  replace := by
    rintro (_ | _) _ _ ⟨⟩
    exact ⟨rfl, rfl⟩

def hostNames : List (List Char) := ["alice".toList, "b-1".toList, "b.1".toList]

/-- The hosts, each with its name as `#uname`. -/
def hosts : Cluster (Fin 3) where
  uname i := hostNames.getD i []
  has i a v := a = "#uname".toList && v = hostNames.getD i []

/-- A constraint with the expressions of some hosts. -/
def allow (is : List Nat) : Constraint :=
  is.map fun i => ⟨"#uname".toList, hostNames.getD i [], "expr-".toList ++ decText i⟩

/-- Alice fences some of the hosts. -/
def alice (includeNodes excludeNodes : List Nat) : Config where
  idPrefix := "drbd-fence-by-handler".toList
  masterId := "ms".toList
  fencingAttribute := "#uname".toList
  includeNodes := includeNodes.map fun i => (i, hostNames.getD i [])
  excludeNodes := excludeNodes.map fun i => (i, hostNames.getD i [])

/-- What `setup_new_constraint` has done then; `crm_attribute` fails. -/
def alice.entry (includeNodes excludeNodes : List Nat) : Vars :=
  (alice includeNodes excludeNodes).setupNewConstraint fun _ _ => none

def attemptOf (cib : Option Constraint) (patch : Nat) : Attempt where
  cib := cib
  crmMon := [.haveQuorum]
  crmAttribute _ _ := none
  patch := patch
  timeout := false

instance {C : Cluster N} {c : Constraint} {n : N} : Decidable (C.Bans c n) :=
  inferInstanceAs (Decidable (∀ e ∈ c, C.has n e.attr e.value = false))

instance {C : Cluster N} {e : Expression} {n : N} : Decidable (C.Lets e n) :=
  inferInstanceAs (Decidable (C.has n e.attr e.value = true))

instance {C : Cluster N} {cfg : Config} {n : N} : Decidable (cfg.Excludes C n) :=
  inferInstanceAs (Decidable (C.uname n ∈ cfg.excludeNodes.map Prod.snd))

/-- Another host has placed a constraint before the first patch. -/
theorem createOrModifyConstraint_onlyRestricts_raced :
    OnlyRestricts hosts (alice [0, 2] [1]) (some (allow [0, 1, 2])) (allow [0, 2]) := by
  have hplaced : (alice.entry [0, 2] [1]).createOrModifyConstraint dotTools (alice [0, 2] [1])
      [attemptOf none 103, attemptOf (some (allow [0, 1, 2])) 0] =
        .placed (some (allow [0, 1, 2])) (allow [0, 2]) := rfl
  apply (createOrModifyConstraint_onlyRestricts_iff dotTools_documented hplaced).2
  unfold Vars.Restricts
  decide

/-- With nobody to exclude, the ban of a host is lifted; and the dot of a host name is found in the
    name of another host, which is newly banned. -/
theorem createOrModifyConstraint_widens :
    (∃ c, (alice.entry [0, 1, 2] []).createOrModifyConstraint dotTools (alice [0, 1, 2] [])
        [attemptOf (some (allow [0])) 0] = .placed (some (allow [0])) c ∧
      ¬OnlyRestricts hosts (alice [0, 1, 2] []) (some (allow [0])) c) ∧
    (alice.entry [0, 1] [2]).createOrModifyConstraint dotTools (alice [0, 1] [2])
        [attemptOf (some (allow [0, 1, 2])) 0] = .placed (some (allow [0, 1, 2])) (allow [0]) ∧
      ¬OnlyRestricts hosts (alice [0, 1] [2]) (some (allow [0, 1, 2])) (allow [0]) := by
  refine ⟨⟨_, rfl, fun h => ?_⟩, rfl, fun h => ?_⟩
  · have hban : hosts.Bans (allow [0]) 1 := by decide
    have hkept := h.kept _ rfl 1 hban
    revert hkept
    decide
  · have hban : hosts.Bans (allow [0]) 1 := by decide
    have hbefore := h.noOther _ rfl 1 (by decide) hban
    revert hbefore
    decide

end Hosts

end DrbdUtils.Fence.RscLocation
