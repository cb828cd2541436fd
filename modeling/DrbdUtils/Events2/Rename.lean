import Mathlib.Data.List.Induction
import DrbdUtils.Events2.StoreMap

/-!
# Renaming a resource

`NOTIFY_RENAME` leaves the new name in the pending copy; the flush prints a rename line and stores
the copy under that name.  Every further message of the batch clears the request again, and the
rename line takes the place of the resource's own change line.

* `withChanges` — a resource with the changes of a batch.
* `rename_reported_iff` — the rename is reported once and nothing is lost, if and only if the rename
  is the last message of the batch, the batch does not destroy the resource, and it changes nothing
  of what the resource's own line shows.
-/

set_option autoImplicit false

namespace DrbdUtils.Events2

open KeyedList

/-! ## Batches -/

/-- A message for the resource. -/
def ForResource (name : String) (continues : Bool) (n : Notification) : Prop :=
  ∃ nhType ctx, n.header = some (nhType, continues) ∧ n.ctx = some ctx ∧
    ctx.ctxResourceName = name

/-- `NOTIFY_RENAME` with the new name. -/
def RenamesTo (name : String) (n : Notification) : Prop :=
  n.header.map Prod.fst = some .rename ∧ n.cmd = .resourceState ∧ n.renameResourceInfo "" = name ∧
    name ≠ ""

/-- `NOTIFY_DESTROY` of the resource. -/
def DestroysResource (n : Notification) : Prop :=
  n.header.map Prod.fst = some .destroy ∧ n.cmd = .resourceState

/-- A resource after a message; creating it again is ignored. -/
def withChange (s : Store) (r : Resource) (n : Notification) : Resource :=
  match n.header, n.ctx with
  | some (nhType, _), some ctx =>
    let action := eventAction s nhType
    if isResourceCreate n action then r
    else ((eventChange n ctx action).getD id) { r with resNewName := "" }
  | _, _ => r

/-- A resource after the messages of a batch. -/
def withChanges (s : Store) (r : Resource) (ns : List Notification) : Resource :=
  ns.foldl (withChange s) (deepCopyResource r)

/-- A rename line. -/
def renameLine (name newName : String) : Line :=
  ⟨.rename, .resource, [⟨"name", none, name⟩, ⟨"new_name", none, newName⟩], []⟩

/-- A resource under another name, with no rename pending. -/
def Resource.named (r : Resource) (name : String) : Resource :=
  { r with name := name, resNewName := "" }

/-- A renamed copy in the master list. -/
def Resource.storedAs (r : Resource) (name : String) : Resource := { r with name := name }

section Rename

variable (T : Texts) (o : Options) (s : Store) (a b : String) (r : Resource)
  (ns : List Notification) (last : Notification)

/-- What a batch with a rename from `a` to `b` is to do to the store `s`. -/
structure RenameReported : Prop where
  once : (run T o s ((ns ++ [last]).map .notification)).2.filter (·.action = .rename) =
    [renameLine a b]
  changes : ∀ l ∈ (printChanges T o s.initialState (some r)
    ((withChanges s r (ns ++ [last])).named b)).1,
    l ∈ (run T o s ((ns ++ [last]).map .notification)).2
  newName : findResource (run T o s ((ns ++ [last]).map .notification)).1 b =
    some ((withChanges s r (ns ++ [last])).storedAs b)
  oldName : findResource (run T o s ((ns ++ [last]).map .notification)).1 a = none
  later : ∀ n ctx action, ctx.ctxResourceName = b → isResourceCreate n action = false →
    pendingFor (run T o s ((ns ++ [last]).map .notification)).1 n ctx action =
      some [deepCopyResource ((withChanges s r (ns ++ [last])).storedAs b)]

/-- The batches for which the code does. -/
structure RenameSafe : Prop where
  renames : RenamesTo b last
  kept : ∀ n ∈ ns ++ [last], ¬DestroysResource n
  unchanged : visible o (withChanges s r (ns ++ [last])) .resource = visible o r .resource

end Rename

/-! ## What a message leaves alone -/

theorem eventChange_frame {n : Notification} {ctx : DrbdCfgContext} {action : NotificationType}
    {f : Resource → Resource} (h : eventChange n ctx action = some f) (r : Resource) :
    (f r).name = r.name ∧
    (f r).resNewName = (if action = .rename ∧ n.cmd = .resourceState
      then n.renameResourceInfo r.resNewName else r.resNewName) ∧
    (f r).destroyed = (r.destroyed || (action = .destroy && n.cmd = .resourceState)) := by
  unfold eventChange at h
  split at h
  case h_15 =>
    cases h
    unfold changeOrStorePath
    split <;> refine ⟨rfl, ?_, ?_⟩ <;> simp [*] <;> rfl
  case h_21 | h_22 =>
    obtain ⟨-, hf⟩ := Option.ite_none_right_eq_some.1 h
    cases hf
    refine ⟨rfl, ?_, ?_⟩ <;> simp [*]
  case h_24 hcmd =>
    cases h
    exact ⟨rfl, (if_neg fun hr => hcmd hr.2).symm, by simp⟩
  all_goals cases h
  all_goals refine ⟨rfl, ?_, ?_⟩ <;> simp [*] <;> rfl

theorem eventAction_eq_iff {s : Store} {nhType action : NotificationType} (he : action ≠ .exists)
    (hc : action ≠ .change) : eventAction s nhType = action ↔ nhType = action := by
  unfold eventAction
  split
  · rename_i h
    rw [Bool.and_eq_true, decide_eq_true_eq] at h
    rw [h.1]
    exact ⟨fun h => absurd h.symm hc, fun h => absurd h.symm he⟩
  · rfl

section Message

variable {s : Store} {r : Resource} {n : Notification}

theorem withChange_name : (withChange s r n).name = r.name := by
  unfold withChange
  split
  · dsimp only
    split
    · rfl
    · rename_i nhType _ ctx _ _ _
      cases h : eventChange n ctx (eventAction s nhType) with
      | none => rfl
      | some f => exact (eventChange_frame h _).1
  · rfl

theorem withChanges_name (s : Store) (r : Resource) (ns : List Notification) :
    (withChanges s r ns).name = r.name := by
  induction ns using List.reverseRecOn with
  | nil => rfl
  | append_singleton ns n ih =>
    unfold withChanges at ih ⊢
    rw [List.foldl_append, List.foldl_cons, List.foldl_nil, withChange_name, ih]

theorem withChange_destroyed {name : String} {continues : Bool} (hn : ForResource name continues n) :
    (withChange s r n).destroyed = true ↔ r.destroyed = true ∨ DestroysResource n := by
  obtain ⟨nhType, ctx, hheader, hctx, -⟩ := hn
  unfold withChange DestroysResource
  rw [hheader, hctx]
  dsimp only
  have haction := @eventAction_eq_iff s nhType .destroy (by decide)
    (by decide)
  rw [Option.map_some, Option.some.injEq, ← haction]
  generalize eventAction s nhType = action
  split
  · rename_i hcreate
    have hne : ¬(action = .destroy ∧ n.cmd = .resourceState) := by
      rintro ⟨rfl, -⟩
      simp [isResourceCreate] at hcreate
    rw [or_iff_left hne]
  · cases h : eventChange n ctx action with
    | none =>
      have hne : ¬(action = .destroy ∧ n.cmd = .resourceState) := by
        rintro ⟨rfl, hcmd⟩
        simp [eventChange, hcmd] at h
      rw [or_iff_left hne]
      rfl
    | some f =>
      rw [Option.getD_some, (eventChange_frame h _).2.2]
      simp

theorem withChanges_destroyed {name : String} {ns : List Notification}
    (hns : ∀ n ∈ ns, ∃ continues, ForResource name continues n) :
    (withChanges s r ns).destroyed = true ↔ ∃ n ∈ ns, DestroysResource n := by
  induction ns using List.reverseRecOn with
  | nil => simp [withChanges, deepCopyResource]
  | append_singleton ns n ih =>
    obtain ⟨_, hn⟩ := hns n (by simp)
    have hstep : withChanges s r (ns ++ [n]) = withChange s (withChanges s r ns) n := by
      rw [withChanges, List.foldl_append]
      rfl
    rw [hstep, withChange_destroyed hn, ih fun m hm => hns m (by simp [hm])]
    simp [or_and_right, exists_or]

end Message

/-! ## What the lines are -/

section Lines

variable {T : Texts} {o : Options} {i : Bool} {name connection : String}

/-- Neither a rename nor the resource's own line, unless it is destroyed. -/
def Line.IsOther (l : Line) : Prop := l.action ≠ .rename ∧ (l.object = .resource → l.action = .destroy)

theorem lineAction_ne_rename {α : Type} (i : Bool) (old : Option α) :
    lineAction i old ≠ .rename := by
  cases old <;> cases i <;> simp [lineAction]

theorem isOther_device {new : Device} {old : Option Device} :
    ∀ l ∈ printDeviceChanges T o i name new old, l.IsOther := by
  unfold printDeviceChanges
  dsimp only
  split <;> simp [Line.IsOther, lineAction_ne_rename]

theorem isOther_connection {new : Connection} {old : Option Connection} :
    ∀ l ∈ printConnectionChanges T o i name new old, l.IsOther := by
  unfold printConnectionChanges
  dsimp only
  split <;> simp [Line.IsOther, lineAction_ne_rename]

theorem isOther_peerDevice {new : PeerDevice} {old : Option PeerDevice} :
    ∀ l ∈ printPeerDeviceChanges T o i name connection new old, l.IsOther := by
  unfold printPeerDeviceChanges
  dsimp only
  split <;> simp [Line.IsOther, lineAction_ne_rename]

theorem isOther_path {new : Path} {old : Option Path} :
    ∀ l ∈ printPathChanges T o i name connection new old, l.IsOther := by
  unfold printPathChanges
  dsimp only
  split
  · simp
  · split <;> simp [Line.IsOther, lineAction_ne_rename]

theorem isOther_inConnection {new : Connection} {old : Option Connection} :
    ∀ l ∈ printInConnection T o i name new old, l.IsOther := by
  intro l hl
  unfold printInConnection at hl
  simp only [List.mem_append, List.mem_flatMap] at hl
  rcases hl with ((⟨p, -, hl⟩ | ⟨p, -, hl⟩) | ⟨p, -, hl⟩) | ⟨p, -, hl⟩
  · exact isOther_peerDevice l hl
  · exact isOther_path l hl
  · split at hl <;> simp_all [Line.IsOther]
  · split at hl <;> simp_all [Line.IsOther]

theorem isOther_object {new : Resource} {old : Option Resource} :
    ∀ l ∈ printObjectChanges T o i name old new, l.IsOther := by
  intro l hl
  unfold printObjectChanges at hl
  simp only [List.mem_append, List.mem_flatMap] at hl
  rcases hl with ((((⟨c, -, hl⟩ | ⟨d, -, hl⟩) | ⟨c, -, hl⟩) | ⟨c, -, hl⟩) | ⟨d, -, hl⟩) | hl
  · exact isOther_connection l hl
  · exact isOther_device l hl
  · exact isOther_inConnection l hl
  · split at hl <;> simp_all [Line.IsOther]
  · split at hl <;> simp_all [Line.IsOther]
  · split at hl <;> simp_all [Line.IsOther]

theorem isOther_helper {n : Notification} {ctx : DrbdCfgContext} {action : NotificationType} :
    ∀ l ∈ printHelper n ctx T action, l.IsOther := by
  intro l hl
  unfold printHelper at hl
  dsimp only at hl
  generalize (if ctx.ctxMyAddr ≠ [] ∧ ctx.ctxPeerAddr ≠ [] then pathAddressStrs T ctx
    else some []) = addresses at hl
  generalize n.helperInfo = helperInfo at hl
  cases helperInfo <;> cases addresses <;> split at hl <;> simp_all [Line.IsOther]

/-- The rename line is the only one. -/
theorem filter_rename {lines : List Line} (h : ∀ l ∈ lines, l.IsOther) :
    lines.filter (·.action = .rename) = [] :=
  List.filter_eq_nil_iff.2 fun l hl => by simp [(h l hl).1]

end Lines

/-! ## The pending copy during a batch -/

section Batch

variable {T : Texts} {o : Options} {s₀ s : Store} {r x : Resource} {a : String} {n : Notification}

/-- The store in a batch for one resource: nothing but the pending copy has changed. -/
structure InBatch (s₀ : Store) (r : Resource) (s : Store) (x : Resource) : Prop where
  all : s.all = s₀.all
  initialState : s.initialState = s₀.initialState
  receiveUpdate : s.receiveUpdate = s₀.receiveUpdate
  pending : s.update = [x] ∨ s.update = [] ∧ x = deepCopyResource r

theorem InBatch.pendingFor (h : InBatch s₀ r s x) (hr : findResource s₀ x.name = some r)
    {ctx : DrbdCfgContext} (hctx : ctx.ctxResourceName = x.name) (action : NotificationType) :
    pendingFor s n ctx action = if isResourceCreate n action then none else some [x] := by
  have hall : findResource s x.name = some r := by rw [findResource, h.all, ← hr, findResource]
  unfold Events2.pendingFor
  dsimp only
  rw [hctx, hall]
  split
  · simp
  · rcases h.pending with hp | ⟨hp, rfl⟩
    · rw [hp, find_cons, if_pos rfl]
    · rw [hp]
      rfl

theorem eventAction_congr (h : InBatch s₀ r s x) (nhType : NotificationType) :
    eventAction s nhType = eventAction s₀ nhType := by
  unfold eventAction
  rw [h.receiveUpdate]

/-- A message for the resource is ignored, or dropped halfway, or changes the copy and may flush it;
    then the copy has a new name if and only if the message is a rename. -/
theorem InBatch.applyEvent_cases (h : InBatch s₀ r s x) (hr : findResource s₀ x.name = some r)
    {continues : Bool} (hn : ForResource x.name continues n) :
    (applyEvent T o s n = (s, []) ∧ withChange s₀ x n = x ∧ ∀ b, ¬RenamesTo b n) ∨
    (applyEvent T o s n = ({ s with update := [withChange s₀ x n] }, []) ∧
      ∀ b, ¬RenamesTo b n) ∨
    ((∀ b, b ≠ "" → ((withChange s₀ x n).resNewName = b ↔ RenamesTo b n)) ∧
      ∃ lines, (∀ l ∈ lines, l.IsOther) ∧ applyEvent T o s n =
        if continues then ({ s with update := [withChange s₀ x n] }, lines)
        else
          let y := flush T o { s with update := [withChange s₀ x n] }
          (y.1, lines ++ y.2)) := by
  obtain ⟨nhType, ctx, hheader, hctx, hname⟩ := hn
  have hrename : ∀ b, RenamesTo b n ↔ eventAction s₀ nhType = .rename ∧ n.cmd = .resourceState ∧
      n.renameResourceInfo "" = b ∧ b ≠ "" := by
    intro b
    unfold RenamesTo
    rw [hheader, Option.map_some, Option.some.injEq, eventAction_eq_iff (by decide) (by decide)]
  simp only [hrename]
  unfold Events2.applyEvent withChange
  rw [hheader, hctx]
  dsimp only
  rw [h.pendingFor hr hname, eventAction_congr h]
  generalize eventAction s₀ nhType = action
  by_cases hcreate : isResourceCreate n action = true
  · rw [if_pos hcreate, if_pos hcreate]
    refine .inl ⟨rfl, rfl, ?_⟩
    rintro b ⟨rfl, -⟩
    simp [isResourceCreate] at hcreate
  rw [if_neg hcreate, if_neg hcreate]
  dsimp only
  rw [hname, KeyedList.modify.eq_def]
  dsimp only
  rw [if_pos rfl]
  cases hf : eventChange n ctx action with
  | none =>
    refine .inr (.inl ⟨rfl, ?_⟩)
    rintro b ⟨rfl, hcmd, -⟩
    simp [eventChange, hcmd] at hf
  | some f =>
    refine .inr (.inr ⟨fun b hb => ?_, printHelper n ctx T action, isOther_helper, ?_⟩)
    · rw [Option.getD_some, (eventChange_frame hf _).2.1]
      by_cases hcmd : action = .rename ∧ n.cmd = .resourceState
      · rw [if_pos hcmd]
        exact ⟨fun hname => ⟨hcmd.1, hcmd.2, hname, hb⟩, fun hname => hname.2.2.1⟩
      · rw [if_neg hcmd]
        exact ⟨fun hname => absurd hname.symm hb, fun hname => absurd ⟨hname.1, hname.2.1⟩ hcmd⟩
    · dsimp only
      rw [KeyedList.modify.eq_def]
      dsimp only
      rw [if_pos rfl]
      rfl

/-- A message that does not end the batch. -/
theorem InBatch.applyEvent (h : InBatch s₀ r s x) (hr : findResource s₀ x.name = some r)
    (hn : ForResource x.name true n) :
    InBatch s₀ r (applyEvent T o s n).1 (withChange s₀ x n) ∧
      ∀ l ∈ (applyEvent T o s n).2, l.IsOther := by
  rcases h.applyEvent_cases (T := T) (o := o) hr hn with ⟨heq, hx, -⟩ | ⟨heq, -⟩ |
      ⟨-, lines, hlines, heq⟩
  · rw [heq, hx]
    exact ⟨h, fun l hl => absurd hl List.not_mem_nil⟩
  · rw [heq]
    exact ⟨⟨h.all, h.initialState, h.receiveUpdate, .inl rfl⟩,
      fun l hl => absurd hl List.not_mem_nil⟩
  · rw [heq, if_pos rfl]
    exact ⟨⟨h.all, h.initialState, h.receiveUpdate, .inl rfl⟩, hlines⟩

theorem run_concat (s : Store) (is : List Input) (i : Input) : run T o s (is ++ [i]) =
    ((step T o (run T o s is).1 i).1, (run T o s is).2 ++ (step T o (run T o s is).1 i).2) := by
  rw [run, List.foldl_append]
  rfl

/-- All messages but the last. -/
theorem inBatch_run (hidle : s₀.update = []) (hr : findResource s₀ a = some r)
    {ns : List Notification} (hns : ∀ n ∈ ns, ForResource a true n) :
    InBatch s₀ r (run T o s₀ (ns.map .notification)).1 (withChanges s₀ r ns) ∧
      ∀ l ∈ (run T o s₀ (ns.map .notification)).2, l.IsOther := by
  have hname : r.name = a := (mem_of_find hr).2
  induction ns using List.reverseRecOn with
  | nil => exact ⟨⟨rfl, rfl, rfl, .inr ⟨hidle, rfl⟩⟩, fun l hl => absurd hl List.not_mem_nil⟩
  | append_singleton ns n ih =>
    obtain ⟨hbatch, hlines⟩ := ih fun m hm => hns m (List.mem_append_left _ hm)
    have hx : (withChanges s₀ r ns).name = a := (withChanges_name s₀ r ns).trans hname
    obtain ⟨hbatch', hlines'⟩ := hbatch.applyEvent (T := T) (o := o) (by rw [hx]; exact hr)
      (by rw [hx]; exact hns n (by simp))
    rw [List.map_append, List.map_singleton, run_concat]
    refine ⟨?_, fun l hl => ?_⟩
    · rw [withChanges, List.foldl_append]
      exact hbatch'
    · exact (List.mem_append.1 hl).elim (hlines l) (hlines' l)

/-! ## The end of the batch -/

/-- The flush of a single pending copy. -/
theorem flush_single (hupdate : s.update = [x]) (hx : findResource s x.name = some r) :
    flush T o s = ({ s with
      update := []
      all := if x.destroyed then delete Resource.name s.all x.name
        else storeCheck Resource.name (delete Resource.name s.all x.name)
          (printChanges T o s.initialState (some r) x).2 },
      (printChanges T o s.initialState (some r) x).1) := by
  unfold flush
  rw [hupdate]
  dsimp only [List.foldl_cons, List.foldl_nil]
  unfold flushResource
  rw [show find Resource.name (s.all, ([] : List Line)).1 x.name = some r from hx]
  rfl

/-- The lines for a copy that is being renamed. -/
theorem printChanges_renamed (hx : x.resNewName ≠ "") (i : Bool) (old : Option Resource) :
    printChanges T o i old x = (renameLine x.name x.resNewName ::
      printObjectChanges T o i x.resNewName old x, x.storedAs x.resNewName) := by
  unfold printChanges printResourceChanges
  dsimp only
  rw [if_pos hx]
  rfl

/-- No rename line without a request. -/
theorem not_rename_of_printChanges (hx : x.resNewName = "") (i : Bool) (old : Option Resource) :
    ∀ l ∈ (printChanges T o i old x).1, l.action ≠ .rename := by
  intro l hl
  unfold printChanges at hl
  rcases List.mem_append.1 hl with hl | hl
  · unfold printResourceChanges at hl
    dsimp only at hl
    rw [if_neg (not_not.2 hx)] at hl
    split at hl
    · cases hl
    · cases List.mem_singleton.1 hl
      exact lineAction_ne_rename i old
  · exact (isOther_object l hl).1

end Batch

/-! ## Batches with a rename -/

section Renamed

variable {T : Texts} {o : Options} {s : Store} {r : Resource} {a b : String}
  {ns : List Notification} {last : Notification}

theorem withChanges_concat : withChanges s r (ns ++ [last]) = withChange s (withChanges s r ns) last := by
  rw [withChanges, List.foldl_append]
  rfl

/-- A rename line needs a rename at the end of the batch. -/
theorem renames_of_line (hidle : s.update = []) (hr : findResource s a = some r)
    (hns : ∀ n ∈ ns, ForResource a true n) (hlast : ForResource a false last)
    (hline : renameLine a b ∈ (run T o s ((ns ++ [last]).map .notification)).2) :
    RenamesTo b last := by
  obtain ⟨hbatch, hlines⟩ := inBatch_run (T := T) (o := o) hidle hr hns
  have hname : (withChanges s r ns).name = a := (withChanges_name s r ns).trans (mem_of_find hr).2
  rw [List.map_append, List.map_singleton, run_concat] at hline
  have hother : ¬(renameLine a b).IsOther := fun h => h.1 rfl
  have hline := (List.mem_append.1 hline).resolve_left fun hmem => hother (hlines _ hmem)
  rw [step] at hline
  rcases hbatch.applyEvent_cases (T := T) (o := o) (by rw [hname]; exact hr)
      (by rw [hname]; exact hlast) with ⟨heq, -⟩ | ⟨heq, -⟩ | ⟨hrename, lines, hlines', heq⟩
  · rw [heq] at hline
    cases hline
  · rw [heq] at hline
    cases hline
  · rw [heq, if_neg (by decide)] at hline
    have hline := (List.mem_append.1 hline).resolve_left fun hmem => hother (hlines' _ hmem)
    rw [flush_single rfl (r := r)] at hline
    · by_cases hnew : (withChange s (withChanges s r ns) last).resNewName = ""
      · exact absurd rfl (not_rename_of_printChanges hnew _ _ _ hline)
      · rw [printChanges_renamed hnew] at hline
        rcases List.mem_cons.1 hline with heq | hmem
        · have hids : (withChange s (withChanges s r ns) last).name = a ∧
              (withChange s (withChanges s r ns) last).resNewName = b := by
            simpa [renameLine] using heq.symm
          rw [hids.2] at hnew
          exact (hrename b hnew).1 hids.2
        · exact absurd (isOther_object _ hmem) hother
    · rw [withChange_name, hname, ← hr, findResource, findResource, hbatch.all]

/-- The whole batch. -/
theorem run_renamed (hidle : s.update = []) (hr : findResource s a = some r)
    (hns : ∀ n ∈ ns, ForResource a true n) (hlast : ForResource a false last)
    (hb : RenamesTo b last) : ∃ lines, (∀ l ∈ lines, l.IsOther) ∧
      run T o s ((ns ++ [last]).map .notification) = ({ s with
        update := []
        all := if (withChanges s r (ns ++ [last])).destroyed then delete Resource.name s.all a
          else storeCheck Resource.name (delete Resource.name s.all a)
            ((withChanges s r (ns ++ [last])).storedAs b) },
        lines ++ renameLine a b :: printObjectChanges T o s.initialState b (some r)
          (withChanges s r (ns ++ [last]))) := by
  obtain ⟨hbatch, hlines⟩ := inBatch_run (T := T) (o := o) hidle hr hns
  have hname : (withChanges s r ns).name = a := (withChanges_name s r ns).trans (mem_of_find hr).2
  rcases hbatch.applyEvent_cases (T := T) (o := o) (by rw [hname]; exact hr)
      (by rw [hname]; exact hlast) with ⟨-, -, hno⟩ | ⟨-, hno⟩ | ⟨hrename, lines, hlines', heq⟩
  · exact absurd hb (hno b)
  · exact absurd hb (hno b)
  have hnew := (hrename b hb.2.2.2).2 hb
  rw [← withChanges_concat] at heq hnew
  refine ⟨_, fun l hl => (List.mem_append.1 hl).elim (hlines l) (hlines' l), ?_⟩
  rw [List.map_append, List.map_singleton, run_concat, step, heq, if_neg (by decide),
    flush_single rfl (r := r)]
  · dsimp only
    rw [printChanges_renamed (by rw [hnew]; exact hb.2.2.2), hnew, hbatch.all, hbatch.initialState,
      hbatch.receiveUpdate, withChanges_name, (mem_of_find hr).2, List.append_assoc]
  · rw [withChanges_name, (mem_of_find hr).2, ← hr, findResource, findResource, hbatch.all]

/-- The resource's own line under its new name. -/
theorem changeLine_of_resourceLine {new old : Resource} (hnew : new.resNewName = "") (i : Bool)
    {l : Line} (hl : l ∈ (printResourceChanges T o i (some old) new).1) :
    ChangeLine (printChanges T o i (some old) new).1 .resource := by
  refine ⟨l, List.mem_append_left _ hl, ?_⟩
  unfold printResourceChanges at hl
  dsimp only at hl
  rw [if_neg (not_not.2 hnew)] at hl
  split at hl
  · cases hl
  · cases List.mem_singleton.1 hl
    exact ⟨rfl, rfl⟩

theorem printChanges_lines (i : Bool) (old : Option Resource) (new : Resource) :
    (printChanges T o i old new).1 = (printResourceChanges T o i old new).1 ++
      printObjectChanges T o i (printResourceChanges T o i old new).2 old new := rfl

theorem visible_named (r : Resource) (name : String) :
    visible o (r.named name) .resource = visible o r .resource := by
  have hsame : Reordered r (r.named name) :=
    ⟨rfl, List.Perm.refl _, r.connections, List.Perm.refl _,
      List.forall₂_same.2 fun c _ => ⟨rfl, List.Perm.refl _⟩⟩
  unfold visible
  dsimp only
  rw [hsame.promotionInfo]
  rfl

theorem rename_reported (hnames : Keyed Resource.name s.all) (hidle : s.update = [])
    (hr : findResource s a = some r) (hb : findResource s b = none)
    (hns : ∀ n ∈ ns, ForResource a true n) (hlast : ForResource a false last) :
    RenameReported T o s a b r ns last ↔ RenameSafe o s b r ns last := by
  have hcontinues : ∀ n ∈ ns ++ [last], ∃ continues, ForResource a continues n := by
    intro n hn
    rcases List.mem_append.1 hn with hn | hn
    · exact ⟨true, hns n hn⟩
    · cases List.mem_singleton.1 hn
      exact ⟨false, hlast⟩
  have hreported := (@reported_resource_iff o T s.initialState r
    ((withChanges s r (ns ++ [last])).named b)).2 (.inl rfl)
  constructor
  · intro h
    have hline : renameLine a b ∈ (run T o s ((ns ++ [last]).map .notification)).2 := by
      have hmem : renameLine a b ∈ (run T o s ((ns ++ [last]).map .notification)).2.filter
          (·.action = .rename) := by
        rw [h.once]
        exact List.mem_singleton_self _
      exact (List.mem_filter.1 hmem).1
    have hrenames := renames_of_line hidle hr hns hlast hline
    obtain ⟨lines, hlines, hrun⟩ := run_renamed (T := T) (o := o) hidle hr hns hlast hrenames
    refine ⟨hrenames, fun n hn hd => ?_, ?_⟩
    · have hdestroyed : (withChanges s r (ns ++ [last])).destroyed = true :=
        (withChanges_destroyed hcontinues).2 ⟨n, hn, hd⟩
      have hnew := h.newName
      rw [hrun, findResource] at hnew
      dsimp only at hnew
      rw [hdestroyed, if_pos rfl, find_delete hnames, KeyMap.remove, Function.update_apply,
        ← findResource, hb] at hnew
      split at hnew <;> cases hnew
    · by_contra hchanged
      obtain ⟨l, hl, haction, hobject⟩ := hreported.2 (by rw [visible_named]; exact hchanged)
      have hl' := h.changes l hl
      rw [hrun] at hl'
      have hother : ¬l.IsOther := fun hother => by
        rw [hother.2 hobject] at haction
        cases haction
      have hl' := (List.mem_append.1 hl').resolve_left fun hmem => hother (hlines _ hmem)
      rcases List.mem_cons.1 hl' with rfl | hmem
      · cases haction
      · exact hother (isOther_object _ hmem)
  · intro h
    obtain ⟨lines, hlines, hrun⟩ := run_renamed (T := T) (o := o) hidle hr hns hlast h.renames
    have hdestroyed : (withChanges s r (ns ++ [last])).destroyed = false := by
      rw [Bool.eq_false_iff, ne_eq, withChanges_destroyed hcontinues]
      rintro ⟨n, hn, hd⟩
      exact h.kept n hn hd
    have hne : a ≠ b := by
      rintro rfl
      rw [hr] at hb
      cases hb
    have hfind : ∀ name, find Resource.name (storeCheck Resource.name
        (delete Resource.name s.all a) ((withChanges s r (ns ++ [last])).storedAs b)) name =
        if name = b then some ((withChanges s r (ns ++ [last])).storedAs b)
        else if name = a then none else findResource s name := by
      intro name
      rw [find_storeCheck, find_delete hnames, KeyMap.insertIfAbsent, if_neg]
      · rw [Function.update_apply, KeyMap.remove, Function.update_apply]
        rfl
      · rw [show ((withChanges s r (ns ++ [last])).storedAs b).name = b from rfl, KeyMap.remove,
          Function.update_apply, if_neg hne.symm, ← findResource, hb]
        exact Bool.false_ne_true
    refine ⟨?_, ?_, ?_, ?_, ?_⟩
    · rw [hrun, List.filter_append, filter_rename hlines, List.filter_cons, if_pos (by rfl),
        filter_rename isOther_object, List.nil_append]
    · intro l hl
      rw [hrun]
      refine List.mem_append_right _ (List.mem_cons_of_mem _ ?_)
      rw [printChanges_lines] at hl
      rcases List.mem_append.1 hl with hl | hl
      · refine absurd (changeLine_of_resourceLine rfl _ hl) ?_
        rw [hreported, not_not, visible_named]
        exact h.unchanged
      · rw [printResourceChanges_name] at hl
        exact hl
    · rw [hrun, findResource]
      dsimp only
      rw [hdestroyed, if_neg (by decide), hfind, if_pos rfl]
    · rw [hrun, findResource]
      dsimp only
      rw [hdestroyed, if_neg (by decide), hfind, if_neg hne, if_pos rfl]
    · intro n ctx action hctx hcreate
      rw [hrun, pendingFor, findResource]
      dsimp only
      rw [hctx, hdestroyed, if_neg (by simp [hcreate]), if_neg Bool.false_ne_true, hfind, if_pos rfl]
      rfl

end Renamed

/-- **Renames.**  Whatever has happened before: a batch of messages for the resource `a` that renames
    it to an unused name is reported as one rename line and the other changes under the new name,
    and leaves the resource with all its changes under the new name only, if and only if it ends with
    the rename, does not destroy the resource, and leaves what the resource's own line shows. -/
theorem rename_reported_iff (T : Texts) (o : Options) (inputs : List Input) (a b : String)
    (r : Resource) (ns : List Notification) (last : Notification) :
    let s := (run T o {} inputs).1
    s.update = [] → findResource s a = some r → findResource s b = none →
    (∀ n ∈ ns, ForResource a true n) → ForResource a false last →
    (RenameReported T o s a b r ns last ↔ RenameSafe o s b r ns last) := by
  intro s hidle hr hb hns hlast
  have hinv : s.Inv := (store_inv_init.run (T := T) (o := o) inputs).1
  exact rename_reported hinv.names hidle hr hb hns hlast

/-- A message for the resource `r`. -/
def messageForR (nhType : NotificationType) (continues : Bool) (cmd : Cmd)
    (ctx : DrbdCfgContext := { ctxResourceName := "r" })
    (hvolume : cmd = .deviceState → ctx.ctxVolume ≠ NONE_U := by simp) : Notification where
  header := some (nhType, continues)
  cmd := cmd
  ctx := some { ctx with ctxResourceName := "r" }
  renameResourceInfo := fun _ => "s"
  resourceInfo := fun info => { info with resRole := .primary }
  volume_ne := by
    intro hcmd c hc
    cases hc
    exact hvolume hcmd

theorem forResource_message {nhType : NotificationType} {continues : Bool} {cmd : Cmd}
    {ctx : DrbdCfgContext} {hvolume : cmd = .deviceState → ctx.ctxVolume ≠ NONE_U} :
    ForResource "r" continues (messageForR nhType continues cmd ctx hvolume) :=
  ⟨nhType, _, rfl, rfl, rfl⟩

/-- A new connection and the rename. -/
theorem rename_reported_connection : RenameReported plainTexts {}
    (run plainTexts {} {} [.notification (messageForR .exists false .resourceState)]).1 "r" "s"
    { name := "r", info := { resRole := .primary } }
    [messageForR .create true .connectionState { ctxConnName := "peer" }]
    (messageForR .rename false .resourceState) := by
  refine (rename_reported_iff plainTexts {} [.notification (messageForR .exists false .resourceState)]
    "r" "s" _ _ _ rfl rfl rfl (fun n hn => ?_) forResource_message).2
    ⟨⟨rfl, rfl, rfl, by decide⟩, fun n hn => ?_, rfl⟩
  · rw [List.mem_singleton.1 hn]
    exact forResource_message
  · rintro ⟨h, -⟩
    rcases List.mem_pair.1 hn with rfl | rfl <;> cases h

/-- A rename followed by another message in the batch is lost. -/
theorem rename_then_change_lost :
    let s := (run plainTexts {} {} [.notification (messageForR .exists false .resourceState)]).1
    let rename := messageForR .rename true .resourceState
    let last := messageForR .create false .connectionState { ctxConnName := "peer" }
    s.update = [] ∧ findResource s "r" = some { name := "r", info := { resRole := .primary } } ∧
    findResource s "s" = none ∧ ForResource "r" true rename ∧ ForResource "r" false last ∧
    RenamesTo "s" rename ∧ ¬RenameReported plainTexts {} s "r" "s"
      { name := "r", info := { resRole := .primary } } [rename] last := by
  intro s rename last
  refine ⟨rfl, rfl, rfl, forResource_message, forResource_message, ⟨rfl, rfl, rfl, by decide⟩,
    fun h => ?_⟩
  have hnone : (run plainTexts {} s [.notification rename, .notification last]).2.filter
      (·.action = .rename) = [] := by decide
  have honce := h.once
  rw [show ([rename] ++ [last]).map Input.notification = [.notification rename, .notification last]
    from rfl, hnone] at honce
  cases honce

end DrbdUtils.Events2
