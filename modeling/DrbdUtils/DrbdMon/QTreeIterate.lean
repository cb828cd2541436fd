import DrbdUtils.DrbdMon.QTreeMap

/-!
# Neighbours and iterators of drbdmon's search tree

What the searches for the next key and the iterators return, in every state that a run of the map's
operations ends in.

* `findNear_eq` — floor, ceiling, and the keys before and behind a key.
* `iterate_eq` — an iterator returns each entry once, in order.
-/

set_option autoImplicit false

namespace DrbdUtils.DrbdMon.QTree

open Lib.AvlTree

variable {κ α : Type} [LinearOrder κ] {s : QTree κ α} {m : OrdMap κ α}

/-! ## Neighbours -/

/-- The entry comes behind the key when the entries are read from the end in direction `d`. -/
def AtOrBeyond (d : Dir) (orEqual : Bool) (key : κ) (e : κ × α) : Prop :=
  Beyond d key e ∨ (orEqual = true ∧ e.1 = key)

instance (d : Dir) (orEqual : Bool) (key : κ) (e : κ × α) : Decidable (AtOrBeyond d orEqual key e) :=
  inferInstanceAs (Decidable (_ ∨ _))

/-- The neighbour of a key. -/
def neighbour (m : OrdMap κ α) (d : Dir) (orEqual : Bool) (key : κ) : Option (κ × α) :=
  (d.order m.entries).find? fun e => AtOrBeyond d orEqual key e

theorem order_map {β γ : Type} (d : Dir) (f : β → γ) (l : List β) :
    d.order (l.map f) = (d.order l).map f := by
  cases d <;> simp [Dir.order]

theorem order_sorted (m : OrdMap κ α) (d : Dir) :
    (d.order m.entries).Pairwise fun x y => Beyond d x.1 y := by
  cases d
  · exact m.sorted
  · exact List.pairwise_reverse.2 m.sorted

theorem guides_nearby {t : Shape κ α} (h : Spells s t m) (d : Dir) (orEqual : Bool) (key : κ) :
    Guides (nearby d orEqual key) t.entries := by
  have hs := m.sorted
  rw [← h.entries_eq, List.pairwise_map] at hs
  refine hs.imp fun {x y} hlt => ?_
  have hor : nearby d orEqual key x.2 = some .greater ∨ nearby d orEqual key y.2 = some .less := by
    cases d with
    | less =>
      rcases lt_or_ge key y.2.1 with hk | hk
      · exact .inr (if_pos hk)
      · have hx : x.2.1 < key := lt_of_lt_of_le hlt hk
        exact .inl ((if_neg (not_lt_of_gt hx)).trans (if_pos (.inl hx)))
    | greater =>
      rcases lt_or_ge x.2.1 key with hk | hk
      · exact .inl (if_pos hk)
      · have hy : key < y.2.1 := lt_of_le_of_lt hk hlt
        exact .inr ((if_neg (not_lt_of_gt hy)).trans (if_pos (.inl hy)))
  exact ⟨hor.resolve_left, hor.resolve_right⟩

theorem nearby_eq_self {d : Dir} {orEqual : Bool} {key : κ} {e : κ × α} :
    nearby d orEqual key e = some d ↔ Beyond d key e := by
  unfold nearby
  split
  · simp [*]
  · split <;> simp [*]

theorem not_of_nearby_eq_opp {d : Dir} {orEqual : Bool} {key : κ} {e : κ × α}
    (h : nearby d orEqual key e = some d.opp) :
    ¬AtOrBeyond d orEqual key e := by
  unfold nearby at h
  split at h
  · simp at h
  · split at h
    · next hb ho =>
      rintro (hd | ⟨heq, rfl⟩)
      · exact hb hd
      · rcases ho with ho | ho
        · cases d <;> exact lt_irrefl _ ho
        · simp [heq] at ho
    · cases h

theorem eq_of_nearby_eq_none {d : Dir} {orEqual : Bool} {key : κ} {e : κ × α}
    (h : nearby d orEqual key e = none) : orEqual = true ∧ e.1 = key := by
  unfold nearby at h
  split at h
  · cases h
  · next hb =>
    split at h
    · cases h
    · next ho =>
      simp only [not_or, Bool.not_eq_false] at ho
      refine ⟨ho.2, ?_⟩
      cases d
      · exact le_antisymm (not_lt.1 hb) (not_lt.1 ho.1)
      · exact le_antisymm (not_lt.1 ho.1) (not_lt.1 hb)

omit [LinearOrder κ] in
theorem entryAt_eq {t : Shape κ α} (h : Holds s t) {x : Ptr × (κ × α)} (hx : x ∈ t.entries) :
    s.entryAt x.1 = some x.2 := by
  obtain ⟨fs, b, near, far, rfl⟩ := exists_plug_of_mem hx .less
  rw [entryAt, node_of_holds h]
  simp

omit [LinearOrder κ] in
theorem map_entryAt {t : Shape κ α} (h : Holds s t) {o : Option (Ptr × (κ × α))}
    (ho : ∀ x, o = some x → x ∈ t.entries) :
    (o.map Prod.fst).map s.entryAt = (o.map Prod.snd).map some := by
  cases o with
  | none => rfl
  | some x => simp [entryAt_eq h (ho x rfl)]

/-- The search ends at the first entry that is not before the key. -/
theorem nearest_eq {t : Shape κ α} (h : Spells s t m) (d : Dir) (orEqual : Bool) (key : κ) :
    nearest d (descend (nearby d orEqual key) [] t) =
      ((d.order t.entries).find? fun x => AtOrBeyond d orEqual key x.2).map Prod.fst := by
  have hplug := plug_descend (nearby d orEqual key) [] t
  obtain ⟨hnil, hpoints⟩ | ⟨p, l, e, b, r, hnode, hgo⟩ :=
    descend_points (guides_nearby h d orEqual key) (Points.top _)
  all_goals
    generalize descend (nearby d orEqual key) [] t = w at *
    obtain ⟨fs, t'⟩ := w
    dsimp only at *
    subst_vars
  · have hbehind : (behind d fs).find? (fun x => AtOrBeyond d orEqual key x.2) = none := by
      refine List.find?_eq_none.2 fun x hx => ?_
      simpa using not_of_nearby_eq_opp (hpoints.behind_eq d x hx)
    have hahead : (ahead d fs).find? (fun x => AtOrBeyond d orEqual key x.2) = (ahead d fs).head? := by
      cases hfirst : ahead d fs with
      | nil => rfl
      | cons x rest =>
        have hx := hpoints.ahead_eq d x (by simp [hfirst])
        exact List.find?_cons_of_pos (by simpa using .inl (nearby_eq_self.1 hx))
    have hord : d.order (plug fs (.nil : Shape κ α)).entries = behind d fs ++ ahead d fs := by
      rw [order_entries_plug]
      cases d <;> simp [Dir.order, BinTree.entries]
    rw [hord, List.find?_append, hbehind, hahead, ← nextUp_eq]
    rfl
  · obtain ⟨horEqual, hkey⟩ := eq_of_nearby_eq_none hgo
    have hmem : (p, e) ∈ d.order (plug fs (.node p l e b r)).entries := by
      cases d <;> simp [Dir.order, entries_plug, BinTree.entries]
    obtain ⟨pre, post, hord⟩ := List.append_of_mem hmem
    have hsorted := order_sorted m d
    rw [← h.entries_eq, order_map, List.pairwise_map, hord] at hsorted
    have hpre : pre.find? (fun x => AtOrBeyond d orEqual key x.2) = none := by
      refine List.find?_eq_none.2 fun x hx => ?_
      have hlt := (List.pairwise_append.1 hsorted).2.2 x hx (p, e) (by simp)
      subst hkey
      rw [decide_eq_true_iff, AtOrBeyond, not_or]
      cases d
      · exact ⟨not_lt_of_gt hlt, fun heq => hlt.ne heq.2⟩
      · exact ⟨not_lt_of_gt hlt, fun heq => hlt.ne' heq.2⟩
    rw [hord, List.find?_append, hpre, Option.none_or, List.find?_cons_of_pos]
    · rfl
    · simpa using .inr ⟨horEqual, hkey⟩

theorem Spells.findNear {t : Shape κ α} (h : Spells s t m) (cmp : CompareFunc κ) {turns : Nat}
    (hturns : t.height ≤ turns) (d : Dir) (orEqual : Bool) (key : κ) :
    ∃ r, s.findNear cmp turns d orEqual key = some r ∧
      r.map s.entryAt = (neighbour m d orEqual key).map some := by
  have hrun : s.findNear cmp turns d orEqual key =
      some (nearest d (descend (nearby d orEqual key) [] t)) := by
    rw [QTree.findNear, h.holds.root_eq]
    cases hroot : t.root? with
    | none =>
      obtain rfl := root?_eq_none.1 hroot
      rfl
    | some p =>
      have hplug : Holds s (plug [] t) := h.holds
      exact findNearFrom_eq cmp hplug hroot hturns (by simpa using hturns)
  refine ⟨_, hrun, ?_⟩
  rw [nearest_eq h, neighbour, ← h.entries_eq, order_map, List.find?_map]
  refine map_entryAt h.holds fun x hx => ?_
  have hmem := List.mem_of_find?_eq_some hx
  cases d
  · exact hmem
  · exact List.mem_reverse.1 hmem

/-! ## Iterators -/

omit [LinearOrder κ] in
/-- The outermost node of a subtree has its first entry. -/
theorem outermost_order {fs : Path κ α} {t : Shape κ α} (h : Holds s (plug fs t)) {p : Ptr}
    (hp : t.root? = some p) {turns : Nat} (hturns : t.height ≤ turns) (d : Dir) :
    ∃ x, (d.order t.entries).head? = some x ∧ s.outermost d turns p = some x.1 := by
  have hne : t ≠ .nil := by
    rintro rfl
    cases hp
  obtain ⟨gs, q, e, b, sub, hdesc, -⟩ := exists_outermost (d := d) hne
  refine ⟨(q, e), ?_, ?_⟩
  · rw [← head?_descend hne [], hdesc]
    rfl
  · rw [outermost_eq h hp hturns, ← List.nil_append fs, descend_append, hdesc]
    rfl

omit [LinearOrder κ] in
theorem findEnd_eq {t : Shape κ α} (h : Holds s t) {turns : Nat} (hturns : t.height ≤ turns) (d : Dir) :
    s.findEnd turns d = some ((d.order t.entries).head?.map Prod.fst) := by
  rw [findEnd, h.root_eq]
  cases hroot : t.root? with
  | none =>
    obtain rfl := root?_eq_none.1 hroot
    cases d <;> rfl
  | some p =>
    have hplug : Holds s (plug [] t) := h
    obtain ⟨x, hx, hout⟩ := outermost_order hplug hroot hturns d
    rw [hx]
    simp only [hout, Option.map_some]

omit [LinearOrder κ] in
/-- A step of an iterator: the node behind the one that is returned. -/
theorem nextNode_eq {t : Shape κ α} (h : Holds s t) {turns : Nat} (hturns : t.height ≤ turns) {d : Dir}
    {pre post : List (Ptr × (κ × α))} {x : Ptr × (κ × α)}
    (hord : d.order t.entries = pre ++ x :: post) :
    s.nextNode turns d (some x.1) = some (some x.1, post.head?.map Prod.fst) := by
  obtain ⟨p, e⟩ := x
  have hmem : (p, e) ∈ t.entries := by
    have hin : (p, e) ∈ d.order t.entries := by simp [hord]
    cases d
    · exact hin
    · exact List.mem_reverse.1 hin
  obtain ⟨fs, b, near, far, rfl⟩ := exists_plug_of_mem hmem d.opp
  have hnode := node_of_holds h
  have hlen := length_le_height fs (.join d.opp p e b near far)
  rw [BinTree.height_join] at hlen
  -- the entries around the node
  have hsplit : d.order (plug fs (.join d.opp p e b near far)).entries =
      (behind d fs ++ d.order far.entries) ++ (p, e) :: (d.order near.entries ++ ahead d fs) := by
    rw [order_entries_plug, BinTree.join_opp, order_entries_join]
    simp
  have hnd : (d.order (plug fs (.join d.opp p e b near far)).entries).Nodup := by
    have hnodup := h.nodup.of_map
    cases d
    · exact hnodup
    · exact List.nodup_reverse.2 hnodup
  obtain rfl : post = d.order near.entries ++ ahead d fs := by
    rw [hord, List.nodup_middle, List.nodup_cons, List.mem_append, not_or] at hnd
    have heq := hord.symm.trans hsplit
    exact ((List.append_cons_inj_of_notMem hnd.1.1 hnd.1.2).1 heq).2.2
  rw [nextNode, hnode]
  simp only [Option.bind_eq_bind, Option.bind_some, child_nodeOf]
  cases hnear : near.root? with
  | none =>
    obtain rfl := root?_eq_none.1 hnear
    have hlt : fs.length < turns := by omega
    have hclimb := climb_eq (d := d) h (BinTree.root?_join ..) hlt
    have hempty : d.order (BinTree.nil : Shape κ α).entries = [] := by cases d <;> rfl
    simp only [hclimb, Option.bind_some, Option.pure_def, nextUp_eq, hempty, List.nil_append]
  | some q =>
    have hplug : Holds s (plug (⟨d.opp, p, e, b, far⟩ :: fs) near) := h
    have hheight : near.height ≤ turns := by omega
    obtain ⟨x, hx, hout⟩ := outermost_order hplug hnear hheight d
    simp only [hout, Option.bind_some, Option.pure_def, List.head?_append, hx, Option.some_or,
      Option.map_some]

omit [LinearOrder κ] in
/-- The iterator returns the rest of the entries, and then nothing more. -/
theorem iterate_holds {t : Shape κ α} (h : Holds s t) {turns : Nat} (hturns : t.height ≤ turns) {d : Dir}
    {pre post : List (Ptr × (κ × α))} (hord : d.order t.entries = pre ++ post) (k : Nat) :
    s.iterate turns d (post.length + k) (post.head?.map Prod.fst) =
      some (post.map (fun x => some x.1) ++ List.replicate k none) := by
  induction post generalizing pre with
  | nil =>
    rw [List.length_nil, Nat.zero_add]
    induction k with
    | zero => rfl
    | succ k ih =>
      simp only [List.head?_nil, Option.map_none, List.map_nil, List.nil_append] at ih ⊢
      simp only [iterate, nextNode, Option.bind_eq_bind, Option.bind_some, ih, Option.pure_def,
        List.replicate_succ]
  | cons x post ih =>
    have hrest : d.order t.entries = (pre ++ [x]) ++ post := by simp [hord]
    rw [List.length_cons, Nat.add_right_comm, List.head?_cons, Option.map_some, iterate,
      nextNode_eq h hturns hord]
    simp only [Option.bind_eq_bind, Option.bind_some, ih hrest, Option.pure_def, List.map_cons,
      List.cons_append]

/-! ## In every run -/

section Run

variable (cmp : CompareFunc κ) {turns clearTurns : Nat} {ops : List (Op κ α)}

theorem size_specRun_le (m : OrdMap κ α) (ops : List (Op κ α)) :
    (specRun m ops).2.size ≤ m.size + ops.length := by
  induction ops generalizing m with
  | nil => exact le_rfl
  | cons op ops ih =>
    have hstep := size_specExec_le m op
    have hrest := ih (specExec m op).2
    rw [List.length_cons]
    simp only [specRun]
    omega

/-- The tree that a run ends in. -/
theorem exists_spells (hsize : ops.length + 1 < (turns + 3).fib) (hclear : 2 * ops.length ≤ clearTurns) :
    ∃ s t, ({} : QTree κ α).run cmp turns clearTurns ops = some ((specRun OrdMap.empty ops).1, s) ∧
      Spells s t (specRun OrdMap.empty ops).2 ∧ t.height ≤ turns := by
  have hzero : (OrdMap.empty : OrdMap κ α).size = 0 := rfl
  have hle := size_specRun_le (OrdMap.empty : OrdMap κ α) ops
  have hsize0 : (OrdMap.empty : OrdMap κ α).size + ops.length < (turns + 3).fib := by omega
  have hclear0 : 2 * ((OrdMap.empty : OrdMap κ α).size + ops.length) ≤ clearTurns := by omega
  obtain ⟨s, hrun, t, h⟩ := run_models cmp models_empty hsize0 hclear0
  exact ⟨s, t, hrun, h, h.height_le (by omega)⟩

/-- **After every run, a search for a neighbour finds the one that the ordered map has**: the ceiling of
    a key, its floor, and the keys behind and before it. -/
theorem findNear_eq_neighbour (hsize : ops.length + 1 < (turns + 3).fib)
    (hclear : 2 * ops.length ≤ clearTurns) (d : Dir) (orEqual : Bool) (key : κ) :
    ∃ replies s r, ({} : QTree κ α).run cmp turns clearTurns ops = some (replies, s) ∧
      s.findNear cmp turns d orEqual key = some r ∧
      r.map s.entryAt = (neighbour (specRun OrdMap.empty ops).2 d orEqual key).map some := by
  obtain ⟨s, t, hrun, h, hheight⟩ := exists_spells cmp hsize hclear
  obtain ⟨r, hr, hentry⟩ := h.findNear cmp hheight d orEqual key
  exact ⟨_, s, r, hrun, hr, hentry⟩

theorem findNear_eq_neighbour_two :
    ∃ replies s r, ({} : QTree Nat Nat).run natCompare 2 4 [.insert 5 0, .insert 7 1] =
        some (replies, s) ∧
      s.findNear natCompare 2 .less true 6 = some r ∧
      r.map s.entryAt =
        (neighbour (specRun OrdMap.empty [.insert 5 0, .insert 7 1]).2 .less true 6).map some :=
  findNear_eq_neighbour natCompare (by decide) (by decide) .less true 6

/-- **After every run, an iterator returns every entry once**, in ascending or in descending order, and
    the null pointer from then on. -/
theorem iterate_eq_order (hsize : ops.length + 1 < (turns + 3).fib)
    (hclear : 2 * ops.length ≤ clearTurns) (d : Dir) (k : Nat) :
    ∃ replies s start nodes, ({} : QTree κ α).run cmp turns clearTurns ops = some (replies, s) ∧
      s.findEnd turns d = some start ∧
      s.iterate turns d ((specRun OrdMap.empty ops).2.size + k) start = some nodes ∧
      nodes.map (Option.map s.entryAt) =
        (d.order (specRun OrdMap.empty ops).2.entries).map (fun e => some (some e)) ++
          List.replicate k none := by
  obtain ⟨s, t, hrun, h, hheight⟩ := exists_spells cmp hsize hclear
  have hord : d.order t.entries = [] ++ d.order t.entries := rfl
  have hiter := iterate_holds h.holds hheight hord k
  have hlen : (d.order t.entries).length = (specRun OrdMap.empty ops).2.size := by
    rw [OrdMap.size, ← h.entries_eq, List.length_map]
    cases d <;> simp [Dir.order]
  rw [hlen] at hiter
  refine ⟨_, s, _, _, hrun, findEnd_eq h.holds hheight d, hiter, ?_⟩
  rw [← h.entries_eq, order_map, List.map_append, List.map_map, List.map_map, List.map_replicate]
  congr 1
  refine List.map_congr_left fun x hx => ?_
  have hmem : x ∈ t.entries := by
    cases d
    · exact hx
    · exact List.mem_reverse.1 hx
  simp [entryAt_eq h.holds hmem]

theorem iterate_eq_order_two :
    ∃ replies s start nodes,
      ({} : QTree Nat Nat).run natCompare 2 4 [.insert 5 0, .insert 3 1] = some (replies, s) ∧
      s.findEnd 2 .less = some start ∧
      s.iterate 2 .less ((specRun OrdMap.empty [.insert 5 0, .insert 3 1]).2.size + 1) start =
        some nodes ∧
      nodes.map (Option.map s.entryAt) =
        (Dir.less.order (specRun OrdMap.empty [.insert 5 0, .insert 3 1]).2.entries).map
          (fun e => some (some e)) ++ List.replicate 1 none :=
  iterate_eq_order natCompare (by decide) (by decide) .less 1

end Run

end DrbdUtils.DrbdMon.QTree
