import DrbdUtils.DrbdMon.QTreeSearch

/-!
# Insertion and removal in drbdmon's search tree

Where the nodes spell a balanced tree, inserting and unlinking a node leaves a balanced tree.

* `insertNodeImpl_holds` — a new node at the end of a search.
* `unlinkNodeImpl_holds` — any node is unlinked, whichever children it has.
* `clearFrom_holds` — the loop of `clear_impl` deletes each node of a tree, in twice as many turns.
-/

set_option autoImplicit false

namespace DrbdUtils.DrbdMon.QTree

open Lib.AvlTree

variable {κ α : Type} {s : QTree κ α}

/-! ## Insertion -/

/-- A new node at a place. -/
theorem insertNodeImpl_holds {fs : Path κ α} {key : κ} {value : α} {r : Shape κ α} {turns : Nat}
    (h : Holds s (plug fs .nil)) (hfresh : s.nextPtr ∉ pathIds fs)
    (hup : GrowUp fs (.node s.nextPtr .nil (key, value) 0 .nil) r) (hturns : fs.length ≤ turns) :
    ∃ s', s.insertNodeImpl turns (fs.head?.map fun f => (f.p, f.dir)) key value = some s' ∧
      Holds s' r ∧ (∀ q, q ≠ s.nextPtr → q ∉ pathIds fs → s'.nodes q = s.nodes q) ∧
      s'.size = s.size + 1 ∧ s'.nextPtr = s.nextPtr + 1 := by
  obtain ⟨hpath, -, hnd⟩ := holds_plug.1 h
  have hnew : (ids (plug fs (.node s.nextPtr .nil (key, value) 0 .nil))).Nodup := by
    simp only [ids, entries_plug, BinTree.entries, List.map_append, List.map_cons, List.map_nil,
      List.nil_append, List.append_nil] at hnd ⊢
    simp only [pathIds, List.map_append, List.mem_append, not_or] at hfresh
    rw [List.append_assoc, List.singleton_append, List.nodup_middle]
    exact List.nodup_cons.2 ⟨by simpa using hfresh, hnd⟩
  have hpathnd := (nodup_plug hnd).2.1
  generalize hs0 : ({ s with
    nodes := Function.update s.nodes s.nextPtr (some { key := key, value := value })
    nextPtr := s.nextPtr + 1 } : QTree κ α) = s0
  have hins0 : s0.nodes s.nextPtr = some { key := key, value := value } := by simp [← hs0]
  have hother0 : ∀ q, q ≠ s.nextPtr → s0.nodes q = s.nodes q := fun q hq => by simp [← hs0, hq]
  have hpath0 : PathHolds s0 fs none := by
    refine hpath.congr (fun q hq => hother0 q ?_) (by rw [← hs0])
    rintro rfl
    exact hfresh hq
  cases fs with
  | nil =>
    cases hup
    obtain ⟨s2, e2, c2⟩ := upd_changed (s := { s0 with root := some s.nextPtr }) hins0
      fun n => { n with parent := none }
    refine ⟨{ s2 with size := s2.size + 1 }, ?_, ⟨?_, ⟨c2.at_eq, trivial, trivial⟩, hnew⟩,
      fun q hq _ => ?_, ?_, ?_⟩
    · subst hs0
      simp only [insertNodeImpl, List.head?_nil, Option.map_none, Option.bind_eq_bind,
        Option.bind_some, e2, Option.pure_def]
    · exact c2.root_eq
    · exact (c2.other hq).trans (hother0 q hq)
    · change s2.size + 1 = _
      rw [c2.within.size_eq, ← hs0]
    · exact c2.within.nextPtr_eq.trans (by rw [← hs0])
  | cons f fs =>
    obtain ⟨s1, e1, hpath1, k1, r1⟩ := setHole_pathHolds hpath0 hpathnd (some s.nextPtr)
    have hne : s.nextPtr ≠ f.p := by
      rintro heq
      exact hfresh (by simp [heq])
    have hins1 : s1.nodes s.nextPtr = some { key := key, value := value } := by
      rw [k1.other _ (by simpa using hne), hins0]
    obtain ⟨s2, e2, c2⟩ := upd_changed hins1 fun n => { n with parent := some f.p }
    have hholds : Holds { s2 with size := s2.size + 1 }
        (plug (f :: fs) (.node s.nextPtr .nil (key, value) 0 .nil)) := by
      refine holds_plug.2 ⟨hpath1.congr (fun q hq => c2.other ?_) c2.root_eq,
        ⟨c2.at_eq, trivial, trivial⟩, hnew⟩
      rintro rfl
      exact hfresh hq
    obtain ⟨s3, e3, h3, k3⟩ := rebalanceInsert_holds hup rfl rfl hturns hholds
    refine ⟨s3, ?_, h3, fun q hq hmem => ?_, ?_, ?_⟩
    · simp only [insertNodeImpl, hs0, List.head?_cons, Option.map_some, Option.bind_eq_bind,
        Option.bind_some, e1, e2, e3]
    · have hq1 : q ∉ [f.p] := by
        rintro hf
        rw [List.mem_singleton.1 hf] at hmem
        exact hmem (by simp)
      rw [k3.other q, show ({ s2 with size := s2.size + 1 } : QTree κ α).nodes q = s2.nodes q from rfl,
        c2.other hq, k1.other q hq1, hother0 q hq]
      rw [mem_ids_plug]
      simpa [ids, BinTree.entries, hq] using hmem
    · rw [k3.size_eq, c2.within.size_eq, k1.size_eq, ← hs0]
    · rw [k3.nextPtr_eq, c2.within.nextPtr_eq, k1.nextPtr_eq, ← hs0]

/-! ## Removal -/

/-- A subtree takes the place of the tree above it. -/
theorem excise {fs : Path κ α} {t sub : Shape κ α} {p : Ptr} {parent : Option Ptr}
    (h : Holds s (plug fs t)) (hp : t.root? = some p) (hsub : TreeHolds s parent sub)
    (hsubnd : (ids sub).Nodup) (hids : ∀ q ∈ ids sub, q ∈ ids t) :
    ∃ s1 s2, s.replaceChild (parentOf fs) p sub.root? = some s1 ∧
      s1.setParent sub.root? (parentOf fs) = some s2 ∧ Holds s2 (plug fs sub) ∧
      Within s s2 (pathIds fs ++ ids sub) := by
  obtain ⟨hpath, -, hnd⟩ := holds_plug.1 h
  obtain ⟨-, hpathnd, hdisj⟩ := nodup_plug hnd
  rw [hp] at hpath
  obtain ⟨s1, e1, hpath1, k1⟩ :=
    replaceChild_pathHolds hpath hpathnd (hdisj p (root?_mem hp)) sub.root?
  have hsub1 : TreeHolds s1 parent sub :=
    hsub.congr fun q hq => k1.other q (hdisj q (hids q hq))
  obtain ⟨s2, e2, hsub2, k2, r2⟩ := setParent_treeHolds hsub1 hsubnd (parentOf fs)
  refine ⟨s1, s2, e1, e2, holds_plug.2 ⟨?_, hsub2, ?_⟩, (k1.mono (by simp)).trans (k2.mono (by simp))⟩
  · exact hpath1.congr (fun q hq => k2.other q fun hmem => hdisj q (hids q hmem) hq) r2
  · have hperm : (ids (plug fs sub)).Perm (ids sub ++ pathIds fs) := by
      simp only [ids, pathIds, entries_plug, List.map_append]
      rw [List.append_assoc]
      exact List.perm_append_comm_assoc _ _ _
    rw [hperm.nodup_iff, List.nodup_append]
    exact ⟨hsubnd, hpathnd, fun q hq q' hq' heq => hdisj q (hids q hq) (heq ▸ hq')⟩

theorem Holds.of_eq {s' : QTree κ α} {t : Shape κ α} (h : Holds s t) (hn : s'.nodes = s.nodes)
    (hr : s'.root = s.root) : Holds s' t :=
  ⟨hr.trans h.root_eq, h.tree.congr fun q _ => congrFun hn q, h.nodup⟩

theorem mem_ids_node {p q : Ptr} {l r : Shape κ α} {e : κ × α} {b : Int} :
    q ∈ ids (.node p l e b r) ↔ q = p ∨ q ∈ ids l ∨ q ∈ ids r :=
  mem_ids_join (d := .less)

theorem nodup_relabel {fs : Path κ α} {p p' : Ptr} {l r : Shape κ α} {e e' : κ × α} {b : Int}
    (h : (ids (plug fs (.node p l e b r))).Nodup) (hp : p' ∉ ids (plug fs (.node p l e b r))) :
    (ids (plug fs (.node p' l e' b r))).Nodup := by
  have hids : ∀ (q : Ptr) (x : κ × α), (ids (plug fs (.node q l x b r))).Perm
      (q :: ((before fs).map Prod.fst ++ ids l ++ ids r ++ (after fs).map Prod.fst)) := by
    intro q x
    simp only [ids, entries_plug, BinTree.entries, List.map_append, List.map_cons]
    simp only [← List.append_assoc]
    rw [List.append_assoc _ (_ :: _), List.cons_append]
    refine List.perm_middle.trans ?_
    simp
  rw [(hids p e).nodup_iff, List.nodup_cons] at h
  rw [(hids p e).mem_iff, List.mem_cons, not_or] at hp
  rw [(hids p' e').nodup_iff, List.nodup_cons]
  exact ⟨hp.2, h.2⟩

/-- A node takes the place of another one, with its children, its parent and its balance. -/
theorem relabel {fs : Path κ α} {p p' : Ptr} {l r : Shape κ α} {e e' : κ × α} {b : Int} {n : Node κ α}
    (h : Holds s (plug fs (.node p l e b r))) (hp : p' ∉ ids (plug fs (.node p l e b r)))
    (hn : s.nodes p' = some n) (he : (n.key, n.value) = e') :
    ∃ s1 s2 s3 s4, s.replaceChild (parentOf fs) p (some p') = some s1 ∧
      s1.setParent l.root? (some p') = some s2 ∧ s2.setParent r.root? (some p') = some s3 ∧
      s3.upd p' (fun m => { m with
        parent := parentOf fs, less := l.root?, greater := r.root?, balance := b }) = some s4 ∧
      Holds s4 (plug fs (.node p' l e' b r)) ∧
      Within s s4 (p' :: ids (plug fs (.node p l e b r))) ∧ s4.nodes p = s.nodes p := by
  obtain ⟨hpath, ⟨-, hl, hr⟩, hnd⟩ := holds_plug.1 h
  obtain ⟨hnode, hpathnd, hdisj⟩ := nodup_plug hnd
  obtain ⟨hln, hrn, hpl, hpr, hlr⟩ := nodup_join (d := .less).1 hnode
  simp only [mem_ids_plug, mem_ids_node, not_or] at hp hdisj
  obtain ⟨s1, e1, hpath1, k1⟩ :=
    replaceChild_pathHolds hpath hpathnd (hdisj p (.inl rfl)) (some p')
  have hl1 : TreeHolds s1 (some p) l :=
    hl.congr fun q hq => k1.other q (hdisj q (.inr (.inl hq)))
  obtain ⟨s2, e2, hl2, k2, r2⟩ := setParent_treeHolds hl1 hln (some p')
  have hr2 : TreeHolds s2 (some p) r := hr.congr fun q hq => by
    rw [k2.other q fun hmem => hlr q hmem hq, k1.other q (hdisj q (.inr (.inr hq)))]
  obtain ⟨s3, e3, hr3, k3, r3⟩ := setParent_treeHolds hr2 hrn (some p')
  have hn3 : s3.nodes p' = some n := by
    rw [k3.other p' hp.1.2.2, k2.other p' hp.1.2.1, k1.other p' hp.2, hn]
  obtain ⟨s4, e4, c4⟩ := upd_changed hn3 fun m => { m with
    parent := parentOf fs, less := l.root?, greater := r.root?, balance := b }
  refine ⟨s1, s2, s3, s4, e1, e2, e3, e4, holds_plug.2 ⟨?_, ⟨?_, ?_, ?_⟩, ?_⟩, ⟨fun q hq => ?_, ?_, ?_⟩,
    ?_⟩
  · refine hpath1.congr (fun q hq => ?_) (by rw [c4.root_eq, r3, r2])
    have hq' := fun hmem => hdisj q hmem hq
    rw [c4.other (by rintro rfl; exact hp.2 hq), k3.other q fun hmem => hq' (.inr (.inr hmem)),
      k2.other q fun hmem => hq' (.inr (.inl hmem))]
  · rw [c4.at_eq, ← he]
  · refine hl2.congr fun q hq => ?_
    rw [c4.other (by rintro rfl; exact hp.1.2.1 hq), k3.other q (hlr q hq)]
  · refine hr3.congr fun q hq => c4.other ?_
    rintro rfl
    exact hp.1.2.2 hq
  · refine nodup_relabel hnd ?_
    simpa only [mem_ids_plug, mem_ids_node, not_or] using hp
  · simp only [List.mem_cons, mem_ids_plug, mem_ids_node, not_or] at hq
    rw [c4.other hq.1, k3.other q hq.2.1.2.2, k2.other q hq.2.1.2.1, k1.other q hq.2.2]
  · rw [c4.within.size_eq, k3.size_eq, k2.size_eq, k1.size_eq]
  · rw [c4.within.nextPtr_eq, k3.nextPtr_eq, k2.nextPtr_eq, k1.nextPtr_eq]
  · rw [c4.other (Ne.symm hp.1.1), k3.other p hpr, k2.other p hpl,
      k1.other p (hdisj p (.inl rfl))]

theorem root?_plug_mem {f : Frame Ptr (κ × α)} {fs : Path κ α} {t : Shape κ α} {q : Ptr}
    (h : (plug (f :: fs) t).root? = some q) : q ∈ pathIds (f :: fs) := by
  induction fs generalizing f t with
  | nil =>
    rw [plug, plug, root?_plug] at h
    simp [Option.some.inj h]
  | cons g gs ih =>
    have := ih (f := g) (t := f.plug t) h
    simp only [mem_pathIds_cons] at this ⊢
    tauto

theorem avlPath_relabel {gs fs : Path κ α} {d : Dir} {p p' : Ptr} {e e' : κ × α} {b : Int}
    {sib : Shape κ α} {n : Nat} (h : AvlPath (gs ++ ⟨d, p, e, b, sib⟩ :: fs) n) :
    AvlPath (gs ++ ⟨d, p', e', b, sib⟩ :: fs) n := by
  induction gs generalizing n with
  | nil => exact h
  | cons g gs ih => exact ⟨h.1, h.2.1, h.2.2.1, h.2.2.2.1, ih h.2.2.2.2⟩

/-- A leaf is unlinked. -/
theorem unlinkNodeImpl_leaf {fs : Path κ α} {p : Ptr} {e : κ × α} {b : Int} {turns : Nat}
    (h : Holds s (plug fs (.node p .nil e b .nil))) (havl : (plug fs (.node p .nil e b .nil)).Avl)
    (hturns : fs.length ≤ turns) :
    ∃ s' t', s.unlinkNodeImpl turns p = some s' ∧ Holds s' t' ∧ t'.Avl ∧
      t'.entries = before fs ++ after fs ∧
      Within { s with size := s.size - 1 } s' (pathIds fs) := by
  have h0 : Holds { s with size := s.size - 1 } (plug fs (.node p .nil e b .nil)) := h.of_eq rfl rfl
  have hnode := node_of_holds' h
  have hnd := nodup_plug h.nodup
  cases fs with
  | nil =>
    refine ⟨{ s with size := s.size - 1, root := none }, .nil, ?_, ⟨rfl, trivial, by simp⟩, trivial, rfl,
      fun q hq => rfl, rfl, rfl⟩
    have hroot : s.root = some p := h.root_eq
    rw [unlinkNodeImpl]
    simp only [hnode, Option.bind_eq_bind, Option.bind_some, BinTree.root?, and_self, if_true, hroot,
      Option.pure_def]
  | cons f fs =>
    have hp := hnd.2.2 p (by simp [mem_ids_node])
    have hroot : s.root ≠ some p := fun heq => hp (root?_plug_mem (h.root_eq.symm.trans heq))
    have hside : ({ s with size := s.size - 1 } : QTree κ α).side f.p p = some f.dir :=
      side_eq (holds_plug.1 h0).1 fun hmem => hp (by simp [hmem])
    have hnil : TreeHolds { s with size := s.size - 1 } none (.nil : Shape κ α) := trivial
    obtain ⟨s1, s2, e1, e2, h2, k2⟩ :=
      excise h0 rfl hnil (by simp) (by simp)
    simp only [parentOf_cons, replaceChild, hside, Option.bind_eq_bind, Option.bind_some,
      BinTree.root?] at e1
    cases e2
    have hpath : AvlPath (f :: fs) (0 + 1) := by
      simpa [BinTree.height] using (avl_plug.1 havl).2
    obtain ⟨r, hup, hravl⟩ := ShrinkUp.exists_avl (t := .nil) trivial rfl hpath
    have hfirst : ∀ g gs, f :: fs = g :: gs → f.dir = g.dir := by
      rintro g gs heq
      rw [(List.cons.inj heq).1]
    obtain ⟨s3, e3, h3, k3⟩ := rebalanceRemove_holds hup hfirst hturns h2
    refine ⟨s3, r, ?_, h3, hravl, ?_, ?_⟩
    · rw [unlinkNodeImpl]
      simp only [hnode, Option.bind_eq_bind, Option.bind_some, BinTree.root?, and_self, if_true, hroot,
        if_false, parentOf_cons, hside, e1]
      exact e3
    · rw [hup.entries_eq, entries_plug]
      simp [BinTree.entries]
    · refine (k2.mono ?_).trans (k3.mono fun q hq => ?_)
      · simp
      · simpa [mem_ids_plug] using hq

theorem unlinkNodeImpl_inner {turns : Nat} {d : Dir} {p q : Ptr} {e : κ × α} {b : Int}
    {far parent : Option Ptr} (hn : s.nodes p = some (nodeOf d e b (some q) far parent))
    (hd : b = -1 ↔ d = .less) :
    s.unlinkNodeImpl turns p =
      (({ s with size := s.size - 1 } : QTree κ α).outermost d.opp turns q).bind
        fun q => replaceBy turns { s with size := s.size - 1 } p q := by
  unfold unlinkNodeImpl
  dsimp only
  rw [hn, Option.bind_eq_bind, Option.bind_some, balance_nodeOf]
  cases d with
  | less =>
    rw [if_neg (by simp [nodeOf]), if_pos (hd.2 rfl)]
    rfl
  | greater =>
    rw [if_neg (by simp [nodeOf]), if_neg (by simp [hd])]
    rfl

/-- The innermost frame of a path, and of the path in which `rp` has taken the place of `p`. -/
theorem exists_renamed_frame {d : Dir} {gs fs : Path κ α} {p : Ptr} {e : κ × α} {b : Int}
    {far : Shape κ α} (rp : Ptr) (re : κ × α)
    (hnd : (pathIds (gs ++ ⟨d, p, e, b, far⟩ :: fs)).Nodup) :
    ∃ f P, gs ++ ⟨d, p, e, b, far⟩ :: fs = f :: P ∧
      parentOf (gs ++ ⟨d, rp, re, b, far⟩ :: fs) = some (if f.p = p then rp else f.p) ∧
      ∀ g gs', gs ++ ⟨d, rp, re, b, far⟩ :: fs = g :: gs' → f.dir = g.dir := by
  cases gs with
  | nil =>
    refine ⟨_, _, rfl, by simp, ?_⟩
    rintro g gs' heq
    rw [← (List.cons.inj heq).1]
  | cons g gs =>
    have hne : g.p ≠ p := by
      rintro heq
      rw [List.cons_append] at hnd
      have hmem : p ∈ pathIds (gs ++ ⟨d, p, e, b, far⟩ :: fs) := by
        have hmem : p ∈ ids (plug (gs ++ ⟨d, p, e, b, far⟩ :: fs) .nil) := by
          rw [plug_append]
          simp [plug, Frame.plug, mem_ids_plug]
        simpa using mem_ids_plug.1 hmem
      exact (nodup_pathIds_cons hnd).2.2.2.1 (heq ▸ hmem)
    refine ⟨g, _, rfl, by simp [hne], ?_⟩
    rintro g' gs' heq
    rw [← (List.cons.inj heq).1]

/-- The nodes of a tree in which `rp` has taken the place of `p`. -/
theorem mem_ids_renamed {fs : Path κ α} {p rp q : Ptr} {l r : Shape κ α} {e re : κ × α} {b : Int}
    (hnd : (ids (plug fs (.node p l e b r))).Nodup) (hq : q ∈ ids (plug fs (.node rp l re b r))) :
    q = rp ∨ (q ≠ p ∧ q ∈ ids (plug fs (.node p l e b r))) := by
  obtain ⟨hnnd, -, hndisj⟩ := nodup_plug hnd
  obtain ⟨-, -, hpl, hpr, -⟩ := nodup_join (d := .less).1 hnnd
  have hpfs := hndisj p (mem_ids_node.2 (.inl rfl))
  simp only [mem_ids_plug, mem_ids_node] at hq ⊢
  grind

/-- The replacement is the outermost node of the subtree `near`; it leaves its place to its child and
    takes the place of the removed node. -/
theorem replaceBy_holds {d : Dir} {fs gs : Path κ α} {p rp : Ptr} {e re : κ × α} {b rb : Int}
    {sub far r : Shape κ α} {turns : Nat}
    (h : Holds s (plug fs (.join d p e b (plug gs (.join d.opp rp re rb .nil sub)) far)))
    (hgs : ∀ g ∈ gs, g.dir = d.opp)
    (hup : ShrinkUp (gs ++ ⟨d, rp, re, b, far⟩ :: fs) sub r)
    (hturns : (gs ++ ⟨d, rp, re, b, far⟩ :: fs).length ≤ turns) :
    ∃ s', s.replaceBy turns p rp = some s' ∧ Holds s' r ∧
      Within s s' (ids (plug fs (.join d p e b (plug gs (.join d.opp rp re rb .nil sub)) far))) ∧
      s'.nodes p ≠ none := by
  have hfocus : plug fs (.join d p e b (plug gs (.join d.opp rp re rb .nil sub)) far) =
      plug (gs ++ ⟨d, p, e, b, far⟩ :: fs) (.join d.opp rp re rb .nil sub) := by
    rw [plug_append]
    rfl
  rw [hfocus] at h ⊢
  have hr := node_of_holds h
  obtain ⟨hpath, htree, hnd⟩ := holds_plug.1 h
  obtain ⟨-, -, hsub⟩ := treeHolds_join.1 htree
  obtain ⟨hrepnd, -, hdisj⟩ := nodup_plug hnd
  obtain ⟨-, hsubnd, -, hrpsub, -⟩ := nodup_join.1 hrepnd
  rw [BinTree.root?_join] at hpath
  have hrp := hdisj rp (by simp)
  obtain ⟨s1, s2, e1, e2, h2, k2⟩ :=
    excise h (BinTree.root?_join ..) hsub hsubnd fun q hq => by simp [hq]
  -- the frame that has the replacement
  obtain ⟨f, P, hP, hrot, hdir⟩ := exists_renamed_frame rp re (nodup_plug hnd).2.1
  have hids : ∀ q, q ∈ ids (plug (gs ++ ⟨d, p, e, b, far⟩ :: fs) sub) → q ≠ rp := by
    rintro q hq rfl
    rcases mem_ids_plug.1 hq with hq | hq
    · exact hrpsub hq
    · exact hrp hq
  have hrp2 : s2.nodes rp = some (nodeOf d.opp re rb none sub.root?
      (parentOf (gs ++ ⟨d, p, e, b, far⟩ :: fs))) := by
    rw [k2.other rp (by simp [hrp, hrpsub]), hr]
    rfl
  -- the replaced node, without its replacement below it
  obtain ⟨l', r', hnode⟩ : ∃ l' r', ∀ q x,
      BinTree.join d q x b (plug gs sub) far = .node q l' x b r' := by
    cases d <;> exact ⟨_, _, fun _ _ => rfl⟩
  have hfocus2 : plug (gs ++ ⟨d, p, e, b, far⟩ :: fs) sub = plug fs (.node p l' e b r') := by
    rw [plug_append, plug, Frame.plug, hnode]
  have hfocus3 : plug (gs ++ ⟨d, rp, re, b, far⟩ :: fs) sub = plug fs (.node rp l' re b r') := by
    rw [plug_append, plug, Frame.plug, hnode]
  rw [hfocus2] at h2 hids
  have hp2 := node_of_holds' h2
  have hre : ((nodeOf d.opp re rb none sub.root? (parentOf (gs ++ ⟨d, p, e, b, far⟩ :: fs))).key,
      (nodeOf d.opp re rb none sub.root? (parentOf (gs ++ ⟨d, p, e, b, far⟩ :: fs))).value) = re := by
    simp
  obtain ⟨s3, s4, s5, s6, e3, e4, e5, e6, h6, k6, hp6⟩ :=
    relabel h2 (fun hmem => hids rp hmem rfl) hrp2 hre
  rw [← hfocus3] at h6
  obtain ⟨s7, e7, h7, k7⟩ := rebalanceRemove_holds hup hdir hturns h6
  rw [hrot] at e7
  have hmem : ∀ q, q ∈ ids (plug fs (.node p l' e b r')) →
      q ∈ ids (plug (gs ++ ⟨d, p, e, b, far⟩ :: fs) (.join d.opp rp re rb .nil sub)) := by
    intro q hq
    rw [← hfocus2, mem_ids_plug] at hq
    rw [mem_ids_plug, mem_ids_join]
    tauto
  have hmem' : ∀ q, q ∈ ids (plug fs (.node rp l' re b r')) → q = rp ∨
      (q ≠ p ∧ q ∈ ids (plug fs (.node p l' e b r'))) := fun q hq => mem_ids_renamed h2.nodup hq
  refine ⟨s7, ?_, h7, ?_, ?_⟩
  · rw [hP] at hpath hr e1 e2 hrp
    simp only [mem_pathIds_cons, not_or] at hrp
    have hside := side_eq hpath hrp.2.1
    change s.nodes rp = some (nodeOf d.opp re rb none sub.root? (some f.p)) at hr
    simp only [parentOf_cons, replaceChild, hside, Option.bind_eq_bind, Option.bind_some] at e1 e2
    have hchild : (nodeOf d.opp re rb none sub.root? (some f.p)).less.or
        (nodeOf d.opp re rb none sub.root? (some f.p)).greater = sub.root? := by
      cases d <;> simp [nodeOf, Dir.opp]
    rw [replaceBy, hr]
    simp only [Option.bind_eq_bind, Option.bind_some, parent_nodeOf, hside, hchild, e1, e2, hp2, e3,
      e4, e5, e6, e7]
  · refine (k2.mono fun q hq => ?_).trans ((k6.mono fun q hq => ?_).trans (k7.mono fun q hq => ?_))
    · rw [List.mem_append] at hq
      rw [mem_ids_plug, mem_ids_join]
      tauto
    · rcases List.mem_cons.1 hq with rfl | hq
      · simp [mem_ids_plug]
      · exact hmem q hq
    · rw [hfocus3] at hq
      rcases hmem' q hq with rfl | hq
      · simp [mem_ids_plug]
      · exact hmem q hq.2
  · rw [k7.other p, hp6, hp2]
    · simp
    · intro hq
      rw [hfocus3] at hq
      rcases hmem' p hq with rfl | hq
      · exact hids p (by simp [mem_ids_plug, mem_ids_node]) rfl
      · exact hq.1 rfl

/-- The entries when the outermost node of `near` has taken the place of its root's parent. -/
theorem entries_replaced {d : Dir} {gs : Path κ α} {rp : Ptr} {re : κ × α} {b rb : Int}
    {sub far : Shape κ α} (hgs : ∀ g ∈ gs, g.dir = d.opp) :
    (BinTree.join d rp re b (plug gs sub) far).entries =
      d.arrange (plug gs (.join d.opp rp re rb .nil sub)).entries far.entries := by
  cases d with
  | less =>
    have hafter := after_of_greater hgs
    simp [entries_join, entries_plug, hafter, Dir.opp, Dir.arrange, BinTree.entries]
  | greater =>
    have hbefore := before_of_less hgs
    simp [entries_join, entries_plug, hbefore, Dir.opp, Dir.arrange, BinTree.entries]

/-- A node that has a child on the side of its replacement is unlinked. -/
theorem unlinkNodeImpl_join {d : Dir} {fs : Path κ α} {p : Ptr} {near far : Shape κ α} {e : κ × α}
    {b : Int} {turns : Nat} (h : Holds s (plug fs (.join d p e b near far)))
    (havl : (plug fs (.join d p e b near far)).Avl) (hd : b = -1 ↔ d = .less) (hne : near ≠ .nil)
    (hturns : (plug fs (.join d p e b near far)).height ≤ turns) :
    ∃ s' t', s.unlinkNodeImpl turns p = some s' ∧ Holds s' t' ∧ t'.Avl ∧
      t'.entries = before fs ++ d.arrange near.entries far.entries ++ after fs ∧ s'.nodes p ≠ none ∧
      Within { s with size := s.size - 1 } s' (ids (plug fs (.join d p e b near far))) := by
  obtain ⟨gs, rp, re, rb, sub, hdesc, hgs, rfl⟩ := exists_outermost (d := d.opp) hne
  have hfocus : plug fs (.join d p e b (plug gs (.join d.opp rp re rb .nil sub)) far) =
      plug (gs ++ ⟨d, p, e, b, far⟩ :: fs) (.join d.opp rp re rb .nil sub) := by
    rw [plug_append]
    rfl
  have hlen := length_le_height (gs ++ ⟨d, p, e, b, far⟩ :: fs) (.join d.opp rp re rb .nil sub)
  rw [← hfocus] at hlen
  have hnear : (plug gs (.join d.opp rp re rb .nil sub)).height ≤
      (plug fs (.join d p e b (plug gs (.join d.opp rp re rb .nil sub)) far)).height :=
    (Nat.le_add_left _ _).trans (length_le_height (⟨d, p, e, b, far⟩ :: fs) _)
  -- the repair begins where the replacement was
  have havl' := havl
  rw [hfocus, avl_plug, BinTree.avl_join, BinTree.height_join] at havl'
  obtain ⟨⟨-, hsub, -, -, -⟩, hpath⟩ := havl'
  simp only [BinTree.height, Nat.zero_max] at hpath
  have hpath' : AvlPath (gs ++ ⟨d, rp, re, b, far⟩ :: fs) (sub.height + 1) :=
    avlPath_relabel hpath
  obtain ⟨t', hup, ht'⟩ := ShrinkUp.exists_avl hsub rfl hpath'
  have h0 : Holds { s with size := s.size - 1 }
      (plug fs (.join d p e b (plug gs (.join d.opp rp re rb .nil sub)) far)) := h.of_eq rfl rfl
  obtain ⟨q, hq⟩ : ∃ q, (plug gs (.join d.opp rp re rb .nil sub)).root? = some q := by
    cases hroot : (plug gs (.join d.opp rp re rb .nil sub)).root? with
    | none => exact absurd (root?_eq_none.1 hroot) hne
    | some q => exact ⟨q, rfl⟩
  have hout : ({ s with size := s.size - 1 } : QTree κ α).outermost d.opp turns q = some rp := by
    have hplug : Holds { s with size := s.size - 1 } (plug ([] ++ ⟨d, p, e, b, far⟩ :: fs)
        (plug gs (.join d.opp rp re rb .nil sub))) := h0
    rw [outermost_eq hplug hq (by omega), descend_append, hdesc]
    rfl
  have hlen' : (gs ++ ⟨d, rp, re, b, far⟩ :: fs).length ≤ turns := by
    simp only [List.length_append, List.length_cons] at hlen ⊢
    omega
  obtain ⟨s', e', h', k', hp'⟩ := replaceBy_holds h0 hgs hup hlen'
  have hnode := node_of_holds h
  rw [hq] at hnode
  refine ⟨s', t', ?_, h', ht', ?_, hp', k'⟩
  · rw [unlinkNodeImpl_inner hnode hd, hout]
    exact e'
  · rw [hup.entries_eq, plug_append, plug, entries_plug, Frame.plug, entries_replaced hgs]

/-- **Unlinking a node keeps the rest a balanced tree.** -/
theorem unlinkNodeImpl_holds {fs : Path κ α} {p : Ptr} {l r : Shape κ α} {e : κ × α} {b : Int}
    {turns : Nat} (h : Holds s (plug fs (.node p l e b r))) (havl : (plug fs (.node p l e b r)).Avl)
    (hturns : (plug fs (.node p l e b r)).height ≤ turns) :
    ∃ s' t', s.unlinkNodeImpl turns p = some s' ∧ Holds s' t' ∧ t'.Avl ∧
      t'.entries = before fs ++ (l.entries ++ r.entries) ++ after fs ∧ s'.nodes p ≠ none ∧
      Within { s with size := s.size - 1 } s' (ids (plug fs (.node p l e b r))) := by
  have hlen := length_le_height fs (.node p l e b r)
  obtain ⟨-, -, hb, hlow, hhigh⟩ := (avl_plug.1 havl).1
  by_cases hleaf : l = .nil ∧ r = .nil
  · obtain ⟨rfl, rfl⟩ := hleaf
    have hfs : fs.length ≤ turns := by omega
    obtain ⟨s', t', e', h', hav, hent, hk⟩ := unlinkNodeImpl_leaf h havl hfs
    have hp := (nodup_plug h.nodup).2.2 p (mem_ids_node.2 (.inl rfl))
    refine ⟨s', t', e', h', hav, by simpa [BinTree.entries] using hent, ?_, hk.mono ?_⟩
    · rw [hk.other p hp]
      change s.nodes p ≠ none
      rw [node_of_holds' h]
      simp
    · intro q hq
      exact mem_ids_plug.2 (.inr hq)
  · have hheight : ¬(l.height = 0 ∧ r.height = 0) := by
      simpa only [BinTree.height_eq_zero] using hleaf
    by_cases hbal : b = -1
    · refine unlinkNodeImpl_join (d := .less) h havl (by simp [hbal]) ?_ hturns
      rintro rfl
      simp only [BinTree.height] at hb
      omega
    · refine unlinkNodeImpl_join (d := .greater) h havl (by simp [hbal]) ?_ hturns
      rintro rfl
      simp only [BinTree.height, and_true] at hb hheight
      omega

/-! ## Clearing -/

theorem delete_within {p : Ptr} {n : Node κ α} (hn : s.nodes p = some n) :
    ∃ s', s.delete p = some s' ∧ s'.nodes p = none ∧ s'.root = s.root ∧ Within s s' [p] := by
  refine ⟨{ s with nodes := Function.update s.nodes p none }, ?_, ?_, rfl, fun q hq => ?_, rfl, rfl⟩
  · rw [delete, hn]
    rfl
  · exact Function.update_self p none s.nodes
  · exact Function.update_of_ne (fun heq => hq (List.mem_singleton.2 heq)) _ _

/-- A leaf is deleted, and the walk goes to its parent. -/
theorem clearFrom_leaf {fs : Path κ α} {p : Ptr} {e : κ × α} {b : Int}
    (h : Holds s (plug fs (.node p .nil e b .nil))) :
    ∃ s', (∀ turns, s.clearFrom (turns + 1) (some p) = s'.clearFrom turns (parentOf fs)) ∧
      (fs ≠ [] → Holds s' (plug fs .nil)) ∧ s'.nodes p = none ∧
      Within s s' (p :: pathIds fs) := by
  have hnode := node_of_holds' h
  obtain ⟨-, hpathnd, hdisj⟩ := nodup_plug h.nodup
  have hp := hdisj p (mem_ids_node.2 (.inl rfl))
  cases fs with
  | nil =>
    obtain ⟨s', e', hnone, -, k'⟩ := delete_within hnode
    refine ⟨s', fun turns => ?_, by simp, hnone, k'⟩
    rw [clearFrom, hnode]
    simp only [Option.bind_eq_bind, Option.bind_some, BinTree.root?, parentOf_nil, e']
  | cons f fs =>
    have hpath := (holds_plug.1 h).1
    rw [BinTree.root?] at hpath
    have hside := side_eq hpath fun hmem => hp (by simp [hmem])
    obtain ⟨s1, e1, hpath1, k1, r1⟩ := setHole_pathHolds hpath hpathnd none
    have hnode1 := k1.other p fun hmem => hp (by simp [List.mem_singleton.1 hmem])
    rw [hnode] at hnode1
    obtain ⟨s2, e2, hnone, r2, k2⟩ := delete_within hnode1
    refine ⟨s2, fun turns => ?_, fun _ => holds_plug.2 ⟨?_, trivial, ?_⟩, hnone, ?_⟩
    · rw [clearFrom, hnode]
      simp only [Option.bind_eq_bind, Option.bind_some, BinTree.root?, parentOf_cons, hside, e1, e2]
    · refine hpath1.congr (fun q hq => k2.other q ?_) r2
      rintro hmem
      rw [List.mem_singleton.1 hmem] at hq
      exact hp hq
    · have hids : ids (plug (f :: fs) (.nil : Shape κ α)) = pathIds (f :: fs) := by
        simp [ids, pathIds, entries_plug, BinTree.entries]
      rw [hids]
      exact hpathnd
    · exact (k1.mono (by simp)).trans (k2.mono (by simp))

/-- **The loop of `clear_impl` deletes a subtree**, in two turns a node. -/
theorem clearFrom_holds {t : Shape κ α} {fs : Path κ α} (h : Holds s (plug fs t)) {p : Ptr}
    (hp : t.root? = some p) :
    ∃ s', (∀ turns, s.clearFrom (2 * t.entries.length + turns) (some p) =
        s'.clearFrom (turns + 1) (parentOf fs)) ∧
      (fs ≠ [] → Holds s' (plug fs .nil)) ∧ (∀ q ∈ ids t, s'.nodes q = none) ∧
      Within s s' (ids (plug fs t)) := by
  induction t generalizing s fs p with
  | nil => cases hp
  | node q l e b r ihl ihr =>
    obtain rfl : q = p := Option.some.inj hp
    -- first what is below on the less side
    obtain ⟨s1, run1, h1, hnone1, k1⟩ : ∃ s1,
        (∀ turns, s.clearFrom (2 * l.entries.length + turns + 1) (some q) =
          s1.clearFrom (turns + 1) (some q)) ∧
        Holds s1 (plug fs (.node q .nil e b r)) ∧ (∀ x ∈ ids l, s1.nodes x = none) ∧
        Within s s1 (ids (plug fs (.node q l e b r))) := by
      cases hl : l.root? with
      | none =>
        obtain rfl := root?_eq_none.1 hl
        exact ⟨s, fun turns => by simp [BinTree.entries], h, by simp, .refl _ _⟩
      | some x =>
        have hplug : Holds s (plug (⟨.less, q, e, b, r⟩ :: fs) l) := h
        obtain ⟨s1, run1, h1, hnone1, k1⟩ := ihl hplug hl
        refine ⟨s1, fun turns => ?_, h1 (by simp), hnone1, k1⟩
        rw [clearFrom, node_of_holds' h, hl]
        exact run1 turns
    -- then what is below on the greater side
    obtain ⟨s2, run2, h2, hnone2, k2⟩ : ∃ s2,
        (∀ turns, s1.clearFrom (2 * r.entries.length + turns + 1) (some q) =
          s2.clearFrom (turns + 1) (some q)) ∧
        Holds s2 (plug fs (.node q .nil e b .nil)) ∧ (∀ x ∈ ids r, s2.nodes x = none) ∧
        Within s1 s2 (ids (plug fs (.node q .nil e b r))) := by
      cases hr : r.root? with
      | none =>
        obtain rfl := root?_eq_none.1 hr
        exact ⟨s1, fun turns => by simp [BinTree.entries], h1, by simp, .refl _ _⟩
      | some x =>
        have hplug : Holds s1 (plug (⟨.greater, q, e, b, .nil⟩ :: fs) r) := h1
        obtain ⟨s2, run2, h2, hnone2, k2⟩ := ihr hplug hr
        refine ⟨s2, fun turns => ?_, h2 (by simp), hnone2, k2⟩
        rw [clearFrom, node_of_holds' h1, hr]
        exact run2 turns
    obtain ⟨s3, run3, h3, hnone3, k3⟩ := clearFrom_leaf h2
    have hnd := nodup_plug h.nodup
    obtain ⟨-, -, hql, hqr, hlr⟩ := nodup_join (d := .less).1 hnd.1
    have hlpath : ∀ x ∈ ids l, x ∉ ids (plug fs (.node q .nil e b r)) := by
      intro x hx
      have hxfs := hnd.2.2 x (mem_ids_node.2 (.inr (.inl hx)))
      simp only [mem_ids_plug, mem_ids_node, ids_nil, List.not_mem_nil, false_or]
      rintro ((rfl | hxr) | hxp)
      · exact hql hx
      · exact hlr x hx hxr
      · exact hxfs hxp
    have hchildren : ∀ x, x ∈ ids l ∨ x ∈ ids r → x ∉ q :: pathIds fs := by
      intro x hx
      have hxfs := hnd.2.2 x (mem_ids_node.2 (.inr hx))
      rw [List.mem_cons, not_or]
      refine ⟨?_, hxfs⟩
      rintro rfl
      exact hx.elim hql hqr
    refine ⟨s3, fun turns => ?_, h3, fun x hx => ?_, ?_⟩
    · have hcount : 2 * (BinTree.node q l e b r).entries.length + turns =
          2 * l.entries.length + (2 * r.entries.length + (turns + 1)) + 1 := by
        simp only [BinTree.entries, List.length_append, List.length_cons]
        omega
      rw [hcount, run1, run2, run3]
    · rcases mem_ids_node.1 hx with rfl | hx | hx
      · exact hnone3
      · rw [k3.other x (hchildren x (.inl hx)), k2.other x (hlpath x hx), hnone1 x hx]
      · rw [k3.other x (hchildren x (.inr hx)), hnone2 x hx]
    · refine k1.trans ((k2.mono fun x hx => ?_).trans (k3.mono fun x hx => ?_))
      · rw [mem_ids_plug, mem_ids_node] at hx ⊢
        tauto
      · rw [List.mem_cons] at hx
        rw [mem_ids_plug, mem_ids_node]
        tauto

end DrbdUtils.DrbdMon.QTree
