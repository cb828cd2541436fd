import DrbdUtils.DrbdMon.QTree

/-!
# The nodes of a search tree spell a tree

`Holds s t` says that the nodes of `s`, from its root, are those of the tree `t`: children, parents and
balances.  It splits at any node into the path above it and the subtree below (`holds_plug`), and the
loops of `QTree` move along such a split.

* `rotate_holds`, `rotateDouble_holds` — what the rotations do to a subtree.
* `rebalanceInsert_holds`, `rebalanceRemove_holds` — the repairs walk up as `GrowUp` and `ShrinkUp` say.
-/

set_option autoImplicit false

namespace DrbdUtils.DrbdMon.QTree

open Lib.AvlTree

variable {κ α : Type} {s s' : QTree κ α}

/-- A tree of nodes. -/
abbrev Shape (κ α : Type) := BinTree Ptr (κ × α)

abbrev Path (κ α : Type) := List (Frame Ptr (κ × α))

/-- The node of an entry whose child in direction `d` is `near`. -/
def nodeOf (d : Dir) (e : κ × α) (b : Int) (near far parent : Option Ptr) : Node κ α :=
  match d with
  | .less => ⟨e.1, e.2, near, far, parent, b⟩
  | .greater => ⟨e.1, e.2, far, near, parent, b⟩

section NodeOf

variable (d : Dir) (e : κ × α) (b b' : Int) (near far parent p : Option Ptr)

@[simp] theorem child_nodeOf : (nodeOf d e b near far parent).child d = near := by cases d <;> rfl

@[simp] theorem child_opp_nodeOf : (nodeOf d e b near far parent).child d.opp = far := by
  cases d <;> rfl

@[simp] theorem parent_nodeOf : (nodeOf d e b near far parent).parent = parent := by cases d <;> rfl

@[simp] theorem balance_nodeOf : (nodeOf d e b near far parent).balance = b := by cases d <;> rfl

@[simp] theorem key_nodeOf : (nodeOf d e b near far parent).key = e.1 := by cases d <;> rfl

@[simp] theorem value_nodeOf : (nodeOf d e b near far parent).value = e.2 := by cases d <;> rfl

@[simp] theorem setChild_nodeOf :
    (nodeOf d e b near far parent).setChild d p = nodeOf d e b p far parent := by cases d <;> rfl

@[simp] theorem setChild_opp_nodeOf :
    (nodeOf d e b near far parent).setChild d.opp p = nodeOf d e b near p parent := by
  cases d <;> rfl

@[simp] theorem setParent_nodeOf :
    { nodeOf d e b near far parent with parent := p } = nodeOf d e b near far p := by cases d <;> rfl

@[simp] theorem setBalance_nodeOf :
    { nodeOf d e b near far parent with balance := b' } = nodeOf d e b' near far parent := by
  cases d <;> rfl

@[simp] theorem setValue_nodeOf (value : α) :
    { nodeOf d e b near far parent with value := value } =
      nodeOf d (e.1, value) b near far parent := by
  cases d <;> rfl

theorem nodeOf_opp : nodeOf d.opp e b near far parent = nodeOf d e b far near parent := by
  cases d <;> rfl

end NodeOf

/-! ## One node -/

/-- Only nodes of `l` have changed, and maybe the root. -/
structure Within (s s' : QTree κ α) (l : List Ptr) : Prop where
  other : ∀ q, q ∉ l → s'.nodes q = s.nodes q
  size_eq : s'.size = s.size
  nextPtr_eq : s'.nextPtr = s.nextPtr

theorem Within.refl (s : QTree κ α) (l : List Ptr) : Within s s l := ⟨fun _ _ => rfl, rfl, rfl⟩

theorem Within.trans {s'' : QTree κ α} {l : List Ptr} (h : Within s s' l) (h' : Within s' s'' l) :
    Within s s'' l :=
  ⟨fun q hq => (h'.other q hq).trans (h.other q hq), h'.size_eq.trans h.size_eq,
    h'.nextPtr_eq.trans h.nextPtr_eq⟩

theorem Within.mono {l l' : List Ptr} (h : Within s s' l) (hl : l ⊆ l') : Within s s' l' :=
  ⟨fun q hq => h.other q fun hm => hq (hl hm), h.size_eq, h.nextPtr_eq⟩

/-- Only the node `p` has changed, to `n`. -/
structure Changed (s s' : QTree κ α) (p : Ptr) (n : Node κ α) : Prop where
  at_eq : s'.nodes p = some n
  within : Within s s' [p]
  root_eq : s'.root = s.root

theorem Changed.other {p q : Ptr} {n : Node κ α} (h : Changed s s' p n) (hq : q ≠ p) :
    s'.nodes q = s.nodes q := h.within.other q (by simpa using hq)

theorem upd_changed {p : Ptr} {n : Node κ α} (h : s.nodes p = some n) (f : Node κ α → Node κ α) :
    ∃ s', s.upd p f = some s' ∧ Changed s s' p (f n) := by
  refine ⟨{ s with nodes := Function.update s.nodes p (some (f n)) }, ?_, ?_, ⟨?_, rfl, rfl⟩, rfl⟩
  · rw [upd, h, Option.map_some]
  · simp
  · intro q hq
    have hne : q ≠ p := by simpa using hq
    simp [hne]

theorem setBalance_changed {p : Ptr} {n : Node κ α} (h : s.nodes p = some n) (b : Int) :
    ∃ s', s.setBalance p b = some s' ∧ Changed s s' p { n with balance := b } :=
  upd_changed h _

/-! ## Trees -/

/-- The nodes spell a subtree below `parent`. -/
def TreeHolds (s : QTree κ α) : Option Ptr → Shape κ α → Prop
  | _, .nil => True
  | parent, .node p l e b r =>
    s.nodes p = some ⟨e.1, e.2, l.root?, r.root?, parent, b⟩ ∧ TreeHolds s (some p) l ∧
      TreeHolds s (some p) r

/-- The nodes spell a path whose hole is at `hole`. -/
def PathHolds (s : QTree κ α) : Path κ α → Option Ptr → Prop
  | [], hole => s.root = hole
  | f :: fs, hole =>
    s.nodes f.p = some (nodeOf f.dir f.entry f.balance hole f.sib.root? (parentOf fs)) ∧
      TreeHolds s (some f.p) f.sib ∧ PathHolds s fs (some f.p)

/-- The nodes spell the tree `t`. -/
structure Holds (s : QTree κ α) (t : Shape κ α) : Prop where
  root_eq : s.root = t.root?
  tree : TreeHolds s none t
  nodup : (ids t).Nodup

theorem treeHolds_join {parent : Option Ptr} {d : Dir} {p : Ptr} {e : κ × α} {b : Int}
    {t u : Shape κ α} : TreeHolds s parent (.join d p e b t u) ↔
      s.nodes p = some (nodeOf d e b t.root? u.root? parent) ∧ TreeHolds s (some p) t ∧
        TreeHolds s (some p) u := by
  cases d
  · rfl
  · simp only [BinTree.join, TreeHolds, nodeOf, and_comm (a := TreeHolds s (some p) u)]

theorem TreeHolds.congr {parent : Option Ptr} {t : Shape κ α} (h : TreeHolds s parent t)
    (hk : ∀ q ∈ ids t, s'.nodes q = s.nodes q) : TreeHolds s' parent t := by
  induction t generalizing parent with
  | nil => trivial
  | node p l e b r ihl ihr =>
    obtain ⟨hp, hl, hr⟩ := h
    have hmem : ∀ q, q ∈ ids (.node p l e b r) ↔ q = p ∨ q ∈ ids l ∨ q ∈ ids r :=
      fun q => mem_ids_join (d := .less)
    refine ⟨?_, ihl hl fun q hq => hk q ?_, ihr hr fun q hq => hk q ?_⟩
    · rw [hk p ((hmem p).2 (.inl rfl)), hp]
    · exact (hmem q).2 (.inr (.inl hq))
    · exact (hmem q).2 (.inr (.inr hq))

theorem TreeHolds.alive {parent : Option Ptr} {t : Shape κ α} {q : Ptr} (h : TreeHolds s parent t)
    (hq : q ∈ ids t) : s.nodes q ≠ none := by
  induction t generalizing parent with
  | nil => simp at hq
  | node p l e b r ihl ihr =>
    obtain ⟨hp, hl, hr⟩ := h
    rcases (mem_ids_join (d := .less)).1 hq with rfl | hq | hq
    · simp [hp]
    · exact ihl hl hq
    · exact ihr hr hq

theorem PathHolds.congr {fs : Path κ α} {hole : Option Ptr} (h : PathHolds s fs hole)
    (hk : ∀ q ∈ pathIds fs, s'.nodes q = s.nodes q) (hr : s'.root = s.root) :
    PathHolds s' fs hole := by
  induction fs generalizing hole with
  | nil => exact hr.trans h
  | cons f fs ih =>
    obtain ⟨hp, hsib, hrest⟩ := h
    refine ⟨?_, hsib.congr fun q hq => hk q ?_, ih hrest fun q hq => hk q ?_⟩
    · rw [hk f.p (by simp), hp]
    · simp [hq]
    · simp [hq]

theorem root?_plug (f : Frame Ptr (κ × α)) (t : Shape κ α) : (f.plug t).root? = some f.p :=
  BinTree.root?_join ..

/-- **A tree splits at each of its places.** -/
theorem holds_plug {fs : Path κ α} {t : Shape κ α} :
    Holds s (plug fs t) ↔ PathHolds s fs t.root? ∧ TreeHolds s (parentOf fs) t ∧
      (ids (plug fs t)).Nodup := by
  induction fs generalizing t with
  | nil => exact ⟨fun h => ⟨h.root_eq, h.tree, h.nodup⟩, fun h => ⟨h.1, h.2.1, h.2.2⟩⟩
  | cons f fs ih =>
    rw [plug, ih, root?_plug, Frame.plug, treeHolds_join, PathHolds, parentOf_cons]
    tauto

/-- A subtree gets another parent. -/
theorem setParent_treeHolds {parent : Option Ptr} {t : Shape κ α} (h : TreeHolds s parent t)
    (hn : (ids t).Nodup) (parent' : Option Ptr) :
    ∃ s', s.setParent t.root? parent' = some s' ∧ TreeHolds s' parent' t ∧ Within s s' (ids t) ∧
      s'.root = s.root := by
  cases t with
  | nil => exact ⟨s, rfl, trivial, Within.refl _ _, rfl⟩
  | node p l e b r =>
    obtain ⟨hp, hl, hr⟩ := h
    obtain ⟨-, -, hpl, hpr, -⟩ := nodup_join (d := .less).1 hn
    obtain ⟨s', hs', hc⟩ := upd_changed hp fun n => { n with parent := parent' }
    refine ⟨s', hs', ⟨hc.at_eq, hl.congr fun q hq => hc.other ?_, hr.congr fun q hq => hc.other ?_⟩,
      hc.within.mono ?_, hc.root_eq⟩
    · rintro rfl
      exact hpl hq
    · rintro rfl
      exact hpr hq
    · simpa using root?_mem rfl

/-- The hole of a path is on the side of its first frame. -/
theorem side_eq {f : Frame Ptr (κ × α)} {fs : Path κ α} {p : Ptr} (h : PathHolds s (f :: fs) (some p))
    (hp : p ∉ ids f.sib) : s.side f.p p = some f.dir := by
  rw [side, h.1, Option.map_some]
  obtain ⟨d, q, e, b, sib⟩ := f
  cases d with
  | less => simp [nodeOf]
  | greater =>
    have hne : sib.root? ≠ some p := fun heq => hp (root?_mem heq)
    simp [nodeOf, hne]

/-- Another child in the hole of a path. -/
theorem setHole_pathHolds {f : Frame Ptr (κ × α)} {fs : Path κ α} {hole : Option Ptr}
    (h : PathHolds s (f :: fs) hole) (hn : (pathIds (f :: fs)).Nodup) (other : Option Ptr) :
    ∃ s', s.upd f.p (fun n => n.setChild f.dir other) = some s' ∧ PathHolds s' (f :: fs) other ∧
      Within s s' [f.p] ∧ s'.root = s.root := by
  obtain ⟨-, -, hfsib, hffs, -⟩ := nodup_pathIds_cons hn
  obtain ⟨hf, hsib, hrest⟩ := h
  obtain ⟨s', hs', hc⟩ := upd_changed hf fun n => n.setChild f.dir other
  rw [setChild_nodeOf] at hc
  refine ⟨s', hs', ⟨hc.at_eq, hsib.congr fun q hq => hc.other ?_, hrest.congr
    (fun q hq => hc.other ?_) hc.root_eq⟩, hc.within, hc.root_eq⟩
  · rintro rfl
    exact hfsib hq
  · rintro rfl
    exact hffs hq

/-- What is in the hole of a path is replaced. -/
theorem replaceChild_pathHolds {fs : Path κ α} {p : Ptr} (h : PathHolds s fs (some p))
    (hn : (pathIds fs).Nodup) (hp : p ∉ pathIds fs) (other : Option Ptr) :
    ∃ s', s.replaceChild (parentOf fs) p other = some s' ∧ PathHolds s' fs other ∧
      Within s s' (pathIds fs) := by
  cases fs with
  | nil => exact ⟨{ s with root := other }, rfl, rfl, fun _ _ => rfl, rfl, rfl⟩
  | cons f fs =>
    simp only [mem_pathIds_cons, not_or] at hp
    obtain ⟨s', hs', hpath, hw, -⟩ := setHole_pathHolds h hn other
    refine ⟨s', ?_, hpath, hw.mono (by simp)⟩
    simp only [parentOf_cons, replaceChild, side_eq h hp.2.1, Option.bind_eq_bind, Option.bind_some,
      hs']

/-! ## Rotations -/

section Rotations

variable {d : Dir} {fs : Path κ α} {rot sub top : Ptr} {re se te : κ × α} {rb sb tb : Int}
  {a c far x y : Shape κ α}

/-- **"rotate R" and "rotate L".** -/
theorem rotate_holds (h : Holds s (plug fs (.join d rot re rb (.join d sub se sb a c) far))) :
    ∃ s', s.rotate d rot sub = some s' ∧
      Holds s' (plug fs (.join d sub se sb a (.join d rot re rb c far))) ∧
      Within s s' (ids (plug fs (.join d rot re rb (.join d sub se sb a c) far))) := by
  obtain ⟨hpath, htree, hnd⟩ := holds_plug.1 h
  obtain ⟨hrot, hin, hfar⟩ := treeHolds_join.1 htree
  obtain ⟨hsub, ha, hc⟩ := treeHolds_join.1 hin
  obtain ⟨hntree, hnpath, hdisj⟩ := nodup_plug hnd
  obtain ⟨hnin, hnfar, hrotin, hrotfar, hinfar⟩ := nodup_join.1 hntree
  obtain ⟨hna, hnc, hsuba, hsubc, hac⟩ := nodup_join.1 hnin
  simp only [mem_ids_join, not_or] at hrotin hdisj hinfar
  rw [BinTree.root?_join] at hpath hrot
  obtain ⟨s1, e1, c1⟩ := upd_changed hsub fun n => { n with parent := parentOf fs }
  have hpath1 : PathHolds s1 fs (some rot) :=
    hpath.congr (fun q hq => c1.other (by grind)) c1.root_eq
  obtain ⟨s2, e2, hpath2, k2⟩ := replaceChild_pathHolds hpath1 hnpath (by grind) (some sub)
  have hsub2 : s2.nodes sub = some (nodeOf d se sb a.root? c.root? (parentOf fs)) := by
    rw [k2.other sub (by grind), c1.at_eq, setParent_nodeOf]
  have hrot2 : s2.nodes rot = some (nodeOf d re rb (some sub) far.root? (parentOf fs)) := by
    rw [k2.other rot (by grind), c1.other (by grind), hrot]
  obtain ⟨s3, e3, c3⟩ := upd_changed hrot2 fun n => n.setChild d c.root?
  have hc3 : TreeHolds s3 (some sub) c := hc.congr fun q hq => by
    rw [c3.other (by grind), k2.other q (by grind), c1.other (by grind)]
  obtain ⟨s4, e4, hc4, k4, r4⟩ := setParent_treeHolds hc3 hnc (some rot)
  have hsub4 : s4.nodes sub = some (nodeOf d se sb a.root? c.root? (parentOf fs)) := by
    rw [k4.other sub hsubc, c3.other (by grind), hsub2]
  obtain ⟨s5, e5, c5⟩ := upd_changed hsub4 fun n => n.setChild d.opp (some rot)
  have hrot5 : s5.nodes rot = some (nodeOf d re rb c.root? far.root? (parentOf fs)) := by
    rw [c5.other (by grind), k4.other rot (by grind), c3.at_eq, setChild_nodeOf]
  obtain ⟨s6, e6, c6⟩ := upd_changed hrot5 fun n => { n with parent := some sub }
  have hkeep : ∀ q, q ≠ rot → q ≠ sub → q ∉ ids c → s6.nodes q = s2.nodes q := fun q h1 h2 h3 => by
    rw [c6.other h1, c5.other h2, k4.other q h3, c3.other h1]
  have hkeep' : ∀ q, q ≠ rot → q ≠ sub → q ∉ ids c → q ∉ pathIds fs → s6.nodes q = s.nodes q :=
    fun q h1 h2 h3 h4 => by rw [hkeep q h1 h2 h3, k2.other q h4, c1.other h2]
  have hroot : s6.root = s2.root := by rw [c6.root_eq, c5.root_eq, r4, c3.root_eq]
  refine ⟨s6, ?_, holds_plug.2 ⟨?_, treeHolds_join.2 ⟨?_, ?_, treeHolds_join.2 ⟨?_, ?_, ?_⟩⟩, ?_⟩,
    ⟨fun q hq => ?_, ?_, ?_⟩⟩
  · simp only [rotate, hrot, hsub2, Option.bind_eq_bind, Option.bind_some, parent_nodeOf, e1, e2, e3,
      e4, e5, e6, child_opp_nodeOf]
  · rw [BinTree.root?_join]
    exact hpath2.congr (fun q hq => hkeep q (by grind) (by grind) (by grind)) hroot
  · rw [c6.other (by grind), c5.at_eq, setChild_opp_nodeOf, BinTree.root?_join]
  · exact ha.congr fun q hq => hkeep' q (by grind) (by grind) (by grind) (by grind)
  · rw [c6.at_eq, setParent_nodeOf]
  · exact hc4.congr fun q hq => by rw [c6.other (by grind), c5.other (by grind)]
  · exact hfar.congr fun q hq => hkeep' q (by grind) (by grind) (by grind) (by grind)
  · have heq : ids (plug fs (.join d sub se sb a (.join d rot re rb c far))) =
        ids (plug fs (.join d rot re rb (.join d sub se sb a c) far)) := by
      cases d <;> simp [ids, entries_plug, entries_join]
    rw [heq]
    exact hnd
  · simp only [mem_ids_plug, mem_ids_join, not_or] at hq
    exact hkeep' q (by grind) (by grind) (by grind) (by grind)
  · rw [c6.within.size_eq, c5.within.size_eq, k4.size_eq, c3.within.size_eq, k2.size_eq,
      c1.within.size_eq]
  · rw [c6.within.nextPtr_eq, c5.within.nextPtr_eq, k4.nextPtr_eq, c3.within.nextPtr_eq,
      k2.nextPtr_eq, c1.within.nextPtr_eq]

/-- **"rotate LR" and "rotate RL".** -/
theorem rotateDouble_holds
    (h : Holds s (plug fs (.join d rot re rb (.join d sub se sb a (.join d top te tb x y)) far))) :
    ∃ s', s.rotateDouble d rot sub = some s' ∧
      Holds s' (plug fs (.join d top te 0 (.join d sub se (innerBalance d tb) a x)
        (.join d rot re (outerBalance d tb) y far))) ∧
      Within s s' (ids (plug fs (.join d rot re rb (.join d sub se sb a (.join d top te tb x y))
        far))) := by
  obtain ⟨hpath, htree, hnd⟩ := holds_plug.1 h
  obtain ⟨hrot, hin, hfar⟩ := treeHolds_join.1 htree
  obtain ⟨hsub, ha, hc⟩ := treeHolds_join.1 hin
  obtain ⟨htop, hx, hy⟩ := treeHolds_join.1 hc
  obtain ⟨hntree, hnpath, hdisj⟩ := nodup_plug hnd
  obtain ⟨hnin, hnfar, hrotin, hrotfar, hinfar⟩ := nodup_join.1 hntree
  obtain ⟨hna, hnc, hsuba, hsubc, hac⟩ := nodup_join.1 hnin
  obtain ⟨hnx, hny, htopx, htopy, hxy⟩ := nodup_join.1 hnc
  simp only [mem_ids_join, not_or] at hrotin hdisj hinfar hsubc hac
  rw [BinTree.root?_join] at hpath hrot hsub
  -- the balances
  obtain ⟨s1, e1, c1⟩ := setBalance_changed hsub (innerBalance d tb)
  have hrot1 : s1.nodes rot = some (nodeOf d re rb (some sub) far.root? (parentOf fs)) := by
    rw [c1.other (by grind), hrot]
  obtain ⟨s2, e2, c2⟩ := setBalance_changed hrot1 (outerBalance d tb)
  have htop2 : s2.nodes top = some (nodeOf d te tb x.root? y.root? (some sub)) := by
    rw [c2.other (by grind), c1.other (by grind), htop]
  obtain ⟨s3, e3, c3⟩ := setBalance_changed htop2 0
  rw [setBalance_nodeOf] at c1 c2 c3
  have hrot3 : s3.nodes rot =
      some (nodeOf d re (outerBalance d tb) (some sub) far.root? (parentOf fs)) := by
    rw [c3.other (by grind), c2.at_eq]
  -- the pointers of the three nodes
  have hsub3 : s3.nodes sub =
      some (nodeOf d se (innerBalance d tb) a.root? (some top) (some rot)) := by
    rw [c3.other (by grind), c2.other (by grind), c1.at_eq]
  obtain ⟨s4, e4, c4⟩ := upd_changed hsub3 fun n => { n with parent := some top }
  obtain ⟨s5, e5, c5⟩ := upd_changed c4.at_eq fun n => n.setChild d.opp x.root?
  have htop5 : s5.nodes top = some (nodeOf d te 0 x.root? y.root? (some sub)) := by
    rw [c5.other (by grind), c4.other (by grind), c3.at_eq]
  obtain ⟨s6, e6, c6⟩ := upd_changed htop5 fun n => n.setChild d (some sub)
  have hrot6 : s6.nodes rot =
      some (nodeOf d re (outerBalance d tb) (some sub) far.root? (parentOf fs)) := by
    rw [c6.other (by grind), c5.other (by grind), c4.other (by grind), hrot3]
  obtain ⟨s7, e7, c7⟩ := upd_changed hrot6 fun n => n.setChild d y.root?
  have htop7 : s7.nodes top = some (nodeOf d te 0 (some sub) y.root? (some sub)) := by
    rw [c7.other (by grind), c6.at_eq, setChild_nodeOf]
  obtain ⟨s8, e8, c8⟩ := upd_changed htop7 fun n => { n with parent := parentOf fs }
  have hkeep8 : ∀ q, q ≠ rot → q ≠ sub → q ≠ top → s8.nodes q = s.nodes q := fun q h1 h2 h3 => by
    rw [c8.other h3, c7.other h1, c6.other h3, c5.other h2, c4.other h2, c3.other h3, c2.other h1,
      c1.other h2]
  -- the subtrees that move, and the place of the whole
  have hx8 : TreeHolds s8 (some top) x :=
    hx.congr fun q hq => hkeep8 q (by grind) (by grind) (by grind)
  obtain ⟨s9, e9, hx9, k9, r9⟩ := setParent_treeHolds hx8 hnx (some sub)
  have hy9 : TreeHolds s9 (some top) y := hy.congr fun q hq => by
    rw [k9.other q (by grind), hkeep8 q (by grind) (by grind) (by grind)]
  obtain ⟨s10, e10, hy10, k10, r10⟩ := setParent_treeHolds hy9 hny (some rot)
  have hpath10 : PathHolds s10 fs (some rot) := hpath.congr (fun q hq => by
    rw [k10.other q (by grind), k9.other q (by grind), hkeep8 q (by grind) (by grind) (by grind)])
    (by rw [r10, r9, c8.root_eq, c7.root_eq, c6.root_eq, c5.root_eq, c4.root_eq, c3.root_eq,
      c2.root_eq, c1.root_eq])
  obtain ⟨s11, e11, hpath11, k11⟩ :=
    replaceChild_pathHolds hpath10 hnpath (by grind) (some top)
  have hrot11 : s11.nodes rot =
      some (nodeOf d re (outerBalance d tb) y.root? far.root? (parentOf fs)) := by
    rw [k11.other rot (by grind), k10.other rot (by grind), k9.other rot (by grind),
      c8.other (by grind), c7.at_eq, setChild_nodeOf]
  obtain ⟨s12, e12, c12⟩ := upd_changed hrot11 fun n => { n with parent := some top }
  have htop12 : s12.nodes top = some (nodeOf d te 0 (some sub) y.root? (parentOf fs)) := by
    rw [c12.other (by grind), k11.other top (by grind), k10.other top htopy, k9.other top htopx,
      c8.at_eq, setParent_nodeOf]
  obtain ⟨s13, e13, c13⟩ := upd_changed htop12 fun n => n.setChild d.opp (some rot)
  have hkeep13 : ∀ q, q ≠ rot → q ≠ top → s13.nodes q = s11.nodes q := fun q h1 h2 => by
    rw [c13.other h2, c12.other h1]
  have hkeep : ∀ q, q ≠ rot → q ≠ sub → q ≠ top → q ∉ ids x → q ∉ ids y → q ∉ pathIds fs →
      s13.nodes q = s.nodes q := fun q h1 h2 h3 h4 h5 h6 => by
    rw [hkeep13 q h1 h3, k11.other q h6, k10.other q h5, k9.other q h4, hkeep8 q h1 h2 h3]
  refine ⟨s13, ?_, holds_plug.2 ⟨?_, treeHolds_join.2 ⟨?_, treeHolds_join.2 ⟨?_, ?_, ?_⟩,
    treeHolds_join.2 ⟨?_, ?_, ?_⟩⟩, ?_⟩, ⟨fun q hq => ?_, ?_, ?_⟩⟩
  · unfold innerBalance at e1
    unfold outerBalance at e2
    simp only [rotateDouble, hsub, htop, hrot3, Option.bind_eq_bind, Option.bind_some, parent_nodeOf,
      balance_nodeOf, child_opp_nodeOf, child_nodeOf, c3.at_eq, e1, e2, e3, e4, e5, e6, e7, e8, e9,
      e10, e11, e12, e13]
  · rw [BinTree.root?_join]
    refine hpath11.congr (fun q hq => hkeep13 q (by grind) (by grind)) ?_
    rw [c13.root_eq, c12.root_eq]
  · rw [c13.at_eq, setChild_opp_nodeOf, BinTree.root?_join, BinTree.root?_join]
  · rw [hkeep13 sub (by grind) (by grind), k11.other sub (by grind), k10.other sub (by grind),
      k9.other sub (by grind), c8.other (by grind), c7.other (by grind), c6.other (by grind), c5.at_eq,
      setParent_nodeOf, setChild_opp_nodeOf]
  · exact ha.congr fun q hq => hkeep q (by grind) (by grind) (by grind) (by grind) (by grind) (by grind)
  · exact hx9.congr fun q hq => by
      rw [hkeep13 q (by grind) (by grind), k11.other q (by grind), k10.other q (by grind)]
  · rw [c13.other (by grind), c12.at_eq, setParent_nodeOf]
  · exact hy10.congr fun q hq => by
      rw [hkeep13 q (by grind) (by grind), k11.other q (by grind)]
  · exact hfar.congr fun q hq =>
      hkeep q (by grind) (by grind) (by grind) (by grind) (by grind) (by grind)
  · have heq : ids (plug fs (.join d top te 0 (.join d sub se (innerBalance d tb) a x)
        (.join d rot re (outerBalance d tb) y far))) =
        ids (plug fs (.join d rot re rb (.join d sub se sb a (.join d top te tb x y)) far)) := by
      cases d <;> simp [ids, entries_plug, entries_join]
    rw [heq]
    exact hnd
  · simp only [mem_ids_plug, mem_ids_join, not_or] at hq
    exact hkeep q (by grind) (by grind) (by grind) (by grind) (by grind) (by grind)
  · rw [c13.within.size_eq, c12.within.size_eq, k11.size_eq, k10.size_eq, k9.size_eq,
      c8.within.size_eq, c7.within.size_eq, c6.within.size_eq, c5.within.size_eq, c4.within.size_eq,
      c3.within.size_eq, c2.within.size_eq, c1.within.size_eq]
  · rw [c13.within.nextPtr_eq, c12.within.nextPtr_eq, k11.nextPtr_eq, k10.nextPtr_eq,
      k9.nextPtr_eq, c8.within.nextPtr_eq, c7.within.nextPtr_eq, c6.within.nextPtr_eq,
      c5.within.nextPtr_eq, c4.within.nextPtr_eq, c3.within.nextPtr_eq, c2.within.nextPtr_eq,
      c1.within.nextPtr_eq]

/-- A node is changed, but not its pointers. -/
theorem upd_holds {p : Ptr} {e e' : κ × α} {b b' : Int} {t u : Shape κ α}
    (h : Holds s (plug fs (.join d p e b t u))) {f : Node κ α → Node κ α}
    (hf : ∀ near far parent, f (nodeOf d e b near far parent) = nodeOf d e' b' near far parent) :
    ∃ s', s.upd p f = some s' ∧ Holds s' (plug fs (.join d p e' b' t u)) ∧
      Within s s' (ids (plug fs (.join d p e b t u))) := by
  obtain ⟨hpath, htree, hnd⟩ := holds_plug.1 h
  obtain ⟨hp, ht, hu⟩ := treeHolds_join.1 htree
  obtain ⟨hntree, -, hdisj⟩ := nodup_plug hnd
  obtain ⟨-, -, hpt, hpu, -⟩ := nodup_join.1 hntree
  rw [BinTree.root?_join] at hpath
  obtain ⟨s', hs', hc⟩ := upd_changed hp f
  rw [hf] at hc
  refine ⟨s', hs', holds_plug.2 ⟨?_, treeHolds_join.2 ⟨hc.at_eq, ?_, ?_⟩, ?_⟩, hc.within.mono ?_⟩
  · rw [BinTree.root?_join]
    refine hpath.congr (fun q hq => hc.other ?_) hc.root_eq
    rintro rfl
    exact hdisj q (by simp) hq
  · refine ht.congr fun q hq => hc.other ?_
    rintro rfl
    exact hpt hq
  · refine hu.congr fun q hq => hc.other ?_
    rintro rfl
    exact hpu hq
  · have heq : ids (plug fs (.join d p e' b' t u)) = ids (plug fs (.join d p e b t u)) := by
      cases d <;> simp [ids, entries_plug, entries_join]
    rw [heq]
    exact hnd
  · intro q hq
    rw [List.mem_singleton] at hq
    rw [mem_ids_plug, mem_ids_join]
    exact .inl (.inl hq)

theorem setBalance_holds {p : Ptr} {e : κ × α} {b : Int} {t u : Shape κ α}
    (h : Holds s (plug fs (.join d p e b t u))) (b' : Int) :
    ∃ s', s.setBalance p b' = some s' ∧ Holds s' (plug fs (.join d p e b' t u)) ∧
      Within s s' (ids (plug fs (.join d p e b t u))) :=
  upd_holds h fun near far parent => setBalance_nodeOf d e b b' near far parent

theorem setValue_holds {p : Ptr} {e : κ × α} {b : Int} {t u : Shape κ α}
    (h : Holds s (plug fs (.join d p e b t u))) (value : α) :
    ∃ s', (s.upd p fun n => { n with value := value }) = some s' ∧
      Holds s' (plug fs (.join d p (e.1, value) b t u)) ∧
      Within s s' (ids (plug fs (.join d p e b t u))) :=
  upd_holds h fun near far parent => setValue_nodeOf d e b near far parent value

theorem node_of_holds {p : Ptr} {e : κ × α} {b : Int} {t u : Shape κ α}
    (h : Holds s (plug fs (.join d p e b t u))) :
    s.nodes p = some (nodeOf d e b t.root? u.root? (parentOf fs)) :=
  (treeHolds_join.1 (holds_plug.1 h).2.1).1

/-- The node below the one in the hole. -/
theorem subNode_of_holds {fs : Path κ α} {d d' : Dir} {p q : Ptr} {e e' : κ × α} {b b' : Int}
    {t u v : Shape κ α} (h : Holds s (plug fs (.join d p e b (.join d' q e' b' t u) v))) :
    s.nodes q = some (nodeOf d' e' b' t.root? u.root? (some p)) := by
  have hplug : Holds s (plug (⟨d, p, e, b, v⟩ :: fs) (.join d' q e' b' t u)) := h
  exact node_of_holds hplug

theorem Within.of_entries {t u : Shape κ α} {s'' : QTree κ α} (h : Within s s' (ids t))
    (h' : Within s' s'' (ids u)) (heq : t.entries = u.entries) : Within s s'' (ids t) :=
  h.trans (by rw [ids, heq]; exact h')

/-! ## Repair after an insertion -/

theorem rotateInsert_single
    (h : Holds s (plug fs (.join d rot re rb (.join d sub se d.sign a c) far))) :
    ∃ s', s.rotateInsert d rot sub = some s' ∧
      Holds s' (plug fs (.join d sub se 0 a (.join d rot re 0 c far))) ∧
      Within s s' (ids (plug fs (.join d rot re rb (.join d sub se d.sign a c) far))) := by
  have hsub := subNode_of_holds h
  obtain ⟨s1, e1, h1, k1⟩ := setBalance_holds h 0
  have h1' : Holds s1 (plug (⟨d, rot, re, 0, far⟩ :: fs) (.join d sub se d.sign a c)) := h1
  obtain ⟨s2, e2, h2, k2⟩ := setBalance_holds h1' 0
  obtain ⟨s3, e3, h3, k3⟩ := rotate_holds h2
  refine ⟨s3, ?_, h3, ?_⟩
  · rw [rotateInsert, hsub]
    simp only [Option.bind_eq_bind, Option.bind_some, balance_nodeOf, if_true, e1, e2, e3]
  · refine k1.of_entries (k2.of_entries k3 ?_) ?_ <;>
      cases d <;> simp [plug, Frame.plug, entries_plug, entries_join]

theorem rotateInsert_double
    (h : Holds s (plug fs (.join d rot re rb (.join d sub se (-d.sign) a (.join d top te tb x y))
      far))) :
    ∃ s', s.rotateInsert d rot sub = some s' ∧
      Holds s' (plug fs (.join d top te 0 (.join d sub se (innerBalance d tb) a x)
        (.join d rot re (outerBalance d tb) y far))) ∧
      Within s s' (ids (plug fs (.join d rot re rb (.join d sub se (-d.sign) a
        (.join d top te tb x y)) far))) := by
  have hsub := subNode_of_holds h
  obtain ⟨s1, e1, h1⟩ := rotateDouble_holds h
  have hne : -d.sign ≠ d.sign := by cases d <;> simp [Dir.sign]
  refine ⟨s1, ?_, h1⟩
  rw [rotateInsert, hsub]
  simp only [Option.bind_eq_bind, Option.bind_some, balance_nodeOf, if_neg hne, e1]

end Rotations

/-- What `rebalance_insert` adds to a balance. -/
theorem leaning_eq {f : Frame Ptr (κ × α)} {sub : Ptr} {parent : Option Ptr} (hsub : sub ∉ ids f.sib) :
    (if (nodeOf f.dir f.entry f.balance (some sub) f.sib.root? parent).less = some sub then
      f.balance - 1 else f.balance + 1) = f.balance + f.dir.sign := by
  obtain ⟨d, p, e, b, sib⟩ := f
  cases d with
  | less =>
    simp only [nodeOf, Dir.sign, if_true]
    rfl
  | greater =>
    have hne : sib.root? ≠ some sub := fun heq => hsub (root?_mem heq)
    simp [nodeOf, Dir.sign, hne]

/-- One turn of `rebalance_insert`: the new balance, and what follows from the old one. -/
theorem rebalanceInsert_succ {f : Frame Ptr (κ × α)} {fs : Path κ α} {t : Shape κ α} {sub : Ptr}
    (hsub : t.root? = some sub) (hs : Holds s (plug (f :: fs) t)) (turns : Nat) :
    ∃ s1, Holds s1 (plug fs (.join f.dir f.p f.entry (f.balance + f.dir.sign) t f.sib)) ∧
      Within s s1 (ids (plug (f :: fs) t)) ∧
      (f.balance = -f.dir.sign → s.rebalanceInsert (turns + 1) sub f.p = some s1) ∧
      (f.balance = 0 → s.rebalanceInsert (turns + 1) sub f.p =
        match parentOf fs with
        | none => some s1
        | some parent => rebalanceInsert turns s1 f.p parent) ∧
      (f.balance = f.dir.sign →
        s.rebalanceInsert (turns + 1) sub f.p = s1.rotateInsert f.dir f.p sub) := by
  have hplug : Holds s (plug fs (f.plug t)) := hs
  have hnode := node_of_holds hplug
  have hnot : sub ∉ ids f.sib := by
    have hnd := (nodup_plug hplug.nodup).1
    exact (nodup_join.1 hnd).2.2.2.2 sub (root?_mem hsub)
  obtain ⟨s1, e1, h1, k1⟩ := setBalance_holds hplug (f.balance + f.dir.sign)
  rw [hsub] at hnode
  have hrun : s.rebalanceInsert (turns + 1) sub f.p =
      if f.balance + f.dir.sign = 0 then some s1
      else if f.balance + f.dir.sign = -2 then s1.rotateInsert .less f.p sub
      else if f.balance + f.dir.sign = 2 then s1.rotateInsert .greater f.p sub
      else match parentOf fs with
        | none => some s1
        | some parent => rebalanceInsert turns s1 f.p parent := by
    rw [rebalanceInsert, hnode]
    cases parentOf fs with
    | none =>
      simp only [Option.bind_eq_bind, Option.bind_some, balance_nodeOf, leaning_eq hnot, e1,
        parent_nodeOf, Option.pure_def]
    | some parent =>
      simp only [Option.bind_eq_bind, Option.bind_some, balance_nodeOf, leaning_eq hnot, e1,
        parent_nodeOf, Option.pure_def]
  refine ⟨s1, h1, k1, fun hb => ?_, fun hb => ?_, fun hb => ?_⟩
  · rw [hrun, hb, neg_add_cancel, if_pos rfl]
  · rw [hrun, hb]
    cases f.dir <;> rfl
  · rw [hrun, hb]
    cases f.dir <;> rfl

/-- **`rebalance_insert` walks up as `GrowUp` says.** -/
theorem rebalanceInsert_holds {fs : Path κ α} {t r : Shape κ α} (h : GrowUp fs t r)
    {f : Frame Ptr (κ × α)} {fs' : Path κ α} (hfs : fs = f :: fs') {sub : Ptr}
    (hsub : t.root? = some sub) {turns : Nat} (hturns : fs.length ≤ turns)
    (hs : Holds s (plug fs t)) :
    ∃ s', s.rebalanceInsert turns sub f.p = some s' ∧ Holds s' r ∧ Within s s' (ids (plug fs t)) := by
  induction h generalizing s f fs' sub turns with
  | top => cases hfs
  | @stop g gs t t' hg =>
    obtain ⟨rfl, rfl⟩ := List.cons.inj hfs
    obtain ⟨turns, rfl⟩ : ∃ k, turns = k + 1 := ⟨turns - 1, by simp at hturns; omega⟩
    obtain ⟨s1, h1, k1, heven, -, hturn⟩ := rebalanceInsert_succ hsub hs turns
    cases hg with
    | even hb =>
      rw [hb, neg_add_cancel] at h1
      exact ⟨s1, heven hb, h1, k1⟩
    | single hb =>
      obtain rfl := Option.some.inj ((BinTree.root?_join ..).symm.trans hsub)
      obtain ⟨s2, e2, h2, k2⟩ := rotateInsert_single h1
      refine ⟨s2, (hturn hb).trans e2, h2, k1.of_entries k2 ?_⟩
      simp [plug, Frame.plug, entries_plug, entries_join]
    | double hb =>
      obtain rfl := Option.some.inj ((BinTree.root?_join ..).symm.trans hsub)
      obtain ⟨s2, e2, h2, k2⟩ := rotateInsert_double h1
      refine ⟨s2, (hturn hb).trans e2, h2, k1.of_entries k2 ?_⟩
      simp [plug, Frame.plug, entries_plug, entries_join]
  | @up g gs t t' r hg hup ih =>
    obtain ⟨rfl, rfl⟩ := List.cons.inj hfs
    obtain ⟨turns, rfl⟩ : ∃ k, turns = k + 1 := ⟨turns - 1, by simp at hturns; omega⟩
    obtain ⟨s1, h1, k1, -, hlean, -⟩ := rebalanceInsert_succ hsub hs turns
    cases hg with
    | lean hb =>
      rw [hb, zero_add] at h1
      rw [hlean hb]
      cases gs with
      | nil =>
        cases hup
        exact ⟨s1, rfl, h1, k1⟩
      | cons g' gs' =>
        obtain ⟨s2, e2, h2, k2⟩ := ih rfl (BinTree.root?_join ..) (by simpa using hturns) h1
        refine ⟨s2, e2, h2, k1.of_entries k2 ?_⟩
        simp [plug, Frame.plug, entries_plug, entries_join]

/-! ## Repair after a removal -/

section Rotations

variable {d : Dir} {fs : Path κ α} {rot sub top : Ptr} {re se te : κ × α} {rb tb : Int}
  {a c far x y : Shape κ α}

theorem rotateRemove_level
    (h : Holds s (plug fs (.join d rot re rb (.join d sub se 0 a c) far))) :
    ∃ s', s.rotateRemove d rot = some (s', false) ∧
      Holds s' (plug fs (.join d sub se (-d.sign) a (.join d rot re d.sign c far))) ∧
      Within s s' (ids (plug fs (.join d rot re rb (.join d sub se 0 a c) far))) := by
  have hrot := node_of_holds h
  have hsub := subNode_of_holds h
  rw [BinTree.root?_join] at hrot
  obtain ⟨s1, e1, h1, k1⟩ := rotate_holds h
  have hjoin : plug fs (.join d sub se 0 a (.join d rot re rb c far)) =
      plug (⟨d.opp, sub, se, 0, a⟩ :: fs) (.join d rot re rb c far) := by
    rw [plug, Frame.plug, BinTree.join_opp]
  rw [hjoin] at h1
  obtain ⟨s2, e2, h2, k2⟩ := setBalance_holds h1 d.sign
  rw [plug, Frame.plug, BinTree.join_opp] at h2
  obtain ⟨s3, e3, h3, k3⟩ := setBalance_holds h2 (-d.sign)
  refine ⟨s3, ?_, h3, ?_⟩
  · rw [rotateRemove, hrot]
    simp [hsub, e1, e2, e3]
  · refine k1.of_entries (k2.of_entries k3 ?_) ?_ <;>
      cases d <;> simp [plug, Frame.plug, entries_plug, entries_join, Dir.opp]

theorem rotateRemove_single
    (h : Holds s (plug fs (.join d rot re rb (.join d sub se d.sign a c) far))) :
    ∃ s', s.rotateRemove d rot = some (s', true) ∧
      Holds s' (plug fs (.join d sub se 0 a (.join d rot re 0 c far))) ∧
      Within s s' (ids (plug fs (.join d rot re rb (.join d sub se d.sign a c) far))) := by
  have hrot := node_of_holds h
  have hsub := subNode_of_holds h
  rw [BinTree.root?_join] at hrot
  obtain ⟨s1, e1, h1, k1⟩ := rotate_holds h
  have hjoin : plug fs (.join d sub se d.sign a (.join d rot re rb c far)) =
      plug (⟨d.opp, sub, se, d.sign, a⟩ :: fs) (.join d rot re rb c far) := by
    rw [plug, Frame.plug, BinTree.join_opp]
  rw [hjoin] at h1
  obtain ⟨s2, e2, h2, k2⟩ := setBalance_holds h1 0
  rw [plug, Frame.plug, BinTree.join_opp] at h2
  obtain ⟨s3, e3, h3, k3⟩ := setBalance_holds h2 0
  have hle : 0 ≤ d.sign * d.sign := by cases d <;> decide
  have hne : d.sign ≠ 0 := by cases d <;> decide
  refine ⟨s3, ?_, h3, ?_⟩
  · rw [rotateRemove, hrot]
    simp [hsub, e1, e2, e3, hle, hne]
  · refine k1.of_entries (k2.of_entries k3 ?_) ?_ <;>
      cases d <;> simp [plug, Frame.plug, entries_plug, entries_join, Dir.opp]

theorem rotateRemove_double
    (h : Holds s (plug fs (.join d rot re rb (.join d sub se (-d.sign) a (.join d top te tb x y))
      far))) :
    ∃ s', s.rotateRemove d rot = some (s', true) ∧
      Holds s' (plug fs (.join d top te 0 (.join d sub se (innerBalance d tb) a x)
        (.join d rot re (outerBalance d tb) y far))) ∧
      Within s s' (ids (plug fs (.join d rot re rb (.join d sub se (-d.sign) a
        (.join d top te tb x y)) far))) := by
  have hrot := node_of_holds h
  have hsub := subNode_of_holds h
  rw [BinTree.root?_join] at hrot
  obtain ⟨s1, e1, h1⟩ := rotateDouble_holds h
  have hlt : ¬0 ≤ d.sign * -d.sign := by cases d <;> decide
  refine ⟨s1, ?_, h1⟩
  rw [rotateRemove, hrot]
  simp only [Option.bind_eq_bind, Option.bind_some, child_nodeOf, hsub, balance_nodeOf, if_neg hlt,
    e1, Option.pure_def]

end Rotations

/-- The direction in which the parent of `f` has it. -/
def nextDir (f : Frame Ptr (κ × α)) : Path κ α → Dir
  | [] => f.dir
  | g :: _ => g.dir

theorem rebalanceRemove_none (turns : Nat) (s : QTree κ α) (dir : Dir) :
    s.rebalanceRemove turns dir none = some s := by
  cases turns <;> rfl

/-- The rotation of a turn of `rebalance_remove`, and how the walk goes on. -/
def rotateStep (turns : Nat) (s : QTree κ α) (d dir : Dir) (rot : Ptr) : Option (QTree κ α) := do
  let (s, more) ← s.rotateRemove d rot
  if more then
    let top ← (← s.nodes rot).parent
    rebalanceRemove turns s dir (← s.nodes top).parent
  else
    return s

/-- One turn of `rebalance_remove`. -/
theorem rebalanceRemove_succ {f : Frame Ptr (κ × α)} {fs : Path κ α} {t : Shape κ α}
    (hs : Holds s (plug (f :: fs) t)) (turns : Nat) :
    ∃ s1, Holds s1 (plug fs (.join f.dir f.p f.entry (f.balance - f.dir.sign) t f.sib)) ∧
      Within s s1 (ids (plug (f :: fs) t)) ∧
      (f.balance = 0 → s.rebalanceRemove (turns + 1) f.dir (some f.p) = some s1) ∧
      (f.balance = f.dir.sign → s.rebalanceRemove (turns + 1) f.dir (some f.p) =
        s1.rebalanceRemove turns (nextDir f fs) (parentOf fs)) ∧
      (f.balance = -f.dir.sign → s.rebalanceRemove (turns + 1) f.dir (some f.p) =
        s1.rotateStep turns f.dir.opp (nextDir f fs) f.p) := by
  have hplug : Holds s (plug fs (f.plug t)) := hs
  have hnode := node_of_holds hplug
  obtain ⟨s1, e1, h1, k1⟩ := setBalance_holds hplug (f.balance - f.dir.sign)
  have hdir : (match parentOf fs with
      | none => some f.dir
      | some parent => s1.side parent f.p) = some (nextDir f fs) := by
    cases fs with
    | nil => rfl
    | cons g gs =>
      obtain ⟨hpath, -, hnd⟩ := holds_plug.1 h1
      rw [BinTree.root?_join] at hpath
      refine side_eq hpath fun hmem => (nodup_plug hnd).2.2 f.p (by simp) ?_
      simp [hmem]
  have hrun : s.rebalanceRemove (turns + 1) f.dir (some f.p) =
      if f.balance - f.dir.sign = -f.dir.sign then some s1
      else if f.balance - f.dir.sign = -2 ∨ f.balance - f.dir.sign = 2 then
        s1.rotateStep turns (if f.balance - f.dir.sign = -2 then .less else .greater) (nextDir f fs) f.p
      else s1.rebalanceRemove turns (nextDir f fs) (parentOf fs) := by
    rw [rebalanceRemove, hnode]
    simp only [Option.bind_eq_bind, Option.bind_some, balance_nodeOf, parent_nodeOf, e1]
    cases fs with
    | nil => rfl
    | cons g gs =>
      simp only [parentOf_cons] at hdir ⊢
      rw [hdir]
      rfl
  refine ⟨s1, h1, k1, fun hb => ?_, fun hb => ?_, fun hb => ?_⟩
  · rw [hrun, hb, zero_sub, if_pos rfl]
  · rw [hrun, hb]
    cases f.dir <;> rfl
  · rw [hrun, hb]
    cases f.dir <;> rfl

/-- After a rotation that made the subtree lower, the walk goes on at the parent of the subtree. -/
theorem rotateStep_more {d dir : Dir} {fs : Path κ α} {rot top : Ptr} {te re : κ × α} {tb rb : Int}
    {a c far : Shape κ α} (hr : s.rotateRemove d rot = some (s', true))
    (h : Holds s' (plug fs (.join d top te tb a (.join d rot re rb c far)))) (turns : Nat) :
    s.rotateStep turns d dir rot = s'.rebalanceRemove turns dir (parentOf fs) := by
  have htop := node_of_holds h
  have hrot : s'.nodes rot = some (nodeOf d re rb c.root? far.root? (some top)) := by
    have hplug : Holds s' (plug (⟨d.opp, top, te, tb, a⟩ :: fs) (.join d rot re rb c far)) := by
      rw [plug, Frame.plug, BinTree.join_opp]
      exact h
    exact node_of_holds hplug
  rw [rotateStep, hr]
  simp only [Option.bind_eq_bind, Option.bind_some, if_true, hrot, parent_nodeOf, htop]

/-- **`rebalance_remove` walks up as `ShrinkUp` says.** -/
theorem rebalanceRemove_holds {fs : Path κ α} {t r : Shape κ α} (h : ShrinkUp fs t r) {dir : Dir}
    (hdir : ∀ f fs', fs = f :: fs' → dir = f.dir) {turns : Nat} (hturns : fs.length ≤ turns)
    (hs : Holds s (plug fs t)) :
    ∃ s', s.rebalanceRemove turns dir (parentOf fs) = some s' ∧ Holds s' r ∧
      Within s s' (ids (plug fs t)) := by
  have hnext : ∀ (f : Frame Ptr (κ × α)) (fs : Path κ α) (g : Frame Ptr (κ × α)) (gs : Path κ α),
      fs = g :: gs → nextDir f fs = g.dir := by
    rintro f _ g gs rfl
    rfl
  induction h generalizing s dir turns with
  | top => exact ⟨s, rebalanceRemove_none _ _ _, hs, Within.refl _ _⟩
  | @stop g gs t t' hg =>
    obtain rfl := hdir g gs rfl
    obtain ⟨turns, rfl⟩ : ∃ k, turns = k + 1 := ⟨turns - 1, by simp at hturns; omega⟩
    obtain ⟨s1, h1, k1, hstop, -, hturn⟩ := rebalanceRemove_succ hs turns
    rw [parentOf_cons]
    cases hg with
    | lean hb =>
      rw [hb, zero_sub] at h1
      exact ⟨s1, hstop hb, h1, k1⟩
    | level hb hsib =>
      rw [hsib, ← BinTree.join_opp] at h1
      obtain ⟨s2, e2, h2, k2⟩ := rotateRemove_level h1
      rw [Dir.sign_opp, neg_neg] at h2
      refine ⟨s2, (hturn hb).trans ?_, h2, k1.of_entries k2 ?_⟩
      · rw [rotateStep, e2]
        rfl
      · simp [plug, Frame.plug, hsib, BinTree.join_opp, entries_plug, entries_join]
  | @up g gs t t' r hg hup ih =>
    obtain rfl := hdir g gs rfl
    obtain ⟨turns, rfl⟩ : ∃ k, turns = k + 1 := ⟨turns - 1, by simp at hturns; omega⟩
    obtain ⟨s1, h1, k1, -, heven, hturn⟩ := rebalanceRemove_succ hs turns
    rw [parentOf_cons]
    have hle : gs.length ≤ turns := by simpa using hturns
    cases hg with
    | even hb =>
      rw [hb, sub_self] at h1
      obtain ⟨s2, e2, h2, k2⟩ := ih (hnext g gs) hle h1
      refine ⟨s2, (heven hb).trans e2, h2, k1.of_entries k2 ?_⟩
      simp [plug, Frame.plug, entries_plug, entries_join]
    | single hb hsib =>
      rw [hsib, ← BinTree.join_opp, ← Dir.sign_opp] at h1
      obtain ⟨s2, e2, h2, k2⟩ := rotateRemove_single h1
      obtain ⟨s3, e3, h3, k3⟩ := ih (hnext g gs) hle h2
      refine ⟨s3, ((hturn hb).trans (rotateStep_more e2 h2 turns)).trans e3, h3,
        k1.of_entries (k2.of_entries k3 ?_) ?_⟩
      · cases g.dir <;> simp [entries_plug, entries_join, Dir.opp]
      · simp [plug, Frame.plug, hsib, BinTree.join_opp, entries_plug, entries_join]
    | double hb hsib =>
      have hneg : -g.dir.opp.sign = g.dir.sign := by rw [Dir.sign_opp, neg_neg]
      rw [hsib, ← BinTree.join_opp, ← hneg] at h1
      obtain ⟨s2, e2, h2, k2⟩ := rotateRemove_double h1
      obtain ⟨s3, e3, h3, k3⟩ := ih (hnext g gs) hle h2
      refine ⟨s3, ((hturn hb).trans (rotateStep_more e2 h2 turns)).trans e3, h3,
        k1.of_entries (k2.of_entries k3 ?_) ?_⟩
      · cases g.dir <;> simp [entries_plug, entries_join, Dir.opp]
      · simp [plug, Frame.plug, hsib, BinTree.join_opp, entries_plug, entries_join]

end DrbdUtils.DrbdMon.QTree
