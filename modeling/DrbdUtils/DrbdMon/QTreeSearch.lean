import DrbdUtils.DrbdMon.QTreeShape

/-!
# Searching a tree

What the loops of `QTree` find in nodes that spell a tree: each goes the way that `descend` goes, in as
many turns as the tree is high.

* `findFrom_eq`, `placeFrom_eq`, `findNearFrom_eq` — the searches for a key.
* `outermost_eq`, `climb_eq` — the ways to the next node.
-/

set_option autoImplicit false

namespace DrbdUtils.DrbdMon.QTree

open Lib.AvlTree

variable {κ α : Type} {s : QTree κ α}

/-- The nodes of an inner tree. -/
theorem node_of_holds' {fs : Path κ α} {p : Ptr} {l r : Shape κ α} {e : κ × α} {b : Int}
    (h : Holds s (plug fs (.node p l e b r))) :
    s.nodes p = some ⟨e.1, e.2, l.root?, r.root?, parentOf fs, b⟩ :=
  node_of_holds (d := .less) h

theorem root?_eq_none {t : Shape κ α} : t.root? = none ↔ t = .nil := by
  cases t <;> simp [BinTree.root?]

/-- The outermost node in direction `d`. -/
theorem outermost_eq {d : Dir} {fs : Path κ α} {t : Shape κ α} (h : Holds s (plug fs t)) {p : Ptr}
    (hp : t.root? = some p) {turns : Nat} (ht : t.height ≤ turns) :
    s.outermost d turns p = (descend (fun _ => some d) fs t).1.head?.map Frame.p := by
  induction t generalizing fs p turns with
  | nil => cases hp
  | node q l e b r ihl ihr =>
    obtain rfl : q = p := Option.some.inj hp
    obtain ⟨turns, rfl⟩ : ∃ k, turns = k + 1 := ⟨turns - 1, by simp [BinTree.height] at ht; omega⟩
    simp only [BinTree.height] at ht
    rw [outermost, node_of_holds' h]
    cases d with
    | less =>
      simp only [Option.bind_eq_bind, Option.bind_some, Node.child, descend]
      cases hl : l.root? with
      | none =>
        obtain rfl := root?_eq_none.1 hl
        rfl
      | some q' => exact ihl h hl (by omega)
    | greater =>
      simp only [Option.bind_eq_bind, Option.bind_some, Node.child, descend]
      cases hr : r.root? with
      | none =>
        obtain rfl := root?_eq_none.1 hr
        rfl
      | some q' => exact ihr h hr (by omega)

/-- The way up from a node. -/
theorem climb_eq {d : Dir} {fs : Path κ α} {t : Shape κ α} (h : Holds s (plug fs t)) {p : Ptr}
    (hp : t.root? = some p) {turns : Nat} (ht : fs.length < turns) :
    s.climb d.opp turns p = some ((nextUp d fs).map Prod.fst) := by
  induction fs generalizing t p turns with
  | nil =>
    obtain ⟨turns, rfl⟩ : ∃ k, turns = k + 1 := ⟨turns - 1, by simp at ht; omega⟩
    cases t with
    | nil => cases hp
    | node q l e b r =>
      obtain rfl : q = p := Option.some.inj hp
      rw [climb, node_of_holds' h]
      rfl
  | cons f fs ih =>
    obtain ⟨turns, rfl⟩ : ∃ k, turns = k + 1 := ⟨turns - 1, by simp at ht; omega⟩
    have hnode : ∃ n, s.nodes p = some n ∧ n.parent = some f.p := by
      cases t with
      | nil => cases hp
      | node q l e b r =>
        obtain rfl : q = p := Option.some.inj hp
        exact ⟨_, node_of_holds' h, rfl⟩
    obtain ⟨n, hn, hparent⟩ := hnode
    have hplug : Holds s (plug fs (f.plug t)) := h
    have hf := node_of_holds hplug
    have hnot : p ∉ ids f.sib := by
      have hnd := (nodup_plug hplug.nodup).1
      exact (nodup_join.1 hnd).2.2.2.2 p (root?_mem hp)
    rw [climb, hn]
    simp only [Option.bind_eq_bind, Option.bind_some, hparent, hf]
    by_cases hd : f.dir = d
    · have hne : f.sib.root? ≠ some p := fun heq => hnot (root?_mem heq)
      subst hd
      rw [child_opp_nodeOf, if_neg hne]
      simp [nextUp]
    · have hd' : f.dir = d.opp := Dir.eq_opp_of_ne hd
      rw [← hd', child_nodeOf, if_pos hp, hd']
      rw [ih (t := f.plug t) h (root?_plug f t) (by simpa using ht)]
      simp [nextUp, hd]

section Compare

variable [LinearOrder κ] (cmp : CompareFunc κ)

/-- The direction of a key, seen from an entry. -/
def towards (key : κ) (e : κ × α) : Option Dir :=
  if key < e.1 then some .less else if e.1 < key then some .greater else none

theorem findFrom_eq {key : κ} {fs : Path κ α} {t : Shape κ α} (h : Holds s (plug fs t)) {turns : Nat}
    (ht : t.height ≤ turns) :
    s.findFrom cmp key turns t.root? = some (descend (towards key) fs t).2.root? := by
  induction t generalizing fs turns with
  | nil => cases turns <;> rfl
  | node p l e b r ihl ihr =>
    obtain ⟨turns, rfl⟩ : ∃ k, turns = k + 1 := ⟨turns - 1, by simp [BinTree.height] at ht; omega⟩
    simp only [BinTree.height] at ht
    rw [BinTree.root?, findFrom, node_of_holds' h]
    simp only [Option.bind_eq_bind, Option.bind_some, cmp.lt_iff, cmp.gt_iff, descend, towards]
    split
    · exact ihl h (by omega)
    · split
      · exact ihr h (by omega)
      · rfl

/-- The end of a search as a place. -/
def placeAt (w : Path κ α × Shape κ α) : Place :=
  match w.2.root? with
  | some p => .found p
  | none => .at (w.1.head?.map fun f => (f.p, f.dir))

theorem placeFrom_eq {key : κ} {fs : Path κ α} {t : Shape κ α} (h : Holds s (plug fs t)) {p : Ptr}
    (hp : t.root? = some p) {turns : Nat} (ht : t.height ≤ turns) :
    s.placeFrom cmp key turns p = some (placeAt (descend (towards key) fs t)) := by
  induction t generalizing fs p turns with
  | nil => cases hp
  | node q l e b r ihl ihr =>
    obtain rfl : q = p := Option.some.inj hp
    obtain ⟨turns, rfl⟩ : ∃ k, turns = k + 1 := ⟨turns - 1, by simp [BinTree.height] at ht; omega⟩
    simp only [BinTree.height] at ht
    rw [placeFrom, node_of_holds' h]
    simp only [Option.bind_eq_bind, Option.bind_some, cmp.lt_iff, cmp.gt_iff, descend, towards]
    split
    · cases hl : l.root? with
      | none =>
        obtain rfl := root?_eq_none.1 hl
        rfl
      | some q' => exact ihl h hl (by omega)
    · split
      · cases hr : r.root? with
        | none =>
          obtain rfl := root?_eq_none.1 hr
          rfl
        | some q' => exact ihr h hr (by omega)
      · rfl

/-- The key lies before `e`, in direction `d`. -/
def Beyond (d : Dir) (key : κ) (e : κ × α) : Prop :=
  match d with
  | .less => key < e.1
  | .greater => e.1 < key

instance (d : Dir) (key : κ) (e : κ × α) : Decidable (Beyond d key e) := by
  cases d <;> exact inferInstanceAs (Decidable (_ < _))

/-- Where the search for the next key goes. -/
def nearby (d : Dir) (orEqual : Bool) (key : κ) (e : κ × α) : Option Dir :=
  if Beyond d key e then some d
  else if Beyond d.opp key e ∨ orEqual = false then some d.opp
  else none

/-- The end of a search for the next key. -/
def nearest (d : Dir) (w : Path κ α × Shape κ α) : Option Ptr :=
  match w.2.root? with
  | some p => some p
  | none => (nextUp d w.1).map Prod.fst

theorem findNearFrom_eq {d : Dir} {orEqual : Bool} {key : κ} {fs : Path κ α} {t : Shape κ α}
    (h : Holds s (plug fs t)) {p : Ptr} (hp : t.root? = some p) {turns climbTurns : Nat}
    (ht : t.height ≤ turns) (hc : fs.length + t.height ≤ climbTurns) :
    s.findNearFrom cmp d orEqual climbTurns key turns p =
      some (nearest d (descend (nearby d orEqual key) fs t)) := by
  induction t generalizing fs p turns with
  | nil => cases hp
  | node q l e b r ihl ihr =>
    obtain rfl : q = p := Option.some.inj hp
    obtain ⟨turns, rfl⟩ : ∃ k, turns = k + 1 := ⟨turns - 1, by simp [BinTree.height] at ht; omega⟩
    simp only [BinTree.height] at ht hc
    have hbeyond : ∀ d : Dir, 0 < d.sign * cmp.fn key e.1 ↔ Beyond d key e := by
      intro d
      cases d
      · rw [Beyond, ← cmp.lt_iff, Dir.sign]
        omega
      · rw [Beyond, ← cmp.gt_iff, Dir.sign]
        omega
    have hopp : d.sign * cmp.fn key e.1 < 0 ↔ Beyond d.opp key e := by
      rw [← hbeyond, Dir.sign_opp, neg_mul]
      omega
    rw [findNearFrom, node_of_holds' h]
    simp only [Option.bind_eq_bind, Option.bind_some, hbeyond, hopp, descend, nearby]
    split
    · cases d with
      | less =>
        cases hl : l.root? with
        | none =>
          obtain rfl := root?_eq_none.1 hl
          rfl
        | some q' => exact ihl h hl (by omega) (by simp; omega)
      | greater =>
        cases hr : r.root? with
        | none =>
          obtain rfl := root?_eq_none.1 hr
          rfl
        | some q' => exact ihr h hr (by omega) (by simp; omega)
    · split
      · cases d with
        | less =>
          cases hr : r.root? with
          | none =>
            obtain rfl := root?_eq_none.1 hr
            exact climb_eq (d := .less) h rfl (by omega)
          | some q' => exact ihr h hr (by omega) (by simp; omega)
        | greater =>
          cases hl : l.root? with
          | none =>
            obtain rfl := root?_eq_none.1 hl
            exact climb_eq (d := .greater) h rfl (by omega)
          | some q' => exact ihl h hl (by omega) (by simp; omega)
      · rfl

end Compare

end DrbdUtils.DrbdMon.QTree
