import Mathlib.Data.Nat.Fib.Basic
import Mathlib.Tactic.Ring
import Mathlib.Tactic.Linarith

/-!
# Height-balanced trees, seen along a path

A tree whose nodes have an identity `P`, an entry `ε` and a stored balance.  A `Frame` is a node of
which one child is missing; a list of frames, innermost first, is a tree with a hole.  The repair of a
tree after an insertion or a removal walks up such a list: `GrowUp` and `ShrinkUp` say which tree it
ends in.

* `GrowUp.entries_eq`, `ShrinkUp.entries_eq` — the repair keeps the entries in their order.
* `GrowUp.exists_avl`, `ShrinkUp.exists_avl` — from a balanced tree the repair ends in a balanced tree.
* `Avl.fib_le` — a balanced tree of a given height has at least so many nodes.
-/

set_option autoImplicit false

namespace DrbdUtils.Lib.AvlTree

/-! ## Trees -/

inductive Dir where
  | less
  | greater
  deriving DecidableEq, Repr

namespace Dir

def opp : Dir → Dir
  | less => greater
  | greater => less

def sign : Dir → Int
  | less => -1
  | greater => 1

@[simp] theorem opp_opp (d : Dir) : d.opp.opp = d := by cases d <;> rfl

@[simp] theorem sign_opp (d : Dir) : d.opp.sign = -d.sign := by cases d <;> rfl

@[simp] theorem opp_ne (d : Dir) : d.opp ≠ d := by cases d <;> simp [opp]

@[simp] theorem ne_opp (d : Dir) : d ≠ d.opp := by cases d <;> simp [opp]

/-- Two lists, the one of the near side and the one of the far side, in order. -/
def arrange {ε : Type} (d : Dir) (near far : List ε) : List ε :=
  match d with
  | less => near ++ far
  | greater => far ++ near

/-- A list that is read from the end in direction `d`. -/
def order {ε : Type} (d : Dir) (l : List ε) : List ε :=
  match d with
  | less => l
  | greater => l.reverse

theorem sign_cases (d : Dir) : d.sign = 1 ∨ d.sign = -1 := by cases d <;> simp [sign]

theorem eq_opp_of_ne {d d' : Dir} (h : d' ≠ d) : d' = d.opp := by
  cases d <;> cases d' <;> simp_all [opp]

end Dir

inductive BinTree (P ε : Type) where
  | nil
  | node (p : P) (less : BinTree P ε) (entry : ε) (balance : Int) (greater : BinTree P ε)

variable {P ε : Type}

namespace BinTree

/-- A node whose child in direction `d` is `near`. -/
def join (d : Dir) (p : P) (e : ε) (b : Int) (near far : BinTree P ε) : BinTree P ε :=
  match d with
  | .less => node p near e b far
  | .greater => node p far e b near

def root? : BinTree P ε → Option P
  | nil => none
  | node p _ _ _ _ => some p

/-- The nodes with their entries, in order. -/
def entries : BinTree P ε → List (P × ε)
  | nil => []
  | node p l e _ r => l.entries ++ (p, e) :: r.entries

def height : BinTree P ε → Nat
  | nil => 0
  | node _ l _ _ r => max l.height r.height + 1

def balance : BinTree P ε → Int
  | nil => 0
  | node _ _ _ b _ => b

/-- The stored balance is the difference of the heights, and small. -/
def Avl : BinTree P ε → Prop
  | nil => True
  | node _ l _ b r => l.Avl ∧ r.Avl ∧ b = r.height - l.height ∧ -1 ≤ b ∧ b ≤ 1

@[simp] theorem root?_join (d : Dir) (p : P) (e : ε) (b : Int) (t u : BinTree P ε) :
    (join d p e b t u).root? = some p := by cases d <;> rfl

@[simp] theorem balance_join (d : Dir) (p : P) (e : ε) (b : Int) (t u : BinTree P ε) :
    (join d p e b t u).balance = b := by cases d <;> rfl

@[simp] theorem height_join (d : Dir) (p : P) (e : ε) (b : Int) (t u : BinTree P ε) :
    (join d p e b t u).height = max t.height u.height + 1 := by
  cases d
  · rfl
  · simp [join, height, max_comm]

theorem join_opp (d : Dir) (p : P) (e : ε) (b : Int) (t u : BinTree P ε) :
    join d.opp p e b t u = join d p e b u t := by cases d <;> rfl

theorem avl_join {d : Dir} {p : P} {e : ε} {b : Int} {t u : BinTree P ε} :
    (join d p e b t u).Avl ↔
      t.Avl ∧ u.Avl ∧ b = d.sign * (t.height - u.height) ∧ -1 ≤ b ∧ b ≤ 1 := by
  cases d
  · simp only [join, Avl, Dir.sign]
    refine and_congr_right fun _ => and_congr_right fun _ => and_congr_left fun _ => ?_
    constructor <;> intro h <;> omega
  · simp only [join, Avl, Dir.sign, one_mul]
    tauto

/-- A tree that is not empty, seen from a direction. -/
theorem exists_join_of_height_pos {t : BinTree P ε} (d : Dir) (h : 0 < t.height) :
    ∃ p e b u v, t = join d p e b u v := by
  cases t with
  | nil => simp [height] at h
  | node p l e b r =>
    cases d
    · exact ⟨p, e, b, l, r, rfl⟩
    · exact ⟨p, e, b, r, l, rfl⟩

theorem height_eq_zero {t : BinTree P ε} : t.height = 0 ↔ t = nil := by
  cases t <;> simp [height]

/-- **A balanced tree is not high.** -/
theorem Avl.fib_le {t : BinTree P ε} (h : t.Avl) : (t.height + 2).fib ≤ t.entries.length + 1 := by
  induction t with
  | nil => simp [height, entries]
  | node p l e b r ihl ihr =>
    obtain ⟨hl, hr, hb, hlow, hhigh⟩ := h
    have hl' := ihl hl
    have hr' := ihr hr
    have hlen : (node p l e b r).entries.length = l.entries.length + r.entries.length + 1 := by
      simp [entries]
      omega
    -- the higher child counts with its own height, the other one with at least one less
    rw [height, hlen, Nat.fib_add_two]
    rcases Nat.lt_or_ge l.height r.height with hlt | hge
    · have hle : Nat.fib (r.height + 1) ≤ Nat.fib (l.height + 2) := Nat.fib_mono (by omega)
      rw [max_eq_right hlt.le]
      have : Nat.fib (r.height + 1 + 1) = Nat.fib (r.height + 2) := rfl
      omega
    · have hle : Nat.fib (l.height + 1) ≤ Nat.fib (r.height + 2) := Nat.fib_mono (by omega)
      rw [max_eq_left hge]
      have : Nat.fib (l.height + 1 + 1) = Nat.fib (l.height + 2) := rfl
      omega

end BinTree

open BinTree

/-! ## Paths -/

/-- A node without its child in direction `dir`. -/
structure Frame (P ε : Type) where
  dir : Dir
  p : P
  entry : ε
  balance : Int
  sib : BinTree P ε

namespace Frame

def plug (f : Frame P ε) (t : BinTree P ε) : BinTree P ε := join f.dir f.p f.entry f.balance t f.sib

/-- The entries of a frame before its hole. -/
def before (f : Frame P ε) : List (P × ε) :=
  match f.dir with
  | .less => []
  | .greater => f.sib.entries ++ [(f.p, f.entry)]

/-- The entries of a frame behind its hole. -/
def after (f : Frame P ε) : List (P × ε) :=
  match f.dir with
  | .less => (f.p, f.entry) :: f.sib.entries
  | .greater => []

theorem entries_plug (f : Frame P ε) (t : BinTree P ε) :
    (f.plug t).entries = f.before ++ t.entries ++ f.after := by
  obtain ⟨d, p, e, b, s⟩ := f
  cases d <;> simp [plug, join, entries, before, after]

end Frame

def plug : List (Frame P ε) → BinTree P ε → BinTree P ε
  | [], t => t
  | f :: fs, t => plug fs (f.plug t)

def before : List (Frame P ε) → List (P × ε)
  | [] => []
  | f :: fs => before fs ++ f.before

def after : List (Frame P ε) → List (P × ε)
  | [] => []
  | f :: fs => f.after ++ after fs

theorem entries_plug (fs : List (Frame P ε)) (t : BinTree P ε) :
    (plug fs t).entries = before fs ++ t.entries ++ after fs := by
  induction fs generalizing t with
  | nil => simp [plug, before, after]
  | cons f fs ih =>
    rw [plug, ih, f.entries_plug]
    simp [before, after]

theorem plug_append (fs gs : List (Frame P ε)) (t : BinTree P ε) :
    plug (fs ++ gs) t = plug gs (plug fs t) := by
  induction fs generalizing t with
  | nil => rfl
  | cons f fs ih => exact ih _

theorem length_le_height (fs : List (Frame P ε)) (t : BinTree P ε) :
    fs.length + t.height ≤ (plug fs t).height := by
  induction fs generalizing t with
  | nil => simp [plug]
  | cons f fs ih =>
    have h := ih (f.plug t)
    simp only [Frame.plug, height_join] at h
    simp only [plug, Frame.plug, List.length_cons]
    omega

/-- A tree of height `n` in the hole makes a balanced tree. -/
def AvlPath : List (Frame P ε) → Nat → Prop
  | [], _ => True
  | f :: fs, n => f.sib.Avl ∧ f.balance = f.dir.sign * (n - f.sib.height) ∧ -1 ≤ f.balance ∧
      f.balance ≤ 1 ∧ AvlPath fs (max n f.sib.height + 1)

theorem avl_plug {fs : List (Frame P ε)} {t : BinTree P ε} :
    (plug fs t).Avl ↔ t.Avl ∧ AvlPath fs t.height := by
  induction fs generalizing t with
  | nil => simp [plug, AvlPath]
  | cons f fs ih =>
    rw [plug, ih, Frame.plug, avl_join, height_join, AvlPath]
    tauto

theorem entries_join (d : Dir) (p : P) (e : ε) (b : Int) (t u : BinTree P ε) :
    (join d p e b t u).entries = match d with
      | .less => t.entries ++ (p, e) :: u.entries
      | .greater => u.entries ++ (p, e) :: t.entries := by
  cases d <;> rfl

/-! ## Identities -/

def ids (t : BinTree P ε) : List P := t.entries.map Prod.fst

def pathIds (fs : List (Frame P ε)) : List P := (before fs ++ after fs).map Prod.fst

def parentOf (fs : List (Frame P ε)) : Option P := fs.head?.map Frame.p

@[simp] theorem ids_nil : ids (.nil : BinTree P ε) = [] := rfl

@[simp] theorem pathIds_nil : pathIds ([] : List (Frame P ε)) = [] := rfl

@[simp] theorem parentOf_nil : parentOf ([] : List (Frame P ε)) = none := rfl

@[simp] theorem parentOf_cons (f : Frame P ε) (fs : List (Frame P ε)) :
    parentOf (f :: fs) = some f.p := rfl

theorem root?_mem {t : BinTree P ε} {p : P} (h : t.root? = some p) : p ∈ ids t := by
  cases t with
  | nil => cases h
  | node q l e b r =>
    cases h
    simp [ids, entries]

@[simp] theorem mem_ids_join {d : Dir} {p q : P} {e : ε} {b : Int} {t u : BinTree P ε} :
    q ∈ ids (join d p e b t u) ↔ q = p ∨ q ∈ ids t ∨ q ∈ ids u := by
  cases d
  · simp only [ids, entries_join, List.map_append, List.map_cons, List.mem_append, List.mem_cons]
    tauto
  · simp only [ids, entries_join, List.map_append, List.map_cons, List.mem_append, List.mem_cons]
    tauto

theorem mem_ids_plug {fs : List (Frame P ε)} {t : BinTree P ε} {q : P} :
    q ∈ ids (plug fs t) ↔ q ∈ ids t ∨ q ∈ pathIds fs := by
  simp only [ids, pathIds, entries_plug, List.map_append, List.mem_append]
  tauto

@[simp] theorem mem_pathIds_cons {f : Frame P ε} {fs : List (Frame P ε)} {q : P} :
    q ∈ pathIds (f :: fs) ↔ q = f.p ∨ q ∈ ids f.sib ∨ q ∈ pathIds fs := by
  obtain ⟨d, p, e, b, sib⟩ := f
  cases d
  · simp only [pathIds, ids, before, after, Frame.before, Frame.after, List.map_append, List.map_cons,
      List.mem_append, List.mem_cons, List.append_nil]
    tauto
  · simp only [pathIds, ids, before, after, Frame.before, Frame.after, List.map_append, List.map_cons,
      List.map_nil, List.mem_append, List.mem_cons, List.nil_append, List.not_mem_nil]
    tauto

theorem nodup_join {d : Dir} {p : P} {e : ε} {b : Int} {t u : BinTree P ε} :
    (ids (join d p e b t u)).Nodup ↔ (ids t).Nodup ∧ (ids u).Nodup ∧ p ∉ ids t ∧ p ∉ ids u ∧
      ∀ q ∈ ids t, q ∉ ids u := by
  cases d
  · simp only [ids, entries_join, List.map_append, List.map_cons, List.nodup_append, List.nodup_cons,
      List.mem_cons]
    grind
  · simp only [ids, entries_join, List.map_append, List.map_cons, List.nodup_append, List.nodup_cons,
      List.mem_cons]
    grind

theorem nodup_plug {fs : List (Frame P ε)} {t : BinTree P ε} (h : (ids (plug fs t)).Nodup) :
    (ids t).Nodup ∧ (pathIds fs).Nodup ∧ ∀ q ∈ ids t, q ∉ pathIds fs := by
  simp only [ids, pathIds, entries_plug, List.map_append, List.nodup_append, List.mem_append] at h ⊢
  grind

theorem nodup_pathIds_cons {f : Frame P ε} {fs : List (Frame P ε)} (h : (pathIds (f :: fs)).Nodup) :
    (ids f.sib).Nodup ∧ (pathIds fs).Nodup ∧ f.p ∉ ids f.sib ∧ f.p ∉ pathIds fs ∧
      ∀ q ∈ ids f.sib, q ∉ pathIds fs := by
  have heq : pathIds (f :: fs) = ids (plug fs (f.plug .nil)) := by
    rw [ids, entries_plug, f.entries_plug, pathIds, before, after]
    simp [entries]
  rw [heq] at h
  obtain ⟨hf, hfs, hdisj⟩ := nodup_plug h
  obtain ⟨-, hsib, -, hp, -⟩ := nodup_join.1 hf
  refine ⟨hsib, hfs, hp, hdisj _ (by simp [Frame.plug]), fun q hq => hdisj q ?_⟩
  simp [Frame.plug, hq]

/-! ## Repair after an insertion -/

/-- The balances of the outer and the inner node after a double rotation. -/
def outerBalance (d : Dir) (b : Int) : Int := if b = d.sign then -d.sign else 0
def innerBalance (d : Dir) (b : Int) : Int := if b = -d.sign then d.sign else 0

/-- What becomes of a frame whose subtree has grown to `t`, and whether the whole has grown. -/
inductive Grow (f : Frame P ε) : BinTree P ε → Bool → BinTree P ε → Prop
  | even {t : BinTree P ε} (hb : f.balance = -f.dir.sign) :
      Grow f t false (join f.dir f.p f.entry 0 t f.sib)
  | lean {t : BinTree P ε} (hb : f.balance = 0) :
      Grow f t true (join f.dir f.p f.entry f.dir.sign t f.sib)
  | single {q : P} {e : ε} {a c : BinTree P ε} (hb : f.balance = f.dir.sign) :
      Grow f (join f.dir q e f.dir.sign a c) false
        (join f.dir q e 0 a (join f.dir f.p f.entry 0 c f.sib))
  | double {q m : P} {e me : ε} {mb : Int} {a x y : BinTree P ε} (hb : f.balance = f.dir.sign) :
      Grow f (join f.dir q e (-f.dir.sign) a (join f.dir m me mb x y)) false
        (join f.dir m me 0 (join f.dir q e (innerBalance f.dir mb) a x)
          (join f.dir f.p f.entry (outerBalance f.dir mb) y f.sib))

/-- The tree that the repair after an insertion ends in. -/
inductive GrowUp : List (Frame P ε) → BinTree P ε → BinTree P ε → Prop
  | top {t : BinTree P ε} : GrowUp [] t t
  | stop {f : Frame P ε} {fs : List (Frame P ε)} {t t' : BinTree P ε} (h : Grow f t false t') :
      GrowUp (f :: fs) t (plug fs t')
  | up {f : Frame P ε} {fs : List (Frame P ε)} {t t' r : BinTree P ε} (h : Grow f t true t')
      (rest : GrowUp fs t' r) : GrowUp (f :: fs) t r

theorem Grow.entries_eq {f : Frame P ε} {t t' : BinTree P ε} {g : Bool} (h : Grow f t g t') :
    t'.entries = (f.plug t).entries := by
  obtain ⟨d, p, e, b, s⟩ := f
  cases h <;> cases d <;> simp [Frame.plug, entries_join]

theorem GrowUp.entries_eq {fs : List (Frame P ε)} {t r : BinTree P ε} (h : GrowUp fs t r) :
    r.entries = (plug fs t).entries := by
  induction h with
  | top => rfl
  | stop h => rw [entries_plug, h.entries_eq, ← entries_plug]; rfl
  | up h _ ih => rw [ih, entries_plug, h.entries_eq, ← entries_plug]; rfl

/-- One step: the subtree has grown from height `n` and leans to a side, unless it is new. -/
theorem Grow.exists_avl {f : Frame P ε} {t : BinTree P ε} {n : Nat} (ht : t.Avl)
    (hn : t.height = n + 1) (hlean : t.balance ≠ 0 ∨ n = 0) (hsib : f.sib.Avl)
    (hb : f.balance = f.dir.sign * (n - f.sib.height)) (hlow : -1 ≤ f.balance) (hhigh : f.balance ≤ 1) :
    ∃ g t', Grow f t g t' ∧ t'.Avl ∧
      t'.height = max n f.sib.height + 1 + (if g then 1 else 0) ∧ (g = true → t'.balance ≠ 0) := by
  have hsign := f.dir.sign_cases
  obtain hcase | hcase | hcase :
      f.balance = -f.dir.sign ∨ f.balance = 0 ∨ f.balance = f.dir.sign := by
    rcases hsign with h | h <;> rw [h] at hb ⊢ <;> omega
  · have hs : f.sib.height = n + 1 := by rcases hsign with h | h <;> rw [h] at hb hcase <;> omega
    refine ⟨_, _, .even hcase, avl_join.2 ⟨ht, hsib, ?_, by omega, by omega⟩, ?_, by simp⟩
    · rw [hn, hs, sub_self, mul_zero]
    · simp [hn, hs]
  · have hs : f.sib.height = n := by rcases hsign with h | h <;> rw [h] at hb <;> omega
    refine ⟨_, _, .lean hcase, avl_join.2 ⟨ht, hsib, ?_, by omega, by omega⟩, ?_, ?_⟩
    · rw [hn, hs]
      push_cast
      ring
    · simp [hn, hs]
    · intro _
      rw [balance_join]
      omega
  · have hs : f.sib.height + 1 = n := by rcases hsign with h | h <;> rw [h] at hb hcase <;> omega
    obtain ⟨q, qe, qb, a, c, rfl⟩ := exists_join_of_height_pos f.dir (by omega : 0 < t.height)
    obtain ⟨ha, hc, hqb, hql, hqh⟩ := avl_join.1 ht
    rw [balance_join] at hlean
    rw [height_join] at hn
    obtain rfl | rfl : qb = f.dir.sign ∨ qb = -f.dir.sign := by
      rcases hsign with h | h <;> rw [h] <;> omega
    · have hac : a.height = n ∧ c.height + 1 = n := by
        rcases hsign with h | h <;> rw [h] at hqb <;> omega
      refine ⟨_, _, .single hcase, ?_, ?_, by simp⟩
      · refine avl_join.2 ⟨ha, avl_join.2 ⟨hc, hsib, ?_, by omega, by omega⟩, ?_, by omega, by omega⟩
        · rw [show (c.height : Int) = f.sib.height by omega, sub_self, mul_zero]
        · rw [height_join, show (a.height : Int) = ((max c.height f.sib.height + 1 : Nat) : Int) by omega,
            sub_self, mul_zero]
      · simp only [height_join, Bool.false_eq_true, if_false]
        omega
    · have hac : a.height + 1 = n ∧ c.height = n := by
        rcases hsign with h | h <;> rw [h] at hqb <;> omega
      obtain ⟨m, me, mb, x, y, rfl⟩ := exists_join_of_height_pos f.dir (by omega : 0 < c.height)
      obtain ⟨hx, hy, hmb, hml, hmh⟩ := avl_join.1 hc
      rw [height_join] at hac
      refine ⟨_, _, .double hcase, ?_, ?_, by simp⟩
      · refine avl_join.2 ⟨avl_join.2 ⟨ha, hx, ?_⟩, avl_join.2 ⟨hy, hsib, ?_⟩, ?_, by omega, by omega⟩
        · unfold innerBalance
          rcases hsign with h | h <;> rw [h] at hmb ⊢ <;> split <;> omega
        · unfold outerBalance
          rcases hsign with h | h <;> rw [h] at hmb ⊢ <;> split <;> omega
        · simp only [height_join]
          rcases hsign with h | h <;> rw [h] at hmb ⊢ <;> omega
      · simp only [height_join, Bool.false_eq_true, if_false]
        rcases hsign with h | h <;> rw [h] at hmb <;> omega

/-- **The repair after an insertion ends in a balanced tree.** -/
theorem GrowUp.exists_avl {fs : List (Frame P ε)} {t : BinTree P ε} {n : Nat} (ht : t.Avl)
    (hn : t.height = n + 1) (hlean : t.balance ≠ 0 ∨ n = 0) (hfs : AvlPath fs n) :
    ∃ r, GrowUp fs t r ∧ r.Avl := by
  induction fs generalizing t n with
  | nil => exact ⟨t, .top, ht⟩
  | cons f fs ih =>
    obtain ⟨hsib, hb, hlow, hhigh, hrest⟩ := hfs
    obtain ⟨g, t', hg, havl, hheight, hlean'⟩ := Grow.exists_avl ht hn hlean hsib hb hlow hhigh
    cases g with
    | false =>
      refine ⟨_, .stop hg, avl_plug.2 ⟨havl, ?_⟩⟩
      rw [hheight]
      simpa using hrest
    | true =>
      obtain ⟨r, hr, havlr⟩ := ih havl (by simpa using hheight) (.inl (hlean' rfl)) hrest
      exact ⟨r, .up hg hr, havlr⟩

/-! ## Repair after a removal -/

/-- What becomes of a frame whose subtree has shrunk to `t`, and whether the whole has shrunk. -/
inductive Shrink (f : Frame P ε) (t : BinTree P ε) : Bool → BinTree P ε → Prop
  | lean (hb : f.balance = 0) : Shrink f t false (join f.dir f.p f.entry (-f.dir.sign) t f.sib)
  | even (hb : f.balance = f.dir.sign) : Shrink f t true (join f.dir f.p f.entry 0 t f.sib)
  | level {q : P} {e : ε} {a c : BinTree P ε} (hb : f.balance = -f.dir.sign)
      (hs : f.sib = join f.dir.opp q e 0 a c) :
      Shrink f t false (join f.dir.opp q e f.dir.sign a (join f.dir.opp f.p f.entry (-f.dir.sign) c t))
  | single {q : P} {e : ε} {a c : BinTree P ε} (hb : f.balance = -f.dir.sign)
      (hs : f.sib = join f.dir.opp q e (-f.dir.sign) a c) :
      Shrink f t true (join f.dir.opp q e 0 a (join f.dir.opp f.p f.entry 0 c t))
  | double {q m : P} {e me : ε} {mb : Int} {a x y : BinTree P ε} (hb : f.balance = -f.dir.sign)
      (hs : f.sib = join f.dir.opp q e f.dir.sign a (join f.dir.opp m me mb x y)) :
      Shrink f t true (join f.dir.opp m me 0 (join f.dir.opp q e (innerBalance f.dir.opp mb) a x)
        (join f.dir.opp f.p f.entry (outerBalance f.dir.opp mb) y t))

/-- The tree that the repair after a removal ends in. -/
inductive ShrinkUp : List (Frame P ε) → BinTree P ε → BinTree P ε → Prop
  | top {t : BinTree P ε} : ShrinkUp [] t t
  | stop {f : Frame P ε} {fs : List (Frame P ε)} {t t' : BinTree P ε} (h : Shrink f t false t') :
      ShrinkUp (f :: fs) t (plug fs t')
  | up {f : Frame P ε} {fs : List (Frame P ε)} {t t' r : BinTree P ε} (h : Shrink f t true t')
      (rest : ShrinkUp fs t' r) : ShrinkUp (f :: fs) t r

theorem Shrink.entries_eq {f : Frame P ε} {t t' : BinTree P ε} {g : Bool} (h : Shrink f t g t') :
    t'.entries = (f.plug t).entries := by
  obtain ⟨d, p, e, b, s⟩ := f
  cases h with
  | lean hb => cases d <;> simp [Frame.plug, entries_join]
  | even hb => cases d <;> simp [Frame.plug, entries_join]
  | level hb hs =>
    dsimp only at hs
    subst hs
    cases d <;> simp [Frame.plug, entries_join, Dir.opp]
  | single hb hs =>
    dsimp only at hs
    subst hs
    cases d <;> simp [Frame.plug, entries_join, Dir.opp]
  | double hb hs =>
    dsimp only at hs
    subst hs
    cases d <;> simp [Frame.plug, entries_join, Dir.opp]

theorem ShrinkUp.entries_eq {fs : List (Frame P ε)} {t r : BinTree P ε} (h : ShrinkUp fs t r) :
    r.entries = (plug fs t).entries := by
  induction h with
  | top => rfl
  | stop h => rw [entries_plug, h.entries_eq, ← entries_plug]; rfl
  | up h _ ih => rw [ih, entries_plug, h.entries_eq, ← entries_plug]; rfl

/-- One step: the subtree has shrunk from height `n + 1` to `n`. -/
theorem Shrink.exists_avl {f : Frame P ε} {t : BinTree P ε} {n : Nat} (ht : t.Avl) (hn : t.height = n)
    (hsib : f.sib.Avl) (hb : f.balance = f.dir.sign * ((n + 1 : Nat) - f.sib.height))
    (hlow : -1 ≤ f.balance) (hhigh : f.balance ≤ 1) :
    ∃ g t', Shrink f t g t' ∧ t'.Avl ∧
      t'.height + (if g then 1 else 0) = max (n + 1) f.sib.height + 1 := by
  push_cast at hb
  have hsign := f.dir.sign_cases
  obtain hcase | hcase | hcase :
      f.balance = 0 ∨ f.balance = f.dir.sign ∨ f.balance = -f.dir.sign := by
    rcases hsign with h | h <;> rw [h] at hb ⊢ <;> omega
  · have hs : f.sib.height = n + 1 := by rcases hsign with h | h <;> rw [h] at hb <;> omega
    refine ⟨_, _, .lean hcase, avl_join.2 ⟨ht, hsib, ?_, by omega, by omega⟩, ?_⟩
    · rw [hn, hs]
      push_cast
      ring
    · simp [hn, hs]
  · have hs : f.sib.height = n := by rcases hsign with h | h <;> rw [h] at hb hcase <;> omega
    refine ⟨_, _, .even hcase, avl_join.2 ⟨ht, hsib, ?_, by omega, by omega⟩, ?_⟩
    · rw [hn, hs, sub_self, mul_zero]
    · simp [hn, hs]
  · have hs : f.sib.height = n + 2 := by
      rcases hsign with h | h <;> rw [h] at hb hcase <;> omega
    obtain ⟨q, qe, qb, a, c, heq⟩ := exists_join_of_height_pos f.dir.opp (by omega : 0 < f.sib.height)
    rw [heq] at hsib hs ⊢
    obtain ⟨ha, hc, hqb, hql, hqh⟩ := avl_join.1 hsib
    rw [Dir.sign_opp] at hqb
    rw [height_join] at hs
    obtain rfl | rfl | rfl : qb = 0 ∨ qb = -f.dir.sign ∨ qb = f.dir.sign := by
      rcases hsign with h | h <;> rw [h] <;> omega
    · have hac : a.height = n + 1 ∧ c.height = n + 1 := by
        rcases hsign with h | h <;> rw [h] at hqb <;> omega
      refine ⟨_, _, .level hcase heq, ?_, ?_⟩
      · refine avl_join.2 ⟨ha, avl_join.2 ⟨hc, ht, ?_, by omega, by omega⟩, ?_, by omega, by omega⟩
        · rw [Dir.sign_opp, hac.2, hn]
          push_cast
          ring
        · rw [Dir.sign_opp, height_join, hac.1, hac.2, hn]
          rcases hsign with h | h <;> rw [h] <;> omega
      · simp only [height_join, Bool.false_eq_true, if_false]
        omega
    · have hac : a.height = n + 1 ∧ c.height = n := by
        rcases hsign with h | h <;> rw [h] at hqb <;> omega
      refine ⟨_, _, .single hcase heq, ?_, ?_⟩
      · refine avl_join.2 ⟨ha, avl_join.2 ⟨hc, ht, ?_, by omega, by omega⟩, ?_, by omega, by omega⟩
        · rw [hac.2, hn, sub_self, mul_zero]
        · rw [height_join, hac.1, hac.2, hn, max_self, sub_self, mul_zero]
      · simp only [height_join, if_true]
        omega
    · have hac : a.height = n ∧ c.height = n + 1 := by
        rcases hsign with h | h <;> rw [h] at hqb <;> omega
      obtain ⟨m, me, mb, x, y, rfl⟩ := exists_join_of_height_pos f.dir.opp (by omega : 0 < c.height)
      obtain ⟨hx, hy, hmb, hml, hmh⟩ := avl_join.1 hc
      rw [Dir.sign_opp] at hmb
      rw [height_join] at hac
      refine ⟨_, _, .double hcase heq, ?_, ?_⟩
      · refine avl_join.2 ⟨avl_join.2 ⟨ha, hx, ?_⟩, avl_join.2 ⟨hy, ht, ?_⟩, ?_, by omega, by omega⟩
        · unfold innerBalance
          rw [Dir.sign_opp]
          rcases hsign with h | h <;> rw [h] at hmb ⊢ <;> split <;> omega
        · unfold outerBalance
          rw [Dir.sign_opp]
          rcases hsign with h | h <;> rw [h] at hmb ⊢ <;> split <;> omega
        · simp only [height_join, Dir.sign_opp]
          rcases hsign with h | h <;> rw [h] at hmb ⊢ <;> omega
      · simp only [height_join, if_true]
        rcases hsign with h | h <;> rw [h] at hmb <;> omega

/-- **The repair after a removal ends in a balanced tree.** -/
theorem ShrinkUp.exists_avl {fs : List (Frame P ε)} {t : BinTree P ε} {n : Nat} (ht : t.Avl)
    (hn : t.height = n) (hfs : AvlPath fs (n + 1)) : ∃ r, ShrinkUp fs t r ∧ r.Avl := by
  induction fs generalizing t n with
  | nil => exact ⟨t, .top, ht⟩
  | cons f fs ih =>
    obtain ⟨hsib, hb, hlow, hhigh, hrest⟩ := hfs
    obtain ⟨g, t', hg, havl, hheight⟩ := Shrink.exists_avl ht hn hsib hb hlow hhigh
    cases g with
    | false =>
      refine ⟨_, .stop hg, avl_plug.2 ⟨havl, ?_⟩⟩
      have : t'.height = max (n + 1) f.sib.height + 1 := by simpa using hheight
      rwa [this]
    | true =>
      obtain ⟨r, hr, havlr⟩ := ih (n := max (n + 1) f.sib.height) havl (by simpa using hheight) hrest
      exact ⟨r, .up hg hr, havlr⟩

/-! ## Search -/

section Search

variable {go : ε → Option Dir}

/-- The way down from a place that `go` points out; `none` stops. -/
def descend (go : ε → Option Dir) : List (Frame P ε) → BinTree P ε → List (Frame P ε) × BinTree P ε
  | fs, .nil => (fs, .nil)
  | fs, .node p l e b r =>
    match go e with
    | some .less => descend go (⟨.less, p, e, b, r⟩ :: fs) l
    | some .greater => descend go (⟨.greater, p, e, b, l⟩ :: fs) r
    | none => (fs, .node p l e b r)

theorem plug_descend (go : ε → Option Dir) (fs : List (Frame P ε)) (t : BinTree P ε) :
    plug (descend go fs t).1 (descend go fs t).2 = plug fs t := by
  induction t generalizing fs with
  | nil => rfl
  | node p l e b r ihl ihr =>
    unfold descend
    split
    · exact ihl _
    · exact ihr _
    · rfl

/-- Where `go` does not point behind an entry, it points before all entries behind that one. -/
def Guides (go : ε → Option Dir) (l : List (P × ε)) : Prop :=
  l.Pairwise fun x y => (go x.2 ≠ some .greater → go y.2 = some .less) ∧
    (go y.2 ≠ some .less → go x.2 = some .greater)

/-- `go` points from everything around the hole to the hole. -/
structure Points (go : ε → Option Dir) (fs : List (Frame P ε)) : Prop where
  before_eq : ∀ x ∈ before fs, go x.2 = some .greater
  after_eq : ∀ x ∈ after fs, go x.2 = some .less

theorem Points.top (go : ε → Option Dir) : Points go ([] : List (Frame P ε)) :=
  ⟨fun _ h => by simp [before] at h, fun _ h => by simp [after] at h⟩

/-- **The search arrives where `go` points to from all sides**, or at an entry where it stops. -/
theorem descend_points {fs : List (Frame P ε)} {t : BinTree P ε} (hs : Guides go t.entries)
    (h : Points go fs) :
    ((descend go fs t).2 = .nil ∧ Points go (descend go fs t).1) ∨
      ∃ p l e b r, (descend go fs t).2 = .node p l e b r ∧ go e = none := by
  induction t generalizing fs with
  | nil => exact .inl ⟨rfl, h⟩
  | node p l e b r ihl ihr =>
    obtain ⟨hl, hr, hlr⟩ := List.pairwise_append.1 hs
    obtain ⟨her, hr⟩ := List.pairwise_cons.1 hr
    unfold descend
    split
    · next hgo =>
      refine ihl hl ⟨?_, fun x hx => ?_⟩
      · simpa [before, Frame.before] using h.before_eq
      · simp only [after, Frame.after, List.cons_append, List.mem_cons, List.mem_append] at hx
        rcases hx with rfl | hx | hx
        · exact hgo
        · exact (her x hx).1 (by simp [hgo])
        · exact h.after_eq x hx
    · next hgo =>
      refine ihr hr ⟨fun x hx => ?_, ?_⟩
      · simp only [before, Frame.before, List.mem_append, List.mem_singleton] at hx
        rcases hx with hx | hx | rfl
        · exact h.before_eq x hx
        · exact (hlr x hx (p, e) (by simp)).2 (by simp [hgo])
        · exact hgo
      · simpa [after, Frame.after] using h.after_eq
    · next hgo => exact .inr ⟨p, l, e, b, r, rfl, hgo⟩

/-- The next node up a path whose hole is on its side `d`. -/
def nextUp (d : Dir) (fs : List (Frame P ε)) : Option (P × ε) :=
  (fs.find? fun f => f.dir = d).map fun f => (f.p, f.entry)

theorem nextUp_less (fs : List (Frame P ε)) : nextUp .less fs = (after fs).head? := by
  induction fs with
  | nil => rfl
  | cons f fs ih =>
    obtain ⟨d, p, e, b, sib⟩ := f
    cases d with
    | less => simp [nextUp, after, Frame.after]
    | greater => simpa [nextUp, after, Frame.after] using ih

theorem nextUp_greater (fs : List (Frame P ε)) : nextUp .greater fs = (before fs).getLast? := by
  induction fs with
  | nil => rfl
  | cons f fs ih =>
    obtain ⟨d, p, e, b, sib⟩ := f
    cases d with
    | less => simpa [nextUp, before, Frame.before] using ih
    | greater => simp [nextUp, before, Frame.before]

/-- The way to the outermost node below a place. -/
theorem descend_outward (d : Dir) (fs : List (Frame P ε)) (t : BinTree P ε) :
    ∃ gs, descend (fun _ => some d) fs t = (gs ++ fs, .nil) ∧ (∀ g ∈ gs, g.dir = d) ∧
      (t ≠ .nil → gs ≠ []) := by
  induction t generalizing fs with
  | nil => exact ⟨[], rfl, by simp, by simp⟩
  | node p l e b r ihl ihr =>
    cases d with
    | less =>
      obtain ⟨gs, hgs, hdir, -⟩ := ihl (⟨.less, p, e, b, r⟩ :: fs)
      refine ⟨gs ++ [⟨.less, p, e, b, r⟩], ?_, ?_, by simp⟩
      · rw [descend, hgs, List.append_assoc]
        rfl
      · intro g hg
        rcases List.mem_append.1 hg with hg | hg
        · exact hdir g hg
        · rw [List.mem_singleton.1 hg]
    | greater =>
      obtain ⟨gs, hgs, hdir, -⟩ := ihr (⟨.greater, p, e, b, l⟩ :: fs)
      refine ⟨gs ++ [⟨.greater, p, e, b, l⟩], ?_, ?_, by simp⟩
      · rw [descend, hgs, List.append_assoc]
        rfl
      · intro g hg
        rcases List.mem_append.1 hg with hg | hg
        · exact hdir g hg
        · rw [List.mem_singleton.1 hg]

theorem before_of_less {gs : List (Frame P ε)} (h : ∀ g ∈ gs, g.dir = .less) : before gs = [] := by
  induction gs with
  | nil => rfl
  | cons g gs ih =>
    have hg : g.before = [] := by rw [Frame.before, h g (by simp)]
    rw [before, ih fun g' hg' => h g' (by simp [hg']), hg]
    rfl

theorem after_of_greater {gs : List (Frame P ε)} (h : ∀ g ∈ gs, g.dir = .greater) :
    after gs = [] := by
  induction gs with
  | nil => rfl
  | cons g gs ih =>
    have hg : g.after = [] := by rw [Frame.after, h g (by simp)]
    rw [after, ih fun g' hg' => h g' (by simp [hg']), hg]
    rfl

theorem descend_append (fs gs : List (Frame P ε)) (t : BinTree P ε) :
    descend go (fs ++ gs) t = ((descend go fs t).1 ++ gs, (descend go fs t).2) := by
  induction t generalizing fs with
  | nil => rfl
  | node p l e b r ihl ihr =>
    unfold descend
    split
    · exact ihl (_ :: fs)
    · exact ihr (_ :: fs)
    · rfl

/-- The outermost node has a child on one side only. -/
theorem exists_outermost {d : Dir} {t : BinTree P ε} (h : t ≠ .nil) :
    ∃ gs p e b sub, descend (fun _ => some d) [] t = (⟨d, p, e, b, sub⟩ :: gs, .nil) ∧
      (∀ g ∈ gs, g.dir = d) ∧ t = plug gs (join d p e b .nil sub) := by
  obtain ⟨gs, hgs, hdir, hne⟩ := descend_outward d [] t
  obtain ⟨⟨gd, p, e, b, sub⟩, gs, rfl⟩ := List.exists_cons_of_ne_nil (hne h)
  rw [List.append_nil] at hgs
  have hgd : gd = d := hdir ⟨gd, p, e, b, sub⟩ (by simp)
  subst hgd
  have hplug : plug (descend (fun _ => some gd) [] t).1 (descend (fun _ => some gd) [] t).2 = t :=
    plug_descend _ [] t
  rw [hgs] at hplug
  exact ⟨gs, p, e, b, sub, hgs, fun g hg => hdir g (by simp [hg]), hplug.symm⟩

/-! ## Order -/

/-- What comes behind the hole when the entries are read from the end in direction `d`. -/
def ahead (d : Dir) (fs : List (Frame P ε)) : List (P × ε) :=
  match d with
  | .less => after fs
  | .greater => (before fs).reverse

/-- What comes before the hole when the entries are read from the end in direction `d`. -/
def behind (d : Dir) (fs : List (Frame P ε)) : List (P × ε) :=
  match d with
  | .less => before fs
  | .greater => (after fs).reverse

theorem order_entries_plug (d : Dir) (fs : List (Frame P ε)) (t : BinTree P ε) :
    d.order (plug fs t).entries = behind d fs ++ d.order t.entries ++ ahead d fs := by
  cases d <;> simp [Dir.order, entries_plug, behind, ahead]

theorem order_entries_join (d : Dir) (p : P) (e : ε) (b : Int) (near far : BinTree P ε) :
    d.order (join d p e b near far).entries =
      d.order near.entries ++ (p, e) :: d.order far.entries := by
  cases d <;> simp [Dir.order, entries_join]

theorem nextUp_eq (d : Dir) (fs : List (Frame P ε)) : nextUp d fs = (ahead d fs).head? := by
  cases d
  · exact nextUp_less fs
  · rw [nextUp_greater, ahead, List.head?_reverse]

theorem Points.ahead_eq {fs : List (Frame P ε)} (h : Points go fs) (d : Dir) :
    ∀ x ∈ ahead d fs, go x.2 = some d := by
  cases d
  · exact h.after_eq
  · exact fun x hx => h.before_eq x (List.mem_reverse.1 hx)

theorem Points.behind_eq {fs : List (Frame P ε)} (h : Points go fs) (d : Dir) :
    ∀ x ∈ behind d fs, go x.2 = some d.opp := by
  cases d
  · exact h.before_eq
  · exact fun x hx => h.after_eq x (List.mem_reverse.1 hx)

theorem behind_of_dir {d : Dir} {gs : List (Frame P ε)} (h : ∀ g ∈ gs, g.dir = d) :
    behind d gs = [] := by
  cases d
  · exact before_of_less h
  · rw [behind, after_of_greater h, List.reverse_nil]

/-- The outermost node has the first entry. -/
theorem head?_descend {d : Dir} {t : BinTree P ε} (h : t ≠ .nil) (fs : List (Frame P ε)) :
    (descend (fun _ => some d) fs t).1.head?.map (fun f => (f.p, f.entry)) =
      (d.order t.entries).head? := by
  obtain ⟨gs, p, e, b, sub, hdesc, hdir, rfl⟩ := exists_outermost (d := d) h
  rw [← List.nil_append fs, descend_append, hdesc, order_entries_plug, behind_of_dir hdir,
    order_entries_join]
  cases d <;> simp [Dir.order, entries]

/-- An entry is at a node. -/
theorem exists_plug_of_mem {t : BinTree P ε} {p : P} {e : ε} (h : (p, e) ∈ t.entries) (d : Dir) :
    ∃ fs b near far, t = plug fs (join d p e b near far) := by
  induction t with
  | nil => simp [entries] at h
  | node q l e' b r ihl ihr =>
    rw [entries, List.mem_append, List.mem_cons] at h
    rcases h with h | h | h
    · obtain ⟨fs, b', near, far, rfl⟩ := ihl h
      refine ⟨fs ++ [⟨.less, q, e', b, r⟩], b', near, far, ?_⟩
      rw [plug_append]
      rfl
    · cases h
      cases d
      · exact ⟨[], b, l, r, rfl⟩
      · exact ⟨[], b, r, l, rfl⟩
    · obtain ⟨fs, b', near, far, rfl⟩ := ihr h
      refine ⟨fs ++ [⟨.greater, q, e', b, l⟩], b', near, far, ?_⟩
      rw [plug_append]
      rfl

end Search

end DrbdUtils.Lib.AvlTree
