import Mathlib.Order.Basic

/-!
# Search trees over a comparison

`tfind()` and `tsearch()` of the C library: a binary search tree that is kept by a comparison of its
elements, of which only the sign counts.

* `tfind_none`, `tfind_some` — in an ordered tree of comparable elements, searching decides.
* `Ordered.tsearch` — inserting keeps the order.
-/

set_option autoImplicit false

variable {α : Type}

/-- A comparison is a total preorder on the elements of a set. -/
structure TotalPreorderOn (cmp : α → α → Int) (s : α → Prop) : Prop where
  swap : ∀ a b, s a → s b → (0 < cmp a b ↔ cmp b a < 0)
  trans : ∀ a b c, s a → s b → s c → cmp a b ≤ 0 → cmp b c ≤ 0 → cmp a c ≤ 0

section TotalPreorderOn

variable {cmp : α → α → Int} {s : α → Prop}

theorem TotalPreorderOn.mono (h : TotalPreorderOn cmp s) {t : α → Prop} (hst : ∀ a, t a → s a) :
    TotalPreorderOn cmp t where
  swap a b ha hb := h.swap a b (hst a ha) (hst b hb)
  trans a b c ha hb hc := h.trans a b c (hst a ha) (hst b hb) (hst c hc)

theorem TotalPreorderOn.eq_zero_comm (h : TotalPreorderOn cmp s) {a b : α} (ha : s a) (hb : s b) :
    cmp a b = 0 ↔ cmp b a = 0 := by
  have hab := h.swap a b ha hb
  have hba := h.swap b a hb ha
  omega

theorem TotalPreorderOn.eq_zero_trans (h : TotalPreorderOn cmp s) {a b c : α} (ha : s a) (hb : s b)
    (hc : s c) (hab : cmp a b = 0) (hbc : cmp b c = 0) : cmp a c = 0 := by
  have hba := (h.eq_zero_comm ha hb).1 hab
  have hcb := (h.eq_zero_comm hb hc).1 hbc
  have hac := h.trans a b c ha hb hc (Int.le_of_eq hab) (Int.le_of_eq hbc)
  have hca := h.trans c b a hc hb ha (Int.le_of_eq hcb) (Int.le_of_eq hba)
  have hswap := h.swap c a hc ha
  omega

theorem TotalPreorderOn.lt_trans (h : TotalPreorderOn cmp s) {a b c : α} (ha : s a) (hb : s b)
    (hc : s c) (hab : cmp a b < 0) (hbc : cmp b c < 0) : cmp a c < 0 := by
  have hac := h.trans a b c ha hb hc (Int.le_of_lt hab) (Int.le_of_lt hbc)
  by_contra hcon
  have hzero : cmp c a = 0 := (h.eq_zero_comm ha hc).1 (by omega)
  have hcb := h.trans c a b hc ha hb (Int.le_of_eq hzero) (Int.le_of_lt hab)
  have hswap := h.swap c b hc hb
  have hswap' := h.swap b c hb hc
  omega

end TotalPreorderOn

/-- A binary tree. -/
inductive SearchTree (α : Type) where
  | nil
  | node (left : SearchTree α) (key : α) (right : SearchTree α)
  deriving DecidableEq, Repr

namespace SearchTree

def Mem (a : α) : SearchTree α → Prop
  | nil => False
  | node left key right => Mem a left ∨ a = key ∨ Mem a right

/-- `tfind`. -/
def tfind (cmp : α → α → Int) (a : α) : SearchTree α → Option α
  | nil => none
  | node left key right =>
    if cmp a key = 0 then some key
    else if cmp a key < 0 then tfind cmp a left
    else tfind cmp a right

/-- `tsearch`, for an element that is not found. -/
def tsearch (cmp : α → α → Int) (a : α) : SearchTree α → SearchTree α
  | nil => node nil a nil
  | node left key right =>
    if cmp a key = 0 then node left key right
    else if cmp a key < 0 then node (tsearch cmp a left) key right
    else node left key (tsearch cmp a right)

/-- The elements on the left are in front of the key, those on the right behind it. -/
def Ordered (cmp : α → α → Int) : SearchTree α → Prop
  | nil => True
  | node left key right =>
    Ordered cmp left ∧ Ordered cmp right ∧
      (∀ a, Mem a left → cmp a key < 0) ∧ ∀ a, Mem a right → cmp key a < 0

section Comparison

variable {cmp : α → α → Int} {s : α → Prop}

theorem mem_of_tfind {a b : α} {t : SearchTree α} (h : tfind cmp a t = some b) :
    Mem b t ∧ cmp a b = 0 := by
  induction t with
  | nil => cases h
  | node left key right ihLeft ihRight =>
    rw [tfind] at h
    split at h
    · next hzero =>
      cases h
      exact ⟨Or.inr (Or.inl rfl), hzero⟩
    · split at h
      · exact ⟨Or.inl (ihLeft h).1, (ihLeft h).2⟩
      · exact ⟨Or.inr (Or.inr (ihRight h).1), (ihRight h).2⟩

/-- What is not found in an ordered tree is equal to none of its elements. -/
theorem tfind_none (hcmp : TotalPreorderOn cmp s) {a : α} (ha : s a) {t : SearchTree α}
    (ht : ∀ b, Mem b t → s b) (hordered : Ordered cmp t) (h : tfind cmp a t = none) {b : α}
    (hb : Mem b t) : cmp a b ≠ 0 := by
  induction t with
  | nil => cases hb
  | node left key right ihLeft ihRight =>
    obtain ⟨hleft, hright, hlt, hgt⟩ := hordered
    have hkey : s key := ht key (Or.inr (Or.inl rfl))
    rw [tfind] at h
    split at h
    · cases h
    · next hne =>
      split at h
      · next hneg =>
        rcases hb with hb | rfl | hb
        · exact ihLeft (fun c hc => ht c (Or.inl hc)) hleft h hb
        · exact hne
        · have hab := hcmp.lt_trans ha hkey (ht b (Or.inr (Or.inr hb))) hneg (hgt b hb)
          omega
      · next hneg =>
        rcases hb with hb | rfl | hb
        · intro hzero
          have hsb := ht b (Or.inl hb)
          have hba := (hcmp.eq_zero_comm ha hsb).1 hzero
          have hswap := hcmp.swap a key ha hkey
          have hka : cmp key a < 0 := by omega
          have hbk := hcmp.lt_trans hsb hkey ha (hlt b hb) hka
          omega
        · exact hne
        · exact ihRight (fun c hc => ht c (Or.inr (Or.inr hc))) hright h hb

theorem mem_tsearch {a b : α} {t : SearchTree α} (h : Mem b (tsearch cmp a t)) :
    b = a ∨ Mem b t := by
  induction t with
  | nil =>
    rcases h with h | h | h
    · cases h
    · exact Or.inl h
    · cases h
  | node left key right ihLeft ihRight =>
    rw [tsearch] at h
    split at h
    · exact Or.inr h
    · split at h
      · rcases h with h | h | h
        · exact (ihLeft h).imp_right Or.inl
        · exact Or.inr (Or.inr (Or.inl h))
        · exact Or.inr (Or.inr (Or.inr h))
      · rcases h with h | h | h
        · exact Or.inr (Or.inl h)
        · exact Or.inr (Or.inr (Or.inl h))
        · exact (ihRight h).imp_right fun h => Or.inr (Or.inr h)

theorem mem_tsearch_of_mem {a b : α} {t : SearchTree α} (h : Mem b t) : Mem b (tsearch cmp a t) := by
  induction t with
  | nil => cases h
  | node left key right ihLeft ihRight =>
    rw [tsearch]
    split
    · exact h
    · split
      · exact h.imp_left ihLeft
      · exact h.imp_right fun h => h.imp_right ihRight

/-- What is not found is in the tree once it is inserted. -/
theorem mem_tsearch_self {a : α} {t : SearchTree α} (h : tfind cmp a t = none) :
    Mem a (tsearch cmp a t) := by
  induction t with
  | nil => exact Or.inr (Or.inl rfl)
  | node left key right ihLeft ihRight =>
    rw [tfind] at h
    rw [tsearch]
    split at h
    · cases h
    · next hne =>
      rw [if_neg hne]
      split at h
      · next hneg =>
        rw [if_pos hneg]
        exact Or.inl (ihLeft h)
      · next hneg =>
        rw [if_neg hneg]
        exact Or.inr (Or.inr (ihRight h))

theorem Ordered.tsearch (hcmp : TotalPreorderOn cmp s) {a : α} (ha : s a) {t : SearchTree α}
    (ht : ∀ b, Mem b t → s b) (hordered : Ordered cmp t) : Ordered cmp (tsearch cmp a t) := by
  induction t with
  | nil => exact ⟨trivial, trivial, fun _ h => h.elim, fun _ h => h.elim⟩
  | node left key right ihLeft ihRight =>
    obtain ⟨hleft, hright, hlt, hgt⟩ := hordered
    have hkey : s key := ht key (Or.inr (Or.inl rfl))
    rw [SearchTree.tsearch]
    split
    · exact ⟨hleft, hright, hlt, hgt⟩
    · next hne =>
      split
      · next hneg =>
        refine ⟨ihLeft (fun c hc => ht c (Or.inl hc)) hleft, hright, fun b hb => ?_, hgt⟩
        rcases mem_tsearch hb with rfl | hb
        · exact hneg
        · exact hlt b hb
      · next hneg =>
        refine ⟨hleft, ihRight (fun c hc => ht c (Or.inr (Or.inr hc))) hright, hlt, fun b hb => ?_⟩
        rcases mem_tsearch hb with rfl | hb
        · exact (hcmp.swap b key ha hkey).1 (by omega)
        · exact hgt b hb

/-- Equal elements of an ordered tree are the same. -/
theorem Ordered.eq_of_mem (hcmp : TotalPreorderOn cmp s) {t : SearchTree α}
    (ht : ∀ b, Mem b t → s b) (hordered : Ordered cmp t) {a b : α} (ha : Mem a t) (hb : Mem b t)
    (hzero : cmp a b = 0) : a = b := by
  induction t with
  | nil => cases ha
  | node left key right ihLeft ihRight =>
    obtain ⟨hleft, hright, hlt, hgt⟩ := hordered
    have hkey : s key := ht key (Or.inr (Or.inl rfl))
    have hba := (hcmp.eq_zero_comm (ht a ha) (ht b hb)).1 hzero
    rcases ha with ha | rfl | ha
    · have hsa := ht a (Or.inl ha)
      rcases hb with hb | rfl | hb
      · exact ihLeft (fun c hc => ht c (Or.inl hc)) hleft ha hb
      · have := hlt a ha
        omega
      · have := hcmp.lt_trans hsa hkey (ht b (Or.inr (Or.inr hb))) (hlt a ha) (hgt b hb)
        omega
    · rcases hb with hb | rfl | hb
      · have := hlt b hb
        omega
      · rfl
      · have := hgt b hb
        omega
    · have hsa := ht a (Or.inr (Or.inr ha))
      rcases hb with hb | rfl | hb
      · have := hcmp.lt_trans (ht b (Or.inl hb)) hkey hsa (hlt b hb) (hgt a ha)
        omega
      · have := hgt a ha
        omega
      · exact ihRight (fun c hc => ht c (Or.inr (Or.inr hc))) hright ha hb

end Comparison

end SearchTree
