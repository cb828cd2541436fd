import Mathlib.Data.String.Basic
import Mathlib.Order.Basic
import Mathlib.Data.List.Pairwise

/-!
# Ordered maps

A finite map as the list of its entries in ascending key order, which is what an iteration over a
search tree sees.

* `OrdMap.insert` — refuses a key that is there already.
* `OrdMap.ext_get` — a map is determined by its lookups.
* `OrdMap.get_insert`, `get_remove`, `get_adjust`, `get_filterMap` — lookups after an operation.
-/

set_option autoImplicit false

/-- A map from `κ` to `α`, its entries in ascending key order. -/
structure OrdMap (κ α : Type) [LinearOrder κ] where
  entries : List (κ × α)
  sorted : entries.Pairwise (·.1 < ·.1)

namespace OrdMap

variable {κ α β : Type} [LinearOrder κ]

def empty : OrdMap κ α := ⟨[], List.Pairwise.nil⟩

/-- Lookup in a list of entries. -/
def lookup (k : κ) : List (κ × α) → Option α
  | [] => none
  | e :: l => if e.1 = k then some e.2 else lookup k l

def get (m : OrdMap κ α) (k : κ) : Option α := lookup k m.entries

def size (m : OrdMap κ α) : Nat := m.entries.length

def values (m : OrdMap κ α) : List α := m.entries.map Prod.snd

/-- Put an entry at its place. -/
def insertEntry (k : κ) (a : α) : List (κ × α) → List (κ × α)
  | [] => [(k, a)]
  | e :: l => if k < e.1 then (k, a) :: e :: l else e :: insertEntry k a l

theorem lookup_eq_none_iff {k : κ} {l : List (κ × α)} : lookup k l = none ↔ ∀ e ∈ l, e.1 ≠ k := by
  induction l with
  | nil => simp [lookup]
  | cons e l ih =>
    by_cases h : e.1 = k
    · simp [lookup, h]
    · simp [lookup, h, ih]

theorem mem_insertEntry {k : κ} {a : α} {l : List (κ × α)} {e : κ × α} :
    e ∈ insertEntry k a l ↔ e = (k, a) ∨ e ∈ l := by
  induction l with
  | nil => simp [insertEntry]
  | cons x l ih =>
    unfold insertEntry
    split
    · simp
    · simp only [List.mem_cons, ih]
      tauto

theorem length_insertEntry (k : κ) (a : α) (l : List (κ × α)) :
    (insertEntry k a l).length = l.length + 1 := by
  induction l with
  | nil => rfl
  | cons e l ih =>
    unfold insertEntry
    split
    · rfl
    · simp [ih]

theorem insertEntry_sorted {k : κ} {a : α} {l : List (κ × α)} (hs : l.Pairwise (·.1 < ·.1))
    (hk : lookup k l = none) : (insertEntry k a l).Pairwise (·.1 < ·.1) := by
  induction l with
  | nil => exact List.pairwise_singleton _ _
  | cons e l ih =>
    rw [lookup_eq_none_iff] at hk
    obtain ⟨he, hl⟩ := List.pairwise_cons.1 hs
    unfold insertEntry
    split
    · rename_i hlt
      refine List.pairwise_cons.2 ⟨fun x hx => ?_, hs⟩
      rcases List.mem_cons.1 hx with rfl | hx
      · exact hlt
      · exact lt_trans hlt (he x hx)
    · rename_i hge
      have hne : e.1 ≠ k := hk e (List.mem_cons_self ..)
      refine List.pairwise_cons.2 ⟨fun x hx => ?_, ih hl (lookup_eq_none_iff.2 fun x hx =>
        hk x (List.mem_cons_of_mem _ hx))⟩
      rcases mem_insertEntry.1 hx with rfl | hx
      · exact lt_of_le_of_ne (not_lt.1 hge) hne
      · exact he x hx

/-- Insert a new entry; `none` when the key is in use. -/
def insert (m : OrdMap κ α) (k : κ) (a : α) : Option (OrdMap κ α) :=
  if h : m.get k = none then some ⟨insertEntry k a m.entries, insertEntry_sorted m.sorted h⟩ else none

def remove (m : OrdMap κ α) (k : κ) : OrdMap κ α :=
  ⟨m.entries.filter (·.1 ≠ k), m.sorted.filter _⟩

/-- Change the value of a key in place. -/
def adjust (m : OrdMap κ α) (k : κ) (f : α → α) : OrdMap κ α :=
  ⟨m.entries.map fun e => (e.1, if e.1 = k then f e.2 else e.2), List.pairwise_map.2 m.sorted⟩

/-- Change every value in place. -/
def map (m : OrdMap κ α) (f : α → β) : OrdMap κ β :=
  ⟨m.entries.map fun e => (e.1, f e.2), List.pairwise_map.2 m.sorted⟩

/-- Keep the entries `f` has a value for. -/
def filterMap (m : OrdMap κ α) (f : α → Option β) : OrdMap κ β where
  entries := m.entries.filterMap fun e => (f e.2).map (e.1, ·)
  sorted := by
    refine List.pairwise_filterMap.2 (m.sorted.imp fun {e e'} h b hb b' hb' => ?_)
    obtain ⟨_, _, rfl⟩ := Option.map_eq_some_iff.1 hb
    obtain ⟨_, _, rfl⟩ := Option.map_eq_some_iff.1 hb'
    exact h

/-! ## Operations at a known place -/

theorem insertEntry_append {k : κ} {a : α} {l l' : List (κ × α)} (h : ∀ e ∈ l, e.1 < k)
    (h' : ∀ e ∈ l', k < e.1) : insertEntry k a (l ++ l') = l ++ (k, a) :: l' := by
  induction l with
  | nil =>
    cases l' with
    | nil => rfl
    | cons e l' => simp [insertEntry, h' e]
  | cons e l ih =>
    have hk : ¬k < e.1 := not_lt.2 (h e (by simp)).le
    rw [List.cons_append, insertEntry, if_neg hk, ih fun x hx => h x (by simp [hx])]
    rfl

/-- Around an entry are other keys only. -/
theorem ne_of_entries_eq {m : OrdMap κ α} {l l' : List (κ × α)} {e : κ × α}
    (h : m.entries = l ++ e :: l') : (∀ x ∈ l, x.1 ≠ e.1) ∧ ∀ x ∈ l', x.1 ≠ e.1 := by
  have hs := m.sorted
  rw [h] at hs
  obtain ⟨-, hs', hcross⟩ := List.pairwise_append.1 hs
  exact ⟨fun x hx => (hcross x hx e (by simp)).ne, fun x hx => ((List.pairwise_cons.1 hs').1 x hx).ne'⟩

theorem entries_remove {m : OrdMap κ α} {l l' : List (κ × α)} {e : κ × α}
    (h : m.entries = l ++ e :: l') : (m.remove e.1).entries = l ++ l' := by
  obtain ⟨hl, hl'⟩ := ne_of_entries_eq h
  have hrem : (m.remove e.1).entries = m.entries.filter (·.1 ≠ e.1) := rfl
  rw [hrem, h, List.filter_append, List.filter_cons_of_neg (by simp),
    List.filter_eq_self.2 (by simpa using hl), List.filter_eq_self.2 (by simpa using hl')]

theorem entries_adjust {m : OrdMap κ α} {l l' : List (κ × α)} {e : κ × α}
    (h : m.entries = l ++ e :: l') (f : α → α) :
    (m.adjust e.1 f).entries = l ++ (e.1, f e.2) :: l' := by
  obtain ⟨hl, hl'⟩ := ne_of_entries_eq h
  have hid : ∀ x : List (κ × α), (∀ y ∈ x, y.1 ≠ e.1) →
      x.map (fun y => (y.1, if y.1 = e.1 then f y.2 else y.2)) = x := fun x hx =>
    (List.map_congr_left fun y hy => by rw [if_neg (hx y hy)]; rfl).trans (List.map_id x)
  have hadj : (m.adjust e.1 f).entries =
      m.entries.map fun y => (y.1, if y.1 = e.1 then f y.2 else y.2) := rfl
  rw [hadj, h, List.map_append, List.map_cons, hid l hl, hid l' hl', if_pos rfl]

/-! ## Lookups -/

@[simp] theorem get_empty (k : κ) : (empty : OrdMap κ α).get k = none := rfl

theorem lookup_of_mem {l : List (κ × α)} (hs : l.Pairwise (·.1 < ·.1)) {k : κ} {a : α}
    (h : (k, a) ∈ l) : lookup k l = some a := by
  induction l with
  | nil => cases h
  | cons e l ih =>
    obtain ⟨he, hl⟩ := List.pairwise_cons.1 hs
    unfold lookup
    rcases List.mem_cons.1 h with rfl | h
    · rw [if_pos rfl]
    · rw [if_neg (he _ h).ne, ih hl h]

theorem mem_of_lookup {l : List (κ × α)} {k : κ} {a : α} (h : lookup k l = some a) : (k, a) ∈ l := by
  induction l with
  | nil => cases h
  | cons e l ih =>
    unfold lookup at h
    split at h
    · rename_i hk
      cases h
      subst hk
      exact List.mem_cons_self ..
    · exact List.mem_cons_of_mem _ (ih h)

theorem mem_iff_get {m : OrdMap κ α} {k : κ} {a : α} : (k, a) ∈ m.entries ↔ m.get k = some a :=
  ⟨lookup_of_mem m.sorted, mem_of_lookup⟩

theorem mem_values_iff {m : OrdMap κ α} {a : α} : a ∈ m.values ↔ ∃ k, m.get k = some a := by
  rw [values, List.mem_map]
  constructor
  · rintro ⟨⟨k, b⟩, h, rfl⟩
    exact ⟨k, mem_iff_get.1 h⟩
  · rintro ⟨k, h⟩
    exact ⟨(k, a), mem_iff_get.2 h, rfl⟩

/-- **A map is determined by its lookups.** -/
theorem ext_get {m m' : OrdMap κ α} (h : ∀ k, m.get k = m'.get k) : m = m' := by
  have hp : m.entries.Perm m'.entries := by
    refine (List.perm_ext_iff_of_nodup ?_ ?_).2 fun ⟨k, a⟩ => by rw [mem_iff_get, mem_iff_get, h]
    · exact m.sorted.imp fun hlt he => absurd (he ▸ hlt) (lt_irrefl _)
    · exact m'.sorted.imp fun hlt he => absurd (he ▸ hlt) (lt_irrefl _)
  obtain ⟨l, hs⟩ := m
  obtain ⟨l', hs'⟩ := m'
  congr 1
  refine List.Perm.eq_of_pairwise ?_ hs hs' hp
  intro a b _ _ hab hba
  exact absurd (lt_trans hab hba) (lt_irrefl _)

theorem get_eq_of_mem_iff {m : OrdMap κ α} {k : κ} {x : Option α}
    (h : ∀ a, (k, a) ∈ m.entries ↔ x = some a) : m.get k = x := by
  cases x with
  | none =>
    rw [get, lookup_eq_none_iff]
    rintro ⟨k', a⟩ he rfl
    exact absurd ((h a).1 he) (by simp)
  | some a => exact mem_iff_get.1 ((h a).2 rfl)

theorem insert_eq_none_iff {m : OrdMap κ α} {k : κ} {a : α} :
    m.insert k a = none ↔ m.get k ≠ none := by
  unfold insert
  split <;> simp_all

theorem get_insert {m m' : OrdMap κ α} {k : κ} {a : α} (h : m.insert k a = some m') (k' : κ) :
    m'.get k' = if k' = k then some a else m.get k' := by
  unfold insert at h
  split at h
  · rename_i hnone
    cases h
    refine get_eq_of_mem_iff fun b => ?_
    rw [mem_insertEntry, mem_iff_get, Prod.mk.injEq]
    by_cases hk : k' = k
    · subst hk
      simp [hnone, eq_comm]
    · simp [hk]
  · cases h

theorem get_remove (m : OrdMap κ α) (k k' : κ) :
    (m.remove k).get k' = if k' = k then none else m.get k' := by
  refine get_eq_of_mem_iff fun b => ?_
  rw [remove, List.mem_filter, mem_iff_get]
  by_cases hk : k' = k <;> simp [hk]

theorem get_adjust (m : OrdMap κ α) (k k' : κ) (f : α → α) :
    (m.adjust k f).get k' = if k' = k then (m.get k').map f else m.get k' := by
  refine get_eq_of_mem_iff fun b => ?_
  rw [adjust, List.mem_map]
  constructor
  · rintro ⟨⟨k₀, a⟩, he, h⟩
    obtain ⟨rfl, rfl⟩ := Prod.mk.inj h
    rw [mem_iff_get] at he
    by_cases hk : k₀ = k
    · rw [if_pos hk, he, if_pos hk]
      rfl
    · rw [if_neg hk, he, if_neg hk]
  · intro h
    by_cases hk : k' = k
    · rw [if_pos hk, Option.map_eq_some_iff] at h
      obtain ⟨a, ha, rfl⟩ := h
      exact ⟨(k', a), mem_iff_get.2 ha, by simp [hk]⟩
    · rw [if_neg hk] at h
      exact ⟨(k', b), mem_iff_get.2 h, by simp [hk]⟩

theorem get_map (m : OrdMap κ α) (f : α → β) (k : κ) : (m.map f).get k = (m.get k).map f := by
  refine get_eq_of_mem_iff fun b => ?_
  rw [map, List.mem_map, Option.map_eq_some_iff]
  constructor
  · rintro ⟨⟨k₀, a⟩, he, h⟩
    obtain ⟨rfl, rfl⟩ := Prod.mk.inj h
    exact ⟨a, mem_iff_get.1 he, rfl⟩
  · rintro ⟨a, ha, rfl⟩
    exact ⟨(k, a), mem_iff_get.2 ha, rfl⟩

theorem get_filterMap (m : OrdMap κ α) (f : α → Option β) (k : κ) :
    (m.filterMap f).get k = (m.get k).bind f := by
  refine get_eq_of_mem_iff fun b => ?_
  rw [filterMap, List.mem_filterMap, Option.bind_eq_some_iff]
  constructor
  · rintro ⟨⟨k₀, a⟩, he, h⟩
    obtain ⟨c, hc, h⟩ := Option.map_eq_some_iff.1 h
    obtain ⟨rfl, rfl⟩ := Prod.mk.inj h
    exact ⟨a, mem_iff_get.1 he, hc⟩
  · rintro ⟨a, ha, hb⟩
    exact ⟨(k, a), mem_iff_get.2 ha, by simp [hb]⟩

/-! ## All values -/

theorem any_values_iff {m : OrdMap κ α} {f : α → Bool} :
    m.values.any f = true ↔ ∃ k a, m.get k = some a ∧ f a = true := by
  rw [List.any_eq_true]
  constructor
  · rintro ⟨a, ha, hf⟩
    obtain ⟨k, hk⟩ := mem_values_iff.1 ha
    exact ⟨k, a, hk, hf⟩
  · rintro ⟨k, a, hk, hf⟩
    exact ⟨a, mem_values_iff.2 ⟨k, hk⟩, hf⟩

theorem mem_values_adjust {m : OrdMap κ α} {k : κ} {a b : α}
    (h : b ∈ (m.adjust k fun _ => a).values) : b = a ∨ b ∈ m.values := by
  obtain ⟨k', hk'⟩ := mem_values_iff.1 h
  rw [get_adjust] at hk'
  split at hk'
  · obtain ⟨_, _, rfl⟩ := Option.map_eq_some_iff.1 hk'
    exact .inl rfl
  · exact .inr (mem_values_iff.2 ⟨k', hk'⟩)

theorem mem_values_remove {m : OrdMap κ α} {k : κ} {b : α} (h : b ∈ (m.remove k).values) :
    b ∈ m.values := by
  obtain ⟨k', hk'⟩ := mem_values_iff.1 h
  rw [get_remove] at hk'
  split at hk'
  · cases hk'
  · exact mem_values_iff.2 ⟨k', hk'⟩

theorem mem_values_insert {m m' : OrdMap κ α} {k : κ} {a b : α} (hi : m.insert k a = some m')
    (h : b ∈ m'.values) : b = a ∨ b ∈ m.values := by
  obtain ⟨k', hk'⟩ := mem_values_iff.1 h
  rw [get_insert hi] at hk'
  split at hk'
  · cases hk'
    exact .inl rfl
  · exact .inr (mem_values_iff.2 ⟨k', hk'⟩)

/-- A replaced value that a test does not tell from the old one. -/
theorem any_adjust {m : OrdMap κ α} {k : κ} {a b : α} {f : α → Bool} (h : m.get k = some a)
    (hf : f b = f a) : (m.adjust k fun _ => b).values.any f = m.values.any f := by
  rw [Bool.eq_iff_iff, any_values_iff, any_values_iff]
  constructor
  · rintro ⟨k', c, hc, ht⟩
    rw [get_adjust] at hc
    split at hc
    · rename_i hk
      subst hk
      obtain ⟨_, _, rfl⟩ := Option.map_eq_some_iff.1 hc
      exact ⟨k', a, h, hf ▸ ht⟩
    · exact ⟨k', c, hc, ht⟩
  · rintro ⟨k', c, hc, ht⟩
    by_cases hk : k' = k
    · subst hk
      obtain rfl : a = c := Option.some.inj (h.symm.trans hc)
      exact ⟨k', b, by rw [get_adjust, if_pos rfl, h]; rfl, hf.trans ht⟩
    · exact ⟨k', c, by rw [get_adjust, if_neg hk]; exact hc, ht⟩

/-- A removed value that a test does not hold of. -/
theorem any_remove {m : OrdMap κ α} {k : κ} {a : α} {f : α → Bool} (h : m.get k = some a)
    (hf : f a = false) : (m.remove k).values.any f = m.values.any f := by
  rw [Bool.eq_iff_iff, any_values_iff, any_values_iff]
  constructor
  · rintro ⟨k', c, hc, ht⟩
    rw [get_remove] at hc
    split at hc
    · cases hc
    · exact ⟨k', c, hc, ht⟩
  · rintro ⟨k', c, hc, ht⟩
    by_cases hk : k' = k
    · subst hk
      obtain rfl : a = c := Option.some.inj (h.symm.trans hc)
      rw [hf] at ht
      cases ht
    · exact ⟨k', c, by rw [get_remove, if_neg hk]; exact hc, ht⟩

theorem map_map {γ : Type} (m : OrdMap κ α) (f : α → β) (g : β → γ) :
    (m.map f).map g = m.map fun a => g (f a) := by
  refine ext_get fun k => ?_
  rw [get_map, get_map, get_map, Option.map_map]
  rfl

theorem map_congr {m : OrdMap κ α} {f g : α → β} (h : ∀ a ∈ m.values, f a = g a) :
    m.map f = m.map g := by
  refine ext_get fun k => ?_
  rw [get_map, get_map]
  cases hk : m.get k with
  | none => rfl
  | some a => rw [Option.map_some, Option.map_some, h a (mem_values_iff.2 ⟨k, hk⟩)]

theorem size_filterMap (m : OrdMap κ α) (p : α → Bool) (f : α → β) :
    (m.filterMap fun a => if p a then some (f a) else none).size = m.values.countP p := by
  obtain ⟨l, hs⟩ := m
  unfold size filterMap values
  simp only
  clear hs
  induction l with
  | nil => rfl
  | cons e l ih =>
    rw [List.map_cons, List.countP_cons, ← ih]
    by_cases hp : p e.2 = true
    · simp [hp]
    · simp [hp]

end OrdMap
