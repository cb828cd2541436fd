import Mathlib.Data.List.Nodup
import Mathlib.Data.List.Basic
import Mathlib.Logic.Function.Basic

/-!
# Lists with a key

A singly linked list whose nodes are told apart by a key, as the finite map from a key to its node.
As long as no key occurs twice, prepending a node with a new key, changing and unlinking the first
node with a key are the operations of the map, and the order of the list does not matter.

* `Keyed` — no key occurs twice; `Keyed.storeCheck`, `Keyed.delete`, `Keyed.modify` keep it.
* `find_storeCheck`, `find_delete`, `find_modify` — the list operations are the map operations.
* `Keyed.find_perm`, `find_copy` — a reordered list, and a copied one, are the same map.
-/

set_option autoImplicit false

/-! ## Finite maps -/

/-- A map from keys to values. -/
abbrev KeyMap (κ β : Type) := κ → Option β

namespace KeyMap

variable {κ β : Type} [DecidableEq κ]

def insertIfAbsent (m : KeyMap κ β) (k : κ) (b : β) : KeyMap κ β :=
  if (m k).isSome then m else Function.update m k (some b)

def updateIfPresent (m : KeyMap κ β) (k : κ) (f : β → β) : KeyMap κ β :=
  Function.update m k ((m k).map f)

def remove (m : KeyMap κ β) (k : κ) : KeyMap κ β := Function.update m k none

end KeyMap

namespace KeyedList

variable {α β κ : Type} {key : α → κ} {l l' : List α}

/-! ## The operations -/

/-- No key occurs twice. -/
def Keyed (key : α → κ) (l : List α) : Prop := (l.map key).Nodup

section Operations

variable [DecidableEq κ] (key : α → κ)

/-- The first node with the key. -/
def find (l : List α) (k : κ) : Option α := l.find? (key · = k)

/-- Prepend a node unless there is one with its key. -/
def storeCheck (l : List α) (a : α) : List α :=
  if (find key l (key a)).isSome then l else a :: l

/-- Unlink the first node with the key. -/
def delete (l : List α) (k : κ) : List α := l.eraseP (key · = k)

/-- Change the first node with the key. -/
def modify (k : κ) (f : α → α) : List α → List α
  | [] => []
  | a :: l => if key a = k then f a :: l else a :: modify k f l

end Operations

/-- Copy node by node, each to the front. -/
def copy (f : α → α) (l : List α) : List α := l.foldl (fun acc a => f a :: acc) []

theorem copy_eq (f : α → α) (l : List α) : copy f l = (l.map f).reverse := by
  have hstep : ∀ (l acc : List α), l.foldl (fun acc a => f a :: acc) acc = (l.map f).reverse ++ acc := by
    intro l
    induction l with
    | nil => exact fun acc => rfl
    | cons a l ih =>
      intro acc
      rw [List.foldl_cons, ih, List.map_cons, List.reverse_cons, List.append_assoc]
      rfl
  rw [copy, hstep, List.append_nil]

/-! ## Unique keys -/

theorem keyed_nil : Keyed key [] := List.nodup_nil

theorem Keyed.perm (h : Keyed key l) (hp : l.Perm l') : Keyed key l' :=
  ((hp.map key).nodup_iff).1 h

theorem Keyed.map {f : α → α} (hf : ∀ a, key (f a) = key a) (h : Keyed key l) :
    Keyed key (l.map f) := by
  unfold Keyed
  rw [List.map_map, show key ∘ f = key from funext hf]
  exact h

theorem Keyed.copy {f : α → α} (hf : ∀ a, key (f a) = key a) (h : Keyed key l) :
    Keyed key (copy f l) := by
  rw [copy_eq]
  exact (h.map hf).perm (List.reverse_perm _).symm

/-! ## Lookups -/

variable [DecidableEq κ]

@[simp]
theorem find_nil (k : κ) : find key [] k = none := rfl

theorem find_cons (a : α) (l : List α) (k : κ) :
    find key (a :: l) k = if key a = k then some a else find key l k := by
  unfold find
  rw [List.find?_cons]
  split <;> simp_all

theorem mem_of_find {a : α} {k : κ} (h : find key l k = some a) : a ∈ l ∧ key a = k :=
  ⟨List.mem_of_find?_eq_some h, by simpa using List.find?_some h⟩

theorem find_eq_none_iff {k : κ} : find key l k = none ↔ k ∉ l.map key := by
  simp [find]

theorem Keyed.find_of_mem (h : Keyed key l) {a : α} (ha : a ∈ l) : find key l (key a) = some a := by
  induction l with
  | nil => cases ha
  | cons x l ih =>
    obtain ⟨hx, hl⟩ := List.nodup_cons.1 h
    rw [find_cons]
    rcases List.mem_cons.1 ha with rfl | ha
    · rw [if_pos rfl]
    · have hne : key x ≠ key a := fun heq => hx (List.mem_map.2 ⟨a, ha, heq.symm⟩)
      rw [if_neg hne, ih hl ha]

theorem Keyed.find_eq_some_iff (h : Keyed key l) {a : α} {k : κ} :
    find key l k = some a ↔ a ∈ l ∧ key a = k := by
  constructor
  · exact mem_of_find
  · rintro ⟨ha, rfl⟩
    exact h.find_of_mem ha

theorem Keyed.find_perm (h : Keyed key l) (hp : l.Perm l') : find key l' = find key l := by
  funext k
  refine Option.ext fun a => ?_
  rw [(h.perm hp).find_eq_some_iff, h.find_eq_some_iff, hp.mem_iff]

theorem find_map {f : α → β} {key' : β → κ} (hf : ∀ a, key' (f a) = key a) (l : List α) (k : κ) :
    find key' (l.map f) k = (find key l k).map f := by
  induction l with
  | nil => rfl
  | cons a l ih =>
    rw [List.map_cons, find_cons, find_cons, hf, ih]
    split <;> rfl

theorem find_copy {f : α → α} (hf : ∀ a, key (f a) = key a) (h : Keyed key l) (k : κ) :
    find key (KeyedList.copy f l) k = (find key l k).map f := by
  rw [copy_eq, (h.map hf).find_perm (List.reverse_perm _).symm, find_map hf]

/-! ## Insertion -/

theorem Keyed.storeCheck (h : Keyed key l) (a : α) : Keyed key (storeCheck key l a) := by
  unfold KeyedList.storeCheck
  split
  · exact h
  · rename_i hnone
    rw [Option.not_isSome_iff_eq_none, find_eq_none_iff] at hnone
    exact List.nodup_cons.2 ⟨hnone, h⟩

theorem find_storeCheck (l : List α) (a : α) :
    find key (storeCheck key l a) = KeyMap.insertIfAbsent (find key l) (key a) a := by
  unfold storeCheck KeyMap.insertIfAbsent
  split
  · rfl
  · funext k
    rw [find_cons, Function.update_apply]
    exact if_congr eq_comm rfl rfl

/-! ## Removal -/

theorem delete_cons (a : α) (l : List α) (k : κ) :
    delete key (a :: l) k = if key a = k then l else a :: delete key l k := by
  unfold delete
  rw [List.eraseP_cons]
  split <;> simp_all

theorem Keyed.delete (h : Keyed key l) (k : κ) : Keyed key (delete key l k) :=
  h.sublist (List.eraseP_sublist.map key)

theorem find_delete (h : Keyed key l) (k : κ) :
    find key (delete key l k) = KeyMap.remove (find key l) k := by
  funext k'
  unfold KeyMap.remove
  rw [Function.update_apply]
  induction l with
  | nil => simp [KeyedList.delete]
  | cons a l ih =>
    obtain ⟨ha, hl⟩ := List.nodup_cons.1 h
    rw [delete_cons, find_cons]
    by_cases hk : key a = k
    · subst hk
      rw [if_pos rfl]
      by_cases hk' : k' = key a
      · rw [if_pos hk', hk', find_eq_none_iff]
        exact ha
      · rw [if_neg hk', if_neg fun heq => hk' heq.symm]
    · rw [if_neg hk, find_cons, ih hl]
      by_cases hk' : key a = k'
      · rw [if_pos hk', if_pos hk', if_neg fun heq => hk (hk'.trans heq)]
      · rw [if_neg hk', if_neg hk']

/-! ## Change -/

theorem map_key_modify {f : α → α} (hf : ∀ a, key (f a) = key a) (k : κ) (l : List α) :
    (modify key k f l).map key = l.map key := by
  induction l with
  | nil => rfl
  | cons a l ih =>
    unfold modify
    split
    · rw [List.map_cons, List.map_cons, hf]
    · rw [List.map_cons, List.map_cons, ih]

theorem Keyed.modify {f : α → α} (hf : ∀ a, key (f a) = key a) (h : Keyed key l) (k : κ) :
    Keyed key (modify key k f l) := by
  unfold Keyed
  rw [map_key_modify hf]
  exact h

theorem find_modify {f : α → α} (hf : ∀ a, key (f a) = key a) (k : κ) (l : List α) :
    find key (modify key k f l) = KeyMap.updateIfPresent (find key l) k f := by
  funext k'
  unfold KeyMap.updateIfPresent
  rw [Function.update_apply]
  induction l with
  | nil => simp [KeyedList.modify]
  | cons a l ih =>
    unfold KeyedList.modify
    rw [find_cons, find_cons]
    by_cases hk : key a = k
    · rw [if_pos hk, if_pos hk, find_cons, hf, hk]
      by_cases hk' : k = k'
      · rw [if_pos hk', if_pos hk'.symm, Option.map_some]
      · rw [if_neg hk', if_neg (Ne.symm hk'), if_neg hk']
    · rw [if_neg hk, if_neg hk, find_cons, ih]
      by_cases hk' : key a = k'
      · rw [if_pos hk', if_pos hk', if_neg fun heq => hk (hk'.trans heq)]
      · rw [if_neg hk', if_neg hk']

/-- A change, seen through a map of the nodes. -/
theorem map_modify {t : α → β} {key' : β → κ} (ht : ∀ a, key' (t a) = key a) {f : α → α} {g : β → β}
    (k : κ) (h : ∀ a ∈ l, t (f a) = g (t a)) :
    (modify key k f l).map t = modify key' k g (l.map t) := by
  induction l with
  | nil => rfl
  | cons a l ih =>
    rw [List.map_cons, KeyedList.modify, KeyedList.modify, ht]
    have hl := ih fun x hx => h x (List.mem_cons_of_mem _ hx)
    split
    · rw [List.map_cons, h a (List.mem_cons_self ..)]
    · rw [List.map_cons, hl]

/-- What holds of the nodes holds after a change of one of them. -/
theorem forall_modify {P : α → Prop} {f : α → α} (hf : ∀ a, P a → P (f a)) (k : κ)
    (h : ∀ a ∈ l, P a) : ∀ a ∈ modify key k f l, P a := by
  induction l with
  | nil => exact h
  | cons x l ih =>
    intro a ha
    have hx := h x (List.mem_cons_self ..)
    have hl := fun a ha => h a (List.mem_cons_of_mem _ ha)
    unfold KeyedList.modify at ha
    split at ha
    · rcases List.mem_cons.1 ha with rfl | ha
      · exact hf _ hx
      · exact hl a ha
    · rcases List.mem_cons.1 ha with rfl | ha
      · exact hx
      · exact ih hl a ha

theorem mem_of_mem_storeCheck {a x : α} (h : x ∈ storeCheck key l a) : x = a ∨ x ∈ l := by
  unfold storeCheck at h
  split at h
  · exact .inr h
  · exact List.mem_cons.1 h

theorem mem_of_mem_delete {x : α} {k : κ} (h : x ∈ delete key l k) : x ∈ l :=
  List.mem_of_mem_eraseP h

end KeyedList
