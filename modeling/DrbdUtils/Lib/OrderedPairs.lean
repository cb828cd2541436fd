import Mathlib.Data.List.Pairwise
import Mathlib.Order.Lattice

/-!
# Lists of pairs ordered by their keys

A key may occur several times; the values it occurs with are those of the list in their order.
`Covers exact l m` compares two such lists key by key.  For ordered lists the comparison can be made
by a merge, which looks at the first pairs only.

* `not_covers_cons_lt`, `covers_cons_gt`, `covers_cons_eq` — the three steps of the merge.
-/

set_option autoImplicit false

namespace DrbdUtils.Lib.OrderedPairs

variable {κ φ : Type*}

section Values

variable [DecidableEq κ]

/-- The values with key `k`, in the order of the list. -/
def valuesAt (k : κ) (l : List (κ × φ)) : List φ := (l.filter (·.1 = k)).map (·.2)

@[simp]
theorem valuesAt_nil (k : κ) : valuesAt k ([] : List (κ × φ)) = [] := rfl

theorem valuesAt_cons_self (p : κ × φ) (l : List (κ × φ)) :
    valuesAt p.1 (p :: l) = p.2 :: valuesAt p.1 l := by
  simp [valuesAt]

theorem valuesAt_cons_ne {k : κ} {p : κ × φ} (h : p.1 ≠ k) (l : List (κ × φ)) :
    valuesAt k (p :: l) = valuesAt k l := by
  simp [valuesAt, h]

theorem valuesAt_eq_nil {k : κ} {l : List (κ × φ)} (h : ∀ p ∈ l, p.1 ≠ k) : valuesAt k l = [] := by
  simpa [valuesAt] using fun a b hab => h (a, b) hab

theorem mem_valuesAt {k : κ} {f : φ} {l : List (κ × φ)} : f ∈ valuesAt k l ↔ (k, f) ∈ l := by
  simp [valuesAt]

/-- Key by key, the values of `l` are the first values of `m`, and all of them if `exact`. -/
def Covers (exact : Bool) (l m : List (κ × φ)) : Prop :=
  ∀ k, valuesAt k l <+: valuesAt k m ∧
    (exact = true → (valuesAt k m).length = (valuesAt k l).length)

theorem Covers.mem {exact : Bool} {l m : List (κ × φ)} (h : Covers exact l m) {p : κ × φ}
    (hp : p ∈ l) : p ∈ m :=
  mem_valuesAt.1 ((h p.1).1.subset (mem_valuesAt.2 hp))

@[simp]
theorem covers_nil (exact : Bool) : Covers exact ([] : List (κ × φ)) [] := by
  intro k
  simp

theorem not_covers_cons_nil (exact : Bool) (p : κ × φ) (l : List (κ × φ)) :
    ¬ Covers exact (p :: l) [] := by
  intro h
  simpa using h.mem (List.mem_cons_self ..)

theorem covers_nil_cons (exact : Bool) (q : κ × φ) (m : List (κ × φ)) :
    Covers exact [] (q :: m) ↔ exact = false := by
  constructor
  · intro h
    have hq := (h q.1).2
    rw [valuesAt_cons_self] at hq
    simpa using hq
  · rintro rfl k
    simp

/-- Pairs with one key at the front are compared with each other. -/
theorem covers_cons_eq {exact : Bool} {p q : κ × φ} (hpq : p.1 = q.1) (l m : List (κ × φ)) :
    Covers exact (p :: l) (q :: m) ↔ p.2 = q.2 ∧ Covers exact l m := by
  have hself : valuesAt q.1 (p :: l) = p.2 :: valuesAt q.1 l := hpq ▸ valuesAt_cons_self p l
  constructor
  · intro h
    have hq := h q.1
    rw [hself, valuesAt_cons_self, List.cons_prefix_cons] at hq
    refine ⟨hq.1.1, fun k => ?_⟩
    by_cases hk : q.1 = k
    · subst hk
      exact ⟨hq.1.2, by simpa using hq.2⟩
    · have hk' := h k
      rwa [valuesAt_cons_ne (hpq ▸ hk), valuesAt_cons_ne hk] at hk'
  · rintro ⟨hval, h⟩ k
    by_cases hk : q.1 = k
    · subst hk
      rw [hself, valuesAt_cons_self, List.cons_prefix_cons]
      exact ⟨⟨hval, (h q.1).1⟩, by simpa using (h q.1).2⟩
    · rw [valuesAt_cons_ne (hpq ▸ hk), valuesAt_cons_ne hk]
      exact h k

/-! ## Unique keys -/

theorem length_valuesAt (k : κ) (l : List (κ × φ)) :
    (valuesAt k l).length = (l.map (·.1)).count k := by
  induction l with
  | nil => rfl
  | cons p l ih =>
    by_cases h : p.1 = k
    · subst h
      rw [valuesAt_cons_self, List.map_cons, List.count_cons_self, List.length_cons, ih]
    · rw [valuesAt_cons_ne h, List.map_cons, List.count_cons_of_ne h, ih]

/-- A key that occurs once only has the value it occurs with. -/
theorem valuesAt_of_nodup {l : List (κ × φ)} (hl : (l.map (·.1)).Nodup) {k : κ} {f : φ}
    (h : (k, f) ∈ l) : valuesAt k l = [f] := by
  have hlen : (valuesAt k l).length ≤ 1 := by
    rw [length_valuesAt]
    exact List.nodup_iff_count.1 hl k
  have hf := mem_valuesAt.2 h
  match hv : valuesAt k l with
  | [] => simp [hv] at hf
  | [g] =>
    rw [hv, List.mem_singleton] at hf
    rw [hf]
  | _ :: _ :: _ => simp [hv] at hlen

/-- **Covering with unique keys** is inclusion, and with `exact` there are no additional keys. -/
theorem covers_iff_of_nodup {exact : Bool} {l m : List (κ × φ)} (hl : (l.map (·.1)).Nodup)
    (hm : (m.map (·.1)).Nodup) :
    Covers exact l m ↔
      (∀ p ∈ l, p ∈ m) ∧ (exact = true → ∀ q ∈ m, q.1 ∈ l.map (·.1)) := by
  constructor
  · intro h
    refine ⟨fun p hp => h.mem hp, fun hexact q hq => ?_⟩
    have hlen := (h q.1).2 hexact
    rw [length_valuesAt, length_valuesAt] at hlen
    apply List.count_pos_iff.1
    rw [← hlen]
    exact List.count_pos_iff.2 (List.mem_map_of_mem hq)
  · rintro ⟨hsub, hkeys⟩ k
    by_cases hk : k ∈ l.map (·.1)
    · obtain ⟨p, hp, rfl⟩ := List.mem_map.1 hk
      rw [valuesAt_of_nodup hl hp, valuesAt_of_nodup hm (hsub p hp)]
      exact ⟨List.prefix_rfl, fun _ => rfl⟩
    · have hnil : valuesAt k l = [] := valuesAt_eq_nil fun p hp h => hk (h ▸ List.mem_map_of_mem hp)
      refine ⟨hnil ▸ List.nil_prefix, fun hexact => ?_⟩
      have hnil' : valuesAt k m = [] := by
        apply valuesAt_eq_nil
        rintro q hq rfl
        exact hk (hkeys hexact q hq)
      rw [hnil, hnil']

end Values

section Ordered

variable [LinearOrder κ]

/-- The keys do not decrease. -/
def Ordered (l : List (κ × φ)) : Prop := l.Pairwise (·.1 ≤ ·.1)

theorem Ordered.tail {p : κ × φ} {l : List (κ × φ)} (h : Ordered (p :: l)) : Ordered l :=
  (List.pairwise_cons.1 h).2

/-- A key below the first one does not occur. -/
theorem Ordered.valuesAt_of_lt {k : κ} {p : κ × φ} {l : List (κ × φ)} (h : Ordered (p :: l))
    (hk : k < p.1) : valuesAt k (p :: l) = [] := by
  apply valuesAt_eq_nil
  intro q hq
  rcases List.mem_cons.1 hq with rfl | hq
  · exact hk.ne'
  · exact (hk.trans_le ((List.pairwise_cons.1 h).1 q hq)).ne'

theorem not_covers_cons_lt {exact : Bool} {p q : κ × φ} {l m : List (κ × φ)} (hm : Ordered (q :: m))
    (hpq : p.1 < q.1) : ¬ Covers exact (p :: l) (q :: m) := by
  intro h
  have hp := (h p.1).1
  rw [hm.valuesAt_of_lt hpq, valuesAt_cons_self] at hp
  simp at hp

theorem covers_cons_gt {exact : Bool} {p q : κ × φ} {l m : List (κ × φ)} (hl : Ordered (p :: l))
    (hqp : q.1 < p.1) :
    Covers exact (p :: l) (q :: m) ↔ exact = false ∧ Covers exact (p :: l) m := by
  have hnil := hl.valuesAt_of_lt hqp
  constructor
  · intro h
    have hexact : exact = false := by
      have hq := (h q.1).2
      rw [hnil, valuesAt_cons_self] at hq
      simpa using hq
    refine ⟨hexact, fun k => ?_⟩
    by_cases hk : q.1 = k
    · subst hk
      rw [hnil]
      simp [hexact]
    · have hk' := h k
      rwa [valuesAt_cons_ne hk] at hk'
  · rintro ⟨hexact, h⟩ k
    by_cases hk : q.1 = k
    · subst hk
      rw [hnil]
      simp [hexact]
    · rw [valuesAt_cons_ne hk]
      exact h k

end Ordered

end DrbdUtils.Lib.OrderedPairs
