import Mathlib.Data.List.TakeDrop
import Mathlib.Data.List.Basic
import Mathlib.Order.Lattice.Nat

/-!
# Streams of records

Records that follow one another in a list.  Each begins with a header that says how long the record is,
and the next one begins where this length is rounded up.

* `walk_pack` — records that were put behind one another are found again.
* `walk_inside`, `walk_disjoint` — what is found in any list is inside of it, and does not overlap.
-/

set_option autoImplicit false

namespace RecordStream

universe u

/-- How the length is read from a header, and how it is rounded up. -/
structure Format (β : Type u) where
  hdr : Nat
  hdr_pos : 0 < hdr
  align : Nat → Nat
  le_align : ∀ n, n ≤ align n
  lengthOf : List β → Nat
  lengthOf_take : ∀ l, lengthOf (l.take hdr) = lengthOf l

namespace Format

variable {β : Type u} (f : Format β)

/-- The list begins with a record. -/
def Ok (l : List β) : Prop := f.hdr ≤ l.length ∧ f.hdr ≤ f.lengthOf l ∧ f.lengthOf l ≤ l.length

instance (l : List β) : Decidable (f.Ok l) := inferInstanceAs (Decidable (_ ∧ _ ∧ _))

/-- The list is a record. -/
structure IsRecord (r : List β) : Prop where
  hdr_le : f.hdr ≤ r.length
  lengthOf_eq : f.lengthOf r = r.length

theorem drop_length_lt {l : List β} (h : f.Ok l) : (l.drop (f.align (f.lengthOf l))).length < l.length := by
  have hpos := f.hdr_pos
  have halign := f.le_align (f.lengthOf l)
  obtain ⟨h1, h2, h3⟩ := h
  rw [List.length_drop]
  omega

/-- The records of a list, with their places; the list itself is at `pos`. -/
def walk (pos : Nat) (l : List β) : List (Nat × List β) :=
  if _h : f.Ok l then
    (pos, l.take (f.lengthOf l)) ::
      walk (pos + f.align (f.lengthOf l)) (l.drop (f.align (f.lengthOf l)))
  else []
termination_by l.length
decreasing_by exact f.drop_length_lt _h

/-- A record with the padding behind it. -/
def padded (pad : β) (r : List β) : List β := r ++ List.replicate (f.align r.length - r.length) pad

/-- Records behind one another, with padding. -/
def pack (pad : β) (recs : List (List β)) : List β := recs.flatMap (f.padded pad)

/-- The places of records that are behind one another. -/
def place : Nat → List (List β) → List (Nat × List β)
  | _, [] => []
  | pos, r :: recs => (pos, r) :: place (pos + f.align r.length) recs

variable {f} {pad : β} {pos : Nat} {l : List β} {r : List β} {recs recs' : List (List β)}

theorem walk_of_ok (h : f.Ok l) :
    f.walk pos l = (pos, l.take (f.lengthOf l)) ::
      f.walk (pos + f.align (f.lengthOf l)) (l.drop (f.align (f.lengthOf l))) := by
  rw [walk, dif_pos h]

theorem walk_of_not_ok (h : ¬f.Ok l) : f.walk pos l = [] := by
  rw [walk, dif_neg h]

@[simp] theorem walk_nil : f.walk pos [] = [] := by
  apply walk_of_not_ok
  rintro ⟨h, -, -⟩
  have hpos := f.hdr_pos
  rw [List.length_nil] at h
  omega

/-! ## Writing -/

@[simp] theorem pack_nil : f.pack pad [] = [] := rfl

theorem pack_cons : f.pack pad (r :: recs) = f.padded pad r ++ f.pack pad recs := by
  rw [pack, List.flatMap_cons, ← pack]

theorem pack_append : f.pack pad (recs ++ recs') = f.pack pad recs ++ f.pack pad recs' := by
  rw [pack, List.flatMap_append, ← pack, ← pack]

@[simp] theorem length_padded : (f.padded pad r).length = f.align r.length := by
  have h := f.le_align r.length
  rw [padded, List.length_append, List.length_replicate]
  omega

theorem length_pack_cons : (f.pack pad (r :: recs)).length = f.align r.length + (f.pack pad recs).length := by
  rw [pack_cons, List.length_append, length_padded]

theorem length_le_pack (h : r ∈ recs) : r.length ≤ (f.pack pad recs).length := by
  induction recs with
  | nil => cases h
  | cons r' recs ih =>
    rw [length_pack_cons]
    rcases List.mem_cons.1 h with rfl | h
    · have hle := f.le_align r.length
      omega
    · have hle := ih h
      omega

@[simp] theorem place_nil : f.place pos [] = [] := rfl

theorem place_append :
    f.place pos (recs ++ recs') = f.place pos recs ++ f.place (pos + (f.pack pad recs).length) recs' := by
  induction recs generalizing pos with
  | nil => rfl
  | cons r recs ih =>
    rw [List.cons_append, place, place, ih, length_pack_cons, Nat.add_assoc, List.cons_append]

theorem lengthOf_append (h : f.IsRecord r) (tail : List β) : f.lengthOf (r ++ tail) = r.length := by
  rw [← f.lengthOf_take, List.take_append_of_le_length h.hdr_le, f.lengthOf_take, h.lengthOf_eq]

theorem ok_append (h : f.IsRecord r) (tail : List β) : f.Ok (r ++ tail) := by
  rw [Ok, lengthOf_append h, List.length_append]
  exact ⟨Nat.le_add_right_of_le h.hdr_le, h.hdr_le, Nat.le_add_right _ _⟩

/-- A record with a gap behind it, which may be cut off at the end of the list. -/
theorem walk_parts {gap rest : List β} (h : f.IsRecord r) (hle : r.length + gap.length ≤ f.align r.length)
    (hgap : rest ≠ [] → r.length + gap.length = f.align r.length) :
    f.walk pos (r ++ (gap ++ rest)) = (pos, r) :: f.walk (pos + f.align r.length) rest := by
  have hdrop : (r ++ (gap ++ rest)).drop (f.align r.length) = rest := by
    have hlen : (r ++ gap).length = r.length + gap.length := List.length_append
    rw [← List.append_assoc]
    by_cases hrest : rest = []
    · rw [hrest, List.append_nil, List.drop_eq_nil_of_le (by omega)]
    · rw [← hgap hrest, ← hlen, List.drop_left]
  rw [walk_of_ok (ok_append h _), lengthOf_append h, List.take_left, hdrop]

theorem walk_padded (h : f.IsRecord r) (tail : List β) :
    f.walk pos (f.padded pad r ++ tail) = (pos, r) :: f.walk (pos + f.align r.length) tail := by
  have hle := f.le_align r.length
  have hgap : r.length + (List.replicate (f.align r.length - r.length) pad).length = f.align r.length := by
    rw [List.length_replicate]
    omega
  rw [padded, List.append_assoc]
  exact walk_parts h hgap.le fun _ => hgap

/-- **Records that were put behind one another are found again**, in front of whatever follows. -/
theorem walk_pack (h : ∀ r ∈ recs, f.IsRecord r) (tail : List β) :
    f.walk pos (f.pack pad recs ++ tail) =
      f.place pos recs ++ f.walk (pos + (f.pack pad recs).length) tail := by
  induction recs generalizing pos with
  | nil => rfl
  | cons r recs ih =>
    rw [pack_cons, List.append_assoc, walk_padded (h r (by simp)), ih fun x hx => h x (by simp [hx]),
      place, List.length_append, length_padded, Nat.add_assoc, List.cons_append]

theorem walk_pack_nil (h : ∀ r ∈ recs, f.IsRecord r) : f.walk pos (f.pack pad recs) = f.place pos recs := by
  simpa using walk_pack h []

/-! ## Reading -/

theorem isRecord_take (h : f.Ok l) : f.IsRecord (l.take (f.lengthOf l)) := by
  obtain ⟨h1, h2, h3⟩ := h
  have hlen : (l.take (f.lengthOf l)).length = f.lengthOf l := by
    rw [List.length_take]
    omega
  refine ⟨by omega, ?_⟩
  rw [hlen, ← f.lengthOf_take, List.take_take, Nat.min_eq_left h2, f.lengthOf_take]

theorem exists_parts (h : f.Ok l) :
    ∃ r gap rest, l = r ++ (gap ++ rest) ∧ f.IsRecord r ∧ r.length + gap.length ≤ f.align r.length ∧
      (rest ≠ [] → r.length + gap.length = f.align r.length) := by
  obtain ⟨n, hn⟩ : ∃ n, n = f.lengthOf l := ⟨_, rfl⟩
  have hlen : (l.take n).length = n := List.length_take_of_le (hn ▸ h.2.2)
  have hround := f.le_align n
  refine ⟨l.take n, (l.drop n).take (f.align n - n), (l.drop n).drop (f.align n - n), ?_,
    hn ▸ isRecord_take h, ?_, fun hrest => ?_⟩
  · rw [List.take_append_drop, List.take_append_drop]
  · rw [hlen, List.length_take]
    omega
  · rw [hlen, List.length_take]
    have hpos := List.length_pos_iff.2 hrest
    rw [List.length_drop] at hpos
    omega

/-- The first record of a list, for a loop that may change it before it goes on: where the next one
    begins, how much remains, and what is found if the changed record is a record of the same length. -/
theorem next_parts (h : f.Ok l) {rem : Int} (hrem : rem.toNat = l.length) :
    ∃ r gap rest, l = r ++ (gap ++ rest) ∧ f.IsRecord r ∧ rest.length < l.length ∧
      (rem - (f.align r.length : Int)).toNat = rest.length ∧
      (0 < rem - (f.align r.length : Int) → r.length + gap.length = f.align r.length) ∧
      ∀ pos r' rest', f.IsRecord r' → r'.length = r.length → rest'.length = rest.length →
        f.walk pos (r' ++ (gap ++ rest')) = (pos, r') :: f.walk (pos + f.align r.length) rest' := by
  obtain ⟨r, gap, rest, rfl, hr, hle, hgap⟩ := exists_parts h
  have hhdr := hr.hdr_le
  have hpos := f.hdr_pos
  simp only [List.length_append] at hrem
  have hrest : rest = [] ∨ r.length + gap.length = f.align r.length := by
    by_cases hrest : rest = []
    · exact .inl hrest
    · exact .inr (hgap hrest)
  refine ⟨r, gap, rest, rfl, hr, ?_, ?_, ?_, fun pos r' rest' hr' hlen hlen' => ?_⟩
  · simp only [List.length_append]
    omega
  · rcases hrest with rfl | heq
    · rw [List.length_nil] at hrem ⊢
      omega
    · omega
  · intro hlt
    rcases hrest with rfl | heq
    · rw [List.length_nil] at hrem
      omega
    · exact heq
  · have hle' : r'.length + gap.length ≤ f.align r'.length := by
      rw [hlen]
      exact hle
    have hgap' : rest' ≠ [] → r'.length + gap.length = f.align r'.length := fun hne => by
      rw [hlen]
      exact hgap fun hnil => hne (List.length_eq_zero_iff.1 (by rw [hlen', hnil]; rfl))
    rw [walk_parts hr' hle' hgap', hlen]

/-- **What is found in a list is inside of it.** -/
theorem walk_inside {x : Nat × List β} (hx : x ∈ f.walk pos l) :
    f.IsRecord x.2 ∧ pos ≤ x.1 ∧ x.1 + x.2.length ≤ pos + l.length ∧
      (l.drop (x.1 - pos)).take x.2.length = x.2 := by
  induction pos, l using walk.induct f with
  | case1 pos l h ih =>
    rw [walk_of_ok h, List.mem_cons] at hx
    have hlen : (l.take (f.lengthOf l)).length = f.lengthOf l := List.length_take_of_le h.2.2
    rcases hx with rfl | hx
    · refine ⟨isRecord_take h, Nat.le_refl _, ?_, ?_⟩
      · have h3 := h.2.2
        simp only [hlen]
        omega
      · rw [Nat.sub_self, List.drop_zero, hlen]
    · obtain ⟨hrec, hle, hend, htake⟩ := ih hx
      have hpos := f.hdr_pos
      have hhdr := hrec.hdr_le
      rw [List.length_drop] at hend
      refine ⟨hrec, by omega, by omega, ?_⟩
      rw [List.drop_drop] at htake
      rwa [show f.align (f.lengthOf l) + (x.1 - (pos + f.align (f.lengthOf l))) = x.1 - pos by omega]
        at htake
  | case2 pos l h =>
    rw [walk_of_not_ok h] at hx
    cases hx

/-- **The records do not overlap.** -/
theorem walk_disjoint : (f.walk pos l).Pairwise fun x y => x.1 + x.2.length ≤ y.1 := by
  induction pos, l using walk.induct f with
  | case1 pos l h ih =>
    rw [walk_of_ok h, List.pairwise_cons]
    refine ⟨fun y hy => ?_, ih⟩
    have hle := (walk_inside hy).2.1
    have halign := f.le_align (f.lengthOf l)
    have hlen : (l.take (f.lengthOf l)).length = f.lengthOf l := List.length_take_of_le h.2.2
    simp only [hlen]
    omega
  | case2 pos l h =>
    rw [walk_of_not_ok h]
    exact List.Pairwise.nil

theorem apart_of_pairwise {recs : List (Nat × List β)} (h : recs.Pairwise fun x y => x.1 + x.2.length ≤ y.1)
    {x y : Nat × List β} (hx : x ∈ recs) (hy : y ∈ recs) (hne : x ≠ y) :
    x.1 + x.2.length ≤ y.1 ∨ y.1 + y.2.length ≤ x.1 := by
  induction recs with
  | nil => cases hx
  | cons z recs ih =>
    rw [List.pairwise_cons] at h
    rcases List.mem_cons.1 hx with rfl | hxt
    · rcases List.mem_cons.1 hy with rfl | hyt
      · exact absurd rfl hne
      · exact .inl (h.1 y hyt)
    · rcases List.mem_cons.1 hy with rfl | hyt
      · exact .inr (h.1 x hxt)
      · exact ih h.2 hxt hyt

theorem length_walk_le : (f.walk pos l).length ≤ l.length := by
  induction pos, l using walk.induct f with
  | case1 pos l h ih =>
    have hlt := f.drop_length_lt h
    rw [walk_of_ok h, List.length_cons]
    omega
  | case2 pos l h =>
    rw [walk_of_not_ok h]
    exact Nat.zero_le _

end Format

end RecordStream
