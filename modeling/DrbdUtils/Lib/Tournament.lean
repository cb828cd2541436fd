import Mathlib.Logic.Relation

/-!
# Tournaments between classes

A relation `beats` that decides between any two elements of different classes, and says nothing
within a class.

* `acyclic_iff` — where the elements of two classes are all decided alike, there is no circle
  exactly if there is no circle of three.
-/

set_option autoImplicit false

namespace Tournament

variable {α : Type} {dom : α → Prop} {same beats : α → α → Prop}

/-- `beats` decides between the classes of `same`, on the elements of `dom`. -/
structure Between (dom : α → Prop) (same beats : α → α → Prop) : Prop where
  equivalence : Equivalence same
  on_dom : ∀ {a b}, beats a b → dom a ∧ dom b
  not_same : ∀ {a b}, beats a b → ¬same a b
  asymm : ∀ {a b}, beats a b → ¬beats b a
  total : ∀ {a b}, dom a → dom b → ¬same a b → beats a b ∨ beats b a

/-- All elements of two classes are decided alike. -/
def OneWay (same beats : α → α → Prop) : Prop :=
  ∀ a b a' b', beats a b → beats b' a' → same a a' → ¬same b b'

/-- No element beats itself, directly or through others. -/
def Acyclic (beats : α → α → Prop) : Prop := ∀ a, ¬Relation.TransGen beats a a

/-- No three elements beat one another in a circle. -/
def NoTriangle (beats : α → α → Prop) : Prop := ∀ a b c, beats a b → beats b c → ¬beats c a

/-- Without a circle of three, what is decided alike is transitive. -/
theorem Between.trans (h : Between dom same beats) (hone : OneWay same beats)
    (htri : NoTriangle beats) {a b c : α} (hab : beats a b) (hbc : beats b c) : beats a c := by
  have hac : ¬same a c := fun hsame =>
    hone a b c b hab hbc hsame (h.equivalence.refl b)
  rcases h.total (h.on_dom hab).1 (h.on_dom hbc).2 hac with hbeats | hbeats
  · exact hbeats
  · exact absurd hbeats (htri a b c hab hbc)

/-- **A circle shrinks to a circle of three.** -/
theorem acyclic_iff (h : Between dom same beats) (hone : OneWay same beats) :
    Acyclic beats ↔ NoTriangle beats := by
  constructor
  · intro hacyclic a b c hab hbc hca
    exact hacyclic a (((Relation.TransGen.single hab).tail hbc).tail hca)
  · intro htri a hcycle
    have hbeats : beats a a := by
      have hpath : ∀ b, Relation.TransGen beats a b → beats a b := by
        intro b hb
        induction hb with
        | single hab => exact hab
        | tail _ hbc hab => exact h.trans hone htri hab hbc
      exact hpath a hcycle
    exact h.asymm hbeats hbeats

end Tournament
