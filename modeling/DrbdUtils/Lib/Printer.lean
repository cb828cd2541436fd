import Mathlib.Tactic

/-!
# Printing piece by piece

A printer gives a list of pieces, or stops the program in the middle.  An automaton reads the pieces;
what one call does to its state is followed from call to call.

* `run` — the automaton over a list of pieces.
* `emits_cat` — a property of all pieces, call by call.
* `Moves.cons` — from the state before a call to the one after it.
* `Stuck` — a piece that the automaton does not take.
-/

set_option autoImplicit false

namespace Printer

variable {π σ : Type}

/-- What is printed; `none` when the program ends in the middle. -/
abbrev Doc (π : Type) := Option (List π)

def put (p : π) : Doc π := some [p]

/-- One call after the other. -/
def cat : List (Doc π) → Doc π
  | [] => some []
  | d :: ds => d.bind fun ps => (cat ds).map (ps ++ ·)

/-- The state after a list of pieces. -/
def run (step : σ → π → Option σ) (s : σ) (ps : List π) : Option σ := ps.foldlM step s

/-- All of it is printed, and every piece has the property. -/
def Emits (P : π → Prop) (d : Doc π) : Prop := ∃ ps, d = some ps ∧ ∀ p ∈ ps, P p

/-- What is printed takes the automaton from one state to the other. -/
def Moves (step : σ → π → Option σ) (d : Doc π) (s s' : σ) : Prop :=
  ∀ ps, d = some ps → run step s ps = some s'

/-- A piece does not fit. -/
def Stuck (step : σ → π → Option σ) (d : Doc π) (s : σ) : Prop :=
  ∀ ps, d = some ps → run step s ps = none

variable {P : π → Prop} {step : σ → π → Option σ} {d : Doc π} {ds : List (Doc π)} {s s' s'' : σ}

theorem cat_nil : cat ([] : List (Doc π)) = some [] := rfl

theorem run_append (s : σ) (ps qs : List π) :
    run step s (ps ++ qs) = (run step s ps).bind (run step · qs) := List.foldlM_append

theorem cat_cons_eq_some {ps : List π} : cat (d :: ds) = some ps ↔
    ∃ qs rs, d = some qs ∧ cat ds = some rs ∧ ps = qs ++ rs := by
  rw [cat, Option.bind_eq_some_iff]
  constructor
  · rintro ⟨qs, hd, hmap⟩
    obtain ⟨rs, hrs, rfl⟩ := Option.map_eq_some_iff.1 hmap
    exact ⟨qs, rs, hd, hrs, rfl⟩
  · rintro ⟨qs, rs, hd, hrs, rfl⟩
    exact ⟨qs, hd, Option.map_eq_some_iff.2 ⟨rs, hrs, rfl⟩⟩

theorem emits_put {p : π} : Emits P (put p) ↔ P p := by
  constructor
  · rintro ⟨ps, hps, h⟩
    cases hps
    exact h p List.mem_cons_self
  · exact fun h => ⟨[p], rfl, fun q hq => List.mem_singleton.1 hq ▸ h⟩

theorem emits_nil : Emits P (some []) := ⟨[], rfl, fun p hp => by cases hp⟩

theorem emits_cons : Emits P (cat (d :: ds)) ↔ Emits P d ∧ Emits P (cat ds) := by
  constructor
  · rintro ⟨ps, hps, h⟩
    obtain ⟨qs, rs, hd, hrs, rfl⟩ := cat_cons_eq_some.1 hps
    exact ⟨⟨qs, hd, fun p hp => h p (List.mem_append_left rs hp)⟩,
      ⟨rs, hrs, fun p hp => h p (List.mem_append_right qs hp)⟩⟩
  · rintro ⟨⟨qs, hd, hq⟩, ⟨rs, hrs, hr⟩⟩
    refine ⟨qs ++ rs, cat_cons_eq_some.2 ⟨qs, rs, hd, hrs, rfl⟩, fun p hp => ?_⟩
    exact (List.mem_append.1 hp).elim (hq p) (hr p)

/-- **The pieces of a sequence of calls are those of the calls.** -/
theorem emits_cat : Emits P (cat ds) ↔ ∀ d ∈ ds, Emits P d := by
  induction ds with
  | nil => exact iff_of_true emits_nil fun d hd => by cases hd
  | cons d ds ih => rw [emits_cons, ih, List.forall_mem_cons]

theorem emits_map {α : Type} {f : α → Doc π} {l : List α} :
    Emits P (cat (l.map f)) ↔ ∀ x ∈ l, Emits P (f x) := by
  rw [emits_cat, List.forall_mem_map]

theorem emits_bind {α : Type} {x : Option α} {f : α → Doc π} :
    Emits P (x.bind f) ↔ ∃ v, x = some v ∧ Emits P (f v) := by
  constructor
  · rintro ⟨ps, hps, h⟩
    obtain ⟨v, hv, hf⟩ := Option.bind_eq_some_iff.1 hps
    exact ⟨v, hv, ps, hf, h⟩
  · rintro ⟨v, rfl, h⟩
    exact h

theorem Moves.nil (s : σ) : Moves step (cat []) s s := fun ps hps => by
  cases hps
  rfl

theorem Moves.cons (hd : Moves step d s s') (hds : Moves step (cat ds) s' s'') :
    Moves step (cat (d :: ds)) s s'' := by
  intro ps hps
  obtain ⟨qs, rs, hq, hr, rfl⟩ := cat_cons_eq_some.1 hps
  rw [run_append, hd qs hq]
  exact hds rs hr

theorem cat_append_eq_some {es : List (Doc π)} {ps : List π} (h : cat (ds ++ es) = some ps) :
    ∃ qs rs, cat ds = some qs ∧ cat es = some rs ∧ ps = qs ++ rs := by
  induction ds generalizing ps with
  | nil => exact ⟨[], ps, rfl, h, rfl⟩
  | cons d ds ih =>
    obtain ⟨qs, rs, hd, hrs, rfl⟩ := cat_cons_eq_some.1 h
    obtain ⟨us, vs, hus, hvs, rfl⟩ := ih hrs
    exact ⟨qs ++ us, vs, cat_cons_eq_some.2 ⟨qs, us, hd, hus, rfl⟩, hvs, (List.append_assoc _ _ _).symm⟩

theorem Moves.append {es : List (Doc π)} (hds : Moves step (cat ds) s s')
    (hes : Moves step (cat es) s' s'') : Moves step (cat (ds ++ es)) s s'' := by
  intro ps hps
  obtain ⟨qs, rs, hq, hr, rfl⟩ := cat_append_eq_some hps
  rw [run_append, hds qs hq]
  exact hes rs hr

theorem Moves.put {p : π} (h : step s p = some s') : Moves step (put p) s s' := fun ps hps => by
  cases hps
  show (step s p).bind (run step · []) = some s'
  rw [h]
  rfl

theorem Moves.bind {α : Type} {x : Option α} {f : α → Doc π} (h : ∀ v, Moves step (f v) s s') :
    Moves step (x.bind f) s s' := by
  intro ps hps
  obtain ⟨v, -, hf⟩ := Option.bind_eq_some_iff.1 hps
  exact h v ps hf

theorem Stuck.put {p : π} (h : step s p = none) : Stuck step (put p) s := fun ps hps => by
  cases hps
  show (step s p).bind (run step · []) = none
  rw [h]
  rfl

theorem Stuck.here (h : Stuck step d s) (ds : List (Doc π)) : Stuck step (cat (d :: ds)) s := by
  intro ps hps
  obtain ⟨qs, rs, hq, -, rfl⟩ := cat_cons_eq_some.1 hps
  rw [run_append, h qs hq]
  rfl

theorem Moves.stuck (h : Moves step d s s') (hds : Stuck step (cat ds) s') :
    Stuck step (cat (d :: ds)) s := by
  intro ps hps
  obtain ⟨qs, rs, hq, hr, rfl⟩ := cat_cons_eq_some.1 hps
  rw [run_append, h qs hq]
  exact hds rs hr

end Printer
