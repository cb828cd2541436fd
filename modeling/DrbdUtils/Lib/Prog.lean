import Mathlib.Logic.Basic

/-!
# Programs over a set of operations

A program is a tree: a result, or an operation and what follows each of its answers.  A handler says
what an operation does to a state; it may stop the run.

* `Prog.run_bind` — a sequence runs one part after the other.
* `Prog.run_induct` — what every operation keeps, every program keeps.
* `Prog.run_simulate` — what holds between two runs as long as their operations agree.
-/

set_option autoImplicit false

/-- A program with results in `α`. -/
inductive Prog (op : Type) (ans : op → Type) (α : Type) : Type where
  | ret (a : α)
  | call (o : op) (next : ans o → Prog op ans α)

namespace Prog

variable {op : Type} {ans : op → Type} {α β σ ε : Type}

def bind (p : Prog op ans α) (f : α → Prog op ans β) : Prog op ans β :=
  match p with
  | ret a => f a
  | call o next => call o fun r => (next r).bind f

instance : Monad (Prog op ans) where
  pure := ret
  bind := bind

/-- One operation. -/
def perform (o : op) : Prog op ans (ans o) := call o ret

/-- A loop of at most `fuel` turns; a turn goes on with a new state or ends the loop. -/
def loop {γ : Type} (out : Prog op ans β) (fuel : Nat) (body : γ → Prog op ans (γ ⊕ β)) (c : γ) :
    Prog op ans β :=
  match fuel with
  | 0 => out
  | fuel + 1 =>
    (body c).bind fun r =>
      match r with
      | .inl c => loop out fuel body c
      | .inr b => ret b

section Run

variable (handle : (o : op) → σ → Except ε (ans o × σ))

/-- A run of a program. -/
def run : Prog op ans α → σ → Except ε (α × σ)
  | ret a, s => .ok (a, s)
  | call o next, s =>
    match handle o s with
    | .ok (r, s) => (next r).run s
    | .error e => .error e

variable {handle}

@[simp] theorem run_pure (a : α) (s : σ) : (pure a : Prog op ans α).run handle s = .ok (a, s) := rfl

theorem run_bind (p : Prog op ans α) (f : α → Prog op ans β) (s : σ) :
    (p >>= f).run handle s =
      match p.run handle s with
      | .ok (a, s) => (f a).run handle s
      | .error e => .error e := by
  induction p generalizing s with
  | ret a => rfl
  | call o next ih =>
    change (call o fun r => (next r).bind f).run handle s = _
    rw [run, run]
    cases handle o s with
    | ok r => exact ih r.1 r.2
    | error e => rfl

theorem run_bind_of_ok {p : Prog op ans α} {f : α → Prog op ans β} {s s' : σ} {a : α}
    (h : p.run handle s = .ok (a, s')) : (p >>= f).run handle s = (f a).run handle s' := by
  rw [run_bind, h]

theorem run_bind_of_error {p : Prog op ans α} {f : α → Prog op ans β} {s : σ} {e : ε}
    (h : p.run handle s = .error e) : (p >>= f).run handle s = .error e := by
  rw [run_bind, h]

theorem run_bind_eq_ok {p : Prog op ans α} {f : α → Prog op ans β} {s s' : σ} {b : β} :
    (p >>= f).run handle s = .ok (b, s') ↔
      ∃ a t, p.run handle s = .ok (a, t) ∧ (f a).run handle t = .ok (b, s') := by
  rw [run_bind]
  constructor
  · intro h
    split at h
    · next a t ha => exact ⟨a, t, ha, h⟩
    · cases h
  · rintro ⟨a, t, ha, hb⟩
    rw [ha]
    exact hb

theorem run_perform (o : op) (s : σ) : (perform o : Prog op ans (ans o)).run handle s = handle o s := by
  rw [perform, run]
  cases handle o s <;> rfl

section Loop

variable {γ : Type} {out : Prog op ans β} {body : γ → Prog op ans (γ ⊕ β)} {c : γ} {s t : σ}

theorem run_loop_next {c' : γ} (h : (body c).run handle s = .ok (.inl c', t)) (fuel : Nat) :
    (loop out (fuel + 1) body c).run handle s = (loop out fuel body c').run handle t :=
  run_bind_of_ok h

theorem run_loop_end {b : β} (h : (body c).run handle s = .ok (.inr b, t)) (fuel : Nat) :
    (loop out (fuel + 1) body c).run handle s = .ok (b, t) :=
  run_bind_of_ok h

theorem run_loop_error {e : ε} (h : (body c).run handle s = .error e) (fuel : Nat) :
    (loop out (fuel + 1) body c).run handle s = .error e :=
  run_bind_of_error h

end Loop

/-- A relation of the states around a loop: each turn extends it to the front. -/
theorem run_loop {γ : Type} {out : Prog op ans β} {body : γ → Prog op ans (γ ⊕ β)}
    {rel : γ → σ → β → σ → Prop} (hout : ∀ s b s', out.run handle s ≠ .ok (b, s'))
    (hnext : ∀ c s c' t b s', (body c).run handle s = .ok (.inl c', t) → rel c' t b s' → rel c s b s')
    (hend : ∀ c s b s', (body c).run handle s = .ok (.inr b, s') → rel c s b s') {fuel : Nat} {c : γ}
    {s s' : σ} {b : β} (h : (loop out fuel body c).run handle s = .ok (b, s')) : rel c s b s' := by
  induction fuel generalizing c s with
  | zero => exact absurd h (hout s b s')
  | succ fuel ih =>
    obtain ⟨r, t, hbody, hrest⟩ := run_bind_eq_ok.1 h
    cases r with
    | inl c' => exact hnext c s c' t b s' hbody (ih hrest)
    | inr b' =>
      cases hrest
      exact hend c s b s' hbody

/-- What every operation keeps, every program keeps. -/
theorem run_induct {inv : σ → Prop}
    (hop : ∀ o s r s', inv s → handle o s = .ok (r, s') → inv s') {p : Prog op ans α} {s s' : σ} {a : α}
    (hs : inv s) (h : p.run handle s = .ok (a, s')) : inv s' := by
  induction p generalizing s with
  | ret b =>
    cases h
    exact hs
  | call o next ih =>
    rw [run] at h
    split at h
    · next r t hr => exact ih r (hop o s r t hs hr) h
    · cases h

/-- A relation of states that every operation keeps with the same answer, unless the first run is
    left for good. -/
theorem run_simulate {rel : σ → σ → Prop} {left : σ → Prop}
    (hleft : ∀ o s r s', left s → handle o s = .ok (r, s') → left s')
    (hop : ∀ o s t r s', rel s t → handle o s = .ok (r, s') →
      left s' ∨ ∃ t', handle o t = .ok (r, t') ∧ rel s' t')
    {p : Prog op ans α} {s t s' : σ} {a : α} (hst : rel s t) (h : p.run handle s = .ok (a, s')) :
    left s' ∨ ∃ t', p.run handle t = .ok (a, t') ∧ rel s' t' := by
  induction p generalizing s t with
  | ret b =>
    cases h
    exact Or.inr ⟨t, rfl, hst⟩
  | call o next ih =>
    rw [run] at h
    split at h
    · next r u hr =>
      rcases hop o s t r u hst hr with hu | ⟨t', ht', hrel⟩
      · exact Or.inl (run_induct hleft hu h)
      · rw [run, ht']
        exact ih r hrel h
    · cases h

end Run

end Prog
