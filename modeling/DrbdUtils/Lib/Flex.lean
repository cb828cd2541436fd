import Mathlib.Computability.Language
import Mathlib.Tactic

/-!
# Scanners by longest match

Patterns over an alphabet with their languages and Brzozowski derivatives, and scanners that are a
list of rules: the longest match is taken and, among equally long ones, the first rule.

* `Pattern.mem_deriv` — the derivative of the language.
* `Pattern.longest_eq_some` — the longest prefix that is matched.
* `pick_whole` — the first rule that matches all of the input is taken.
* `mem_tokens` — every token is what some rule makes of a word of its pattern.
-/

set_option autoImplicit false

namespace Flex

/-- A pattern; `rep p lo hi` is `p{lo,hi}`, without an upper bound if `hi` is `none`. -/
inductive Pattern (α : Type) where
  | void
  | eps
  | cls (p : α → Bool)
  | seq (p q : Pattern α)
  | alt (p q : Pattern α)
  | rep (p : Pattern α) (lo : Nat) (hi : Option Nat)

namespace Pattern

variable {α : Type}

def lang : Pattern α → Language α
  | void => 0
  | eps => 1
  | cls p => {w | ∃ a, p a = true ∧ w = [a]}
  | seq p q => p.lang * q.lang
  | alt p q => p.lang + q.lang
  | rep p lo hi => {w | ∃ n, lo ≤ n ∧ (∀ h, hi = some h → n ≤ h) ∧ w ∈ p.lang ^ n}

def nullable : Pattern α → Bool
  | void => false
  | eps => true
  | cls _ => false
  | seq p q => p.nullable && q.nullable
  | alt p q => p.nullable || q.nullable
  | rep p lo hi => (lo = 0 || p.nullable) && hi.all (lo ≤ ·)

def deriv (a : α) : Pattern α → Pattern α
  | void => void
  | eps => void
  | cls p => if p a then eps else void
  | seq p q => if p.nullable then alt (seq (p.deriv a) q) (q.deriv a) else seq (p.deriv a) q
  | alt p q => alt (p.deriv a) (q.deriv a)
  | rep p lo hi =>
    if hi = some 0 then void else seq (p.deriv a) (rep p (lo - 1) (hi.map (· - 1)))

/-- The length of the longest prefix that is matched. -/
def longest (p : Pattern α) : List α → Option Nat
  | [] => if p.nullable then some 0 else none
  | a :: s =>
    match (p.deriv a).longest s with
    | some n => some (n + 1)
    | none => if p.nullable then some 0 else none

/-- No word is matched, as can be seen from the pattern. -/
def isVoid : Pattern α → Bool
  | void => true
  | seq p q => p.isVoid || q.isVoid
  | alt p q => p.isVoid && q.isVoid
  | _ => false

/-- The one letter `a`. -/
def chr [DecidableEq α] (a : α) : Pattern α := cls (· = a)

/-- The one word `w`. -/
def text [DecidableEq α] : List α → Pattern α
  | [] => eps
  | a :: w => seq (chr a) (text w)

def opt (p : Pattern α) : Pattern α := rep p 0 (some 1)

variable {p q : Pattern α} {a : α} {w : List α}

theorem mem_cls {f : α → Bool} : w ∈ (cls f).lang ↔ ∃ a, f a = true ∧ w = [a] := Iff.rfl

theorem mem_seq : w ∈ (seq p q).lang ↔ ∃ u ∈ p.lang, ∃ v ∈ q.lang, u ++ v = w := Language.mem_mul

theorem mem_alt : w ∈ (alt p q).lang ↔ w ∈ p.lang ∨ w ∈ q.lang := Language.mem_add _ _ _

theorem mem_rep {lo : Nat} {hi : Option Nat} : w ∈ (rep p lo hi).lang ↔
    ∃ ws : List (List α), lo ≤ ws.length ∧ (∀ h, hi = some h → ws.length ≤ h) ∧
      (∀ u ∈ ws, u ∈ p.lang) ∧ w = ws.flatten := by
  constructor
  · rintro ⟨n, hlo, hhi, hw⟩
    obtain ⟨ws, rfl, rfl, hws⟩ := Language.mem_pow.1 hw
    exact ⟨ws, hlo, hhi, hws, rfl⟩
  · rintro ⟨ws, hlo, hhi, hws, rfl⟩
    exact ⟨ws.length, hlo, hhi, Language.mem_pow.2 ⟨ws, rfl, rfl, hws⟩⟩

/-- A repeated letter: the words over the class. -/
theorem mem_rep_cls {f : α → Bool} {lo : Nat} {hi : Option Nat} : w ∈ (rep (cls f) lo hi).lang ↔
    lo ≤ w.length ∧ (∀ h, hi = some h → w.length ≤ h) ∧ ∀ a ∈ w, f a = true := by
  have hflatten : ∀ ws : List (List α), (∀ u ∈ ws, u ∈ (cls f).lang) →
      ws.flatten.length = ws.length ∧ ∀ a ∈ ws.flatten, f a = true := by
    intro ws hws
    induction ws with
    | nil => exact ⟨rfl, fun a ha => by cases ha⟩
    | cons u ws ih =>
      obtain ⟨hlen, hall⟩ := ih fun u' hu' => hws u' (List.mem_cons_of_mem u hu')
      obtain ⟨b, hb, rfl⟩ := mem_cls.1 (hws u List.mem_cons_self)
      rw [List.flatten_cons, List.singleton_append]
      exact ⟨congrArg Nat.succ hlen, List.forall_mem_cons.2 ⟨hb, hall⟩⟩
  rw [mem_rep]
  constructor
  · rintro ⟨ws, hlo, hhi, hws, rfl⟩
    obtain ⟨hlen, hall⟩ := hflatten ws hws
    rw [hlen]
    exact ⟨hlo, hhi, hall⟩
  · rintro ⟨hlo, hhi, hall⟩
    refine ⟨w.map fun a => [a], ?_, ?_, ?_, ?_⟩
    · rwa [List.length_map]
    · rwa [List.length_map]
    · intro u hu
      obtain ⟨a, ha, rfl⟩ := List.mem_map.1 hu
      exact ⟨a, hall a ha, rfl⟩
    · rw [← List.flatMap_def, List.flatMap_singleton']

theorem mem_chr [DecidableEq α] : w ∈ (chr a).lang ↔ w = [a] := by
  unfold chr
  rw [mem_cls]
  constructor
  · rintro ⟨b, hb, rfl⟩
    rw [of_decide_eq_true hb]
  · rintro rfl
    exact ⟨a, decide_eq_true rfl, rfl⟩

theorem mem_chr_seq [DecidableEq α] : w ∈ (seq (chr a) p).lang ↔ ∃ v ∈ p.lang, w = a :: v := by
  rw [mem_seq]
  constructor
  · rintro ⟨u, hu, v, hv, rfl⟩
    rw [mem_chr.1 hu]
    exact ⟨v, hv, rfl⟩
  · rintro ⟨v, hv, rfl⟩
    exact ⟨[a], mem_chr.2 rfl, v, hv, rfl⟩

theorem mem_text [DecidableEq α] {t : List α} : w ∈ (text t).lang ↔ w = t := by
  induction t generalizing w with
  | nil => exact Language.mem_one w
  | cons a t ih =>
    unfold text
    rw [mem_chr_seq]
    constructor
    · rintro ⟨v, hv, rfl⟩
      rw [ih.1 hv]
    · rintro rfl
      exact ⟨t, ih.2 rfl, rfl⟩

theorem nil_mem_pow {L : Language α} (n : Nat) (h : [] ∈ L) : [] ∈ L ^ n :=
  Language.mem_pow.2 ⟨List.replicate n [], by simp, by simp, fun u hu => List.eq_of_mem_replicate hu ▸ h⟩

theorem nullable_iff : p.nullable = true ↔ [] ∈ p.lang := by
  induction p with
  | void => exact iff_of_false Bool.false_ne_true id
  | eps => exact iff_of_true rfl rfl
  | cls f => exact iff_of_false Bool.false_ne_true fun ⟨a, _, h⟩ => by cases h
  | seq p q ihp ihq =>
    rw [nullable, Bool.and_eq_true, ihp, ihq, mem_seq]
    constructor
    · rintro ⟨hp, hq⟩
      exact ⟨[], hp, [], hq, rfl⟩
    · rintro ⟨u, hu, v, hv, h⟩
      obtain ⟨rfl, rfl⟩ := List.append_eq_nil_iff.1 h
      exact ⟨hu, hv⟩
  | alt p q ihp ihq => rw [nullable, Bool.or_eq_true, ihp, ihq, mem_alt]
  | rep p lo hi ih =>
    rw [nullable, Bool.and_eq_true, Bool.or_eq_true, decide_eq_true_eq, ih, Option.all_eq_true]
    constructor
    · rintro ⟨hlo, hhi⟩
      have hle : ∀ h, hi = some h → lo ≤ h := fun h hh => of_decide_eq_true (hhi h hh)
      rcases hlo with rfl | hp
      · exact ⟨0, Nat.le_refl 0, hle, rfl⟩
      · exact ⟨lo, Nat.le_refl lo, hle, nil_mem_pow lo hp⟩
    · rintro ⟨n, hlo, hhi, hn⟩
      refine ⟨?_, fun h hh => decide_eq_true (hlo.trans (hhi h hh))⟩
      cases n with
      | zero => exact Or.inl (Nat.le_zero.1 hlo)
      | succ n =>
        rw [pow_succ'] at hn
        obtain ⟨u, hu, v, -, h⟩ := Language.mem_mul.1 hn
        obtain ⟨rfl, rfl⟩ := List.append_eq_nil_iff.1 h
        exact Or.inr hu

/-- The first letter of a word of a power belongs to one factor, and the other factors follow. -/
theorem cons_mem_pow {L : Language α} {n : Nat} :
    a :: w ∈ L ^ (n + 1) ↔ ∃ u v, a :: u ∈ L ∧ v ∈ L ^ n ∧ u ++ v = w := by
  constructor
  · induction n with
    | zero =>
      rw [zero_add, pow_one]
      exact fun h => ⟨w, [], h, rfl, List.append_nil w⟩
    | succ n ih =>
      intro h
      rw [pow_succ'] at h
      obtain ⟨x, hx, y, hy, hxy⟩ := Language.mem_mul.1 h
      match x with
      | [] =>
        -- an empty factor may as well come last
        obtain ⟨u, v, hu, hv, huv⟩ := ih (hxy ▸ hy)
        refine ⟨u, v, hu, ?_, huv⟩
        rw [pow_succ']
        exact Language.mem_mul.2 ⟨[], hx, v, hv, rfl⟩
      | b :: u =>
        rw [List.cons_append] at hxy
        injection hxy with hb huv
        exact ⟨u, y, hb ▸ hx, hy, huv⟩
  · rintro ⟨u, v, hu, hv, rfl⟩
    rw [pow_succ']
    exact Language.mem_mul.2 ⟨a :: u, hu, v, hv, rfl⟩

theorem mem_deriv : w ∈ (p.deriv a).lang ↔ a :: w ∈ p.lang := by
  induction p generalizing w with
  | void => exact Iff.rfl
  | eps => exact iff_of_false id fun h => by cases h
  | cls f =>
    rw [deriv, mem_cls]
    constructor
    · intro h
      split at h
      · rename_i hf
        exact ⟨a, hf, by rw [show w = [] from h]⟩
      · exact h.elim
    · rintro ⟨b, hb, h⟩
      injection h with hab hw
      rw [hab, if_pos hb, hw]
      rfl
  | seq p q ihp ihq =>
    have hcons : w ∈ (seq (p.deriv a) q).lang ↔
        ∃ u v, a :: u ∈ p.lang ∧ v ∈ q.lang ∧ u ++ v = w := by
      rw [mem_seq]
      constructor
      · rintro ⟨u, hu, v, hv, h⟩
        exact ⟨u, v, ihp.1 hu, hv, h⟩
      · rintro ⟨u, v, hu, hv, h⟩
        exact ⟨u, ihp.2 hu, v, hv, h⟩
    have hsplit : a :: w ∈ (seq p q).lang ↔
        (∃ u v, a :: u ∈ p.lang ∧ v ∈ q.lang ∧ u ++ v = w) ∨ [] ∈ p.lang ∧ a :: w ∈ q.lang := by
      rw [mem_seq]
      constructor
      · rintro ⟨u, hu, v, hv, h⟩
        match u with
        | [] => exact Or.inr ⟨hu, h ▸ hv⟩
        | b :: u =>
          rw [List.cons_append] at h
          injection h with hb h
          exact Or.inl ⟨u, v, hb ▸ hu, hv, h⟩
      · rintro (⟨u, v, hu, hv, rfl⟩ | ⟨hp, hq⟩)
        · exact ⟨a :: u, hu, v, hv, rfl⟩
        · exact ⟨[], hp, a :: w, hq, rfl⟩
    rw [hsplit, deriv, ← nullable_iff]
    cases p.nullable with
    | true => rw [if_pos rfl, mem_alt, hcons, ihq, and_iff_right rfl]
    | false => rw [if_neg Bool.false_ne_true, hcons, or_iff_left fun h => Bool.false_ne_true h.1]
  | alt p q ihp ihq => rw [deriv, mem_alt, mem_alt, ihp, ihq]
  | rep p lo hi ih =>
    rw [deriv]
    by_cases hzero : hi = some 0
    · rw [if_pos hzero]
      refine iff_of_false id ?_
      rintro ⟨n, -, hhi, hn⟩
      rw [Nat.le_zero.1 (hhi 0 hzero)] at hn
      cases hn
    · rw [if_neg hzero, mem_seq]
      constructor
      · rintro ⟨u, hu, v, ⟨n, hlo, hhi, hn⟩, rfl⟩
        refine ⟨n + 1, by omega, fun h hh => ?_, cons_mem_pow.2 ⟨u, v, ih.1 hu, hn, rfl⟩⟩
        have := hhi (h - 1) (by rw [hh]; rfl)
        have : h ≠ 0 := fun h0 => hzero (h0 ▸ hh)
        omega
      · rintro ⟨n, hlo, hhi, hn⟩
        cases n with
        | zero => cases hn
        | succ n =>
          obtain ⟨u, v, hu, hv, huv⟩ := cons_mem_pow.1 hn
          refine ⟨u, ih.2 hu, v, ⟨n, by omega, fun h hh => ?_, hv⟩, huv⟩
          obtain ⟨m, hm, rfl⟩ := Option.map_eq_some_iff.1 hh
          have := hhi m hm
          omega

theorem isVoid_sound (h : p.isVoid = true) : w ∉ p.lang := by
  induction p generalizing w with
  | void => exact id
  | seq p q ihp ihq =>
    rintro hw
    obtain ⟨u, hu, v, hv, -⟩ := mem_seq.1 hw
    rcases Bool.or_eq_true _ _ ▸ h with hp | hq
    · exact ihp hp hu
    · exact ihq hq hv
  | alt p q ihp ihq =>
    obtain ⟨hp, hq⟩ := (Bool.and_eq_true _ _).mp h
    exact fun hw => (mem_alt.1 hw).elim (ihp hp) (ihq hq)
  | eps => cases h
  | cls f => cases h
  | rep p lo hi ih => cases h

theorem longest_eq_none {s : List α} : p.longest s = none ↔ ∀ n, s.take n ∉ p.lang := by
  induction s generalizing p with
  | nil =>
    rw [longest, ite_eq_right_iff, nullable_iff]
    simp
  | cons a s ih =>
    have hnull : (if p.nullable then some 0 else none) = none ↔ [] ∉ p.lang := by
      rw [← nullable_iff]
      simp
    rw [longest]
    constructor
    · intro h n
      cases hd : (p.deriv a).longest s with
      | some m =>
        rw [hd] at h
        cases h
      | none =>
        rw [hd] at h
        cases n with
        | zero => exact hnull.1 h
        | succ n => exact fun hn => ih.1 hd n (mem_deriv.2 hn)
    · intro h
      rw [ih.2 fun n hn => h (n + 1) (mem_deriv.1 hn)]
      exact hnull.2 (h 0)

theorem longest_eq_some {s : List α} {n : Nat} : p.longest s = some n ↔
    n ≤ s.length ∧ s.take n ∈ p.lang ∧ ∀ m ≤ s.length, s.take m ∈ p.lang → m ≤ n := by
  induction s generalizing p n with
  | nil =>
    rw [longest, List.length_nil]
    simp only [List.take_nil, Nat.le_zero]
    rw [← nullable_iff]
    constructor
    · intro h
      split at h
      · cases h
        exact ⟨rfl, ‹_›, fun m hm _ => hm ▸ Nat.le_refl 0⟩
      · cases h
    · rintro ⟨rfl, h, -⟩
      rw [if_pos h]
  | cons a s ih =>
    rw [longest]
    cases hd : (p.deriv a).longest s with
    | some k =>
      obtain ⟨hk, hmem, hmax⟩ := ih.1 hd
      have hlong : k + 1 ≤ (a :: s).length ∧ (a :: s).take (k + 1) ∈ p.lang ∧
          ∀ m ≤ (a :: s).length, (a :: s).take m ∈ p.lang → m ≤ k + 1 := by
        refine ⟨Nat.succ_le_succ hk, mem_deriv.1 hmem, fun m hm hmm => ?_⟩
        cases m with
        | zero => exact Nat.zero_le _
        | succ m => exact Nat.succ_le_succ (hmax m (Nat.le_of_succ_le_succ hm) (mem_deriv.2 hmm))
      constructor
      · rintro h
        cases h
        exact hlong
      · rintro ⟨hn, hnm, hnmax⟩
        exact congrArg some (Nat.le_antisymm (hnmax _ hlong.1 hlong.2.1) (hlong.2.2 n hn hnm))
    | none =>
      have hnone := longest_eq_none.1 hd
      constructor
      · intro h
        dsimp only at h
        split at h
        · cases h
          refine ⟨Nat.zero_le _, nullable_iff.1 ‹_›, fun m _ hmm => ?_⟩
          cases m with
          | zero => exact Nat.le_refl 0
          | succ m => exact absurd (mem_deriv.2 hmm) (hnone m)
        · cases h
      · rintro ⟨-, hnm, -⟩
        cases n with
        | zero => exact if_pos (nullable_iff.2 hnm)
        | succ n => exact absurd (mem_deriv.2 hnm) (hnone n)

/-- When all of the input is matched, that is the longest match. -/
theorem longest_whole {s : List α} : p.longest s = some s.length ↔ s ∈ p.lang := by
  rw [longest_eq_some, List.take_length]
  exact ⟨fun h => h.2.1, fun h => ⟨Nat.le_refl _, h, fun m hm _ => hm⟩⟩

end Pattern

/-! ## Rules -/

/-- A rule; its action gives a token, or `none` to go on. -/
structure Rule (α τ : Type) where
  pattern : Pattern α
  action : List α → Option τ

section Scan

variable {α τ : Type}

/-- The rule that is taken and the length of its match. -/
def pick : List (Rule α τ) → List α → Option (Nat × (List α → Option τ))
  | [], _ => none
  | r :: rules, s =>
    match r.pattern.longest s, pick rules s with
    | some n, some (m, action) => if n < m then some (m, action) else some (n, r.action)
    | some n, none => some (n, r.action)
    | none, x => x

/-- The tokens of an input; what no rule matches is left out. -/
def tokensFuel (rules : List (Rule α τ)) : Nat → List α → List τ
  | 0, _ => []
  | _ + 1, [] => []
  | fuel + 1, a :: s =>
    match pick rules (a :: s) with
    | some (n + 1, action) =>
      (action ((a :: s).take (n + 1))).toList ++ tokensFuel rules fuel ((a :: s).drop (n + 1))
    | _ => tokensFuel rules fuel s

/-- Every match takes a letter at least. -/
def tokens (rules : List (Rule α τ)) (s : List α) : List τ := tokensFuel rules s.length s

variable {rules : List (Rule α τ)} {s : List α}

theorem pick_spec {n : Nat} {action : List α → Option τ} (h : pick rules s = some (n, action)) :
    ∃ r ∈ rules, r.action = action ∧ r.pattern.longest s = some n := by
  induction rules generalizing n action with
  | nil => cases h
  | cons r rules ih =>
    have hthere : ∀ {m act}, pick rules s = some (m, act) →
        ∃ r' ∈ r :: rules, r'.action = act ∧ r'.pattern.longest s = some m := by
      intro m act hm
      obtain ⟨r', hr', hspec⟩ := ih hm
      exact ⟨r', List.mem_cons_of_mem r hr', hspec⟩
    rw [pick] at h
    cases hr : r.pattern.longest s with
    | none =>
      rw [hr] at h
      exact hthere h
    | some k =>
      rw [hr] at h
      cases hp : pick rules s with
      | none =>
        rw [hp] at h
        cases h
        exact ⟨r, List.mem_cons_self, rfl, hr⟩
      | some x =>
        rw [hp] at h
        dsimp only at h
        split at h
        · cases h
          exact hthere hp
        · cases h
          exact ⟨r, List.mem_cons_self, rfl, hr⟩

theorem pick_le {n : Nat} {action : List α → Option τ} (h : pick rules s = some (n, action)) :
    n ≤ s.length := by
  obtain ⟨r, -, -, hr⟩ := pick_spec h
  exact (Pattern.longest_eq_some.1 hr).1

/-- **The first rule that matches all of the input is taken.** -/
theorem pick_whole {before after : List (Rule α τ)} {r : Rule α τ} (hr : s ∈ r.pattern.lang)
    (hbefore : ∀ r' ∈ before, s ∉ r'.pattern.lang) :
    pick (before ++ r :: after) s = some (s.length, r.action) := by
  induction before with
  | nil =>
    rw [List.nil_append, pick, Pattern.longest_whole.2 hr]
    cases hp : pick after s with
    | none => rfl
    | some x => exact if_neg (Nat.not_lt.2 (pick_le hp))
  | cons r' before ih =>
    have ih := ih fun r'' hr'' => hbefore r'' (List.mem_cons_of_mem r' hr'')
    rw [List.cons_append, pick, ih]
    cases hr' : r'.pattern.longest s with
    | none => rfl
    | some n =>
      obtain ⟨hn, hmem, -⟩ := Pattern.longest_eq_some.1 hr'
      refine if_pos (Nat.lt_of_le_of_ne hn fun heq => ?_)
      rw [heq, List.take_length] at hmem
      exact hbefore r' List.mem_cons_self hmem

/-- One of the first rules is taken when one of them matches all of the input. -/
theorem pick_whole_mem {before : List (Rule α τ)} (after : List (Rule α τ))
    (h : ∃ r ∈ before, s ∈ r.pattern.lang) :
    ∃ r ∈ before, s ∈ r.pattern.lang ∧ pick (before ++ after) s = some (s.length, r.action) := by
  have hiff : ∀ r : Rule α τ, (r.pattern.longest s = some s.length) ↔ s ∈ r.pattern.lang :=
    fun r => Pattern.longest_whole
  obtain ⟨r₀, hr₀, hs⟩ := h
  cases hf : before.find? (fun r => r.pattern.longest s = some s.length) with
  | none => exact absurd (decide_eq_true ((hiff r₀).2 hs)) (List.find?_eq_none.1 hf r₀ hr₀)
  | some r =>
    obtain ⟨hr, first, rest, rfl, hfirst⟩ := List.find?_eq_some_iff_append.1 hf
    have hr : s ∈ r.pattern.lang := (hiff r).1 (of_decide_eq_true hr)
    refine ⟨r, by simp, hr, ?_⟩
    rw [List.append_assoc, List.cons_append]
    refine pick_whole hr fun r' hr' hin => ?_
    have := hfirst r' hr'
    rw [decide_eq_true ((hiff r').2 hin)] at this
    cases this

/-- More fuel than the input is long changes nothing. -/
theorem tokensFuel_succ {fuel : Nat} (h : s.length ≤ fuel) :
    tokensFuel rules (fuel + 1) s = tokensFuel rules fuel s := by
  induction fuel generalizing s with
  | zero =>
    rw [List.length_eq_zero_iff.1 (Nat.le_zero.1 h)]
    rfl
  | succ fuel ih =>
    match s with
    | [] => rfl
    | a :: s =>
      have hs : s.length ≤ fuel := Nat.le_of_succ_le_succ h
      rw [tokensFuel, tokensFuel, ih hs]
      split
      · rename_i n action _
        have hdrop : ((a :: s).drop (n + 1)).length ≤ fuel := by
          rw [List.drop_succ_cons, List.length_drop]
          omega
        rw [ih hdrop]
      · rfl

theorem tokensFuel_enough {fuel : Nat} (h : s.length ≤ fuel) :
    tokensFuel rules fuel s = tokens rules s := by
  induction fuel, h using Nat.le_induction with
  | base => rfl
  | succ fuel h ih => rw [tokensFuel_succ h, ih]

theorem tokens_step {n : Nat} {action : List α → Option τ} (hn : 0 < n)
    (h : pick rules s = some (n, action)) :
    tokens rules s = (action (s.take n)).toList ++ tokens rules (s.drop n) := by
  match s, n with
  | [], n => exact absurd hn (Nat.not_lt.2 (pick_le h))
  | a :: s, n + 1 =>
    have hdrop : ((a :: s).drop (n + 1)).length ≤ s.length := by
      rw [List.drop_succ_cons, List.length_drop]
      exact Nat.sub_le _ _
    rw [← tokensFuel_enough hdrop]
    unfold tokens
    rw [List.length_cons, tokensFuel, h]

/-- A rule that matches all of the input leaves nothing to scan. -/
theorem tokens_whole {action : List α → Option τ} (hs : s ≠ [])
    (h : pick rules s = some (s.length, action)) : tokens rules s = (action s).toList := by
  rw [tokens_step (List.length_pos_iff.2 hs) h, List.take_length, List.drop_length]
  exact List.append_nil _

/-- **A token is what a rule makes of a word of its pattern.** -/
theorem mem_tokens {t : τ} (h : t ∈ tokens rules s) :
    ∃ r ∈ rules, ∃ w ∈ r.pattern.lang, r.action w = some t := by
  unfold tokens at h
  generalize s.length = fuel at h
  induction fuel generalizing s with
  | zero => cases h
  | succ fuel ih =>
    match s with
    | [] => cases h
    | a :: s =>
      rw [tokensFuel] at h
      split at h
      · rename_i n action hp
        rcases List.mem_append.1 h with ht | ht
        · obtain ⟨r, hr, rfl, hlong⟩ := pick_spec hp
          exact ⟨r, hr, _, (Pattern.longest_eq_some.1 hlong).2.1, Option.mem_toList.1 ht⟩
        · exact ih ht
      · exact ih h

end Scan

end Flex
