import DrbdUtils.Adm.ParsedValues

/-!
# Configurations that end too early

A text is accepted with all its braces in place or it should not be accepted at all.

* `run_replace` — what a function of the parser does depends only on the tokens that it consumes.
* `parseStmt_cases` — what a statement of `my_parse()` consumes.
* `parseResource_eof` — a resource ends where the file does.
* `rejectsTruncated_iff` — which texts are accepted only as a whole.
-/

set_option autoImplicit false

namespace DrbdUtils.Adm.Parser

open Scanner

/-! ## Braces -/

/-- What a token adds to the depth of braces. -/
def brace (l : Lexeme) : Int :=
  if l.token = .op ['{'] then 1 else if l.token = .op ['}'] then -1 else 0

/-- The number of sections that are open behind some tokens. -/
def depth (ts : List Lexeme) : Int := (ts.map brace).sum

/-- Every brace that closes has one that opens in front of it, and none is left open. -/
def Balanced (ts : List Lexeme) : Prop := depth ts = 0 ∧ ∀ p, p <+: ts → 0 ≤ depth p

@[simp] theorem depth_nil : depth [] = 0 := rfl

@[simp] theorem depth_cons (l : Lexeme) (ts : List Lexeme) : depth (l :: ts) = brace l + depth ts := rfl

@[simp] theorem depth_append (p q : List Lexeme) : depth (p ++ q) = depth p + depth q := by
  simp [depth]

theorem balanced_nil : Balanced [] :=
  ⟨rfl, fun p hp => by rw [List.prefix_nil.1 hp]; exact Int.le_refl 0⟩

/-- A prefix of one text and another ends in the first or in the second. -/
theorem prefix_of_append {p q r : List Lexeme} (h : p <+: q ++ r) :
    p <+: q ∨ ∃ s, p = q ++ s ∧ s <+: r := by
  cases List.prefix_or_prefix_of_prefix h (List.prefix_append q r) with
  | inl hq => exact Or.inl hq
  | inr hq =>
    obtain ⟨s, hs⟩ := hq
    subst hs
    exact Or.inr ⟨s, rfl, (List.prefix_append_right_inj q).1 h⟩

theorem Balanced.append {q r : List Lexeme} (hq : Balanced q) (hr : Balanced r) : Balanced (q ++ r) := by
  refine ⟨by rw [depth_append, hq.1, hr.1]; rfl, ?_⟩
  intro p hp
  rcases prefix_of_append hp with hp | ⟨p', rfl, hp'⟩
  · exact hq.2 p hp
  · rw [depth_append, hq.1, Int.zero_add]
    exact hr.2 p' hp'

/-- Tokens without braces. -/
def Flat (ts : List Lexeme) : Prop := ∀ l ∈ ts, brace l = 0

theorem Flat.depth_eq {ts : List Lexeme} (h : Flat ts) : depth ts = 0 := by
  induction ts with
  | nil => rfl
  | cons l ts ih =>
    rw [depth_cons, h l List.mem_cons_self, ih fun m hm => h m (List.mem_cons_of_mem l hm)]
    rfl

theorem Flat.balanced {ts : List Lexeme} (h : Flat ts) : Balanced ts :=
  ⟨h.depth_eq, fun _ hp => le_of_eq (Flat.depth_eq fun l hl => h l (hp.subset hl)).symm⟩

/-- Braces around tokens that have none. -/
theorem Flat.balanced_braces {body : List Lexeme} (h : Flat body) {l r : Lexeme}
    (hl : l.token = .op ['{']) (hr : r.token = .op ['}']) : Balanced (l :: (body ++ [r])) := by
  have hbl : brace l = 1 := by simp [brace, hl]
  have hbr : brace r = -1 := by simp [brace, hr]
  refine ⟨by simp [hbl, hbr, h.depth_eq], ?_⟩
  intro p hp
  rcases List.prefix_cons_iff.1 hp with rfl | ⟨p', rfl, hp'⟩
  · exact Int.le_refl 0
  · rw [depth_cons, hbl]
    rcases prefix_of_append hp' with hp' | ⟨p'', rfl, hp''⟩
    · rw [Flat.depth_eq fun m hm => h m (hp'.subset hm)]
      decide
    · rcases List.prefix_cons_iff.1 hp'' with rfl | ⟨q, rfl, hq⟩
      · simp [h.depth_eq]
      · rw [List.prefix_nil.1 hq]
        simp [h.depth_eq, hbr]

/-! ## What is behind the consumed tokens does not matter -/

/-- The open files, the one that is read in front. -/
def ParseState.files (s : ParseState) : List (List Lexeme) := s.input :: s.suspended

/-- The states agree, apart from the end of the file that was opened first. -/
def SameUpTo (tail tail' : List Lexeme) (s t : ParseState) : Prop :=
  ∃ front bottom input suspended, s.files = front ++ [bottom ++ tail] ∧
    input :: suspended = front ++ [bottom ++ tail'] ∧
    t = { s with input := input, suspended := suspended }

/-- Tokens at the end of the file that was opened first are consumed. -/
def Consumed (tail : List Lexeme) (s : ParseState) : Prop :=
  ∃ front bottom, s.files = front ++ [bottom] ∧ bottom.length < tail.length

theorem handle_consumed {tail : List Lexeme} (o : Op) (s : ParseState) (r : o.Ans) (s' : ParseState)
    (hs : Consumed tail s) (h : handle o s = .ok (r, s')) : Consumed tail s' := by
  obtain ⟨front, bottom, hfiles, hlt⟩ := hs
  cases o with
  | yylex =>
    rw [handle] at h
    split at h
    · cases h
      exact ⟨front, bottom, hfiles, hlt⟩
    · next l input hin =>
      cases h
      rw [ParseState.files, hin] at hfiles
      cases front with
      | nil =>
        obtain ⟨rfl, hsus⟩ := List.cons.inj hfiles
        exact ⟨[], input, by rw [ParseState.files, hsus]; rfl, by simp at hlt; omega⟩
      | cons f front =>
        obtain ⟨rfl, hsus⟩ := List.cons.inj hfiles
        exact ⟨input :: front, bottom, by rw [ParseState.files, hsus]; rfl, hlt⟩
  | stop reason => cases h
  | invalid | invalidInConfig | reads reading | alreadySeen realPath =>
    cases h
    exact ⟨front, bottom, hfiles, hlt⟩
  | checkUniq key | checkUpr key =>
    rw [handle] at h
    split at h <;> cases h <;> exact ⟨front, bottom, hfiles, hlt⟩
  | checkUprInit =>
    cases h
    split <;> exact ⟨front, bottom, hfiles, hlt⟩
  | pushFile input =>
    cases h
    exact ⟨input :: front, bottom, by rw [List.cons_append, ← hfiles]; rfl, hlt⟩
  | popFile =>
    rw [handle] at h
    split at h
    · cases h
      exact ⟨front, bottom, hfiles, hlt⟩
    · next input rest hsus =>
      cases h
      rw [ParseState.files, hsus] at hfiles
      cases front with
      | nil => cases hfiles
      | cons f front => exact ⟨front, bottom, (List.cons.inj hfiles).2, hlt⟩

theorem handle_sameUpTo {tail tail' : List Lexeme} (htail : tail = [] → tail' = []) (o : Op)
    (s t : ParseState) (r : o.Ans) (s' : ParseState) (hst : SameUpTo tail tail' s t)
    (h : handle o s = .ok (r, s')) :
    Consumed tail s' ∨ ∃ t', handle o t = .ok (r, t') ∧ SameUpTo tail tail' s' t' := by
  obtain ⟨front, bottom, input, suspended, hs, ht, rfl⟩ := hst
  cases o with
  | yylex =>
    cases front with
    | cons f front =>
      -- the file in front is the same
      obtain ⟨hin, hsus⟩ := List.cons.inj hs
      obtain ⟨hin', hsus'⟩ := List.cons.inj ht
      rw [handle, hin] at h
      cases f with
      | nil =>
        cases h
        exact Or.inr ⟨_, by rw [handle, hin'], [] :: front, bottom, input, suspended, hs, ht, rfl⟩
      | cons l f =>
        cases h
        refine Or.inr ⟨_, by rw [handle, hin'], f :: front, bottom, f, suspended, ?_, ?_, rfl⟩
        · rw [ParseState.files, hsus]
          rfl
        · rw [hsus']
          rfl
    | nil =>
      obtain ⟨hin, hsus⟩ := List.cons.inj hs
      obtain ⟨hin', hsus'⟩ := List.cons.inj ht
      rw [handle, hin] at h
      cases bottom with
      | cons l bottom =>
        cases h
        refine Or.inr ⟨_, by rw [handle, hin']; rfl, [], bottom, bottom ++ tail', suspended, ?_, ?_, rfl⟩
        · rw [ParseState.files, hsus]
          rfl
        · rw [hsus']
          rfl
      | nil =>
        cases tail with
        | nil =>
          cases h
          have hempty : input = [] := by rw [hin', htail rfl]; rfl
          exact Or.inr ⟨_, by rw [handle, hempty], [], [], input, suspended, hs, ht, rfl⟩
        | cons l tail =>
          cases h
          refine Or.inl ⟨[], tail, ?_, Nat.lt_succ_self _⟩
          rw [ParseState.files, hsus, List.nil_append]
  | stop reason => cases h
  | invalid | invalidInConfig | reads reading | alreadySeen realPath =>
    cases h
    exact Or.inr ⟨_, rfl, front, bottom, input, suspended, hs, ht, rfl⟩
  | checkUniq key | checkUpr key =>
    rw [handle] at h
    split at h
    · next hc =>
      cases h
      exact Or.inr ⟨_, if_pos hc, front, bottom, input, suspended, hs, ht, rfl⟩
    · next hc =>
      cases h
      exact Or.inr ⟨_, if_neg hc, front, bottom, input, suspended, hs, ht, rfl⟩
  | checkUprInit =>
    cases h
    refine Or.inr ⟨_, rfl, front, bottom, input, suspended, ?_, ht, ?_⟩
    · split <;> exact hs
    · dsimp only
      split <;> rfl
  | pushFile file =>
    cases h
    refine Or.inr ⟨_, rfl, file :: front, bottom, file, input :: suspended, ?_, ?_, rfl⟩
    · rw [List.cons_append, ← hs]
      rfl
    · rw [List.cons_append, ht]
  | popFile =>
    rw [handle] at h
    cases front with
    | nil =>
      obtain ⟨-, hsus⟩ := List.cons.inj hs
      obtain ⟨-, hsus'⟩ := List.cons.inj ht
      rw [hsus] at h
      cases h
      exact Or.inr ⟨_, by rw [handle, hsus'], [], bottom, input, suspended, hs, ht, rfl⟩
    | cons f front =>
      obtain ⟨-, hsus⟩ := List.cons.inj hs
      obtain ⟨-, hsus'⟩ := List.cons.inj ht
      cases front with
      | nil =>
        rw [hsus] at h
        cases h
        exact Or.inr ⟨_, by rw [handle, hsus']; rfl, [], bottom, bottom ++ tail', [], rfl, rfl, rfl⟩
      | cons g front =>
        rw [hsus] at h
        cases h
        exact Or.inr ⟨_, by rw [handle, hsus']; rfl, g :: front, bottom, g, _, rfl, rfl, rfl⟩

/-- A function that does not touch the end of the text does the same with another one. -/
theorem run_replace {α : Type} {p : Parse α} {s s' : ParseState} {a : α} {used tail tail' : List Lexeme}
    (hin : s.input = used ++ tail) (hsus : s.suspended = []) (htail : tail = [] → tail' = [])
    (h : p.run handle s = .ok (a, s')) (hin' : s'.input = tail) (hsus' : s'.suspended = []) :
    p.run handle { s with input := used ++ tail' } = .ok (a, { s' with input := tail' }) := by
  have hrel : SameUpTo tail tail' s { s with input := used ++ tail' } :=
    ⟨[], used, used ++ tail', [], by rw [ParseState.files, hin, hsus]; rfl, rfl, by rw [← hsus]⟩
  rcases Prog.run_simulate handle_consumed (handle_sameUpTo htail) hrel h with
    ⟨front, bottom, hfiles, hlt⟩ | ⟨t, ht, front, bottom, input, suspended, hs, hfiles, rfl⟩
  · -- the end is still there
    rw [ParseState.files, hin', hsus'] at hfiles
    cases front with
    | nil =>
      obtain ⟨rfl, -⟩ := List.cons.inj hfiles
      omega
    | cons f front => simp at hfiles
  · rw [ParseState.files, hin', hsus'] at hs
    cases front with
    | cons f front => simp at hs
    | nil =>
      obtain ⟨hbottom, -⟩ := List.cons.inj hs
      obtain ⟨rfl, hsuspended⟩ := List.cons.inj hfiles
      have hnil : bottom = [] := by simpa using hbottom
      rw [ht, hnil, hsuspended]
      simp [hsus']

/-! ## Functions that consume no braces -/

/-- What the function consumes has no braces. -/
def ConsumesFlat {α : Type} (p : Parse α) : Prop :=
  ∀ s a s', p.run handle s = .ok (a, s') →
    ∃ used, s.input = used ++ s'.input ∧ Flat used ∧ s'.suspended = s.suspended

theorem flat_nil : Flat [] := fun _ h => nomatch h

theorem Flat.append {p q : List Lexeme} (hp : Flat p) (hq : Flat q) : Flat (p ++ q) := by
  intro l hl
  exact (List.mem_append.1 hl).elim (hp l) (hq l)

theorem flat_singleton {l : Lexeme} (h : brace l = 0) : Flat [l] := by
  intro m hm
  rw [List.mem_singleton.1 hm]
  exact h

namespace ConsumesFlat

variable {α β : Type}

theorem pure (a : α) : ConsumesFlat (Pure.pure a : Parse α) := by
  intro s b s' h
  cases h
  exact ⟨[], rfl, flat_nil, rfl⟩

theorem stop (reason : Stop) : ConsumesFlat (Parser.stop reason : Parse α) := fun _ _ _ h => nomatch h

theorem bind {p : Parse α} {f : α → Parse β} (hp : ConsumesFlat p) (hf : ∀ a, ConsumesFlat (f a)) :
    ConsumesFlat (p >>= f) := by
  intro s b s' h
  obtain ⟨a, t, ha, hb⟩ := Prog.run_bind_eq_ok.1 h
  obtain ⟨used, hused, hflat, hsus⟩ := hp s a t ha
  obtain ⟨used', hused', hflat', hsus'⟩ := hf a t b s' hb
  exact ⟨used ++ used', by rw [hused, hused', List.append_assoc], hflat.append hflat', hsus'.trans hsus⟩

theorem exp {accept : Token → Option α} (h : ∀ l a, accept l.token = some a → brace l = 0) :
    ConsumesFlat (Parser.exp accept) := by
  intro s a s' hrun
  obtain ⟨l, input, hin, ha, rfl⟩ := run_exp_iff.1 hrun
  exact ⟨[l], hin, flat_singleton (h l a ha), rfl⟩

theorem expInteger : ConsumesFlat Parser.expInteger := by
  apply exp
  intro l a h
  split at h
  · next hl => simp [brace, hl]
  · cases h

theorem expSemicolon : ConsumesFlat (expOp ';') := by
  apply exp
  intro l a h
  split at h
  · next hl => simp [brace, hl]
  · cases h

/-- Operations that leave the files as they are. -/
theorem perform {o : Op} (h : ∀ s r s', handle o s = .ok (r, s') → s'.files = s.files) :
    ConsumesFlat (Prog.perform o : Parse (o.Ans)) := by
  intro s r s' hrun
  rw [Prog.run_perform] at hrun
  obtain ⟨hin, hsus⟩ := List.cons.inj (h s r s' hrun)
  exact ⟨[], hin.symm, flat_nil, hsus⟩

theorem invalidInConfig : ConsumesFlat Parser.invalidInConfig := perform fun _ _ _ h => by cases h; rfl

theorem checkUniq (key : Text) : ConsumesFlat (Parser.checkUniq key) := by
  apply perform
  intro s r s' h
  rw [handle] at h
  split at h <;> cases h <;> rfl

theorem rangeCheck (env : Env) (what : RangeChecks) (value : Text) :
    ConsumesFlat (Parser.rangeCheck env what value) := by
  unfold Parser.rangeCheck
  split
  · exact stop .exit
  · split
    · exact invalidInConfig
    · exact pure ()

theorem timeoutRange (value : Text) : ConsumesFlat (Parser.timeoutRange value) := by
  unfold Parser.timeoutRange
  split
  · exact stop .exit
  · split
    · exact invalidInConfig
    · exact pure ()

end ConsumesFlat

/-! ## Global sections and skip blocks -/

/-- What follows the first brace that closes. -/
def closeGlobal : List Lexeme → Option (List Lexeme)
  | [] => none
  | l :: rest => if l.token = .op ['}'] then some rest else closeGlobal rest

/-- What follows a skip block; none where its first brace closes, or where it has no end. -/
def skipBlock : Nat → List Lexeme → Option (List Lexeme)
  | _, [] => none
  | level, l :: rest =>
    if l.token = .op ['{'] then skipBlock (level + 1) rest
    else if l.token = .op ['}'] then
      match level with
      | 0 => none
      | 1 => some rest
      | level + 2 => skipBlock (level + 1) rest
    else skipBlock level rest

theorem brace_eq_zero_iff {l : Lexeme} : brace l = 0 ↔ l.token ≠ .op ['{'] ∧ l.token ≠ .op ['}'] := by
  unfold brace
  split
  · next h => simp [h]
  · split
    · next h => simp [h]
    · next h h' => simp [h, h']

theorem closeGlobal_flat {body : List Lexeme} (h : Flat body) {r : Lexeme} (hr : r.token = .op ['}'])
    (rest : List Lexeme) : closeGlobal (body ++ r :: rest) = some rest := by
  induction body with
  | nil => rw [List.nil_append, closeGlobal, if_pos hr]
  | cons l body ih =>
    have hl := brace_eq_zero_iff.1 (h l List.mem_cons_self)
    rw [List.cons_append, closeGlobal, if_neg hl.2, ih fun m hm => h m (List.mem_cons_of_mem l hm)]

theorem skipBlock_open {l : Lexeme} (h : l.token = .op ['{']) (level : Nat) (rest : List Lexeme) :
    skipBlock level (l :: rest) = skipBlock (level + 1) rest := by
  rw [skipBlock.eq_def]
  exact if_pos h

theorem skipBlock_close {l : Lexeme} (h : l.token = .op ['}']) (level : Nat) (rest : List Lexeme) :
    skipBlock level (l :: rest) =
      match level with
      | 0 => none
      | 1 => some rest
      | level + 2 => skipBlock (level + 1) rest := by
  rw [skipBlock.eq_def]
  simp [h]

theorem skipBlock_flat {l : Lexeme} (h : brace l = 0) (level : Nat) (rest : List Lexeme) :
    skipBlock level (l :: rest) = skipBlock level rest := by
  have hl := brace_eq_zero_iff.1 h
  rw [skipBlock.eq_def]
  simp [hl.1, hl.2]

theorem skipBlock_append {level : Nat} {ts rest : List Lexeme} (h : skipBlock level ts = some rest)
    (more : List Lexeme) : skipBlock level (ts ++ more) = some (rest ++ more) := by
  fun_induction skipBlock level ts with
  | case1 => cases h
  | case2 level l ts hl ih => rw [List.cons_append, skipBlock_open hl, ih h]
  | case3 l ts hl hr => cases h
  | case4 l ts hl hr =>
    cases h
    rw [List.cons_append, skipBlock_close hr]
  | case5 l ts hl hr level ih =>
    rw [List.cons_append, skipBlock_close hr]
    exact ih h
  | case6 level l ts hl hr ih =>
    rw [List.cons_append, skipBlock_flat (brace_eq_zero_iff.2 ⟨hl, hr⟩), ih h]

/-- The braces of a skip block, from a level on. -/
theorem skipBlock_depth {level : Nat} {ts rest : List Lexeme} (h : skipBlock level ts = some rest) :
    ∃ used, ts = used ++ rest ∧ level + depth used = 0 ∧ ∀ p, p <+: used → 0 ≤ level + depth p := by
  fun_induction skipBlock level ts with
  | case1 => cases h
  | case3 l ts hl hr => cases h
  | case2 level l ts hl ih =>
    obtain ⟨used, rfl, hdepth, hpre⟩ := ih h
    have hb : brace l = 1 := by simp [brace, hl]
    refine ⟨l :: used, rfl, by rw [depth_cons, hb]; push_cast at hdepth; omega, ?_⟩
    intro p hp
    rcases List.prefix_cons_iff.1 hp with rfl | ⟨p', rfl, hp'⟩
    · simp
    · have := hpre p' hp'
      rw [depth_cons, hb]
      push_cast at this
      omega
  | case4 l ts hl hr =>
    cases h
    have hb : brace l = -1 := by simp [brace, hr]
    refine ⟨[l], rfl, by simp [hb], ?_⟩
    intro p hp
    rcases List.prefix_cons_iff.1 hp with rfl | ⟨p', rfl, hp'⟩
    · simp
    · rw [List.prefix_nil.1 hp']
      simp [hb]
  | case5 l ts hl hr level ih =>
    obtain ⟨used, rfl, hdepth, hpre⟩ := ih h
    have hb : brace l = -1 := by simp [brace, hr]
    refine ⟨l :: used, rfl, by rw [depth_cons, hb]; push_cast at hdepth ⊢; omega, ?_⟩
    intro p hp
    rcases List.prefix_cons_iff.1 hp with rfl | ⟨p', rfl, hp'⟩
    · rw [depth_nil]; omega
    · have := hpre p' hp'
      rw [depth_cons, hb]
      push_cast at this ⊢
      omega
  | case6 level l ts hl hr ih =>
    obtain ⟨used, rfl, hdepth, hpre⟩ := ih h
    have hb : brace l = 0 := brace_eq_zero_iff.2 ⟨hl, hr⟩
    refine ⟨l :: used, rfl, by rw [depth_cons, hb]; omega, ?_⟩
    intro p hp
    rcases List.prefix_cons_iff.1 hp with rfl | ⟨p', rfl, hp'⟩
    · rw [depth_nil]; omega
    · have := hpre p' hp'
      rw [depth_cons, hb]
      omega

/-- A skip block whose first brace closes. -/
theorem skipBlock_closing {p : List Lexeme} (h : Flat p) {r : Lexeme} (hr : r.token = .op ['}'])
    (rest : List Lexeme) : skipBlock 0 (p ++ r :: rest) = none := by
  induction p with
  | nil => rw [List.nil_append, skipBlock_close hr]
  | cons l p ih =>
    rw [List.cons_append, skipBlock_flat (h l List.mem_cons_self)]
    exact ih fun m hm => h m (List.mem_cons_of_mem l hm)

section Env

variable {env : Env}

/-- The rule for a loop of the parser. -/
theorem run_loop {γ β : Type} {body : γ → Parse (γ ⊕ β)} {rel : γ → ParseState → β → ParseState → Prop}
    (hnext : ∀ c s c' t b s', (body c).run handle s = .ok (.inl c', t) → rel c' t b s' → rel c s b s')
    (hend : ∀ c s b s', (body c).run handle s = .ok (.inr b, s') → rel c s b s') {c : γ}
    {s s' : ParseState} {b : β} (h : (loop env body c).run handle s = .ok (b, s')) : rel c s b s' :=
  Prog.run_loop (fun s _ _ h => by rw [run_stop] at h; cases h) hnext hend h

/-- The first brace closes. -/
def ClosesFirst (ts : List Lexeme) : Prop :=
  ∃ p r rest, ts = p ++ r :: rest ∧ Flat p ∧ r.token = .op ['}']

/-- What a skip block consumes from a level on. -/
def SkipsFrom (level : Int) (s : ParseState) (_ : Unit) (s' : ParseState) : Prop :=
  ∀ n : Nat, level = n →
    (skipBlock n s.input = some s'.input ∧ s'.suspended = s.suspended) ∨ (n = 0 ∧ ClosesFirst s.input)

/-- What `parse_skip` consumes. -/
theorem run_parseSkip {s s' : ParseState} {u : Unit} (h : (parseSkip env).run handle s = .ok (u, s')) :
    (skipBlock 0 s.input = some s'.input ∧ s'.suspended = s.suspended) ∨ ClosesFirst s.input := by
  have key : SkipsFrom 0 s u s' := by
    rw [parseSkip] at h
    apply run_loop ?_ ?_ h
    · intro level s level' t u s' hturn ih n hn
      obtain ⟨_, v, hlex, hturn⟩ := Prog.run_bind_eq_ok.1 hturn
      rcases run_yylex_eq_ok.1 hlex with ⟨-, rfl, -⟩ | ⟨l, input, hin, rfl, rfl⟩
      · cases hturn
      · rw [hin]
        dsimp only at hturn
        split at hturn
        · next htok =>
          cases hturn
          rw [skipBlock_open (Option.some.inj htok)]
          exact Or.inl ((ih (n + 1) (by push_cast; omega)).resolve_right (fun h => by omega))
        · next htok =>
          have hclose := Option.some.inj htok
          split at hturn
          · cases hturn
          · next hlevel =>
            cases hturn
            match n, hn with
            | 0, _ => exact Or.inr ⟨rfl, [], l, input, rfl, flat_nil, hclose⟩
            | 1, hn => exact absurd (by rw [hn]; rfl) hlevel
            | n + 2, hn =>
              rw [skipBlock_close hclose]
              exact Or.inl ((ih (n + 1) (by push_cast at hn ⊢; omega)).resolve_right
                (fun h => by omega))
        · next hopen hclose htok =>
          cases hturn
          have hb : brace l = 0 := by
            rw [brace_eq_zero_iff]
            cases htok
            exact ⟨fun h => hopen (by rw [h]), fun h => hclose (by rw [h])⟩
          rw [skipBlock_flat hb]
          refine (ih n hn).imp id ?_
          rintro ⟨hn, p, r, rest, hinput, hp, hr⟩
          exact ⟨hn, l :: p, r, rest, by rw [List.cons_append, ← hinput],
            (flat_singleton hb).append hp, hr⟩
        · cases hturn
    · intro level s u s' hturn n hn
      obtain ⟨_, v, hlex, hturn⟩ := Prog.run_bind_eq_ok.1 hturn
      rcases run_yylex_eq_ok.1 hlex with ⟨-, rfl, -⟩ | ⟨l, input, hin, rfl, rfl⟩
      · cases hturn
      · rw [hin]
        dsimp only at hturn
        split at hturn
        · cases hturn
        · next htok =>
          split at hturn
          · next hlevel =>
            cases hturn
            have hone : n = 1 := by omega
            rw [hone, skipBlock_close (Option.some.inj htok)]
            exact Or.inl ⟨rfl, rfl⟩
          · cases hturn
        · cases hturn
        · cases hturn
  exact (key 0 rfl).imp id And.right

/-- What `parse_global` consumes behind its first brace. -/
def GlobalFrom (_ : Unit) (s : ParseState) (_ : Unit) (s' : ParseState) : Prop :=
  ∃ body r, s.input = body ++ r :: s'.input ∧ Flat body ∧ r.token = .op ['}'] ∧ s'.suspended = s.suspended

theorem globalAgain_flat : ConsumesFlat globalAgain :=
  ConsumesFlat.expSemicolon.bind fun _ => ConsumesFlat.pure _

theorem globalAgain_ne {s s' : ParseState} {u : Unit} : globalAgain.run handle s ≠ .ok (.inr u, s') := by
  intro h
  obtain ⟨_, t, -, h⟩ := Prog.run_bind_eq_ok.1 h
  cases h

theorem parseGlobalNumber_flat {check : Text → Parse Unit} (h : ∀ v, ConsumesFlat (check v)) :
    ConsumesFlat (parseGlobalNumber check) :=
  ConsumesFlat.expInteger.bind fun v => (h v).bind fun _ => globalAgain_flat

theorem parseGlobalNumber_ne {check : Text → Parse Unit} {s s' : ParseState} {u : Unit} :
    (parseGlobalNumber check).run handle s ≠ .ok (.inr u, s') := by
  intro h
  obtain ⟨v, t, -, h⟩ := Prog.run_bind_eq_ok.1 h
  obtain ⟨_, t', -, h⟩ := Prog.run_bind_eq_ok.1 h
  exact globalAgain_ne h

/-- A keyword and then the end of the statement. -/
theorem parseUsageCount_cases {s s' : ParseState} {a : Unit ⊕ Unit}
    (h : parseUsageCount.run handle s = .ok (a, s')) :
    ∃ l input, s.input = l :: input ∧ brace l = 0 ∧
      globalAgain.run handle { s with input := input } = .ok (a, s') := by
  obtain ⟨_, v, hlex, h⟩ := Prog.run_bind_eq_ok.1 h
  rcases run_yylex_eq_ok.1 hlex with ⟨-, rfl, -⟩ | ⟨l, input, hin, rfl, rfl⟩
  · cases h
  · refine ⟨l, input, hin, ?_⟩
    dsimp only at h
    split at h
    · next htok => exact ⟨by simp [brace, Option.some.inj htok], h⟩
    · next htok => exact ⟨by simp [brace, Option.some.inj htok], h⟩
    · next htok => exact ⟨by simp [brace, Option.some.inj htok], h⟩
    · cases h

theorem parseUsageCount_flat : ConsumesFlat parseUsageCount := by
  intro s a s' h
  obtain ⟨l, input, hin, hl, hagain⟩ := parseUsageCount_cases h
  obtain ⟨used, hused, hflat, hsus⟩ := globalAgain_flat _ _ _ hagain
  exact ⟨l :: used, hin.trans (congrArg (l :: ·) hused), (flat_singleton hl).append hflat, hsus⟩

theorem parseUsageCount_ne {s s' : ParseState} {u : Unit} : parseUsageCount.run handle s ≠ .ok (.inr u, s') := by
  intro h
  obtain ⟨l, input, -, -, hagain⟩ := parseUsageCount_cases h
  exact globalAgain_ne hagain

/-- A statement without braces of the global section, behind its keyword. -/
theorem globalStmt_keyword {s s' : ParseState} {a : Unit ⊕ Unit} {l : Lexeme} {input : List Lexeme}
    {p : Parse (Unit ⊕ Unit)} (hflat : ConsumesFlat p)
    (hne : ∀ {t u t'}, p.run handle t ≠ .ok (.inr u, t')) {k : Keyword}
    (htok : some l.token = some (.keyword k)) (h : p.run handle { s with input := input } = .ok (a, s')) :
    a = .inl () ∧ ∃ used, l :: input = used ++ s'.input ∧ Flat used ∧ s'.suspended = s.suspended := by
  obtain ⟨used, hused, hfl, hsus⟩ := hflat _ _ _ h
  have hl : brace l = 0 := by simp [brace, Option.some.inj htok]
  cases a with
  | inl u => exact ⟨rfl, l :: used, congrArg (l :: ·) hused, (flat_singleton hl).append hfl, hsus⟩
  | inr u => exact absurd h hne

/-- A turn of `parse_global`: a statement without braces, or the brace that ends it. -/
theorem parseGlobalStmt_cases {s s' : ParseState} {a : Unit ⊕ Unit}
    (h : (parseGlobalStmt env).run handle s = .ok (a, s')) :
    (a = .inl () ∧ ∃ used, s.input = used ++ s'.input ∧ Flat used ∧ s'.suspended = s.suspended) ∨
      (a = .inr () ∧ ∃ r, s.input = r :: s'.input ∧ r.token = .op ['}'] ∧ s'.suspended = s.suspended) := by
  obtain ⟨_, v, hlex, h⟩ := Prog.run_bind_eq_ok.1 h
  rcases run_yylex_eq_ok.1 hlex with ⟨-, rfl, -⟩ | ⟨l, input, hin, rfl, rfl⟩
  · cases h
  · rw [hin]
    dsimp only at h
    split at h
    · next htok => exact Or.inl (globalStmt_keyword globalAgain_flat globalAgain_ne htok h)
    · next htok => exact Or.inl (globalStmt_keyword globalAgain_flat globalAgain_ne htok h)
    · next htok =>
      exact Or.inl (globalStmt_keyword (parseGlobalNumber_flat (ConsumesFlat.rangeCheck env _))
        parseGlobalNumber_ne htok h)
    · next htok =>
      exact Or.inl (globalStmt_keyword (parseGlobalNumber_flat (ConsumesFlat.rangeCheck env _))
        parseGlobalNumber_ne htok h)
    · next htok =>
      exact Or.inl (globalStmt_keyword (parseGlobalNumber_flat ConsumesFlat.timeoutRange)
        parseGlobalNumber_ne htok h)
    · next htok =>
      exact Or.inl (globalStmt_keyword (parseGlobalNumber_flat ConsumesFlat.timeoutRange)
        parseGlobalNumber_ne htok h)
    · next htok =>
      exact Or.inl (globalStmt_keyword (parseGlobalNumber_flat ConsumesFlat.timeoutRange)
        parseGlobalNumber_ne htok h)
    · next htok =>
      exact Or.inl (globalStmt_keyword parseUsageCount_flat parseUsageCount_ne htok h)
    · next htok =>
      cases h
      exact Or.inr ⟨rfl, l, rfl, Option.some.inj htok, rfl⟩
    · cases h

/-- What `parse_global` consumes. -/
theorem run_parseGlobal {s s' : ParseState} {u : Unit} (h : (parseGlobal env).run handle s = .ok (u, s')) :
    ∃ l body r, s.input = l :: (body ++ r :: s'.input) ∧ l.token = .op ['{'] ∧ Flat body ∧
      r.token = .op ['}'] ∧ s'.suspended = s.suspended := by
  rw [parseGlobal] at h
  obtain ⟨_, t, huniq, h⟩ := Prog.run_bind_eq_ok.1 h
  obtain ⟨_, t', hopen, h⟩ := Prog.run_bind_eq_ok.1 h
  have ht : t.input = s.input ∧ t.suspended = s.suspended := by
    unfold checkUniq at huniq
    rw [Prog.run_perform, handle] at huniq
    split at huniq <;> cases huniq <;> exact ⟨rfl, rfl⟩
  obtain ⟨l, input, hin, hl, rfl⟩ := run_expOp_iff.1 hopen
  have key : GlobalFrom () { t with input := input } u s' := by
    apply run_loop ?_ ?_ h
    · intro _ s _ t _ s' hturn ih
      obtain ⟨-, used, hused, hflat, hsus⟩ :=
        (parseGlobalStmt_cases hturn).resolve_right fun h => Sum.inl_ne_inr h.1
      obtain ⟨body, r, hbody, hflat', hr, hsus'⟩ := ih
      exact ⟨used ++ body, r, by rw [hused, hbody, List.append_assoc], hflat.append hflat', hr,
        hsus'.trans hsus⟩
    · intro _ s _ s' hturn
      obtain ⟨-, r, hin, hr, hsus⟩ :=
        (parseGlobalStmt_cases hturn).resolve_left fun h => Sum.inr_ne_inl h.1
      exact ⟨[], r, hin, flat_nil, hr, hsus⟩
  obtain ⟨body, r, hbody, hflat, hr, hsus⟩ := key
  exact ⟨l, body, r, by rw [← ht.1, hin, ← hbody], hl, hflat, hr, by rw [hsus, ← ht.2]⟩

/-! ## Statements -/

/-- What follows the first statement of a text, unless it is a resource or a common section or a skip
    block whose first brace closes. -/
def plainStmt : List Lexeme → Option (List Lexeme)
  | [] => none
  | l :: rest =>
    match l.token with
    | .keyword .globalSection => closeGlobal rest
    | .keyword .skip => skipBlock 0 rest
    | .keyword .common | .keyword .resource => none
    | _ => some (rest.drop 2)

/-- A text of such statements. -/
inductive Plain : List Lexeme → Prop
  | nil : Plain []
  | stmt {ts rest : List Lexeme} (first : plainStmt ts = some rest) (others : Plain rest) : Plain ts

/-- No statement names another file. -/
def NoFiles (ts : List Lexeme) : Prop :=
  ∀ l ∈ ts, l.token ≠ .keyword .includeFile ∧ l.token ≠ .keyword .templateFile

instance (ts : List Lexeme) : Decidable (NoFiles ts) :=
  inferInstanceAs (Decidable (∀ l ∈ ts, l.token ≠ .keyword .includeFile ∧ l.token ≠ .keyword .templateFile))

/-- A statement of `my_parse` that is plain. -/
structure PlainUse (s s' : ParseState) (used : List Lexeme) : Prop where
  input_eq : s.input = used ++ s'.input
  balanced : Balanced used
  plainStmt_eq : ∀ more, plainStmt (s.input ++ more) = some (s'.input ++ more)
  suspended_eq : s'.suspended = s.suspended

/-- The beginning of a text, up to the brace behind "common" or "resource" and a name. -/
structure Opens (ts head : List Lexeme) : Prop where
  prefix_of : head <+: ts
  depth_pos : 0 < depth head
  not_plain : ∀ more, plainStmt (ts ++ more) = none

/-- Nothing makes a configuration valid again. -/
theorem handle_invalid (o : Op) (s : ParseState) (r : o.Ans) (s' : ParseState) (hs : s.configValid ≠ 1)
    (h : handle o s = .ok (r, s')) : s'.configValid ≠ 1 := by
  cases o with
  | yylex | popFile =>
    rw [handle] at h
    split at h <;> cases h <;> exact hs
  | stop reason => cases h
  | invalid =>
    cases h
    exact Nat.zero_ne_one
  | alreadySeen realPath | pushFile input =>
    cases h
    exact hs
  | invalidInConfig | reads reading =>
    cases h
    dsimp only
    split
    · exact Nat.zero_ne_one
    · exact hs
  | checkUprInit =>
    cases h
    split <;> exact hs
  | checkUniq key | checkUpr key =>
    rw [handle] at h
    split at h <;> cases h
    · exact hs
    · dsimp only
      split
      · exact hs
      · exact Nat.zero_ne_one

theorem run_invalid {α : Type} {p : Parse α} {s s' : ParseState} {a : α} (hs : s.configValid ≠ 1)
    (h : p.run handle s = .ok (a, s')) : s'.configValid ≠ 1 := Prog.run_induct handle_invalid hs h

theorem run_checkUprInit (s : ParseState) :
    ∃ tree, ∀ input, (Prog.perform Op.checkUprInit : Parse Unit).run handle { s with input := input } =
      .ok ((), { s with input := input, perResourceBtree := tree }) := by
  by_cases h : 2 ≤ s.configValid
  · exact ⟨s.perResourceBtree, fun input => by rw [Prog.run_perform, handle, if_pos h]⟩
  · exact ⟨[], fun input => by rw [Prog.run_perform, handle, if_neg h]⟩

theorem run_checkUniq (key : Text) (s : ParseState) :
    ∃ valid tree, ∀ input, (checkUniq key).run handle { s with input := input } =
      .ok ((), { s with input := input, configValid := valid, globalBtree := tree }) := by
  by_cases h : 2 ≤ s.configValid
  · exact ⟨s.configValid, s.globalBtree, fun input => by
      rw [checkUniq, Prog.run_perform, handle, if_pos h]⟩
  · refine ⟨if (checkKey s.globalBtree key).1 then s.configValid else 0, (checkKey s.globalBtree key).2,
      fun input => ?_⟩
    rw [checkUniq, Prog.run_perform, handle, if_neg h]

theorem run_loop_zero {γ β : Type} {body : γ → Parse (γ ⊕ β)} {c : γ} {s s' : ParseState} {b : β}
    (hfuel : env.fuel = 0) : (loop env body c).run handle s ≠ .ok (b, s') := by
  rw [loop, hfuel, Prog.loop, run_stop]
  exact nofun

/-- A loop that ends in its first turn. -/
theorem run_loop_end {γ β : Type} {body : γ → Parse (γ ⊕ β)} {c : γ} {s s' : ParseState} {b : β}
    (hfuel : env.fuel ≠ 0) (h : (body c).run handle s = .ok (.inr b, s')) :
    (loop env body c).run handle s = .ok (b, s') := by
  obtain ⟨fuel, hfuel⟩ := Nat.exists_eq_succ_of_ne_zero hfuel
  rw [loop, hfuel]
  exact Prog.run_bind_of_ok h

/-- A resource whose file ends behind its brace; only the checks in front of its loop count. -/
theorem parseResourceWith_eof (env' : Env) {templateFile templateFile' : Text → Parse (Option ResourceBody)}
    {resName : Text} {flags : PrFlags} {s s' : ParseState} {res : Resource}
    (h : (parseResourceWith env templateFile resName flags).run handle s = .ok (res, s'))
    (hv : s'.configValid = 1) (hfuel' : env'.fuel = env.fuel) :
    ∃ t, (parseResourceWith env' templateFile' resName flags).run handle { s with input := [] } =
      .ok ({ name := resName }, t) ∧ t.input = [] ∧ t.suspended = s.suspended ∧ t.configValid = 1 := by
  obtain ⟨upr, hupr⟩ := run_checkUprInit s
  obtain ⟨valid, tree, huniq⟩ := run_checkUniq resName { s with perResourceBtree := upr }
  rw [parseResourceWith, Prog.run_bind_of_ok (hupr s.input), Prog.run_bind_of_ok (huniq s.input)] at h
  have hvalid : valid = 1 := by
    by_contra hne
    exact run_invalid (s := { s with perResourceBtree := upr, configValid := valid, globalBtree := tree })
      hne h hv
  have hfuel : env'.fuel ≠ 0 := by
    intro hzero
    obtain ⟨_, _, hloop, -⟩ := Prog.run_bind_eq_ok.1 h
    exact run_loop_zero (hfuel'.symm.trans hzero) hloop
  have hend : (loop env' (parseResourceStmt env' templateFile' flags) { name := resName }).run handle
      { s with input := [], perResourceBtree := upr, configValid := valid, globalBtree := tree } =
      .ok ({ name := resName },
        { s with input := [], perResourceBtree := upr, configValid := valid, globalBtree := tree }) :=
    run_loop_end hfuel rfl
  refine ⟨{ s with input := [], perResourceBtree := upr, configValid := valid, globalBtree := tree },
    ?_, rfl, rfl, hvalid⟩
  rw [parseResourceWith, Prog.run_bind_of_ok (hupr []), Prog.run_bind_of_ok (huniq []),
    Prog.run_bind_of_ok hend, if_neg (by simp)]
  rfl

theorem parseResource_eof (env' : Env) {room : Nat} {configSave resName : Text} {flags : PrFlags}
    {s s' : ParseState} {res : Resource}
    (h : (parseResource env room configSave resName flags).run handle s = .ok (res, s'))
    (hv : s'.configValid = 1) (hfuel' : env'.fuel = env.fuel) (configSave' : Text) :
    ∃ t, (parseResource env' room configSave' resName flags).run handle { s with input := [] } =
      .ok ({ name := resName }, t) ∧ t.input = [] ∧ t.suspended = s.suspended ∧ t.configValid = 1 := by
  cases room <;> exact parseResourceWith_eof env' h hv hfuel'

theorem globalStmt_use {s s' : ParseState} {l : Lexeme} {input : List Lexeme} {u : Unit}
    (hin : s.input = l :: input) (hl : l.token = .keyword .globalSection)
    (h : (parseGlobal env).run handle { s with input := input } = .ok (u, s')) :
    ∃ used, PlainUse s s' used := by
  obtain ⟨o, body, r, hbody, ho, hflat, hr, hsus⟩ := run_parseGlobal h
  have hb : brace l = 0 := by simp [brace, hl]
  have ho' : o.token ≠ .op ['}'] := by rw [ho]; decide
  refine ⟨[l] ++ (o :: (body ++ [r])), ?_, ?_, ?_, hsus⟩
  · rw [hin, show input = _ from hbody]
    simp
  · exact (flat_singleton hb).balanced.append (hflat.balanced_braces ho hr)
  · intro more
    rw [hin, show input = _ from hbody, List.cons_append, plainStmt, hl]
    simp only [List.cons_append, List.append_assoc]
    rw [closeGlobal, if_neg ho', closeGlobal_flat hflat hr]

theorem skipStmt_use {s s' : ParseState} {l : Lexeme} {input : List Lexeme} {u : Unit}
    (hin : s.input = l :: input) (hl : l.token = .keyword .skip)
    (h : (parseSkip env).run handle { s with input := input } = .ok (u, s')) :
    (∃ used, PlainUse s s' used) ∨
      (ClosesFirst s.input ∧ ∀ more, plainStmt (s.input ++ more) = none) := by
  have hb : brace l = 0 := by simp [brace, hl]
  rcases run_parseSkip h with ⟨hskip, hsus⟩ | ⟨p, r, rest, hinput, hp, hr⟩
  · obtain ⟨used, hused, hdepth, hpre⟩ := skipBlock_depth hskip
    have hbalanced : Balanced used :=
      ⟨by simpa using hdepth, fun p hp => by simpa using hpre p hp⟩
    refine Or.inl ⟨[l] ++ used, ?_, (flat_singleton hb).balanced.append hbalanced, ?_, hsus⟩
    · rw [hin, show input = _ from hused]
      rfl
    · intro more
      rw [hin, List.cons_append, plainStmt, hl]
      exact skipBlock_append hskip more
  · have hinput : input = p ++ r :: rest := hinput
    refine Or.inr ⟨⟨l :: p, r, rest, by rw [hin, hinput]; rfl, (flat_singleton hb).append hp, hr⟩, ?_⟩
    intro more
    rw [hin, hinput, List.cons_append, plainStmt, hl, List.append_assoc, List.cons_append]
    exact skipBlock_closing hp hr _

/-- What a statement on the version of the module consumes. -/
theorem moduleStmt_use {s s' : ParseState} {l : Lexeme} {input : List Lexeme} {k : Keyword}
    {op : ValidateKmod.ModuleToken} {config : Config} {r : Config ⊕ Config}
    (hin : s.input = l :: input) (hl : l.token = .keyword k) (hk : moduleToken k = some op)
    (h : (do
      let txt ← exp fun | .kmodvers txt => some txt | _ => none
      expOp ';'
      match ValidateKmod.validateKmod env.driver op txt with
      | .returns => pure (.inl config)
      | _ => stop .exit : Parse (Config ⊕ Config)).run handle { s with input := input } = .ok (r, s')) :
    r = .inl config ∧ ∃ used, PlainUse s s' used := by
  obtain ⟨txt, t, hkmod, h⟩ := Prog.run_bind_eq_ok.1 h
  obtain ⟨a, input', hin', ha, rfl⟩ := run_exp_iff.1 hkmod
  obtain ⟨_, t, hend, h⟩ := Prog.run_bind_eq_ok.1 h
  obtain ⟨b, input'', hin'', hbt, rfl⟩ := run_expOp_iff.1 hend
  have hinput : input = a :: b :: input'' := by rw [show input = _ from hin', show input' = _ from hin'']
  have ha : brace a = 0 := by
    split at ha
    · next ht => simp [brace, ht]
    · cases ha
  have hflat : Flat [l, a, b] := by
    intro m hm
    simp only [List.mem_cons, List.not_mem_nil, or_false] at hm
    rcases hm with rfl | rfl | rfl
    · simp [brace, hl]
    · exact ha
    · simp [brace, hbt]
  split at h
  · cases h
    refine ⟨rfl, [l, a, b], by rw [hin, hinput]; rfl, hflat.balanced, ?_, rfl⟩
    intro more
    rw [hin, hinput, List.cons_append, plainStmt, hl]
    cases k <;> first | rfl | cases hk
  · cases h

theorem run_yylex_cons (s : ParseState) (l : Lexeme) (input : List Lexeme) :
    yylex.run handle { s with input := l :: input } =
      .ok ((some l.token, l.yytext), { s with input := input }) := rfl

/-- The section behind "common" or "resource" and a name, also when the text ends behind its brace. -/
theorem section_eof {room : Nat} {configSave resName : Text} {flags : PrFlags} {s s' : ParseState}
    {r : Config ⊕ Config} {f : Resource → Config} {p : Parse (Config ⊕ Config)}
    (hp : p = do
      expOp '{'
      let res ← parseResource env room configSave resName flags
      pure (.inl (f res)))
    (h : p.run handle s = .ok (r, s')) :
    ∃ a o rest, r = .inl a ∧ s.input = o :: rest ∧ o.token = .op ['{'] ∧ (s'.configValid = 1 →
      ∃ c t, p.run handle { s with input := [o] } = .ok (.inl c, t) ∧
        t.input = [] ∧ t.suspended = s.suspended ∧ t.configValid = 1) := by
  subst hp
  obtain ⟨_, u, hopen, h⟩ := Prog.run_bind_eq_ok.1 h
  obtain ⟨o, rest, hin, ho, rfl⟩ := run_expOp_iff.1 hopen
  obtain ⟨res, t, hres, h⟩ := Prog.run_bind_eq_ok.1 h
  cases h
  refine ⟨_, o, rest, rfl, hin, ho, fun hv => ?_⟩
  obtain ⟨t, ht, hti, hts, htv⟩ := parseResource_eof env hres hv rfl configSave
  have hbrace : (expOp '{').run handle { s with input := [o] } = .ok ((), { s with input := [] }) :=
    run_expOp_iff.2 ⟨o, [], rfl, ho, rfl⟩
  exact ⟨_, t, by rw [Prog.run_bind_of_ok hbrace, Prog.run_bind_of_ok ht]; rfl, hti, hts, htv⟩

theorem run_ensureSanity {name : Text} {s s' : ParseState} {u : Unit}
    (h : (ensureSanityOfResName name).run handle s = .ok (u, s')) :
    s' = s ∧ ensureSanityOfResName name = pure () := by
  unfold ensureSanityOfResName at h ⊢
  split at h
  · cases h
  · next hne =>
    split at h
    · cases h
    · next hsane =>
      cases h
      exact ⟨rfl, by rw [if_neg hne, if_neg hsane]⟩

/-- What a statement of `my_parse` consumes. -/
theorem parseStmt_cases {room : Nat} {nested : Option (Text → Text → Config → Parse Config)}
    {configSave : Text} {config : Config} {s s' : ParseState} {r : Config ⊕ Config}
    (hno : NoFiles s.input)
    (h : (parseStmt env room nested configSave config).run handle s = .ok (r, s')) :
    (s.input = [] ∧ r = .inr config ∧ s' = s) ∨
      ∃ c, r = .inl c ∧ ((∃ used, PlainUse s s' used) ∨
        (ClosesFirst s.input ∧ ∀ more, plainStmt (s.input ++ more) = none) ∨
        ∃ head, Opens s.input head ∧ (s'.configValid = 1 → ∃ c' t,
          (parseStmt env room nested configSave config).run handle { s with input := head } =
            .ok (.inl c', t) ∧ t.input = [] ∧ t.suspended = s.suspended ∧ t.configValid = 1)) := by
  obtain ⟨_, v, hlex, hrun⟩ := Prog.run_bind_eq_ok.1 h
  rcases run_yylex_eq_ok.1 hlex with ⟨hin, rfl, rfl⟩ | ⟨l, input, hin, rfl, rfl⟩
  · cases hrun
    exact Or.inl ⟨hin, rfl, rfl⟩
  · right
    dsimp only at hrun
    split at hrun
    · next htok =>
      obtain ⟨_, t, hglobal, hrun⟩ := Prog.run_bind_eq_ok.1 hrun
      cases hrun
      exact ⟨_, rfl, Or.inl (globalStmt_use hin (Option.some.inj htok) hglobal)⟩
    · next htok =>
      have hl := Option.some.inj htok
      obtain ⟨a, o, rest, rfl, hrest, ho, heof⟩ := section_eof rfl hrun
      have hrest : input = o :: rest := hrest
      refine ⟨a, rfl, Or.inr (Or.inr ⟨[l, o], ⟨⟨rest, ?_⟩, ?_, ?_⟩, fun hv => ?_⟩)⟩
      · rw [hin, hrest]
        rfl
      · simp [brace, hl, ho]
      · intro more
        rw [hin, List.cons_append, plainStmt, hl]
      · obtain ⟨c, t, hc, ht⟩ := heof hv
        refine ⟨c, t, ?_, ht⟩
        rw [parseStmt, Prog.run_bind_of_ok (run_yylex_cons s l [o])]
        dsimp only
        rw [hl]
        exact hc
    · next htok =>
      have hl := Option.some.inj htok
      obtain ⟨name, t, hname, hrun⟩ := Prog.run_bind_eq_ok.1 hrun
      obtain ⟨n, input', hinput, hn, rfl⟩ := run_exp_iff.1 hname
      have hinput : input = n :: input' := hinput
      obtain ⟨_, t, hsane, hrun⟩ := Prog.run_bind_eq_ok.1 hrun
      obtain ⟨rfl, hpure⟩ := run_ensureSanity hsane
      obtain ⟨a, o, rest, rfl, hrest, ho, heof⟩ := section_eof rfl hrun
      have hrest : input' = o :: rest := hrest
      have hnt : n.token = .string name := by
        split at hn
        · next txt ht => rw [ht, Option.some.inj hn]
        · cases hn
      refine ⟨a, rfl, Or.inr (Or.inr ⟨[l, n, o], ⟨⟨rest, ?_⟩, ?_, ?_⟩, fun hv => ?_⟩)⟩
      · rw [hin, hinput, hrest]
        rfl
      · simp [brace, hl, ho, hnt]
      · intro more
        rw [hin, List.cons_append, plainStmt, hl]
      · obtain ⟨c, t, hc, ht⟩ := heof hv
        refine ⟨c, t, ?_, ht⟩
        have hstring : expString.run handle { s with input := [n, o] } =
            .ok (name, { s with input := [o] }) := run_exp_iff.2 ⟨n, [o], rfl, by rw [hnt], rfl⟩
        rw [parseStmt, Prog.run_bind_of_ok (run_yylex_cons s l [n, o])]
        dsimp only
        rw [hl]
        dsimp only
        rw [Prog.run_bind_of_ok hstring, hpure]
        exact hc
    · next htok =>
      obtain ⟨_, t, hskip, hrun⟩ := Prog.run_bind_eq_ok.1 hrun
      cases hrun
      refine ⟨_, rfl, ?_⟩
      rcases skipStmt_use hin (Option.some.inj htok) hskip with huse | hcloses
      · exact Or.inl huse
      · exact Or.inr (Or.inl hcloses)
    · next htok =>
      have hmem := hno l (by rw [hin]; exact List.mem_cons_self)
      exact absurd (Option.some.inj htok) hmem.1
    · next k _ _ _ _ _ htok =>
      split at hrun
      · next hk =>
        obtain ⟨hr, huse⟩ := moduleStmt_use hin (Option.some.inj htok) hk hrun
        exact ⟨_, hr, Or.inl huse⟩
      · cases hrun
    · next htok => cases htok
    · cases hrun

/-! ## Texts -/

theorem NoFiles.of_append {used rest : List Lexeme} (h : NoFiles (used ++ rest)) : NoFiles rest :=
  fun l hl => h l (List.mem_append_right used hl)

/-- The loop of `my_parse`, turn by turn. -/
theorem run_stmts_succ {room fuel : Nat} {nested : Option (Text → Text → Config → Parse Config)}
    {configSave : Text} {config config' : Config} {s s' : ParseState}
    (h : (Prog.loop (stop .hang) (fuel + 1) (parseStmt env room nested configSave) config).run handle s =
      .ok (config', s')) :
    (parseStmt env room nested configSave config).run handle s = .ok (.inr config', s') ∨
      ∃ c t, (parseStmt env room nested configSave config).run handle s = .ok (.inl c, t) ∧
        (Prog.loop (stop .hang) fuel (parseStmt env room nested configSave) c).run handle t =
          .ok (config', s') := by
  obtain ⟨r, t, hturn, hrest⟩ := Prog.run_bind_eq_ok.1 h
  cases r with
  | inl c => exact Or.inr ⟨c, t, hturn, hrest⟩
  | inr c =>
    cases hrest
    exact Or.inl hturn

theorem Plain.plainStmt_ne {ts : List Lexeme} (h : Plain ts) (hne : ts ≠ []) : plainStmt ts ≠ none := by
  cases h with
  | nil => exact absurd rfl hne
  | stmt first others =>
    rw [first]
    exact nofun

theorem Plain.rest {ts rest : List Lexeme} (h : Plain ts) (hstmt : plainStmt ts = some rest) :
    Plain rest := by
  cases h with
  | nil => cases hstmt
  | stmt first others =>
    rw [first] at hstmt
    cases hstmt
    exact others

theorem Opens.input_ne {ts head : List Lexeme} (h : Opens ts head) : ts ≠ [] := by
  rintro rfl
  have hpos := h.depth_pos
  rw [List.prefix_nil.1 h.prefix_of] at hpos
  exact absurd hpos (Int.lt_irrefl 0)

theorem ClosesFirst.input_ne {ts : List Lexeme} (h : ClosesFirst ts) : ts ≠ [] := by
  obtain ⟨p, r, rest, rfl, -, -⟩ := h
  simp

theorem PlainUse.input_ne {s s' : ParseState} {used : List Lexeme} (h : PlainUse s s' used) :
    s.input ≠ [] := by
  intro hnil
  have hstmt := h.plainStmt_eq []
  rw [hnil] at hstmt
  cases hstmt

/-- The beginning of a plain text that is parsed to its end has no open section. -/
theorem balanced_of_plain {room fuel : Nat} {nested : Option (Text → Text → Config → Parse Config)}
    {configSave : Text} {config config' : Config} {s s' : ParseState} {more : List Lexeme}
    (hplain : Plain (s.input ++ more)) (hno : NoFiles s.input)
    (h : (Prog.loop (stop .hang) fuel (parseStmt env room nested configSave) config).run handle s =
      .ok (config', s')) : Balanced s.input := by
  induction fuel generalizing config s with
  | zero => cases h
  | succ fuel ih =>
    rcases run_stmts_succ h with hend | ⟨c, t, hturn, hrest⟩
    · rcases parseStmt_cases hno hend with ⟨hin, -, -⟩ | ⟨c, hc, -⟩
      · rw [hin]
        exact balanced_nil
      · cases hc
    · rcases parseStmt_cases hno hturn with ⟨-, hc, -⟩ | ⟨c', -, huse | hcloses | ⟨head, hopens, -⟩⟩
      · cases hc
      · obtain ⟨used, huse⟩ := huse
        have hno' : NoFiles t.input := by
          rw [huse.input_eq] at hno
          exact hno.of_append
        rw [huse.input_eq]
        exact huse.balanced.append (ih (hplain.rest (huse.plainStmt_eq more)) hno' hrest)
      · exact absurd (hcloses.2 more)
          (hplain.plainStmt_ne (List.append_ne_nil_of_left_ne_nil hcloses.1.input_ne more))
      · exact absurd (hopens.not_plain more)
          (hplain.plainStmt_ne (List.append_ne_nil_of_left_ne_nil hopens.input_ne more))

theorem ClosesFirst.depth_neg {ts : List Lexeme} (h : ClosesFirst ts) :
    ∃ p, p <+: ts ∧ depth p < 0 := by
  obtain ⟨p, r, rest, rfl, hp, hr⟩ := h
  refine ⟨p ++ [r], ⟨rest, by simp⟩, ?_⟩
  simp [hp.depth_eq, brace, hr]

/-- The end of a text ends the loop of `my_parse`. -/
theorem run_stmts_eof {room fuel : Nat} {nested : Option (Text → Text → Config → Parse Config)}
    {configSave : Text} {config : Config} {s : ParseState} (hin : s.input = []) :
    (Prog.loop (stop .hang) (fuel + 1) (parseStmt env room nested configSave) config).run handle s =
      .ok (config, s) := by
  have hlex : yylex.run handle s = .ok ((none, []), s) := run_yylex_eq_ok.2 (Or.inl ⟨hin, rfl, rfl⟩)
  have hturn : (parseStmt env room nested configSave config).run handle s = .ok (.inr config, s) := by
    rw [parseStmt, Prog.run_bind_of_ok hlex]
    rfl
  exact Prog.run_bind_of_ok hturn

/-- A text that is accepted is plain, or its braces are not balanced, or a part of it with an open
    section is accepted as well. -/
theorem plain_or_truncated {room fuel : Nat} {nested : Option (Text → Text → Config → Parse Config)}
    {configSave : Text} {config config' : Config} {s s' : ParseState} (hno : NoFiles s.input)
    (hsus : s.suspended = []) (hv : s'.configValid = 1)
    (h : (Prog.loop (stop .hang) fuel (parseStmt env room nested configSave) config).run handle s =
      .ok (config', s')) :
    Plain s.input ∨ (∃ p, p <+: s.input ∧ depth p < 0) ∨
      ∃ p c t, p <+: s.input ∧ 0 < depth p ∧ t.configValid = 1 ∧
        (Prog.loop (stop .hang) fuel (parseStmt env room nested configSave) config).run handle
          { s with input := p } = .ok (c, t) := by
  induction fuel generalizing config s with
  | zero => cases h
  | succ fuel ih =>
    rcases run_stmts_succ h with hend | ⟨c, t, hturn, hrest⟩
    · rcases parseStmt_cases hno hend with ⟨hin, -, -⟩ | ⟨c, hc, -⟩
      · exact Or.inl (by rw [hin]; exact Plain.nil)
      · cases hc
    · rcases parseStmt_cases hno hturn with
        ⟨-, hc, -⟩ | ⟨c', -, ⟨used, huse⟩ | hcloses | ⟨head, hopens, heof⟩⟩
      · cases hc
      · have hno' : NoFiles t.input := by
          rw [huse.input_eq] at hno
          exact hno.of_append
        have hsus' : t.suspended = [] := huse.suspended_eq.trans hsus
        rcases ih hno' hsus' hrest with hplain | ⟨p, hp, hneg⟩ | ⟨p, c'', t', hp, hpos, hvalid, hrun⟩
        · have hfirst := huse.plainStmt_eq []
          rw [List.append_nil, List.append_nil] at hfirst
          exact Or.inl (Plain.stmt hfirst hplain)
        · refine Or.inr (Or.inl ⟨used ++ p, ?_, ?_⟩)
          · rw [huse.input_eq]
            exact (List.prefix_append_right_inj used).2 hp
          · rw [depth_append, huse.balanced.1, Int.zero_add]
            exact hneg
        · refine Or.inr (Or.inr ⟨used ++ p, c'', t', ?_, ?_, hvalid, ?_⟩)
          · rw [huse.input_eq]
            exact (List.prefix_append_right_inj used).2 hp
          · rw [depth_append, huse.balanced.1, Int.zero_add]
            exact hpos
          · -- the statement does not see what is behind it
            have hnil : t.input = [] → p = [] := fun hnil => List.prefix_nil.1 (hnil ▸ hp)
            exact (Prog.run_bind_of_ok (run_replace huse.input_eq hsus hnil hturn rfl hsus')).trans hrun
      · exact Or.inr (Or.inl hcloses.1.depth_neg)
      · have hvalid : t.configValid = 1 := by
          by_contra hne
          exact run_invalid hne hrest hv
        obtain ⟨c'', t', hrun, hin, -, hvalid'⟩ := heof hvalid
        refine Or.inr (Or.inr ⟨head, c'', t', hopens.prefix_of, hopens.depth_pos, hvalid', ?_⟩)
        cases fuel with
        | zero => cases hrest
        | succ fuel => exact (Prog.run_bind_of_ok hrun).trans (run_stmts_eof hin)

end Env

/-! ## Truncated texts -/

/-- A text is accepted. -/
def Accepted (env : Env) (room : Nat) (path : Text) (ts : List Lexeme) : Prop :=
  ∃ config s, Accepts env room path ts config s

/-- The braces of a text are balanced, and no part of it that ends in a section is accepted. -/
def RejectsTruncated (env : Env) (room : Nat) (path : Text) (ts : List Lexeme) : Prop :=
  Balanced ts ∧ ∀ p, p <+: ts → p ≠ ts → 0 < depth p → ¬Accepted env room path p

/-- The machine on which every path leads to a file with these tokens. -/
def Env.withFile (env : Env) (file : List Lexeme) : Env := { env with fopen := fun _ _ => .file file }

/-- `template_file`, with room for more open files. -/
def templateFileIn (env : Env) (room : Nat) (configSave resName : Text) : Parse (Option ResourceBody) :=
  templateFile env
    (some fun configSave resName => parseResource env room configSave resName .noHostSectAllowed)
    configSave resName

/-- A template file with these tokens is accepted. -/
def TemplateAccepted (env : Env) (room : Nat) (configSave resName : Text) (s : ParseState)
    (file : List Lexeme) : Prop :=
  ∃ body s', (templateFileIn (env.withFile file) room configSave resName).run handle s =
    .ok (some body, s') ∧ s'.configValid = 1

/-- `my_parse` is the loop over its statements. -/
theorem accepts_iff (env : Env) (room : Nat) (path : Text) :
    ∃ nested, ∀ ts config s, Accepts env room path ts config s ↔
      (Prog.loop (stop .hang) env.fuel (parseStmt env room nested path) {}).run handle
        { startState ts with globalBtree := [path] } = .ok (config, s) ∧ s.configValid = 1 := by
  cases room with
  | zero => exact ⟨none, fun _ _ _ => Iff.rfl⟩
  | succ room => exact ⟨some (myParse env room), fun _ _ _ => Iff.rfl⟩

theorem rejectsTruncated_text {env : Env} {room : Nat} {path : Text} {ts : List Lexeme} (hno : NoFiles ts)
    (h : Accepted env room path ts) : RejectsTruncated env room path ts ↔ Plain ts := by
  obtain ⟨nested, hiff⟩ := accepts_iff env room path
  obtain ⟨config, s, haccepts⟩ := h
  obtain ⟨hrun, hv⟩ := (hiff ts config s).1 haccepts
  constructor
  · rintro ⟨hbalanced, hreject⟩
    rcases plain_or_truncated hno rfl hv hrun with hplain | ⟨p, hp, hneg⟩ | ⟨p, c, t, hp, hpos, hvalid, ht⟩
    · exact hplain
    · exact absurd (hbalanced.2 p hp) (Int.not_le.2 hneg)
    · by_cases hall : p = ts
      · rw [hall, hbalanced.1] at hpos
        exact absurd hpos (Int.lt_irrefl 0)
      · exact absurd ⟨c, t, (hiff p c t).2 ⟨ht, hvalid⟩⟩ (hreject p hp hall hpos)
  · intro hplain
    refine ⟨?_, ?_⟩
    · have hplain' : Plain (ts ++ []) := by
        rw [List.append_nil]
        exact hplain
      exact balanced_of_plain hplain' hno hrun
    · rintro p ⟨more, rfl⟩ - hpos ⟨config, s, haccepts⟩
      obtain ⟨hrun, -⟩ := (hiff p config s).1 haccepts
      have hno' : NoFiles p := fun l hl => hno l (List.mem_append_left more hl)
      have hbalanced : Balanced p := balanced_of_plain hplain hno' hrun
      rw [hbalanced.1] at hpos
      exact absurd hpos (Int.lt_irrefl 0)

/-- A template file is accepted when it ends behind its first brace. -/
theorem templateAccepted_take {env : Env} {room : Nat} {configSave resName : Text} {s : ParseState}
    {file : List Lexeme} (h : TemplateAccepted env room configSave resName s file) :
    TemplateAccepted env room configSave resName s (file.take 2) ∧ depth (file.take 2) = 1 := by
  obtain ⟨body, s', hrun, hv⟩ := h
  rw [templateFileIn, templateFile] at hrun
  obtain ⟨fileName, s₁, hname, hrun⟩ := Prog.run_bind_eq_ok.1 hrun
  obtain ⟨_, s₂, hend, hrun⟩ := Prog.run_bind_eq_ok.1 hrun
  obtain ⟨_, s₃, hpush, hrun⟩ := Prog.run_bind_eq_ok.1 hrun
  cases hpush
  obtain ⟨_, s₄, hcommon, hrun⟩ := Prog.run_bind_eq_ok.1 hrun
  obtain ⟨l, input, hin, hl, rfl⟩ := run_exp_iff.1 hcommon
  obtain ⟨_, s₅, hopen, hrun⟩ := Prog.run_bind_eq_ok.1 hrun
  obtain ⟨o, input', hin', ho, rfl⟩ := run_expOp_iff.1 hopen
  obtain ⟨res, s₆, hres, hrun⟩ := Prog.run_bind_eq_ok.1 hrun
  obtain ⟨_, s₇, hpop, hrun⟩ := Prog.run_bind_eq_ok.1 hrun
  cases hrun
  have hfile : file = l :: o :: input' := by rw [show file = _ from hin, show input = _ from hin']
  have hl : l.token = .keyword .common := by
    split at hl
    · assumption
    · cases hl
  have hvalid : s₆.configValid = 1 := by
    by_contra hne
    exact run_invalid hne hpop hv
  obtain ⟨t, ht, -, hsus, hvalid'⟩ :=
    parseResource_eof (env.withFile (file.take 2)) hres hvalid rfl
      (env.canonifyPath configSave fileName)
  have htake : file.take 2 = [l, o] := by rw [hfile]; rfl
  refine ⟨⟨({ name := "template-".toList ++ resName } : Resource).toResourceBody,
    { t with input := s₂.input, suspended := s₂.suspended }, ?_, hvalid'⟩, ?_⟩
  · have hcommon' : (expKeyword .common).run handle
        { s₂ with input := [l, o], suspended := s₂.input :: s₂.suspended } =
        .ok ((), { s₂ with input := [o], suspended := s₂.input :: s₂.suspended }) :=
      run_exp_iff.2 ⟨l, [o], rfl, by rw [hl]; rfl, rfl⟩
    have hopen' : (expOp '{').run handle
        { s₂ with input := [o], suspended := s₂.input :: s₂.suspended } =
        .ok ((), { s₂ with input := [], suspended := s₂.input :: s₂.suspended }) :=
      run_expOp_iff.2 ⟨o, [], rfl, ho, rfl⟩
    have hpop' : (Prog.perform Op.popFile : Parse Unit).run handle t =
        .ok ((), { t with input := s₂.input, suspended := s₂.suspended }) := by
      rw [Prog.run_perform, handle, hsus]
    rw [htake] at ht ⊢
    have hpush' : (Prog.perform (Op.pushFile [l, o]) : Parse Unit).run handle s₂ =
        .ok ((), { s₂ with input := [l, o], suspended := s₂.input :: s₂.suspended }) := rfl
    rw [templateFileIn, templateFile, Prog.run_bind_of_ok hname, Prog.run_bind_of_ok hend]
    exact (Prog.run_bind_of_ok hpush').trans ((Prog.run_bind_of_ok hcommon').trans
      ((Prog.run_bind_of_ok hopen').trans ((Prog.run_bind_of_ok ht).trans (Prog.run_bind_of_ok hpop'))))
  · rw [htake]
    simp [brace, hl, ho]

/-- An accepted text without includes is accepted only as a whole exactly when it has no resource and no
    common section and no skip block whose first brace closes; and a template file is accepted without the
    brace that closes its section. -/
theorem rejectsTruncated_iff (env : Env) (room : Nat) (path : Text) :
    (∀ ts, NoFiles ts → Accepted env room path ts → (RejectsTruncated env room path ts ↔ Plain ts)) ∧
      ∀ configSave resName s file, TemplateAccepted env room configSave resName s file →
        TemplateAccepted env room configSave resName s (file.take 2) ∧ depth (file.take 2) = 1 :=
  ⟨fun _ hno h => rejectsTruncated_text hno h, fun _ _ _ _ h => templateAccepted_take h⟩

/-- resource r { -/
def cutResource : List Lexeme := [kw .resource, str "r".toList, op '{']

/-- A text is accepted that ends right behind the brace of a resource, and its braces are not balanced. -/
theorem cutResource_accepted :
    NoFiles cutResource ∧ Accepted diskEnv 0 "/etc/drbd.conf".toList cutResource ∧
      depth cutResource = 1 :=
  ⟨by decide, ⟨_, _, rfl, rfl⟩, rfl⟩

/-- resource r { } -/
def emptyResource : List Lexeme := cutResource ++ [op '}']

theorem rejectsTruncated_iff_emptyResource :
    (RejectsTruncated diskEnv 0 "/etc/drbd.conf".toList emptyResource ↔ Plain emptyResource) ∧
      TemplateAccepted diskEnv 0 "/etc/drbd.conf".toList "r".toList
        (startState [str "t".toList, op ';', op '}']) [kw .common, op '{'] :=
  ⟨(rejectsTruncated_iff diskEnv 0 "/etc/drbd.conf".toList).1 emptyResource (by decide)
      ⟨_, _, rfl, rfl⟩,
    ((rejectsTruncated_iff diskEnv 0 "/etc/drbd.conf".toList).2 "/etc/drbd.conf".toList "r".toList
      (startState [str "t".toList, op ';', op '}']) [kw .common, op '{', op '}']
      ⟨_, _, rfl, rfl⟩).1⟩

end DrbdUtils.Adm.Parser
