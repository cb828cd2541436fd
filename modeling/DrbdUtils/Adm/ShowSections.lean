import DrbdUtils.Adm.ParsedValues

/-!
# Option sections in the output of "drbdsetup show"

A statement of a section has a value, or is "_unknown name;": the kernel does not know an option that
drbdsetup does.

* `Runs` — how a function of the parser ends on the tokens of a part of a text.
* `Runs.loop`, `Runs.items` — the rules for a loop over a list that was printed.
* `runs_parseOptions`, `runs_parseNetOptions`, `runs_parseDiskOptions` — what is made of a section.
-/

set_option autoImplicit false

namespace DrbdUtils.Adm.Parser

open Scanner

/-! ## Runs over a part of a text -/

/-- How a run ends: with a result and with `rest` left to read, or, where there is no result, early. -/
def Ends {α : Type} (rest : List Lexeme) (r : Option α) (run : Except Stop (α × ParseState)) : Prop :=
  match r with
  | some a => ∃ t, run = .ok (a, t) ∧ t.input = rest
  | none => ∃ e, run = .error e

/-- How the function ends on the tokens, whatever follows them. -/
def Runs {α : Type} (p : Parse α) (ts : List Lexeme) (r : Option α) : Prop :=
  ∀ s rest, s.input = ts ++ rest → Ends rest r (p.run handle s)

namespace Runs

variable {α β : Type}

theorem pure (a : α) : Runs (Pure.pure a) [] (some a) := by
  intro s rest hin
  exact ⟨s, rfl, hin⟩

theorem stop (reason : Stop) (ts : List Lexeme) : Runs (Parser.stop reason : Parse α) ts none :=
  fun _ _ _ => ⟨reason, rfl⟩

/-- One part of the text after the other. -/
theorem bind {p : Parse α} {f : α → Parse β} {ts us : List Lexeme} {r : Option α} {r' : α → Option β}
    (hp : Runs p ts r) (hf : ∀ a, r = some a → Runs (f a) us (r' a)) :
    Runs (p >>= f) (ts ++ us) (r.bind r') := by
  intro s rest hin
  rw [List.append_assoc] at hin
  have hrun := hp s (us ++ rest) hin
  cases r with
  | none =>
    obtain ⟨e, he⟩ := hrun
    exact ⟨e, Prog.run_bind_of_error he⟩
  | some a =>
    obtain ⟨t, ht, htin⟩ := hrun
    rw [Prog.run_bind_of_ok ht]
    exact hf a rfl t rest htin

theorem andThen {p : Parse α} {f : α → Parse β} {ts us : List Lexeme} {a : α} {r : Option β}
    (hp : Runs p ts (some a)) (hf : Runs (f a) us r) : Runs (p >>= f) (ts ++ us) r := by
  have h : Runs (p >>= f) (ts ++ us) ((some a).bind fun _ => r) := by
    apply bind hp
    intro b hb
    cases hb
    exact hf
  exact h

/-- A part of the parser that reads nothing. -/
theorem skip {p : Parse α} {f : α → Parse β} {us : List Lexeme} {a : α} {r : Option β}
    (hp : Runs p [] (some a)) (hf : Runs (f a) us r) : Runs (p >>= f) us r :=
  andThen hp hf

/-- The last part of the text. -/
theorem finish {p : Parse α} {f : α → Parse β} {ts : List Lexeme} {a : α} {r : Option β}
    (hp : Runs p ts (some a)) (hf : Runs (f a) [] r) : Runs (p >>= f) ts r := by
  rw [← List.append_nil ts]
  exact andThen hp hf

theorem bind_none {p : Parse α} (f : α → Parse β) {ts : List Lexeme} (hp : Runs p ts none) :
    Runs (p >>= f) ts none := by
  intro s rest hin
  obtain ⟨e, he⟩ := hp s rest hin
  exact ⟨e, Prog.run_bind_of_error he⟩

/-- A part whose result is only put into another. -/
theorem mapThen {p : Parse α} {f : α → Parse β} {ts us : List Lexeme} {r : Option α} {g : α → β}
    (hp : Runs p ts r) (hf : ∀ a, Runs (f a) us (some (g a))) : Runs (p >>= f) (ts ++ us) (r.map g) := by
  rw [Option.map_eq_bind]
  exact bind hp fun a _ => hf a

theorem mapFinish {p : Parse α} {f : α → Parse β} {ts : List Lexeme} {r : Option α} {g : α → β}
    (hp : Runs p ts r) (hf : ∀ a, Runs (f a) [] (some (g a))) : Runs (p >>= f) ts (r.map g) := by
  rw [← List.append_nil ts]
  exact mapThen hp hf

/-- The next token. -/
theorem lex {f : Option Token × Text → Parse β} {l : Lexeme} {us : List Lexeme} {r : Option β}
    (hf : Runs (f (some l.token, l.yytext)) us r) : Runs (yylex >>= f) (l :: us) r := by
  intro s rest hin
  have hlex : yylex.run handle s = .ok ((some l.token, l.yytext), { s with input := us ++ rest }) :=
    run_yylex_eq_ok.2 (Or.inr ⟨l, us ++ rest, hin, rfl, rfl⟩)
  rw [Prog.run_bind_of_ok hlex]
  exact hf _ rest rfl

theorem exp {accept : Token → Option α} {f : α → Parse β} {l : Lexeme} {us : List Lexeme} {r : Option β}
    {a : α} (ha : accept l.token = some a) (hf : Runs (f a) us r) :
    Runs (Parser.exp accept >>= f) (l :: us) r := by
  intro s rest hin
  have hexp : (Parser.exp accept).run handle s = .ok (a, { s with input := us ++ rest }) :=
    run_exp_iff.2 ⟨l, us ++ rest, hin, ha, rfl⟩
  rw [Prog.run_bind_of_ok hexp]
  exact hf _ rest rfl

theorem expOne {accept : Token → Option α} {l : Lexeme} {a : α} (ha : accept l.token = some a) :
    Runs (Parser.exp accept) [l] (some a) :=
  fun s rest hin => ⟨{ s with input := rest }, run_exp_iff.2 ⟨l, rest, hin, ha, rfl⟩, rfl⟩

/-- An operation that leaves the tokens alone. -/
theorem quiet {o : Op} {f : o.Ans → Parse β} {us : List Lexeme} {r : Option β} {a : o.Ans}
    (ho : ∀ s, ∃ t, handle o s = .ok (a, t) ∧ t.input = s.input)
    (hf : Runs (f a) us r) : Runs (Prog.perform o >>= f) us r := by
  intro s rest hin
  obtain ⟨t, ht, htin⟩ := ho s
  rw [Prog.run_bind_of_ok ((Prog.run_perform o s).trans ht)]
  exact hf t rest (htin.trans hin)

theorem map {p : Parse α} {ts : List Lexeme} {r : Option α} (f : α → β) (hp : Runs p ts r) :
    Runs (f <$> p) ts (r.map f) := by
  have h := bind hp fun a _ => pure (f a)
  rw [List.append_nil] at h
  rw [Option.map_eq_bind]
  exact h

theorem yylex {l : Lexeme} : Runs Parser.yylex [l] (some (some l.token, l.yytext)) :=
  fun s rest hin =>
    ⟨{ s with input := rest }, run_yylex_eq_ok.2 (Or.inr ⟨l, rest, hin, rfl, rfl⟩), rfl⟩

/-- The rule for a loop over the items of a list: a turn takes one of them and keeps `P`, and without a
    result the loop does not come to an end. -/
theorem loop {γ ι : Type} {out : Parse β} {body : γ → Parse (γ ⊕ β)} {print : ι → List Lexeme}
    {step : γ → ι → Option γ} {us : List Lexeme} {last : γ → Option β} {P : γ → Prop}
    (hkeep : ∀ c i c', P c → step c i = some c' → P c')
    (hturn : ∀ c i c', P c → step c i = some c' → Runs (body c) (print i) (some (.inl c')))
    (hbad : ∀ fuel c i, P c → step c i = none → Runs (Prog.loop out fuel body c) (print i) none)
    (hend : ∀ c, P c → Runs (body c) us ((last c).map .inr)) {fuel : Nat} {items : List ι} {c : γ}
    (hc : P c) (hfuel : items.length < fuel) :
    Runs (Prog.loop out fuel body c) (items.flatMap print ++ us) ((items.foldlM step c).bind last) := by
  induction items generalizing fuel c with
  | nil =>
    obtain ⟨fuel, rfl⟩ := Nat.exists_eq_succ_of_ne_zero (Nat.ne_of_gt hfuel)
    intro s rest hin
    have hrun := hend c hc s rest hin
    change Ends rest (last c) _
    cases hlast : last c with
    | none =>
      rw [hlast] at hrun
      obtain ⟨e, he⟩ := hrun
      exact ⟨e, Prog.run_loop_error he fuel⟩
    | some b =>
      rw [hlast] at hrun
      obtain ⟨t, ht, htin⟩ := hrun
      exact ⟨t, Prog.run_loop_end ht fuel, htin⟩
  | cons i items ih =>
    intro s rest hin
    rw [List.flatMap_cons, List.append_assoc, List.append_assoc, ← List.append_assoc (items.flatMap print)]
      at hin
    rw [List.foldlM_cons]
    cases hstep : step c i with
    | none =>
      obtain ⟨e, he⟩ := hbad fuel c i hc hstep s _ hin
      exact ⟨e, he⟩
    | some c' =>
      have hpos : fuel ≠ 0 := Nat.ne_of_gt (Nat.lt_of_le_of_lt (Nat.zero_le _) hfuel)
      obtain ⟨fuel, rfl⟩ := Nat.exists_eq_succ_of_ne_zero hpos
      obtain ⟨t, ht, htin⟩ := hturn c i c' hc hstep s _ hin
      rw [Prog.run_loop_next ht]
      exact ih (hkeep c i c' hc hstep) (by simpa using hfuel) t rest htin

/-- A loop whose first turn stops. -/
theorem loop_none {γ : Type} {body : γ → Parse (γ ⊕ β)} {c : γ} {ts : List Lexeme}
    (h : Runs (body c) ts none) (fuel : Nat) : Runs (Prog.loop (Parser.stop .hang) fuel body c) ts none := by
  intro s rest hin
  cases fuel with
  | zero => exact ⟨.hang, rfl⟩
  | succ fuel =>
    obtain ⟨e, he⟩ := h s rest hin
    exact ⟨e, Prog.run_loop_error he fuel⟩

/-- A loop whose turn takes an item or stops, in front of `rest`. -/
theorem items_rest {γ ι : Type} {body : γ → Parse (γ ⊕ β)} {print : ι → List Lexeme} {step : γ → ι → Option γ}
    {rest left : List Lexeme} {r : γ → Option β} {P : γ → Prop} {items : List ι}
    (hkeep : ∀ c i c', P c → step c i = some c' → P c')
    (hturn : ∀ c, P c → ∀ i ∈ items, Runs (body c) (print i) ((step c i).map .inl))
    (hrest : ∀ c fuel t, P c → fuel ≠ 0 → t.input = rest →
      Ends left (r c) ((Prog.loop (Parser.stop .hang) fuel body c).run handle t))
    {fuel : Nat} {c : γ} {s : ParseState} (hc : P c) (hfuel : items.length < fuel)
    (hs : s.input = items.flatMap print ++ rest) :
    Ends left ((items.foldlM step c).bind r)
      ((Prog.loop (Parser.stop .hang) fuel body c).run handle s) := by
  induction items generalizing fuel c s with
  | nil => exact hrest c fuel s hc (Nat.ne_of_gt hfuel) hs
  | cons i items ih =>
    have hpos : fuel ≠ 0 := Nat.ne_of_gt (Nat.lt_of_le_of_lt (Nat.zero_le _) hfuel)
    obtain ⟨fuel, rfl⟩ := Nat.exists_eq_succ_of_ne_zero hpos
    rw [List.flatMap_cons, List.append_assoc] at hs
    have hfirst := hturn c hc i List.mem_cons_self s _ hs
    rw [List.foldlM_cons]
    cases hstep : step c i with
    | none =>
      rw [hstep] at hfirst
      obtain ⟨e, he⟩ := hfirst
      exact ⟨e, Prog.run_loop_error he fuel⟩
    | some c' =>
      rw [hstep] at hfirst
      obtain ⟨t, ht, htin⟩ := hfirst
      rw [Prog.run_loop_next ht]
      exact ih (fun c hc j hj => hturn c hc j (List.mem_cons_of_mem i hj)) (hkeep c i c' hc hstep)
        (by simpa using hfuel) htin

/-- The rule for a loop whose turn takes an item or stops. -/
theorem items {γ ι : Type} {body : γ → Parse (γ ⊕ β)} {print : ι → List Lexeme} {step : γ → ι → Option γ}
    {us : List Lexeme} {r : γ → Option β} {P : γ → Prop} {items : List ι}
    (hkeep : ∀ c i c', P c → step c i = some c' → P c')
    (hturn : ∀ c, P c → ∀ i ∈ items, Runs (body c) (print i) ((step c i).map .inl))
    (hrest : ∀ c fuel, P c → fuel ≠ 0 → Runs (Prog.loop (Parser.stop .hang) fuel body c) us (r c))
    {fuel : Nat} {c : γ} (hc : P c) (hfuel : items.length < fuel) :
    Runs (Prog.loop (Parser.stop .hang) fuel body c) (items.flatMap print ++ us)
      ((items.foldlM step c).bind r) := by
  intro s rest hin
  rw [List.append_assoc] at hin
  exact items_rest hkeep hturn (fun c fuel t hc hpos ht => hrest c fuel hc hpos t rest ht) hc hfuel hin

/-- The last turn of a loop. -/
theorem last {γ : Type} {body : γ → Parse (γ ⊕ β)} {c : γ} {us : List Lexeme} {b : β}
    (h : Runs (body c) us (some (.inr b))) {fuel : Nat} (hfuel : fuel ≠ 0) :
    Runs (Prog.loop (Parser.stop .hang) fuel body c) us (some b) := by
  obtain ⟨fuel, rfl⟩ := Nat.exists_eq_succ_of_ne_zero hfuel
  intro s rest hin
  obtain ⟨t, ht, htin⟩ := h s rest hin
  exact ⟨t, Prog.run_loop_end ht fuel, htin⟩

end Runs

/-! ## Option statements -/

/-- A statement of an option section: with a value, or about an option that the kernel does not know. -/
inductive OptStmt where
  | valued (name value : Lexeme) (plain : name.token ≠ .op ['}'] ∧ name.token ≠ .keyword .unknown ∧
      value.token ≠ .op [';'])
  | unknown (name : Lexeme)

/-- The name as it is looked up. -/
def OptStmt.key : OptStmt → Text
  | valued name _ _ => name.yytext
  | unknown name => name.yytext

def OptStmt.print : OptStmt → List Lexeme
  | valued name value _ => [name, value, op ';']
  | unknown name => [kw .unknown, name, op ';']

/-- The option that is recorded for a statement. -/
def OptStmt.option (stmt : OptStmt) (field : Field) : DOption :=
  match stmt with
  | valued _ value _ => { name := field.name, value := some value.yytext }
  | unknown _ => { name := field.name, value := none, unknown := true }

/-- The tokens of a statement up to its name. -/
def OptStmt.front : OptStmt → List Lexeme
  | valued name _ _ => [name]
  | unknown name => [kw .unknown, name]

/-- The tokens of a statement behind its name. -/
def OptStmt.behind : OptStmt → List Lexeme
  | valued _ value _ => [value, op ';']
  | unknown _ => [op ';']

theorem OptStmt.front_behind (stmt : OptStmt) : stmt.front ++ stmt.behind = stmt.print := by
  cases stmt <;> rfl

/-- Whether the value counts. -/
def OptStmt.obeyValue : OptStmt → Bool
  | valued _ _ _ => true
  | unknown _ => false

theorem handle_reads (reading : Reading) (s : ParseState) :
    ∃ t, handle (.reads reading) s = .ok ((), t) ∧ t.input = s.input := ⟨_, rfl, rfl⟩

theorem runs_parseOption (stmt : OptStmt) (field : Field) (noPrefix : Bool) :
    Runs (parseOption field noPrefix stmt.obeyValue) stmt.behind (some (stmt.option field)) := by
  cases stmt with
  | unknown name => exact Runs.exp rfl (Runs.pure _)
  | valued name value plain =>
    have hvalue : Runs (parseOptionValue field noPrefix) [value, op ';'] (some value.yytext) := by
      apply Runs.lex
      have hne : ¬some value.token = some (Token.op [';']) := fun h => plain.2.2 (Option.some.inj h)
      dsimp only
      rw [if_neg hne]
      exact Runs.quiet (handle_reads _) (Runs.exp rfl (Runs.pure _))
    exact Runs.map _ hvalue

/-- A section with what its delegate fills. -/
abbrev Section (γ : Type) := List DOption × γ

/-- What `__parse_options` does behind the name of a statement. -/
def behindName {γ : Type} (ctx : ContextDef) (delegate : Option (γ → Text → Bool → Parse γ))
    (c : Section γ) (key : Text) (obeyValue : Bool) : Parse (Section γ ⊕ Section γ) :=
  match findField ctx key with
  | (noPrefix, some field) => do
    let option ← parseOption field noPrefix obeyValue
    pure (.inl (c.1 ++ [option], c.2))
  | (_, none) =>
    match delegate with
    | some delegate => do
      let params ← delegate c.2 key obeyValue
      pure (.inl (c.1, params))
    | none => if obeyValue then peExpected else stop .crash

theorem runs_statement {γ : Type} {ctx : ContextDef} {delegate : Option (γ → Text → Bool → Parse γ)}
    {c : Section γ} {stmt : OptStmt} {us : List Lexeme}
    {r : Option (Section γ ⊕ Section γ)} (h : Runs (behindName ctx delegate c stmt.key stmt.obeyValue) us r) :
    Runs (parseOptionStmt ctx delegate c) (stmt.front ++ us) r := by
  cases stmt with
  | valued name value plain =>
    have hclose : ¬some name.token = some (Token.op ['}']) := fun h => plain.1 (Option.some.inj h)
    have hobey : decide (some name.token ≠ some (Token.keyword .unknown)) = true :=
      decide_eq_true fun h => plain.2.1 (Option.some.inj h)
    apply Runs.lex
    dsimp only
    rw [if_neg hclose, hobey]
    exact h
  | unknown name =>
    apply Runs.lex
    exact Runs.andThen (Runs.map Prod.snd Runs.yylex) h

/-- A statement about a field of the section. -/
theorem runs_found {γ : Type} {ctx : ContextDef} {delegate : Option (γ → Text → Bool → Parse γ)}
    (c : Section γ) {stmt : OptStmt} {field : Field}
    (hf : (findField ctx stmt.key).2 = some field) :
    Runs (parseOptionStmt ctx delegate c) stmt.print (some (.inl (c.1 ++ [stmt.option field], c.2))) := by
  rw [← stmt.front_behind]
  apply runs_statement
  have hfind : findField ctx stmt.key = ((findField ctx stmt.key).1, some field) := by rw [← hf]
  unfold behindName
  rw [hfind]
  exact Runs.map (fun option => Sum.inl (c.1 ++ [option], c.2)) (runs_parseOption stmt field _)

theorem runs_close {γ : Type} {ctx : ContextDef} {delegate : Option (γ → Text → Bool → Parse γ)}
    (c : Section γ) : Runs (parseOptionStmt ctx delegate c) [op '}'] (some (.inr c)) :=
  Runs.lex (Runs.pure _)

/-! ## Option sections -/

section Env

variable {env : Env}

/-- A statement of a section without a delegate. -/
def fieldStep {γ : Type} (ctx : ContextDef) (c : Section γ) (stmt : OptStmt) : Option (Section γ) :=
  (findField ctx stmt.key).2.map fun field => (c.1 ++ [stmt.option field], c.2)

theorem fieldStep_eq_none {γ : Type} {ctx : ContextDef} {c : Section γ} {stmt : OptStmt}
    (h : fieldStep ctx c stmt = none) :
    findField ctx stmt.key = ((findField ctx stmt.key).1, none) := by
  rw [fieldStep, Option.map_eq_none_iff] at h
  rw [← h]

theorem runs_fieldStep {γ : Type} {ctx : ContextDef} {delegate : Option (γ → Text → Bool → Parse γ)}
    {c c' : Section γ} {stmt : OptStmt} (h : fieldStep ctx c stmt = some c') :
    Runs (parseOptionStmt ctx delegate c) stmt.print (some (.inl c')) := by
  obtain ⟨field, hf, rfl⟩ := Option.map_eq_some_iff.1 h
  exact runs_found c hf

/-- A section, from a description of its statements. -/
theorem runs_section {γ : Type} {ctx : ContextDef} {delegate : Option (γ → Text → Bool → Parse γ)}
    {step : Section γ → OptStmt → Option (Section γ)} {P : Section γ → Prop}
    (hkeep : ∀ c stmt c', P c → step c stmt = some c' → P c')
    (hturn : ∀ c stmt c', P c → step c stmt = some c' →
      Runs (parseOptionStmt ctx delegate c) stmt.print (some (.inl c')))
    (hbad : ∀ fuel c stmt, P c → step c stmt = none →
      Runs (Prog.loop (stop .hang) fuel (parseOptionStmt ctx delegate) c) stmt.print none)
    {stmts : List OptStmt} (hfuel : stmts.length < env.fuel) {params : γ} (hc : P ([], params)) :
    Runs (parseOptionsLoop env ctx delegate params) (stmts.flatMap OptStmt.print ++ [op '}'])
      (stmts.foldlM step ([], params)) := by
  have hloop : Runs (Prog.loop (stop .hang) env.fuel (parseOptionStmt ctx delegate) ([], params))
      (stmts.flatMap OptStmt.print ++ [op '}']) ((stmts.foldlM step ([], params)).bind some) :=
    Runs.loop hkeep hturn hbad (fun c _ => runs_close c) hc hfuel
  rw [Option.bind_fun_some] at hloop
  exact hloop

/-- A section without a delegate. -/
def optionsResult (ctx : ContextDef) (stmts : List OptStmt) : Option (List DOption) :=
  (stmts.foldlM (fieldStep ctx) (([], ()) : Section Unit)).map Prod.fst

theorem runs_parseOptions {ctx : ContextDef} {stmts : List OptStmt} (hfuel : stmts.length < env.fuel) :
    Runs (parseOptions env ctx) (stmts.flatMap OptStmt.print ++ [op '}']) (optionsResult ctx stmts) := by
  refine Runs.map Prod.fst (runs_section (P := fun _ => True) (fun _ _ _ _ _ => trivial)
    (fun _ _ _ _ => runs_fieldStep) ?_ hfuel trivial)
  intro fuel c stmt _ hbad
  apply Runs.loop_none
  rw [← stmt.front_behind]
  apply runs_statement
  unfold behindName
  rw [fieldStep_eq_none hbad]
  cases stmt with
  | valued name value plain => exact Runs.stop .exit _
  | unknown name => exact Runs.stop .crash _

/-- What the delegate of a net section passes over. -/
def netPasses (stmt : OptStmt) : Bool :=
  decide (stmt.key = "discard-my-data".toList) &&
    match stmt with
    | .valued _ value _ => decide (value.token = .keyword .yes) || decide (value.token = .keyword .no)
    | .unknown _ => true

theorem runs_netDelegate (stmt : OptStmt) :
    Runs (netDelegate .parseForAdjust () stmt.key stmt.obeyValue) stmt.behind
      (if netPasses stmt then some () else none) := by
  unfold netDelegate
  by_cases hkey : stmt.key = "discard-my-data".toList
  · rw [if_pos ⟨hkey, rfl⟩]
    cases stmt with
    | unknown name =>
      rw [netPasses, decide_eq_true hkey]
      exact Runs.expOne rfl
    | valued name value plain =>
      rw [netPasses, decide_eq_true hkey]
      apply Runs.lex
      dsimp only
      split
      · next htok =>
        simp only [Option.some.inj htok, decide_true, Bool.true_or, Bool.and_self, if_true]
        exact Runs.expOne rfl
      · next htok =>
        simp only [Option.some.inj htok, decide_true, Bool.or_true, Bool.and_self, if_true]
        exact Runs.expOne rfl
      · next htok => exact absurd (Option.some.inj htok) plain.2.2
      · next hyes hno _ =>
        have hyes' : value.token ≠ .keyword .yes := fun h => hyes (congrArg some h)
        have hno' : value.token ≠ .keyword .no := fun h => hno (congrArg some h)
        simp only [hyes', hno', decide_false, Bool.or_self, Bool.and_false, Bool.false_eq_true, if_false]
        exact Runs.stop .exit _
  · have hfalse : netPasses stmt = false := by
      unfold netPasses
      rw [decide_eq_false hkey, Bool.false_and]
    rw [if_neg fun h => hkey h.1, hfalse]
    exact Runs.stop .exit _

/-- A statement of a net section. -/
def netStep (env : Env) (c : Section Unit) (stmt : OptStmt) : Option (Section Unit) :=
  (fieldStep env.showNetOptionsCtx c stmt).or (if netPasses stmt then some c else none)

def netResult (env : Env) (stmts : List OptStmt) : Option (List DOption) :=
  (stmts.foldlM (netStep env) (([], ()) : Section Unit)).map Prod.fst

theorem runs_parseNetOptions {stmts : List OptStmt} (hfuel : stmts.length < env.fuel) :
    Runs (parseNetOptions env .parseForAdjust) (stmts.flatMap OptStmt.print ++ [op '}'])
      (netResult env stmts) := by
  -- the statement about a name that is no field, with what the delegate makes of it
  have hdelegate : ∀ c stmt, fieldStep env.showNetOptionsCtx c stmt = none →
      Runs (parseOptionStmt env.showNetOptionsCtx (some (netDelegate .parseForAdjust)) c) stmt.print
        ((if netPasses stmt then some () else none).map fun u => Sum.inl (c.1, u)) := by
    intro c stmt hnone
    rw [← stmt.front_behind]
    apply runs_statement
    unfold behindName
    rw [fieldStep_eq_none hnone]
    exact Runs.map _ (runs_netDelegate stmt)
  refine Runs.map Prod.fst (runs_section (P := fun _ => True) (fun _ _ _ _ _ => trivial) ?_ ?_ hfuel
    trivial)
  · intro c stmt c' _ h
    cases hfield : fieldStep env.showNetOptionsCtx c stmt with
    | some c'' =>
      rw [netStep, hfield] at h
      cases h
      exact runs_fieldStep hfield
    | none =>
      rw [netStep, hfield] at h
      have hrun := hdelegate c stmt hfield
      split at h
      · next hp =>
        cases h
        rw [if_pos hp] at hrun
        exact hrun
      · cases h
  · intro fuel c stmt _ h
    have hfield : fieldStep env.showNetOptionsCtx c stmt = none := by
      rw [netStep] at h
      exact (Option.or_eq_none_iff.1 h).1
    have hrun := hdelegate c stmt hfield
    rw [netStep, hfield] at h
    split at h
    · cases h
    · next hp =>
      rw [if_neg hp] at hrun
      exact Runs.loop_none hrun fuel

/-- A statement of the disk section of a volume. -/
def diskStep (env : Env) (c : Section PeerDelegateData) (stmt : OptStmt) :
    Option (Section PeerDelegateData) :=
  match (findField env.attachCmdCtx stmt.key).2, (findField env.peerDeviceOptionsCtx stmt.key).2,
    (findField env.deviceOptionsCtx stmt.key).2 with
  | some field, _, _ => some (c.1 ++ [stmt.option field], c.2)
  | none, some field, _ =>
    some (c.1, { c.2 with peerDeviceOptions := c.2.peerDeviceOptions ++ [stmt.option field] })
  | none, none, some field =>
    some (c.1, { c.2 with deviceOptions := c.2.deviceOptions ++ [stmt.option field] })
  | none, none, none => none

/-- No table has a field whose name is a semicolon. -/
def NoSemicolon (env : Env) : Prop :=
  (findField env.attachCmdCtx [';']).2 = none ∧ (findField env.peerDeviceOptionsCtx [';']).2 = none ∧
    (findField env.deviceOptionsCtx [';']).2 = none

theorem findField_eq {ctx : ContextDef} {key : Text} {field : Option Field}
    (h : (findField ctx key).2 = field) : findField ctx key = ((findField ctx key).1, field) := by rw [← h]

/-- The delegate of the disk section of a volume, which has no net options to fill. -/
theorem insertPdOptionsDelegate_none {params : PeerDelegateData} (hnet : params.netOptions = none)
    {key : Text} (hpd : (findField env.peerDeviceOptionsCtx key).2 = none)
    (hdev : (findField env.deviceOptionsCtx key).2 = none) (obeyValue : Bool) :
    insertPdOptionsDelegate env params key obeyValue = if obeyValue then peExpected else pure params := by
  unfold insertPdOptionsDelegate
  rw [findField_eq hpd, findField_eq hdev, hnet]
  cases decide (key = "fencing".toList) <;> rfl

theorem runs_pdDelegate (params : PeerDelegateData) {stmt : OptStmt} {field : Field}
    (hpd : (findField env.peerDeviceOptionsCtx stmt.key).2 = some field) :
    Runs (insertPdOptionsDelegate env params stmt.key stmt.obeyValue) stmt.behind
      (some { params with peerDeviceOptions := params.peerDeviceOptions ++ [stmt.option field] }) := by
  unfold insertPdOptionsDelegate
  rw [findField_eq hpd]
  exact Runs.map (fun option => { params with peerDeviceOptions := params.peerDeviceOptions ++ [option] })
    (runs_parseOption stmt field _)

theorem runs_deviceDelegate (params : PeerDelegateData) {stmt : OptStmt} {field : Field}
    (hpd : (findField env.peerDeviceOptionsCtx stmt.key).2 = none)
    (hdev : (findField env.deviceOptionsCtx stmt.key).2 = some field) :
    Runs (insertPdOptionsDelegate env params stmt.key stmt.obeyValue) stmt.behind
      (some { params with deviceOptions := params.deviceOptions ++ [stmt.option field] }) := by
  unfold insertPdOptionsDelegate
  rw [findField_eq hpd, findField_eq hdev]
  exact Runs.map (fun option => { params with deviceOptions := params.deviceOptions ++ [option] })
    (runs_parseOption stmt field _)

/-- A statement whose name the delegate takes. -/
theorem runs_delegate {γ : Type} {ctx : ContextDef} {delegate : γ → Text → Bool → Parse γ} (c : Section γ)
    (stmt : OptStmt) (hctx : (findField ctx stmt.key).2 = none) {us : List Lexeme} {r : Option γ}
    (h : Runs (delegate c.2 stmt.key stmt.obeyValue) us r) :
    Runs (parseOptionStmt ctx (some delegate) c) (stmt.front ++ us) (r.map fun d => .inl (c.1, d)) := by
  apply runs_statement
  unfold behindName
  rw [findField_eq hctx]
  exact Runs.map _ h

theorem runs_parseDiskOptions (hsemi : NoSemicolon env) {stmts : List OptStmt}
    (hfuel : stmts.length < env.fuel) {params : PeerDelegateData} (hnet : params.netOptions = none) :
    Runs (parseDiskOptions env params) (stmts.flatMap OptStmt.print ++ [op '}'])
      (stmts.foldlM (diskStep env) ([], params)) := by
  refine runs_section (P := fun c => c.2.netOptions = none) ?_ ?_ ?_ hfuel hnet
  · intro c stmt c' hc h
    unfold diskStep at h
    split at h <;> cases h <;> exact hc
  · intro c stmt c' hc h
    unfold diskStep at h
    split at h
    · next field _ _ hfield =>
      cases h
      exact runs_found c hfield
    · next field _ hctx hpd =>
      cases h
      rw [← stmt.front_behind]
      exact runs_delegate c stmt hctx (runs_pdDelegate c.2 hpd)
    · next field hctx hpd hdev =>
      cases h
      rw [← stmt.front_behind]
      exact runs_delegate c stmt hctx (runs_deviceDelegate c.2 hpd hdev)
    · cases h
  · intro fuel c stmt hc h
    unfold diskStep at h
    split at h
    · cases h
    · cases h
    · cases h
    · next hctx hpd hdev =>
      have hdelegate := insertPdOptionsDelegate_none hc hpd hdev stmt.obeyValue
      cases stmt with
      | valued name value plain =>
        have hstop : Runs (insertPdOptionsDelegate env c.2 name.yytext true) [value, op ';'] none := by
          rw [show insertPdOptionsDelegate env c.2 name.yytext true = _ from hdelegate]
          exact Runs.stop .exit _
        exact Runs.loop_none (runs_delegate c (.valued name value plain) hctx hstop) fuel
      | unknown name =>
        -- only the name is taken, and the semicolon is the name of no field
        have hpass : Runs (insertPdOptionsDelegate env c.2 name.yytext false) [] (some c.2) := by
          rw [show insertPdOptionsDelegate env c.2 name.yytext false = _ from hdelegate]
          exact Runs.pure _
        have hname : Runs (parseOptionStmt env.attachCmdCtx (some (insertPdOptionsDelegate env)) c)
            [kw .unknown, name] (some (.inl c)) :=
          runs_delegate c (.unknown name) hctx hpass
        have hstop : Runs (insertPdOptionsDelegate env c.2 [';'] true) [] none := by
          rw [insertPdOptionsDelegate_none hc hsemi.2.1 hsemi.2.2 true]
          exact Runs.stop .exit _
        have hsemicolon : Runs (parseOptionStmt env.attachCmdCtx (some (insertPdOptionsDelegate env)) c)
            [op ';'] none :=
          runs_delegate c (.valued (op ';') (str []) (by decide)) hsemi.1 hstop
        cases fuel with
        | zero => exact Runs.stop .hang _
        | succ fuel => exact Runs.andThen hname (Runs.loop_none hsemicolon fuel)

end Env

end DrbdUtils.Adm.Parser
