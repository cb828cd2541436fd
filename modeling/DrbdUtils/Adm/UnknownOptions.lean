import DrbdUtils.Adm.ShowText

/-!
# Options that the kernel does not know

"drbdsetup show" prints "_unknown name;" for an option without a value.  Where the tables of drbdadm have
the name, the option is recorded as unknown; where they do not, the statement is to be passed over.

* `AgreesOn` — two descriptions that agree on good items, and of which the first stops at the others.
* `agreesOn_show` — the parser does what it is to do as long as it knows each name.
* `skipsUnknown_iff` — the parser goes on to the end of a text exactly when it knows each name.
-/

set_option autoImplicit false

namespace DrbdUtils.Adm.Parser

open Scanner

/-! ## Two descriptions of a list -/

section AgreesOn

variable {γ ι : Type} {f g : γ → ι → Option γ} {good : ι → Prop}

/-- The steps agree on a good item, and the first stops at an item that is not good. -/
structure AgreesOn (f g : γ → ι → Option γ) (good : ι → Prop) : Prop where
  same : ∀ c i, good i → f c i = g c i
  stops : ∀ c i, ¬good i → f c i = none

theorem AgreesOn.foldlM_same (h : AgreesOn f g good) {items : List ι} (hgood : ∀ i ∈ items, good i) (c : γ) :
    items.foldlM f c = items.foldlM g c := by
  induction items generalizing c with
  | nil => rfl
  | cons i items ih =>
    obtain ⟨hi, hitems⟩ := List.forall_mem_cons.1 hgood
    rw [List.foldlM_cons, List.foldlM_cons, h.same c i hi]
    cases g c i with
    | none => rfl
    | some c' => exact ih hitems c'

theorem AgreesOn.foldlM_stops (h : AgreesOn f g good) {items : List ι} (hbad : ¬∀ i ∈ items, good i) (c : γ) :
    items.foldlM f c = none := by
  induction items generalizing c with
  | nil => exact absurd nofun hbad
  | cons i items ih =>
    rw [List.foldlM_cons]
    cases hstep : f c i with
    | none => rfl
    | some c' =>
      have hi : good i := by
        by_contra hi
        rw [h.stops c i hi] at hstep
        cases hstep
      exact ih (fun hitems => hbad (List.forall_mem_cons.2 ⟨hi, hitems⟩)) c'

end AgreesOn

/-! ## What is to be made of a text -/

/-- Where the section has no field for an unknown option, the statement is passed over. -/
def skipping {γ : Type} (step : γ → OptStmt → Option γ) (c : γ) (stmt : OptStmt) : Option γ :=
  match stmt with
  | .valued _ _ _ => step c stmt
  | .unknown _ => (step c stmt).or (some c)

/-- The parser, if it passed over what it does not know. -/
def skippingSem (env : Env) : SectionSem where
  field ctx := skipping (fieldStep ctx)
  net := skipping (netStep env)
  disk := skipping (diskStep env)

/-! ## The names that a section knows -/

def hasField (ctx : ContextDef) (name : Text) : Prop := (findField ctx name).2.isSome = true

/-- The delegate of a net section passes over one more name. -/
def netKnows (env : Env) (name : Text) : Prop :=
  hasField env.showNetOptionsCtx name ∨ name = "discard-my-data".toList

def diskKnows (env : Env) (name : Text) : Prop :=
  hasField env.attachCmdCtx name ∨ hasField env.peerDeviceOptionsCtx name ∨
    hasField env.deviceOptionsCtx name

/-- An option that is reported as unknown has a name that the section knows. -/
def OptStmt.KnownTo (knows : Text → Prop) : OptStmt → Prop
  | valued _ _ _ => True
  | unknown name => knows name.yytext

section Known

variable (env : Env)

def VolItem.Known : VolItem → Prop
  | .options stmts => ∀ stmt ∈ stmts, stmt.KnownTo (diskKnows env)
  | _ => True

def HostItem.Known : HostItem → Prop
  | .nodeId _ => True
  | .volume _ items => ∀ item ∈ items, item.Known env

def ConnItem.Known : ConnItem → Prop
  | .net stmts => ∀ stmt ∈ stmts, stmt.KnownTo (netKnows env)
  | .volume _ stmts => ∀ stmt ∈ stmts, stmt.KnownTo (hasField env.peerDeviceOptionsCtx)
  | _ => True

def ResItem.Known : ResItem → Prop
  | .options stmts => ∀ stmt ∈ stmts, stmt.KnownTo (hasField env.resourceOptionsCtx)
  | .thisHost items => ∀ item ∈ items, item.Known env
  | .connection items => ∀ item ∈ items, item.Known env

def ShowResource.Known (res : ShowResource) : Prop := ∀ item ∈ res.items, item.Known env

end Known

/-! ## The parser on unknown options -/

section Env

variable (env : Env)

theorem agreesOn_skipping {γ : Type} {step : γ → OptStmt → Option γ} {knows : Text → Prop}
    (h : ∀ c name, (step c (.unknown name)).isSome = true ↔ knows name.yytext) :
    AgreesOn step (skipping step) (OptStmt.KnownTo knows) where
  same c stmt hknown := by
    cases stmt with
    | valued name value plain => rfl
    | unknown name =>
      obtain ⟨c', hc'⟩ := Option.isSome_iff_exists.1 ((h c name).2 hknown)
      rw [skipping, hc']
      rfl
  stops c stmt hknown := by
    cases stmt with
    | valued name value plain => exact absurd trivial hknown
    | unknown name => exact Option.not_isSome_iff_eq_none.1 fun hsome => hknown ((h c name).1 hsome)

theorem agreesOn_field (ctx : ContextDef) :
    AgreesOn (fieldStep ctx) (skipping (fieldStep ctx) : Section Unit → OptStmt → Option (Section Unit))
      (OptStmt.KnownTo (hasField ctx)) := by
  refine agreesOn_skipping fun c name => ?_
  rw [fieldStep, Option.isSome_map]
  rfl

theorem agreesOn_net : AgreesOn (netStep env) (skipping (netStep env)) (OptStmt.KnownTo (netKnows env)) := by
  refine agreesOn_skipping fun c name => ?_
  have hpasses : netPasses (.unknown name) = decide (name.yytext = "discard-my-data".toList) :=
    Bool.and_true _
  rw [netStep, Option.isSome_or, Bool.or_eq_true, fieldStep, Option.isSome_map, hpasses, netKnows]
  refine or_congr Iff.rfl ?_
  split
  · next h => exact iff_of_true rfl (of_decide_eq_true h)
  · next h => exact iff_of_false Bool.false_ne_true fun heq => h (decide_eq_true heq)

theorem agreesOn_disk :
    AgreesOn (parserSem env).disk (skippingSem env).disk (OptStmt.KnownTo (diskKnows env)) := by
  refine agreesOn_skipping fun c name => ?_
  change (diskStep env c (.unknown name)).isSome = true ↔ _
  unfold diskStep diskKnows hasField OptStmt.key
  cases (findField env.attachCmdCtx name.yytext).2 <;>
    cases (findField env.peerDeviceOptionsCtx name.yytext).2 <;>
    cases (findField env.deviceOptionsCtx name.yytext).2 <;> simp

theorem agreesOn_volume :
    AgreesOn (volStep (parserSem env)) (volStep (skippingSem env)) (VolItem.Known env) where
  same vol item hknown := by
    cases item with
    | options stmts => rw [volStep, volStep, (agreesOn_disk env).foldlM_same hknown]
    | _ => rfl
  stops vol item hknown := by
    cases item with
    | options stmts => rw [volStep, (agreesOn_disk env).foldlM_stops hknown, Option.map_none]
    | _ => exact absurd trivial hknown

theorem agreesOn_host :
    AgreesOn (hostStep (parserSem env)) (hostStep (skippingSem env)) (HostItem.Known env) where
  same host item hknown := by
    cases item with
    | nodeId id => rfl
    | volume vnr items => rw [hostStep, hostStep, (agreesOn_volume env).foldlM_same hknown]
  stops host item hknown := by
    cases item with
    | nodeId id => exact absurd trivial hknown
    | volume vnr items => rw [hostStep, (agreesOn_volume env).foldlM_stops hknown, Option.map_none]

theorem options_same {ctx : ContextDef} {stmts : List OptStmt}
    (hknown : ∀ stmt ∈ stmts, stmt.KnownTo (hasField ctx)) :
    (parserSem env).options ctx stmts = (skippingSem env).options ctx stmts :=
  congrArg _ ((agreesOn_field ctx).foldlM_same hknown _)

theorem options_stops {ctx : ContextDef} {stmts : List OptStmt}
    (hknown : ¬∀ stmt ∈ stmts, stmt.KnownTo (hasField ctx)) :
    (parserSem env).options ctx stmts = none :=
  congrArg _ ((agreesOn_field ctx).foldlM_stops hknown _)

theorem agreesOn_connection :
    AgreesOn (connStep (parserSem env) env) (connStep (skippingSem env) env) (ConnItem.Known env) where
  same conn item hknown := by
    cases item with
    | net stmts =>
      have h : (parserSem env).netOptions stmts = (skippingSem env).netOptions stmts :=
        congrArg _ ((agreesOn_net env).foldlM_same hknown _)
      rw [connStep, connStep, h]
    | volume vnr stmts => rw [connStep, connStep, options_same env hknown]
    | _ => rfl
  stops conn item hknown := by
    cases item with
    | net stmts =>
      have h : (parserSem env).netOptions stmts = none :=
        congrArg _ ((agreesOn_net env).foldlM_stops hknown _)
      rw [connStep, h, Option.map_none]
    | volume vnr stmts => rw [connStep, options_stops env hknown, Option.map_none]
    | _ => exact absurd trivial hknown

theorem agreesOn_resource :
    AgreesOn (resStep (parserSem env) env) (resStep (skippingSem env) env) (ResItem.Known env) where
  same res item hknown := by
    cases item with
    | options stmts => rw [resStep, resStep, options_same env hknown]
    | thisHost items => rw [resStep, resStep, (agreesOn_host env).foldlM_same hknown]
    | connection items => rw [resStep, resStep, (agreesOn_connection env).foldlM_same hknown]
  stops res item hknown := by
    cases item with
    | options stmts => rw [resStep, options_stops env hknown, Option.map_none]
    | thisHost items => rw [resStep, (agreesOn_host env).foldlM_stops hknown, Option.map_none]
    | connection items => rw [resStep, (agreesOn_connection env).foldlM_stops hknown, Option.map_none]

theorem agreesOn_show :
    AgreesOn
      (fun running res => (showResource (parserSem env) env res).map fun r => running ++ [r])
      (fun running res => (showResource (skippingSem env) env res).map fun r => running ++ [r])
      (ShowResource.Known env) where
  same _ res hknown := by
    rw [showResource, showResource, (agreesOn_resource env).foldlM_same hknown]
  stops _ res hknown := by
    rw [showResource, (agreesOn_resource env).foldlM_stops hknown, Option.map_none]

end Env

/-- The text is parsed to its end, with the result. -/
def ParsedTo (env : Env) (room : Nat) (s : ParseState) (running : List Resource) : Prop :=
  ∃ t, (parseDrbdsetupShow env room).run handle s = .ok (running, t) ∧ t.input = []

/-- For every text whose statements with a value are taken: the text is parsed to its end, and to what it
    is without the unknown options that no table has, exactly when there are no such options. -/
theorem skipsUnknown_iff {env : Env} (hsemi : NoSemicolon env) (room : Nat) {text : List ShowResource}
    (hfuel : (text.flatMap ShowResource.print).length < env.fuel) {expected : List Resource}
    (hexpected : showResult (skippingSem env) env text = some expected) {s : ParseState}
    (hs : s.input = text.flatMap ShowResource.print) :
    ParsedTo env room s expected ↔ ∀ res ∈ text, res.Known env := by
  have hrun := runs_show hsemi room text hfuel s hs
  by_cases hknown : ∀ res ∈ text, res.Known env
  · have hsame : showResult (parserSem env) env text = some expected :=
      ((agreesOn_show env).foldlM_same hknown []).trans hexpected
    rw [hsame] at hrun
    exact iff_of_true hrun hknown
  · have hstops : showResult (parserSem env) env text = none := (agreesOn_show env).foldlM_stops hknown []
    rw [hstops] at hrun
    obtain ⟨e, he⟩ := hrun
    refine iff_of_false ?_ hknown
    rintro ⟨t, ht, -⟩
    rw [he] at ht
    cases ht

/-- resource r { _this_host { volume 0 { disk { _unknown disk-flushes; } } } } -/
def knownOption : ShowResource where
  name := "r".toList
  items := [.thisHost [.volume "0".toList [.options [.unknown (str "disk-flushes".toList)]]]]

/-- What it is parsed to. -/
def knownOptionResource : Resource where
  name := "r".toList
  allHosts :=
    [{ onHosts := ["_this_host".toList]
       volumes := [{ vnr := 0, diskOptions :=
         [{ name := "disk-flushes".toList, value := none, unknown := true }] }] }]

theorem skipsUnknown_iff_knownOption :
    ParsedTo diskEnv 0 (startState knownOption.print) [knownOptionResource] := by
  have h : ParsedTo diskEnv 0 (startState knownOption.print) [knownOptionResource] ↔
      ∀ res ∈ [knownOption], res.Known diskEnv :=
    skipsUnknown_iff ⟨rfl, rfl, rfl⟩ 0 (by decide) rfl rfl
  apply h.2
  simp only [List.mem_singleton, forall_eq, ShowResource.Known, knownOption, ResItem.Known, HostItem.Known,
    VolItem.Known, OptStmt.KnownTo]
  exact Or.inl rfl

/-- resource r { options { _unknown auto-promote; } } -/
def unknownOption : ShowResource where
  name := "r".toList
  items := [.options [.unknown (str "auto-promote".toList)]]

/-- The statement is to be passed over, and the parser follows a null pointer. -/
theorem unknownOption_crashes :
    showResult (skippingSem diskEnv) diskEnv [unknownOption] = some [{ name := "r".toList }] ∧
      (parseDrbdsetupShow diskEnv 0).run handle (startState unknownOption.print) = .error .crash :=
  ⟨rfl, rfl⟩

end DrbdUtils.Adm.Parser
