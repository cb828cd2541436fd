import DrbdUtils.Adm.ParseResource

/-!
# The values that the parser stores

An option statement has a value behind its name, or none, and its name can begin with "no-".  What
`parse_option_value()` returns goes to an option list.

* `check_word_iff` — which fields take a "yes" or a "no".
* `run_valueInv` — as long as the configuration is valid, every written value passes its check.
* `storesValid_iff` — when every value that is stored does, and no negated boolean is enabled.
-/

set_option autoImplicit false

namespace DrbdUtils.Adm.Parser

open Scanner
open Setup.ConfigFlags

/-! ## Words -/

/-- `boolean` and `flag` fields. -/
def isBoolean : FieldDef → Bool
  | .boolean _ | .flag _ => true
  | _ => false

/-- Whether a field of this class takes the word of a statement without a value. -/
def TakesWord : FieldDef → Text → Prop
  | .enum e, word => some word ∈ e.map
  | .enumNocase e, word => ∃ name, some name ∈ e.map ∧ strcasecmp word name = true
  | .numeric _, _ => False
  | .enumNum en, word => ∃ m, en.map.find? (·.1 = word) = some m ∧ m.2 ≠ -1
  | .boolean _, _ | .flag _, _ => True
  | .string maxLen _, word => maxLen = 0 ∨ word.length < maxLen
  | .keySerial _, _ => True

/-- "yes" and "no". -/
def IsWord (word : Text) : Prop := word = "yes".toList ∨ word = "no".toList

theorem sscanfLlu_word {word : Text} (hw : IsWord word) : Numerals.sscanfLlu word = none := by
  rcases hw with rfl | rfl <;> decide

/-- A word is no number, whatever its unit. -/
theorem newStrtoll_word {word : Text} (hw : IsWord word) (unit : Char) :
    ∃ e, e ≠ .ok ∧ newStrtoll word unit = .error e := by
  unfold newStrtoll
  rw [sscanfLlu_word hw]
  cases defUnitShift unit with
  | none => exact ⟨_, by decide, rfl⟩
  | some shift =>
    have hne : word ≠ [] := by rcases hw with rfl | rfl <;> decide
    exact ⟨.invalidNumber, by decide, if_neg hne⟩

theorem enumStringToInt_ne_iff (map : List (Option Text)) (value : Text) (eq : Text → Text → Bool) :
    enumStringToInt map value eq ≠ -1 ↔ ∃ name, some name ∈ map ∧ eq value name = true := by
  unfold enumStringToInt
  cases h : map.findIdx? fun name => name.any (eq value) with
  | none =>
    rw [List.findIdx?_eq_none_iff] at h
    simp only [ne_eq, not_true_eq_false, false_iff, not_exists, not_and]
    intro name hname
    simpa using h (some name) hname
  | some n =>
    have hex : ∃ name, some name ∈ map ∧ eq value name = true := by
      have hany : (map.any fun name => name.any (eq value)) = true := by
        rw [← List.findIdx?_isSome, h]
        rfl
      obtain ⟨o, ho, hname⟩ := List.any_eq_true.1 hany
      cases o with
      | none => cases hname
      | some name => exact ⟨name, ho, hname⟩
    simp only [hex, iff_true]
    omega

theorem enumCheck_iff (e : EnumDef) (value : Text) (eq : Text → Text → Bool) :
    enumCheck e eq value = .ok ↔ ∃ name, some name ∈ e.map ∧ eq value name = true := by
  rw [← enumStringToInt_ne_iff]
  unfold enumCheck
  split <;> simp_all

theorem enumNumCheck_word_iff (en : EnumNumDef) {word : Text} (hw : IsWord word) :
    enumNumCheck en word = .ok ↔ ∃ m, en.map.find? (·.1 = word) = some m ∧ m.2 ≠ -1 := by
  unfold enumNumCheck enumNumToInt
  cases h : en.map.find? (·.1 = word) with
  | none =>
    obtain ⟨e, he, herr⟩ := newStrtoll_word hw '\x01'
    simp [herr, he]
  | some m => simp

theorem check_word_iff (fd : FieldDef) {word : Text} (hw : IsWord word) :
    check fd word = .ok ↔ TakesWord fd word := by
  cases fd with
  | enum e =>
    rw [check, enumCheck_iff, TakesWord]
    simp [strcmp]
  | enumNocase e => exact enumCheck_iff e word strcasecmp
  | numeric n =>
    obtain ⟨e, -, herr⟩ := newStrtoll_word hw n.scale
    simp [check, numericCheck, herr, TakesWord]
  | enumNum en => exact enumNumCheck_word_iff en hw
  | boolean defv | flag defv => rcases hw with rfl | rfl <;> simp [check, TakesWord, booleanStringToInt]
  | string maxLen len =>
    rw [check, TakesWord]
    split
    · simp_all
    · next h => simp only [true_iff]; omega
  | keySerial type => simp [check, TakesWord]

/-! ## Statements -/

/-- The value of a statement is one that its field allows, now or when it is looked at later. -/
def Reading.Valid (r : Reading) : Prop :=
  r.field.checkedInPostparse = true ∨ check r.field.fieldDef r.value = .ok

/-- A boolean with "no-" in front of it is enabled. -/
def Reading.NegatedEnabled (r : Reading) : Prop :=
  r.noPrefix = true ∧ isBoolean r.field.fieldDef = true ∧ booleanStringToInt (some r.value) = 1

/-- A statement without a value is about a field that takes its word, and one about a negated boolean
    does not say yes. -/
def Reading.WellWritten (r : Reading) : Prop :=
  match r.written with
  | none =>
    r.field.checkedInPostparse = true ∨
      TakesWord r.field.fieldDef (if r.noPrefix then "no".toList else "yes".toList)
  | some yytext =>
    r.noPrefix = true → isBoolean r.field.fieldDef = true → yytext ≠ "yes".toList

theorem booleanStringToInt_eq_one_iff (value : Text) :
    booleanStringToInt (some value) = 1 ↔ value = "yes".toList := by
  unfold booleanStringToInt
  by_cases hyes : value = ['y', 'e', 's']
  · simp [hyes]
  · by_cases hno : value = ['n', 'o'] <;> simp [hyes, hno]

theorem Reading.valid_of_not_peField {r : Reading} {yytext : Text} (hw : r.written = some yytext)
    (h : r.peField = false) : r.Valid := by
  have hvalue : r.value = yytext := by rw [Reading.value, hw]
  rw [Reading.peField, hw] at h
  rw [Reading.Valid, hvalue]
  cases hp : r.field.checkedInPostparse with
  | true => exact Or.inl rfl
  | false => exact Or.inr (by simpa [hp] using h)

/-- A statement that `parse_option_value` has no error for. -/
theorem Reading.valid_iff {r : Reading} (h : r.peField = false) :
    (r.Valid ∧ ¬r.NegatedEnabled) ↔ r.WellWritten := by
  cases hw : r.written with
  | none =>
    have hvalue : r.value = if r.noPrefix then "no".toList else "yes".toList := by
      rw [Reading.value, hw]
    have hword : IsWord r.value := by
      rw [hvalue]
      cases r.noPrefix
      · exact Or.inl rfl
      · exact Or.inr rfl
    have hneg : ¬r.NegatedEnabled := by
      rintro ⟨hno, -, hone⟩
      rw [booleanStringToInt_eq_one_iff, hvalue, hno] at hone
      revert hone
      decide
    rw [Reading.WellWritten, hw, Reading.Valid, check_word_iff _ hword, hvalue]
    simp only [hneg, not_false_eq_true, and_true]
  | some yytext =>
    have hvalue : r.value = yytext := by rw [Reading.value, hw]
    rw [Reading.WellWritten, hw, Reading.NegatedEnabled, hvalue, booleanStringToInt_eq_one_iff]
    have hvalid := Reading.valid_of_not_peField hw h
    simp only [hvalid, true_and, not_and]

/-! ## The run -/

/-- As long as the configuration is valid, no statement was an error. -/
def ValueInv (s : ParseState) : Prop :=
  s.configValid ≤ 1 ∧ (s.configValid = 1 → ∀ r ∈ s.readings, r.peField = false)

/-- Operations that read no option keep the statements, and do not make a configuration valid. -/
theorem ValueInv.of_le {s s' : ParseState} (hs : ValueInv s) (hr : s'.readings = s.readings)
    (hc : s'.configValid = s.configValid ∨ s'.configValid = 0) : ValueInv s' := by
  obtain ⟨hle, hinv⟩ := hs
  rcases hc with hc | hc
  · exact ⟨by omega, fun h => by rw [hr]; exact hinv (by omega)⟩
  · exact ⟨by omega, fun h => by omega⟩

theorem handle_valueInv (o : Op) (s : ParseState) (r : o.Ans) (s' : ParseState) (hs : ValueInv s)
    (h : handle o s = .ok (r, s')) : ValueInv s' := by
  cases o with
  | yylex =>
    rw [handle] at h
    split at h <;> cases h
    · exact hs
    · exact hs.of_le rfl (Or.inl rfl)
  | stop reason => cases h
  | invalid =>
    cases h
    exact hs.of_le rfl (Or.inr rfl)
  | invalidInConfig =>
    cases h
    refine hs.of_le rfl ?_
    dsimp only
    split
    · exact Or.inr rfl
    · exact Or.inl rfl
  | checkUniq key | checkUpr key =>
    rw [handle] at h
    split at h <;> cases h
    · exact hs
    · refine hs.of_le rfl ?_
      dsimp only
      split
      · exact Or.inl rfl
      · exact Or.inr rfl
  | checkUprInit =>
    cases h
    split
    · exact hs
    · exact hs.of_le rfl (Or.inl rfl)
  | alreadySeen realPath | pushFile input =>
    cases h
    exact hs.of_le rfl (Or.inl rfl)
  | popFile =>
    rw [handle] at h
    split at h <;> cases h
    · exact hs
    · exact hs.of_le rfl (Or.inl rfl)
  | reads reading =>
    cases h
    obtain ⟨hle, hinv⟩ := hs
    cases hp : reading.peField with
    | true => exact ⟨by simp [hle], by simp [hle]⟩
    | false =>
      refine ⟨by simpa [hp] using hle, ?_⟩
      intro hc r hr
      simp only [Bool.false_and, Bool.false_eq_true, if_false] at hc
      rcases List.mem_append.1 hr with hr | hr
      · exact hinv hc r hr
      · rw [List.mem_singleton.1 hr]
        exact hp

/-- Every run of a function of the parser keeps the invariant. -/
theorem run_valueInv {α : Type} {p : Parse α} {s s' : ParseState} {a : α} (hs : ValueInv s)
    (h : p.run handle s = .ok (a, s')) : ValueInv s' := Prog.run_induct handle_valueInv hs h

/-- An option that `parse_option_value` reads has the value of the statement that was read last. -/
theorem parseOption_stores {field : Field} {noPrefix : Bool} {s s' : ParseState} {o : DOption}
    (h : (parseOption field noPrefix true).run handle s = .ok (o, s')) :
    ∃ r : Reading, s'.readings = s.readings ++ [r] ∧ r.field = field ∧ r.noPrefix = noPrefix ∧
      o = { name := field.name, value := some r.value } := by
  obtain ⟨value, t, hvalue, h⟩ := Prog.run_bind_eq_ok.1 h
  cases h
  obtain ⟨⟨token, yytext⟩, u, hlex, hvalue⟩ := Prog.run_bind_eq_ok.1 hvalue
  have hu : u.readings = s.readings := by
    rw [yylex, Prog.run_perform, handle] at hlex
    split at hlex <;> cases hlex <;> rfl
  dsimp only at hvalue
  split at hvalue
  · cases hvalue
    exact ⟨_, by rw [← hu], rfl, rfl, rfl⟩
  · obtain ⟨_, v, hreads, hvalue⟩ := Prog.run_bind_eq_ok.1 hvalue
    cases hreads
    obtain ⟨_, w, hexp, hvalue⟩ := Prog.run_bind_eq_ok.1 hvalue
    obtain ⟨l, input, -, -, rfl⟩ := run_expOp_iff.1 hexp
    cases hvalue
    exact ⟨_, by rw [← hu], rfl, rfl, rfl⟩

/-! ## The parser -/

/-- The state of the parser in front of the first token of a configuration. -/
def startState (input : List Lexeme) : ParseState where
  input := input

/-- What a text is parsed to, when it is accepted. -/
def Accepts (env : Env) (room : Nat) (path : Text) (input : List Lexeme) (config : Config)
    (s : ParseState) : Prop :=
  (myParse env room path path {}).run handle (startState input) = .ok (config, s) ∧ s.configValid = 1

/-- A statement that was read from an accepted configuration was no error. -/
theorem Accepts.peField {env : Env} {room : Nat} {path : Text} {input : List Lexeme} {config : Config}
    {s : ParseState} (h : Accepts env room path input config s) : ∀ r ∈ s.readings, r.peField = false := by
  have hinit : ValueInv (startState input) := ⟨Nat.le_refl 1, fun _ _ hr => by cases hr⟩
  exact (run_valueInv hinit h.1).2 h.2

/-- Every value that is stored is valid and no negated boolean is enabled, exactly when each statement
    without a value is about a field that takes its word and no negated boolean says yes. -/
theorem storesValid_iff (env : Env) (room : Nat) (path : Text) (input : List Lexeme) (config : Config)
    (s : ParseState) (h : Accepts env room path input config s) :
    (∀ r ∈ s.readings, r.Valid ∧ ¬r.NegatedEnabled) ↔ ∀ r ∈ s.readings, r.WellWritten :=
  forall₂_congr fun r hr => Reading.valid_iff (h.peField r hr)

/-! ## A disk section -/

/-- A machine without files, whose disk sections have a number and a boolean. -/
def diskEnv : Env where
  showNetOptionsCtx := []
  netOptionsCtx := []
  attachCmdCtx :=
    [{ name := "al-extents".toList
       fieldDef := .numeric
         { nlaType := .u32, min := 67, max := 65534, defv := 1237, implicitClamp := true,
           scale_mem := one_mem_scales } },
      { name := "disk-flushes".toList, fieldDef := .boolean true }]
  resourceOptionsCtx := []
  peerDeviceOptionsCtx := []
  deviceOptionsCtx := []
  startupOptionsCtx := []
  handlersCtx := []
  proxyOptionsCtx := []
  limits _ := (0, 65535)
  hostnameInList _ := true
  dtMinorOfDev _ := -1
  fopen _ _ := .noEntry
  canonifyPath _ path := path
  realpath _ path := path
  glob _ _ := .nomatch
  driver := {}
  fuel := 20

def kw (k : Keyword) : Lexeme := ⟨.keyword k, k.text⟩

def op (c : Char) : Lexeme := ⟨.op [c], [c]⟩

def str (txt : Text) : Lexeme := ⟨.string txt, txt⟩

/-- resource r { disk { al-extents; no-disk-flushes yes; } } -/
def bareNumber : List Lexeme :=
  [kw .resource, str "r".toList, op '{', kw .disk, op '{', str "al-extents".toList, op ';',
    str "no-disk-flushes".toList, kw .yes, op ';', op '}', op '}']

/-- The text is accepted; the number is "yes", and what was switched off is on. -/
theorem bareNumber_accepted :
    ∃ config s, Accepts diskEnv 0 "/etc/drbd.conf".toList bareNumber config s ∧
      (∃ r ∈ s.readings, r.field.name = "al-extents".toList ∧ r.field.checkedInPostparse = false ∧
        check r.field.fieldDef r.value = .notANumber) ∧
      ∃ r ∈ s.readings, r.NegatedEnabled :=
  ⟨_, _, ⟨rfl, rfl⟩, ⟨_, List.mem_cons_self, rfl, rfl, by decide⟩,
    ⟨_, List.mem_cons_of_mem _ List.mem_cons_self, rfl, rfl, by decide⟩⟩

theorem storesValid_iff_bareNumber :
    ∃ config s, Accepts diskEnv 0 "/etc/drbd.conf".toList bareNumber config s ∧
      ((∀ r ∈ s.readings, r.Valid ∧ ¬r.NegatedEnabled) ↔ ∀ r ∈ s.readings, r.WellWritten) :=
  ⟨_, _, ⟨rfl, rfl⟩, storesValid_iff diskEnv 0 "/etc/drbd.conf".toList bareNumber _ _ ⟨rfl, rfl⟩⟩

end DrbdUtils.Adm.Parser
