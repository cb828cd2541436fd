import DrbdUtils.Setup.ConfigFlags

/-!
# The resync-after option

A `resync-after` option names a resource, or a volume as `resource/volume`; the kernel wants the
minor of the volume.  `_convert_after_option()` looks the values up with `ctx_by_name()` and changes
the list of disk options while it goes through it.

* `afterOutcome_of_names` — what the lookup makes of a value does not depend on the options before.
* `convertAfterOption_spec` — which options are rewritten, removed and kept, and what becomes of
  `config_valid`.
-/

set_option autoImplicit false

namespace DrbdUtils.Adm.ResyncAfter

open DrbdUtils.Setup.ConfigFlags (mStrtoll)

variable {σ : Type}

/-! ## The configuration -/

/-- `struct d_option` of a disk section. -/
structure DiskOption where
  name : String
  value : List Char
  deriving DecidableEq, Repr

structure Volume where
  vnr : BitVec 32
  deviceMinor : BitVec 32
  deriving DecidableEq, Repr

/-- `struct d_resource`; `me` has the volumes of the host section of this node. -/
structure Resource where
  name : List Char
  ignore : Bool
  me : Option (List Volume)
  /-- A resource without a section for this node is ignored, see `set_me_in_resource()`. -/
  me_isSome : ignore = false → me.isSome

def Resource.volumes (res : Resource) : List Volume := res.me.getD []

/-! ## Looking up a value -/

/-- `strrchr()`, with the text in front of the character and the one after it. -/
def splitLast (c : Char) (s : List Char) : List Char × Option (List Char) :=
  if c ∈ s then
    (((s.reverse.dropWhile (· ≠ c)).drop 1).reverse, some (s.reverse.takeWhile (· ≠ c)).reverse)
  else
    (s, none)

/-- `strchr()`, with the text in front of the character and the one after it. -/
def splitFirst (c : Char) (s : List Char) : List Char × Option (List Char) :=
  if c ∈ s then
    (s.takeWhile (· ≠ c), some ((s.dropWhile (· ≠ c)).drop 1))
  else
    (s, none)

/-- `struct cfg_ctx`, as far as the conversion looks at it. -/
structure CfgCtx where
  res : Option Resource
  vol : Option Volume

def resByName (config : List Resource) (name : List Char) : Option Resource :=
  config.find? (·.name = name)

def volumeByVnr (volumes : List Volume) (vnr : BitVec 32) : Option Volume :=
  volumes.find? (·.vnr = vnr)

/-- The number after the slash; `m_strtoll()` ends the program where there is none. -/
def volNr : Option (List Char) → Option (Option (BitVec 32))
  | none => some none
  | some volId => (mStrtoll volId '\x00').map fun n => some (BitVec.ofNat 32 n)

/-- The end of `ctx_by_name()`. -/
def ctxVolume (res : Resource) : Option (BitVec 32) → CfgCtx
  | none => ⟨some res, none⟩
  | some nr => ⟨some res, if nr = BitVec.allOnes 32 then none else volumeByVnr res.volumes nr⟩

/-- The search for the connection named after a colon.  It sets flags of the connections, in `σ`, and
tells whether `ctx_by_name()` goes on to the volume. -/
abbrev ConnectionSearch (σ : Type) := σ → Resource → List Char → Bool × σ

/-- `ctx_by_name()` with `SETUP_MULTI`; `none` where the program ends. -/
def ctxByName (search : ConnectionSearch σ) (config : List Resource) (s : σ) (id : List Char) :
    Option (CfgCtx × σ) :=
  let (input, volId) := splitLast '/' id
  match volNr volId with
  | none => none
  | some volNr =>
    let (resName, conn) := splitFirst ':' input
    match resByName config resName with
    | none => some (⟨none, none⟩, s)
    | some res =>
      if res.ignore then
        some (⟨none, none⟩, s)
      else
        match conn with
        | none => some (ctxVolume res volNr, s)
        | some conn =>
          let (found, s) := search s res conn
          some (if found then ctxVolume res volNr else ⟨some res, none⟩, s)

/-- `ctx_set_implicit_volume()`, with the number of volumes it returns. -/
def ctxSetImplicitVolume (ctx : CfgCtx) : CfgCtx × Nat :=
  match ctx.vol, ctx.res with
  | none, some res =>
    match res.me with
    | none => (ctx, 0)
    | some [vol] => ({ ctx with vol := some vol }, 1)
    | some volumes => (ctx, volumes.length)
  | _, _ => (ctx, 0)

/-- What a value turns out to be; `other` is for an option that is no `resync-after`. -/
inductive Outcome where
  | other
  | volume (vol : Volume)
  | unknown
  | ambiguous
  deriving DecidableEq, Repr

/-- The lookup of one value, up to the branch that is taken. -/
def afterOutcome (search : ConnectionSearch σ) (config : List Resource) (s : σ) (id : List Char) :
    Option (Outcome × σ) := do
  let (dependsOn, s) ← ctxByName search config s id
  let (dependsOn, volumes) := ctxSetImplicitVolume dependsOn
  if volumes > 1 then
    return (.ambiguous, s)
  match dependsOn.res, dependsOn.vol with
  | some res, some vol => return (if res.ignore then .unknown else .volume vol, s)
  | _, _ => return (.unknown, s)

/-- `%d` -/
def formatD (n : BitVec 32) : List Char :=
  match n.toInt with
  | .ofNat n => Nat.toDigits 10 n
  | .negSucc n => '-' :: Nat.toDigits 10 (n + 1)

/-- `_convert_after_option()`, from an option of the list on; `none` where the program ends. -/
def convertAfterOption (search : ConnectionSearch σ) (config : List Resource) (noTty : Bool) :
    σ → Bool → List DiskOption → Option (Bool × List DiskOption)
  | _, configValid, [] => some (configValid, [])
  | s, configValid, opt :: opts =>
    if opt.name ≠ "resync-after" then
      (convertAfterOption search config noTty s configValid opts).map fun r => (r.1, opt :: r.2)
    else
      match afterOutcome search config s opt.value with
      | none => none
      | some (.ambiguous, _) => some (false, opt :: opts)
      | some (.volume vol, s) =>
        (convertAfterOption search config noTty s configValid opts).map fun r =>
          (r.1, { opt with value := formatD vol.deviceMinor } :: r.2)
      | some (_, s) =>
        if noTty then
          convertAfterOption search config noTty s configValid opts
        else
          (convertAfterOption search config noTty s false opts).map fun r => (r.1, opt :: r.2)

/-! ## What a value names -/

/-- The value is the name of a resource, or a name with the number of a volume. -/
inductive Names : List Char → List Char → Option (BitVec 32) → Prop
  | resource (name : List Char) (hslash : '/' ∉ name) (hcolon : ':' ∉ name) : Names name name none
  | volume (name volId : List Char) (n : Nat) (hslash : '/' ∉ volId) (hcolon : ':' ∉ name)
      (hn : mStrtoll volId '\x00' = some n) :
      Names (name ++ '/' :: volId) name (some (BitVec.ofNat 32 n))

/-- The volumes on this node of the resource with the name, if it is known here. -/
def localVolumes (config : List Resource) (name : List Char) : Option (List Volume) :=
  ((resByName config name).filter (!·.ignore)).map (·.volumes)

/-- What a name stands for.  Nothing is said of a number that the resource has no volume with. -/
def meaning (config : List Resource) (name : List Char) (vnr : Option (BitVec 32)) : Option Outcome :=
  match localVolumes config name with
  | none => some .unknown
  | some volumes =>
    match vnr with
    | none =>
      match volumes with
      | [] => some .unknown
      | [vol] => some (.volume vol)
      | _ => some .ambiguous
    | some nr => if nr = BitVec.allOnes 32 then none else (volumeByVnr volumes nr).map .volume

theorem splitLast_of_not_mem {c : Char} {s : List Char} (h : c ∉ s) : splitLast c s = (s, none) := by
  simp [splitLast, h]

theorem splitLast_append {c : Char} {t : List Char} (s : List Char) (h : c ∉ t) :
    splitLast c (s ++ c :: t) = (s, some t) := by
  have hall : ∀ x ∈ t.reverse, (decide (x ≠ c)) = true := by
    intro x hx
    have hne : x ≠ c := fun heq => h (heq ▸ List.mem_reverse.1 hx)
    simpa using hne
  have hrev : (s ++ c :: t).reverse = t.reverse ++ c :: s.reverse := by simp
  rw [splitLast, if_pos (by simp), hrev, List.dropWhile_append_of_pos hall,
    List.takeWhile_append_of_pos hall]
  simp

theorem splitFirst_of_not_mem {c : Char} {s : List Char} (h : c ∉ s) :
    splitFirst c s = (s, none) := by
  simp [splitFirst, h]

/-- **The lookup of a name**: it leaves the connections alone, and does not depend on them. -/
theorem ctxByName_of_names {id name : List Char} {vnr : Option (BitVec 32)} (h : Names id name vnr)
    (search : ConnectionSearch σ) (config : List Resource) (s : σ) :
    ctxByName search config s id =
      some (match (resByName config name).filter (!·.ignore) with
        | none => ⟨none, none⟩
        | some res => ctxVolume res vnr, s) := by
  have hlookup : ∀ input volId volNr', splitLast '/' id = (input, volId) → volNr volId = some volNr' →
      splitFirst ':' input = (name, none) →
      ctxByName search config s id =
        some (match (resByName config name).filter (!·.ignore) with
          | none => ⟨none, none⟩
          | some res => ctxVolume res volNr', s) := by
    intro input volId volNr' hlast hnr hfirst
    simp only [ctxByName, hlast, hnr, hfirst]
    cases resByName config name with
    | none => rfl
    | some res => cases hign : res.ignore <;> simp [Option.filter, hign]
  cases h with
  | resource _ hslash hcolon =>
    exact hlookup _ none none (splitLast_of_not_mem hslash) rfl (splitFirst_of_not_mem hcolon)
  | volume _ volId n hslash hcolon hn =>
    apply hlookup name (some volId) _ (splitLast_append name hslash) _ (splitFirst_of_not_mem hcolon)
    simp [volNr, hn]

/-- **What becomes of a value** does not depend on the options before it. -/
theorem afterOutcome_of_names {id name : List Char} {vnr : Option (BitVec 32)} {oc : Outcome}
    {config : List Resource} (h : Names id name vnr) (hoc : meaning config name vnr = some oc)
    (search : ConnectionSearch σ) (s : σ) : afterOutcome search config s id = some (oc, s) := by
  have hlookup := ctxByName_of_names h search config s
  unfold meaning localVolumes at hoc
  cases hres : (resByName config name).filter (!·.ignore) with
  | none =>
    simp only [hres, Option.map_none, Option.some.injEq] at hoc hlookup
    subst hoc
    simp [afterOutcome, hlookup, ctxSetImplicitVolume]
  | some res =>
    have hign : res.ignore = false := by
      simpa using (Option.filter_eq_some_iff.1 hres).2
    obtain ⟨volumes, hme⟩ := Option.isSome_iff_exists.1 (res.me_isSome hign)
    have hvols : res.volumes = volumes := by simp [Resource.volumes, hme]
    simp only [hres, Option.map_some, hvols] at hoc hlookup
    cases vnr with
    | none =>
      -- the implicit volume, if there is exactly one
      match volumes with
      | [] =>
        cases hoc
        simp [afterOutcome, hlookup, ctxVolume, ctxSetImplicitVolume, hme]
      | [vol] =>
        cases hoc
        simp [afterOutcome, hlookup, ctxVolume, ctxSetImplicitVolume, hme, hign]
      | _ :: _ :: _ =>
        cases hoc
        simp [afterOutcome, hlookup, ctxVolume, ctxSetImplicitVolume, hme]
    | some nr =>
      have hnr : nr ≠ BitVec.allOnes 32 ∧ (volumeByVnr volumes nr).map Outcome.volume = some oc := by
        simpa using hoc
      obtain ⟨vol, hvol, rfl⟩ := Option.map_eq_some_iff.1 hnr.2
      have hctx : ctxVolume res (some nr) = ⟨some res, some vol⟩ := by
        rw [ctxVolume, if_neg hnr.1, hvols, hvol]
      simp [afterOutcome, hlookup, hctx, ctxSetImplicitVolume, hign]

/-! ## The list of options -/

/-- What is to happen to an option: `other` is for those that are no `resync-after`, and a value that
names something has the outcome that its meaning says. -/
def Settles (config : List Resource) (opt : DiskOption) (oc : Outcome) : Prop :=
  if opt.name ≠ "resync-after" then
    oc = .other
  else
    oc ≠ .other ∧
      ∀ name vnr, Names opt.value name vnr → ∀ oc' ∈ meaning config name vnr, oc = oc'

/-- The options that the conversion leaves in the place of one. -/
def Outcome.rewrite (noTty : Bool) (opt : DiskOption) : Outcome → Option DiskOption
  | other => some opt
  | volume vol => some { opt with value := formatD vol.deviceMinor }
  | unknown => if noTty then none else some opt
  | ambiguous => some opt

/-- The text after the last slash of a value is no number. -/
def NoNumber (value : List Char) : Prop := volNr (splitLast '/' value).2 = none

theorem afterOutcome_ne_other {search : ConnectionSearch σ} {config : List Resource} {s s' : σ}
    {id : List Char} {oc : Outcome} (h : afterOutcome search config s id = some (oc, s')) :
    oc ≠ .other := by
  obtain ⟨⟨ctx, s₁⟩, -, hout⟩ := Option.bind_eq_some_iff.1 h
  simp only at hout
  split at hout
  · cases hout
    simp
  · split at hout
    · cases hout
      split <;> simp
    · cases hout
      simp

theorem noNumber_of_ctxByName {search : ConnectionSearch σ} {config : List Resource} {s : σ}
    {id : List Char} (h : ctxByName search config s id = none) : NoNumber id := by
  simp only [ctxByName] at h
  split at h
  · assumption
  · split at h
    · cases h
    · split at h
      · cases h
      · split at h <;> cases h

theorem noNumber_of_afterOutcome {search : ConnectionSearch σ} {config : List Resource} {s : σ}
    {id : List Char} (h : afterOutcome search config s id = none) : NoNumber id := by
  refine noNumber_of_ctxByName (?_ : ctxByName search config s id = none)
  by_contra hne
  obtain ⟨⟨ctx, s'⟩, hctx⟩ := Option.ne_none_iff_exists'.1 hne
  simp only [afterOutcome, hctx] at h
  simp only [Option.bind_eq_bind, Option.bind_some] at h
  split at h
  · cases h
  · split at h <;> cases h

theorem settles_of_afterOutcome {search : ConnectionSearch σ} {config : List Resource} {s s' : σ}
    {opt : DiskOption} {oc : Outcome} (hname : opt.name = "resync-after")
    (h : afterOutcome search config s opt.value = some (oc, s')) : Settles config opt oc := by
  rw [Settles, if_neg (not_not.2 hname)]
  refine ⟨afterOutcome_ne_other h, fun name vnr hnames oc' hoc' => ?_⟩
  have hout := afterOutcome_of_names hnames hoc' search s
  rw [h, Option.some.injEq, Prod.mk.injEq] at hout
  exact hout.1

/-- What a conversion may make of a list of options.  The `steps` up to the first ambiguous option are
rewritten each for itself, in their order; the `rest` from there on stays.  `config_valid` is cleared
for an ambiguous option, and with a terminal for an unknown one. -/
def Converted (config : List Resource) (noTty configValid : Bool) (opts : List DiskOption)
    (valid : Bool) (out : List DiskOption) : Prop :=
  ∃ (steps : List (DiskOption × Outcome)) (rest : List DiskOption),
    opts = steps.map (·.1) ++ rest ∧
    (∀ p ∈ steps, Settles config p.1 p.2 ∧ p.2 ≠ .ambiguous) ∧
    (∀ opt ∈ rest.head?, Settles config opt .ambiguous) ∧
    out = steps.filterMap (fun p => p.2.rewrite noTty p.1) ++ rest ∧
    (valid = true ↔
      configValid = true ∧ rest = [] ∧ (noTty = true ∨ ∀ p ∈ steps, p.2 ≠ .unknown))

theorem Converted.nil (config : List Resource) (noTty configValid : Bool) :
    Converted config noTty configValid [] configValid [] :=
  ⟨[], [], by simp⟩

/-- An ambiguous option ends the conversion. -/
theorem Converted.ambiguous {config : List Resource} {opt : DiskOption}
    (h : Settles config opt .ambiguous) (noTty configValid : Bool) (opts : List DiskOption) :
    Converted config noTty configValid (opt :: opts) false (opt :: opts) :=
  ⟨[], opt :: opts, rfl, by simp, by simpa using h, rfl, by simp⟩

theorem Converted.cons {config : List Resource} {noTty configValid configValid' valid : Bool}
    {opt : DiskOption} {opts out : List DiskOption} {oc : Outcome} (hoc : Settles config opt oc)
    (hne : oc ≠ .ambiguous)
    (hvalid' : configValid' = true ↔ configValid = true ∧ (noTty = true ∨ oc ≠ .unknown))
    (h : Converted config noTty configValid' opts valid out) :
    Converted config noTty configValid (opt :: opts) valid
      ((oc.rewrite noTty opt).toList ++ out) := by
  obtain ⟨steps, rest, rfl, hsteps, hrest, rfl, hvalid⟩ := h
  refine ⟨(opt, oc) :: steps, rest, rfl, ?_, hrest, ?_, ?_⟩
  · rintro p (_ | ⟨_, hp⟩)
    · exact ⟨hoc, hne⟩
    · exact hsteps p hp
  · cases hr : oc.rewrite noTty opt <;> simp [hr]
  · rw [hvalid, hvalid', List.forall_mem_cons]
    tauto

/-- **The conversion of a list of options.**  The program ends only for a value with no number behind
its slash. -/
theorem convertAfterOption_spec (search : ConnectionSearch σ) (config : List Resource) (noTty : Bool)
    (s : σ) (configValid : Bool) (opts : List DiskOption) :
    match convertAfterOption search config noTty s configValid opts with
    | none => ∃ opt ∈ opts, opt.name = "resync-after" ∧ NoNumber opt.value
    | some (valid, out) => Converted config noTty configValid opts valid out := by
  induction opts generalizing s configValid with
  | nil => exact Converted.nil config noTty configValid
  | cons opt opts ih =>
    -- the head is settled with `oc`, the rest of the list is converted from `s'`
    have hcons : ∀ (s' : σ) (oc : Outcome) (configValid' : Bool), Settles config opt oc →
        oc ≠ .ambiguous →
        (configValid' = true ↔ configValid = true ∧ (noTty = true ∨ oc ≠ .unknown)) →
        match (convertAfterOption search config noTty s' configValid' opts).map fun r =>
            (r.1, (oc.rewrite noTty opt).toList ++ r.2) with
        | none => ∃ opt' ∈ opt :: opts, opt'.name = "resync-after" ∧ NoNumber opt'.value
        | some (valid, out) => Converted config noTty configValid (opt :: opts) valid out := by
      intro s' oc configValid' hoc hne hvalid'
      have htail := ih s' configValid'
      cases hrun : convertAfterOption search config noTty s' configValid' opts with
      | none =>
        rw [hrun] at htail
        obtain ⟨opt', hopt', hno⟩ := htail
        exact ⟨opt', List.mem_cons_of_mem _ hopt', hno⟩
      | some r =>
        rw [hrun] at htail
        exact Converted.cons hoc hne hvalid' htail
    by_cases hname : opt.name = "resync-after"
    · cases hoc : afterOutcome search config s opt.value with
      | none =>
        simp only [convertAfterOption, hname, ne_eq, not_true, if_false, hoc]
        exact ⟨opt, List.mem_cons_self .., hname, noNumber_of_afterOutcome hoc⟩
      | some r =>
        obtain ⟨oc, s'⟩ := r
        have hsettles := settles_of_afterOutcome hname hoc
        cases oc with
        | other => exact absurd rfl (afterOutcome_ne_other hoc)
        | volume vol =>
          have hrun := hcons s' (.volume vol) configValid hsettles (by simp) (by simp)
          simpa [convertAfterOption, hname, hoc, Outcome.rewrite] using hrun
        | unknown =>
          cases noTty with
          | false =>
            have hrun := hcons s' .unknown false hsettles (by simp) (by simp)
            simpa [convertAfterOption, hname, hoc, Outcome.rewrite] using hrun
          | true =>
            have hrun := hcons s' .unknown configValid hsettles (by simp) (by simp)
            simpa [convertAfterOption, hname, hoc, Outcome.rewrite] using hrun
        | ambiguous =>
          simp only [convertAfterOption, hname, ne_eq, not_true, if_false, hoc]
          exact Converted.ambiguous hsettles noTty configValid opts
    · have hother : Settles config opt .other := by simp [Settles, hname]
      have hrun := hcons s .other configValid hother (by simp) (by simp)
      simpa [convertAfterOption, hname, Outcome.rewrite] using hrun

/-- A resource with volumes of the minors given, numbered from 0 on. -/
def resourceOf (name : List Char) (minors : List (BitVec 32)) : Resource :=
  { name := name
    ignore := false
    me := some (minors.zipIdx.map fun m => ⟨BitVec.ofNat 32 m.2, m.1⟩)
    me_isSome := fun _ => rfl }

def resyncAfter (value : List Char) : DiskOption := ⟨"resync-after", value⟩

/-- A converted value is taken for the name of a resource when it is converted again; an ambiguous
value keeps the ones behind it from being converted; and a number that the only volume of the
resource does not have stands for this volume. -/
theorem converted_again :
    let convert := convertAfterOption (fun (s : Unit) _ _ => (true, s))
      [resourceOf ['r', '0'] [5], resourceOf ['r', '1'] [6, 7]] true () true
    convert [resyncAfter ['r', '0', '/', '0']] = some (true, [resyncAfter ['5']]) ∧
      convert [resyncAfter ['5']] = some (true, []) ∧
      convert [resyncAfter ['r', '1'], resyncAfter ['r', '0']] =
        some (false, [resyncAfter ['r', '1'], resyncAfter ['r', '0']]) ∧
      convert [resyncAfter ['r', '0', '/', '7']] = some (true, [resyncAfter ['5']]) := by
  decide

end DrbdUtils.Adm.ResyncAfter
