import DrbdUtils.Lib.Strtoul

/-!
# require-drbd-module-version

`validate_kmod()` of `drbdadm_parser.c` with the functions of `drbdtool_common.c` that read versions.

* `Version` — its code always packs the three numbers.
* `codeCmp_iff` — what each comparison of the difference of two codes says of them.
* `validateKmod_iff` — when a statement passes exactly for the versions it names.
-/

set_option autoImplicit false

namespace DrbdUtils.Adm.ValidateKmod

open Numerals

/-! ## Versions -/

/-- `struct version`, without what identifies a build.  A version whose text was never read is zero. -/
structure Version where
  major : BitVec 32 := 0
  minor : BitVec 32 := 0
  sublvl : BitVec 32 := 0
  versionCode : BitVec 32 := 0
  packed : versionCode = major * 65536 + minor * 256 + sublvl := by decide
  deriving DecidableEq

/-- `strtol(nptr, endptr, 10)`. -/
def strtol (nptr : List Char) : Int × List Char :=
  match numeral nptr with
  | none => (0, nptr)
  | some (z, endptr) => (max (-2 ^ 63) (min (2 ^ 63 - 1) z), endptr)

/-- The values of `maj`, `min` and `sub` as the fields take them. -/
def Version.ofLongs (maj min sub : Int) : Version where
  major := BitVec.ofInt 32 maj
  minor := BitVec.ofInt 32 min
  sublvl := BitVec.ofInt 32 sub
  versionCode := BitVec.ofInt 32 (maj * 65536 + min * 256 + sub)
  packed := by simp only [BitVec.ofInt_add, BitVec.ofInt_mul]; rfl

/-- `version_from_str`; `none` where it leaves `rel` as it is. -/
def versionFromStr (token : List Char) : Option Version :=
  let (maj, dot) := strtol token
  match dot with
  | '.' :: dot =>
    let (min, dot) := strtol dot
    match dot with
    | '.' :: dot => some (.ofLongs maj min (strtol dot).1)
    | _ => none
  | _ => none

/-- `isgraph`. -/
def isGraph (c : Char) : Bool := '!' ≤ c && c ≤ '~'

/-- `sget_token`: the next word and the text behind it.  A word that does not fit is cut, and the
    letter behind each word is consumed. -/
def sgetToken (size : Nat) (text : List Char) : Option (List Char × List Char) :=
  let text := text.dropWhile (!isGraph ·)
  if text = [] then none
  else
    let s := (text.takeWhile isGraph).take (size - 1)
    some (s, text.drop (s.length + 1))

/-- The states of `parse_version`. -/
inductive Expect where
  | begin
  | ver
  | svn
  | rev
  | git
  | srcv
  deriving DecidableEq, Repr

/-- The loop of `parse_version`; each word of the text takes one turn. -/
def parseVersionLoop : Nat → Expect → Option Version → List Char → Option Version
  | 0, _, rel, _ => rel
  | turns + 1, ex, rel, text =>
    match sgetToken 80 text with
    | none => rel
    | some (token, text) =>
      match ex with
      | .begin =>
        parseVersionLoop turns
          (if token = "version:".toList then .ver
            else if token = "SVN".toList then .svn
            else if token = "GIT-hash:".toList then .git
            else if token = "srcversion:".toList then .srcv
            else .begin) rel text
      | .ver =>
        if token = "plus".toList then parseVersionLoop turns .ver rel text
        else parseVersionLoop turns .begin ((versionFromStr token).or rel) text
      | .svn => parseVersionLoop turns (if token = "Revision:".toList then .rev else .svn) rel text
      -- what follows only tells builds apart
      | .rev | .git | .srcv => rel

/-- `parse_version`; `none` where `rel` is not written. -/
def parseVersion (rel : Option Version) (text : List Char) : Option Version :=
  parseVersionLoop text.length .begin rel text

/-- A version that was never read. -/
def Version.unread : Version := {}

/-- Where the version of the driver is looked for. -/
structure DriverSources where
  /-- `__drbd_driver_version`, as far as it is read. -/
  cached : Version := .unread
  /-- `DRBD_DRIVER_VERSION_OVERRIDE`. -/
  driverVersionOverride : Option (List Char) := none
  procDrbd : Option (List Char) := none
  /-- The word that `modinfo` prints. -/
  modinfo : Option (List Char) := none

/-- `get_drbd_driver_version`. -/
def getDrbdDriverVersion (src : DriverSources) (rel : Version) : Option Version :=
  match src.procDrbd with
  | some versionTxt => parseVersion (some rel) versionTxt
  | none => src.modinfo.map fun buf => (versionFromStr buf).getD rel

/-- `drbd_driver_version(STRICT)`. -/
def drbdDriverVersion (src : DriverSources) : Option Version :=
  if src.cached.versionCode ≠ 0 then some src.cached
  else
    match src.driverVersionOverride with
    | some txt =>
      let rel := (versionFromStr txt).getD src.cached
      if rel.versionCode ≠ 0 then some rel else getDrbdDriverVersion src rel
    | none => getDrbdDriverVersion src src.cached

/-! ## The statement -/

/-- `TK_MODULE_EQ` and the other five. -/
inductive ModuleToken where
  | eq
  | ne
  | gt
  | ge
  | lt
  | le
  deriving DecidableEq, Repr

/-- `MOD_CMP`: the difference of two `unsigned` is compared with 0. -/
def ModuleToken.modCmp (token : ModuleToken) (loaded expected : BitVec 32) : Bool :=
  match token with
  | .eq => loaded - expected == 0
  | .ne => loaded - expected != 0
  | .gt => decide (loaded - expected > 0)
  | .ge => decide (loaded - expected ≥ 0)
  | .lt => decide (loaded - expected < 0)
  | .le => decide (loaded - expected ≤ 0)

/-- How `validate_kmod` ends. -/
inductive KmodResult where
  | returns
  /-- No driver is loaded. -/
  | notLoaded
  /-- The validation error. -/
  | notTrue
  /-- `expected` was compared without having been written. -/
  | indeterminate
  deriving DecidableEq, Repr

/-- `validate_kmod` with the text of the version in `yylval`. -/
def validateKmod (src : DriverSources) (token : ModuleToken) (txt : List Char) : KmodResult :=
  match drbdDriverVersion src with
  | none => .notLoaded
  | some loaded =>
    match parseVersion none ("version: ".toList ++ txt) with
    | none => .indeterminate
    | some expected =>
      if token.modCmp loaded.versionCode expected.versionCode then .returns else .notTrue

/-! ## What a statement says -/

/-- A version as its three numbers. -/
@[ext]
structure Release where
  major : Nat
  minor : Nat
  sublevel : Nat
  deriving DecidableEq, Repr

/-- The order of the versions. -/
def Release.Before (a b : Release) : Prop :=
  a.major < b.major ∨ a.major = b.major ∧
    (a.minor < b.minor ∨ a.minor = b.minor ∧ a.sublevel < b.sublevel)

instance (a b : Release) : Decidable (a.Before b) :=
  inferInstanceAs (Decidable (_ ∨ _ ∧ (_ ∨ _ ∧ _)))

/-- Each number fits in the bits that the code has for it. -/
structure Release.Small (r : Release) : Prop where
  major : r.major < 256
  minor : r.minor < 256
  sublevel : r.sublevel < 256

def Version.release (v : Version) : Release := ⟨v.major.toNat, v.minor.toNat, v.sublvl.toNat⟩

/-- The relation that the name of a statement stands for. -/
def ModuleToken.Holds (token : ModuleToken) (loaded required : Release) : Prop :=
  match token with
  | .eq => loaded = required
  | .ne => loaded ≠ required
  | .gt => required.Before loaded
  | .ge => ¬loaded.Before required
  | .lt => loaded.Before required
  | .le => ¬required.Before loaded

/-- The texts that the scanner takes as `TK_KMODVERS`, with the numbers they are of. -/
structure Spells (txt : List Char) (r : Release) : Prop where
  parts : ∃ maj min sub : List Char, txt = maj ++ '.' :: (min ++ '.' :: sub) ∧
    (maj ≠ [] ∧ min ≠ [] ∧ sub ≠ []) ∧ (∀ c ∈ maj ++ min ++ sub, digitVal c < 10) ∧
    r = ⟨ofDigits 10 maj, ofDigits 10 min, ofDigits 10 sub⟩

/-! ## Comparing codes -/

/-- A difference of two unsigned numbers is never negative, and positive unless they are equal. -/
theorem modCmp_iff (token : ModuleToken) (a b : BitVec 32) :
    token.modCmp a b = true ↔
      match token with
      | .eq | .le => a = b
      | .ne | .gt => a ≠ b
      | .ge => True
      | .lt => False := by
  have hzero : a - b = 0 ↔ a = b := by
    constructor
    · intro h
      bv_omega
    · rintro rfl
      exact BitVec.sub_self a
  have hpos (d : BitVec 32) : d > 0 ↔ ¬d = 0 := by
    constructor
    · intro h
      bv_omega
    · intro h
      bv_omega
  cases token with
  | eq => simp only [ModuleToken.modCmp, beq_iff_eq, hzero]
  | ne => simp only [ModuleToken.modCmp, bne_iff_ne, ne_eq, hzero]
  | gt => simp only [ModuleToken.modCmp, decide_eq_true_eq, ne_eq, hpos, hzero]
  | ge => simp [ModuleToken.modCmp, BitVec.le_def]
  | lt => simp [ModuleToken.modCmp]
  | le =>
    simp only [ModuleToken.modCmp, decide_eq_true_eq]
    rw [← BitVec.not_lt, ← hzero]
    exact (not_congr (hpos (a - b))).trans not_not

theorem Version.versionCode_toNat (v : Version) (h : v.release.Small) :
    v.versionCode.toNat = v.release.major * 65536 + v.release.minor * 256 + v.release.sublevel := by
  have hmajor : v.major.toNat < 256 := h.major
  have hminor : v.minor.toNat < 256 := h.minor
  have hsublvl : v.sublvl.toNat < 256 := h.sublevel
  have hpacked := v.packed
  simp only [Version.release]
  bv_omega

/-- Codes of small versions are equal only for equal versions. -/
theorem Version.versionCode_inj {v w : Version} (hv : v.release.Small) (hw : w.release.Small) :
    v.versionCode = w.versionCode ↔ v.release = w.release := by
  rw [← BitVec.toNat_inj, v.versionCode_toNat hv, w.versionCode_toNat hw]
  have := hv.minor
  have := hv.sublevel
  have := hw.minor
  have := hw.sublevel
  constructor
  · intro hcode
    have hmajor : v.release.major = w.release.major := by omega
    have hminor : v.release.minor = w.release.minor := by omega
    have hsublevel : v.release.sublevel = w.release.sublevel := by omega
    exact Release.ext hmajor hminor hsublevel
  · intro hrelease
    rw [hrelease]

theorem Release.before_irrefl (r : Release) : ¬r.Before r := by
  unfold Release.Before
  omega

/-- Two different versions are in one of the two orders. -/
theorem Release.before_or_before {a b : Release} (h : a ≠ b) : a.Before b ∨ b.Before a := by
  unfold Release.Before
  by_contra hcon
  refine h (Release.ext ?_ ?_ ?_) <;> omega

theorem Release.Before.not_before {a b : Release} (h : a.Before b) : ¬b.Before a := by
  unfold Release.Before at *
  omega

/-- A comparison of two codes decides as its name says, unless the loaded version is the lower one
    and the order of the two is asked for. -/
theorem codeCmp_iff (token : ModuleToken) {loaded expected : Version}
    (hloaded : loaded.release.Small) (hexpected : expected.release.Small) :
    (token.modCmp loaded.versionCode expected.versionCode = true ↔
        token.Holds loaded.release expected.release) ↔
      token = .eq ∨ token = .ne ∨ ¬loaded.release.Before expected.release := by
  rw [modCmp_iff]
  simp only [ne_eq, Version.versionCode_inj hloaded hexpected]
  by_cases heq : loaded.release = expected.release
  · cases token <;> simp [ModuleToken.Holds, heq, Release.before_irrefl]
  · rcases Release.before_or_before heq with hlt | hlt
    · cases token <;> simp [ModuleToken.Holds, heq, hlt, hlt.not_before]
    · cases token <;> simp [ModuleToken.Holds, heq, hlt, hlt.not_before]

/-! ## Reading the version of the statement -/

theorem isGraph_of_digit {c : Char} (h : digitVal c < 10) : isGraph c = true := by
  unfold digitVal at h
  split at h
  · next hc =>
    unfold isGraph
    rw [Bool.and_eq_true, decide_eq_true_eq, decide_eq_true_eq]
    exact ⟨Char.le_trans (by decide : '!' ≤ '0') hc.1, Char.le_trans hc.2 (by decide : '9' ≤ '~')⟩
  · split at h
    · next hc =>
      have : 97 ≤ c.toNat := hc.1
      omega
    · split at h
      · next hc =>
        have : 65 ≤ c.toNat := hc.1
        omega
      · omega

/-- A word that fits, with one letter behind it. -/
theorem sgetToken_word {size : Nat} {w : List Char} (hne : w ≠ []) (hgraph : ∀ c ∈ w, isGraph c = true)
    (hsize : w.length < size) {rest : List Char} (hrest : ∀ c ∈ rest.head?, isGraph c = false) :
    sgetToken size (w ++ rest) = some (w, rest.drop 1) := by
  have hdrop : (w ++ rest).dropWhile (!isGraph ·) = w ++ rest := by
    cases w with
    | nil => exact absurd rfl hne
    | cons c w =>
      exact List.dropWhile_cons_of_neg (by simp [hgraph c (List.mem_cons_self ..)])
  have htake : (w ++ rest).takeWhile isGraph = w := by
    rw [List.takeWhile_append_of_pos hgraph]
    cases rest with
    | nil => simp
    | cons c rest =>
      rw [List.takeWhile_cons_of_neg (by simp [hrest c rfl]), List.append_nil]
  unfold sgetToken
  simp only [hdrop, htake, List.take_of_length_le (Nat.le_sub_one_of_lt hsize)]
  rw [if_neg (by simp [hne]), ← List.drop_drop, List.drop_left]

section Spells

variable {txt : List Char} {r : Release}

theorem Spells.ne_nil (h : Spells txt r) : txt ≠ [] := by
  obtain ⟨maj, min, sub, rfl, -⟩ := h.parts
  simp

theorem Spells.isGraph (h : Spells txt r) : ∀ c ∈ txt, isGraph c = true := by
  obtain ⟨maj, min, sub, rfl, -, hdigits, -⟩ := h.parts
  intro c hc
  simp only [List.mem_append, List.mem_cons] at hc hdigits
  rcases hc with hc | rfl | hc | rfl | hc
  · exact isGraph_of_digit (hdigits c (Or.inl (Or.inl hc)))
  · rfl
  · exact isGraph_of_digit (hdigits c (Or.inl (Or.inr hc)))
  · rfl
  · exact isGraph_of_digit (hdigits c (Or.inr hc))

/-- A small number is read as it is. -/
theorem strtol_plain {s rest : List Char} (hs : Plain 10 s) (hsmall : ofDigits 10 s < 256)
    (hrest : ∀ c ∈ rest.head?, ¬digitVal c < 10) :
    strtol (s ++ rest) = ((ofDigits 10 s : Int), rest) := by
  unfold strtol
  rw [numeral_plain hs hrest]
  simp only [Prod.mk.injEq, and_true]
  omega

theorem versionFromStr_spells (h : Spells txt r) (hr : r.Small) :
    versionFromStr txt = some (.ofLongs r.major r.minor r.sublevel) := by
  obtain ⟨maj, min, sub, rfl, ⟨hmaj, hmin, hsub⟩, hdigits, rfl⟩ := h.parts
  simp only [List.mem_append] at hdigits
  have hmaj : Plain 10 maj := ⟨hmaj, fun c hc => hdigits c (Or.inl (Or.inl hc)), by decide⟩
  have hmin : Plain 10 min := ⟨hmin, fun c hc => hdigits c (Or.inl (Or.inr hc)), by decide⟩
  have hsub : Plain 10 sub := ⟨hsub, fun c hc => hdigits c (Or.inr hc), by decide⟩
  have hdot (s : List Char) : ∀ c ∈ ('.' :: s).head?, ¬digitVal c < 10 := by
    intro c hc
    cases hc
    decide
  have hlast := @strtol_plain sub [] hsub hr.sublevel (by simp)
  rw [List.append_nil] at hlast
  unfold versionFromStr
  simp only [strtol_plain hmaj hr.major (hdot _), strtol_plain hmin hr.minor (hdot _), hlast]

theorem release_ofLongs (hr : r.Small) :
    (Version.ofLongs r.major r.minor r.sublevel).release = r := by
  have := hr.major
  have := hr.minor
  have := hr.sublevel
  cases r
  simp only [Version.ofLongs, Version.release, BitVec.ofInt_natCast, BitVec.toNat_ofNat]
  simp only at *
  congr <;> omega

/-- The text is one word behind "version:". -/
theorem parseVersion_spells (h : Spells txt r) (hr : r.Small) (hfits : txt.length < 80) :
    parseVersion none ("version: ".toList ++ txt) =
      some (.ofLongs r.major r.minor r.sublevel) := by
  have hfirst : sgetToken 80 ("version: ".toList ++ txt) = some ("version:".toList, txt) :=
    @sgetToken_word 80 "version:".toList (by decide)
      (List.all_eq_true.1 (by decide : "version:".toList.all isGraph = true)) (by decide) (' ' :: txt)
      (by simp [isGraph])
  have hsecond : sgetToken 80 txt = some (txt, []) := by
    have hword := @sgetToken_word 80 txt h.ne_nil h.isGraph hfits [] (by simp)
    rwa [List.append_nil] at hword
  have hplus : txt ≠ "plus".toList := by
    rintro rfl
    have hread := versionFromStr_spells h hr
    rw [show versionFromStr "plus".toList = none by decide] at hread
    cases hread
  unfold parseVersion
  rw [List.length_append, Nat.add_comm, show "version: ".toList.length = 7 + 2 from rfl,
    ← Nat.add_assoc]
  rw [parseVersionLoop, hfirst]
  dsimp only
  rw [if_pos rfl, parseVersionLoop, hsecond]
  dsimp only
  rw [if_neg hplus, versionFromStr_spells h hr]
  cases txt.length + 7 <;> rfl

theorem spells_decText (r : Release) :
    Spells (decText r.major ++ '.' :: (decText r.minor ++ '.' :: decText r.sublevel)) r := by
  refine ⟨_, _, _, rfl, ⟨decText_ne_nil _, decText_ne_nil _, decText_ne_nil _⟩, ?_, ?_⟩
  · intro c hc
    simp only [List.mem_append] at hc
    rcases hc with (hc | hc) | hc <;> exact digitVal_lt_of_mem_decText hc
  · simp only [ofDigits_decText]

end Spells

/-! ## Which statements pass -/

/-- A statement about a lower loaded version passes as if the loaded one were the higher. -/
theorem validateKmod_iff (src : DriverSources) (token : ModuleToken) (txt : List Char)
    (loaded : Version) (required : Release)
    (hsrc : drbdDriverVersion src = some loaded) (hloaded : loaded.release.Small)
    (htxt : Spells txt required) (hrequired : required.Small) (hfits : txt.length < 80) :
    (validateKmod src token txt = .returns ↔ token.Holds loaded.release required) ↔
      token = .eq ∨ token = .ne ∨ ¬loaded.release.Before required := by
  have hrelease := release_ofLongs hrequired
  have hcmp := codeCmp_iff token hloaded (by rwa [hrelease])
  rw [hrelease] at hcmp
  rw [← hcmp]
  unfold validateKmod
  simp only [hsrc, parseVersion_spells htxt hrequired hfits]
  split <;> simp_all

/-- The driver 9.1.16 as `/proc/drbd` shows it. -/
def proc9116 : DriverSources where
  procDrbd := some "version: 9.1.16 (api:2/proto:86-121)".toList

theorem drbdDriverVersion_proc9116 :
    drbdDriverVersion proc9116 = some (.ofLongs 9 1 16) := by
  decide

theorem validateKmod_iff_proc9116 :
    (validateKmod proc9116 .ge "9.0.16".toList = .returns ↔
        ModuleToken.Holds .ge (Version.ofLongs 9 1 16).release ⟨9, 0, 16⟩) ↔
      ModuleToken.ge = .eq ∨ ModuleToken.ge = .ne ∨
        ¬(Version.ofLongs 9 1 16).release.Before ⟨9, 0, 16⟩ :=
  validateKmod_iff proc9116 .ge "9.0.16".toList (.ofLongs 9 1 16) ⟨9, 0, 16⟩
    drbdDriverVersion_proc9116 ⟨by decide, by decide, by decide⟩ (spells_decText ⟨9, 0, 16⟩)
    ⟨by decide, by decide, by decide⟩ (by decide)

/-- The older driver satisfies "at least 9.2.0". -/
theorem validateKmod_older_returns :
    drbdDriverVersion proc9116 = some (.ofLongs 9 1 16) ∧
      validateKmod proc9116 .ge "9.2.0".toList = .returns ∧
      ¬ModuleToken.Holds .ge (Version.ofLongs 9 1 16).release ⟨9, 2, 0⟩ :=
  ⟨drbdDriverVersion_proc9116, by decide, by simp only [ModuleToken.Holds]; decide⟩

end DrbdUtils.Adm.ValidateKmod
