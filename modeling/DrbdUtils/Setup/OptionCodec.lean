import Mathlib.Order.Bounds.Basic
import DrbdUtils.Setup.ConfigFlags

/-!
# Which option values survive the way to the kernel

The abstract side: what a text means in a field, what the kernel understands, and that a text is sent
as it is meant and comes back as an equal text.

* `newStrtoll_cases` — what is read from a number with a unit.
* `NumericDef.reads_iff` — when that is the number that the text denotes.
* `option_survives_iff` — the texts that are sent as they are meant and come back.
-/

set_option autoImplicit false

namespace DrbdUtils.Setup.ConfigFlags

open Numerals

/-! ## Meanings -/

/-- The bytes of a unit. -/
def bytes : Char → Option Int
  | 's' => some 512
  | 'K' | 'k' => some 1024
  | 'M' | 'm' => some 1048576
  | 'G' | 'g' => some 1073741824
  | _ => none

/-- The bytes of the unit of a field. -/
def scaleBytes (scale : Char) : Int := (bytes scale).getD 1

/-- **What a number denotes** in units of `unit` bytes: itself, or with a unit behind it the least
number of units that is enough. -/
def Quantity (unit : Int) (v : List Char) (d : Int) : Prop :=
  ∃ z rest, numeral v = some (z, rest) ∧
    (rest = [] ∧ d = z ∨
      ∃ u b, rest = [u] ∧ bytes u = some b ∧ IsLeast {d : Int | z * b ≤ d * unit} d)

/-- The values of options. -/
inductive Meaning where
  | num (z : Int)
  | flag (b : Bool)
  | text (s : List Char)
  deriving DecidableEq, Repr

/-- A name of the number `n` in a table. -/
def Names (map : List (Option (List Char))) (n : Nat) (name : List Char) : Prop :=
  map[n]? = some (some name)

/-- **What a text means** in a field. -/
def Denotes (keys : Option Keyring) : FieldDef → List Char → Meaning → Prop
  | .enum e, v, m => ∃ n : Nat, Names e.map n v ∧ m = .num n
  | .enumNocase e, v, m =>
    ∃ (n : Nat) (name : List Char), Names e.map n name ∧ strcasecmp v name = true ∧ m = .num n
  | .numeric f, v, m => ∃ d, Quantity (scaleBytes f.scale) v d ∧ m = .num d
  | .enumNum en, v, m =>
    ∃ z, ((v, z) ∈ en.map ∨ (∀ p ∈ en.map, p.1 ≠ v) ∧ Quantity 1 v z) ∧ m = .num z
  | .boolean _, v, m | .flag _, v, m =>
    v = ['y', 'e', 's'] ∧ m = .flag true ∨ v = ['n', 'o'] ∧ m = .flag false
  | .string _ _, v, m => m = .text v
  | .keySerial type, v, m =>
    ∃ k key, keys = some k ∧ k.requestKey type v (some ['d', 'r', 'b', 'd']) = key ∧ key ≠ -1 ∧
      m = .num key.toNat

/-- What the kernel understands; a flag that is missing is not set. -/
def Understands : FieldDef → List Nlattr → Meaning → Prop
  | .enum _, attrs, m | .enumNocase _, attrs, m | .keySerial _, attrs, m =>
    ∃ n, attrs = [.int n] ∧ m = .num n
  | .numeric f, attrs, m => ∃ n, attrs = [.int n] ∧ m = .num (f.signExtend n)
  | .enumNum _, attrs, m => ∃ n : Nat, attrs = [.int n] ∧ m = .num ((n : Int).bmod (2 ^ 32))
  | .boolean _, attrs, m => ∃ n, attrs = [.int n] ∧ m = .flag (n ≠ 0)
  | .flag _, attrs, m => attrs = [] ∧ m = .flag false ∨ ∃ n, attrs = [.int n] ∧ m = .flag (n ≠ 0)
  | .string _ _, attrs, m => ∃ s, attrs = [.str s] ∧ m = .text s

/-- The nearest number within the limits. -/
def NumericDef.clamp (f : NumericDef) (z : Int) : Int := Max.max f.min (Min.min f.max z)

/-- The same value, or one that is clamped to the same limit. -/
def Agrees : FieldDef → Meaning → Meaning → Prop
  | .numeric f, .num x, .num d => if f.implicitClamp then f.clamp x = f.clamp d else x = d
  | _, m, m' => m = m'

/-- **A text survives**: it is sent as it is meant, and what is printed of it is accepted, equal, and
the default exactly when the text is. -/
def Survives (keys : Option Keyring) (f : FieldDef) (v : List Char) : Prop :=
  ∃ attrs, put keys f v = some attrs ∧
    (∃ m m', Denotes keys f v m ∧ Understands f attrs m' ∧ Agrees f m' m) ∧
    ∀ a ∈ attrs, ∃ w, get keys f a = some w ∧ check f w = .ok ∧
      isEqual keys f v w = some true ∧ ∃ b, isDefault keys f v = some b ∧ isDefault keys f w = some b

/-! ## The condition -/

/-- The numbers of an attribute. -/
def NumericDef.Holds (f : NumericDef) (x : Int) : Prop :=
  if f.isSigned then -2 ^ (f.nlaType.bits - 1) ≤ x ∧ x < 2 ^ (f.nlaType.bits - 1)
  else 0 ≤ x ∧ x < 2 ^ f.nlaType.bits

/-- Sectors that do not overflow when they are rounded up to kilobytes. -/
def NumericDef.NoOverflow (f : NumericDef) (v : List Char) : Prop :=
  ∀ z, scaleBytes f.scale = 1024 → numeral v = some (z, ['s']) → -1 ≤ z ∧ z < 2 ^ 64 - 1

/-- `new_strtoll()` reads a number, as 64 bits. -/
def NumericDef.Reads (f : NumericDef) (v : List Char) (x : Int) : Prop :=
  newStrtoll v f.scale = .ok (x % 2 ^ 64).toNat

/-- **The texts that survive.** -/
def Carries (keys : Option Keyring) : FieldDef → List Char → Prop
  | .enum _, _ | .enumNocase _, _ | .boolean _, _ | .flag _, _ => True
  | .numeric f, v =>
    ∃ d, Quantity (scaleBytes f.scale) v d ∧
      if f.implicitClamp then ∃ x, f.Holds x ∧ f.Reads v x ∧ f.clamp x = f.clamp d
      else f.Holds d ∧ f.NoOverflow v
  | .enumNum en, v =>
    (∃ z : Int, en.map.find? (·.1 = v) = some (v, z) ∧ en.map.find? (·.2 = z) = some (v, z)) ∨
      ∃ z : Int, v = intText z ∧ (-2 ^ 31 ≤ z ∧ z < 2 ^ 31) ∧ z ≠ -1 ∧ ∀ p ∈ en.map, p.1 ≠ v ∧ p.2 ≠ z
  | .string _ len, v => v.length ≤ len
  | .keySerial type, v =>
    ∃ k w, keys = some k ∧
      k.requestKey type v (some ['d', 'r', 'b', 'd']) ≠ -1 ∧
      getKeySerial keys (k.requestKey type v (some ['d', 'r', 'b', 'd'])).toNat = some w ∧
      stringToKeySerial k type v = stringToKeySerial k type w

/-! ## Reading numbers -/

section Numbers

variable {v s : List Char} {scale : Char} {l : Nat} {d z : Int} {rest : List Char}

theorem defUnitShift_scale (h : scale ∈ ['\x01', '1', 'k', 'K', 's']) :
    ∃ e : Nat, defUnitShift scale = some (-(e : Int)) ∧ scaleBytes scale = 2 ^ e ∧
      (e = 0 ∨ e = 9 ∨ e = 10) := by
  simp only [List.mem_cons, List.not_mem_nil, or_false] at h
  rcases h with rfl | rfl | rfl | rfl | rfl
  · exact ⟨0, rfl, rfl, Or.inl rfl⟩
  · exact ⟨0, rfl, rfl, Or.inl rfl⟩
  · exact ⟨10, rfl, rfl, Or.inr (Or.inr rfl)⟩
  · exact ⟨10, rfl, rfl, Or.inr (Or.inr rfl)⟩
  · exact ⟨9, rfl, rfl, Or.inr (Or.inl rfl)⟩

theorem unitShift_bytes {u : Char} {t : Int} (h : unitShift u = some t) :
    ∃ k : Nat, t = k ∧ bytes u = some (2 ^ k) ∧ 9 ≤ k ∧ (k = 9 → u = 's') ∧ (u = 's' → k = 9) := by
  unfold unitShift at h
  split at h
  · exact ⟨10, by cases h; rfl, rfl, by decide, by decide, by decide⟩
  · exact ⟨10, by cases h; rfl, rfl, by decide, by decide, by decide⟩
  · exact ⟨20, by cases h; rfl, rfl, by decide, by decide, by decide⟩
  · exact ⟨20, by cases h; rfl, rfl, by decide, by decide, by decide⟩
  · exact ⟨30, by cases h; rfl, rfl, by decide, by decide, by decide⟩
  · exact ⟨30, by cases h; rfl, rfl, by decide, by decide, by decide⟩
  · exact ⟨9, by cases h; rfl, rfl, by decide, by decide, by decide⟩
  · cases h

theorem convert_ok {shift : Int} {rv : Nat} (h : convert shift rv = .ok l) :
    shift < 0 ∧ l = (rv + (2 ^ (-shift).toNat - 1)) % 2 ^ 64 / 2 ^ (-shift).toNat ∨
      0 ≤ shift ∧ l = rv * 2 ^ shift.toNat ∧ l < 2 ^ 64 := by
  unfold convert at h
  split at h
  · next hneg =>
    cases h
    exact Or.inl ⟨hneg, rfl⟩
  · next hneg =>
    split at h
    · cases h
    · next hmax =>
      cases h
      have hle := (Nat.le_div_iff_mul_le (Nat.two_pow_pos shift.toNat)).1 (Nat.not_lt.1 hmax)
      exact Or.inr ⟨Int.not_lt.1 hneg, rfl, by omega⟩

/-- **What is read from a number**: what is stored, times the units; or sectors that are rounded up
to kilobytes. -/
theorem newStrtoll_cases (hs : scale ∈ ['\x01', '1', 'k', 'K', 's'])
    (h : newStrtoll v scale = .ok l) :
    ∃ z rest, numeral v = some (z, rest) ∧
      (rest = [] ∧ l = stored z ∨
        ∃ u b, rest = [u] ∧ bytes u = some b ∧
          ((∃ k : Nat, b = k * scaleBytes scale ∧ l = stored z * k ∧ l < 2 ^ 64) ∨
            u = 's' ∧ scaleBytes scale = 1024 ∧ l = (stored z + 1) % 2 ^ 64 / 2)) := by
  obtain ⟨e, he, hscale, hcases⟩ := defUnitShift_scale hs
  unfold newStrtoll at h
  rw [he, sscanfLlu_eq] at h
  cases hz : numeral v with
  | none =>
    rw [hz] at h
    dsimp only [Option.map_none] at h
    split at h <;> cases h
  | some p =>
    obtain ⟨z, rest⟩ := p
    refine ⟨z, rest, rfl, ?_⟩
    rw [hz] at h
    dsimp only [Option.map_some] at h
    split at h
    · cases h
    · match rest, h with
      | [], h =>
        cases h
        exact Or.inl ⟨rfl, rfl⟩
      | [u], h =>
        dsimp only at h
        cases ht : unitShift u with
        | none =>
          rw [ht] at h
          cases h
        | some t =>
          rw [ht] at h
          dsimp only at h
          obtain ⟨k, rfl, hb, hk, hsect, -⟩ := unitShift_bytes ht
          refine Or.inr ⟨u, 2 ^ k, rfl, hb, ?_⟩
          rw [hscale]
          rcases convert_ok h with ⟨hneg, rfl⟩ | ⟨hpos, rfl, hlt⟩
          · obtain rfl : k = 9 := by omega
            obtain rfl : e = 10 := by omega
            exact Or.inr ⟨hsect rfl, rfl, rfl⟩
          · obtain ⟨m, rfl⟩ := Nat.exists_eq_add_of_le (show e ≤ k by omega)
            rw [show (-(e : Int) + ((e + m : Nat) : Int)).toNat = m by omega] at hlt ⊢
            refine Or.inl ⟨2 ^ m, ?_, rfl, hlt⟩
            rw [Nat.cast_pow, Nat.cast_ofNat, Nat.add_comm, pow_add]
      | _ :: _ :: _, h => cases h

theorem newStrtoll_lt (hs : scale ∈ ['\x01', '1', 'k', 'K', 's']) (h : newStrtoll v scale = .ok l) :
    l < 2 ^ 64 := by
  obtain ⟨z, rest, -, ⟨-, rfl⟩ | ⟨u, b, -, -, ⟨k, -, -, hlt⟩ | ⟨-, -, rfl⟩⟩⟩ := newStrtoll_cases hs h
  · exact stored_lt z
  · exact hlt
  · omega

theorem Quantity.eq_of_nil {unit : Int} (h : Quantity unit v d) (hz : numeral v = some (z, [])) :
    d = z := by
  obtain ⟨z', rest, hz', hrest⟩ := h
  rw [hz] at hz'
  cases hz'
  rcases hrest with ⟨-, rfl⟩ | ⟨u, b, hu, -⟩
  · rfl
  · cases hu

theorem Quantity.isLeast {unit b : Int} {u : Char} (h : Quantity unit v d)
    (hz : numeral v = some (z, [u])) (hb : bytes u = some b) :
    IsLeast {d : Int | z * b ≤ d * unit} d := by
  obtain ⟨z', rest, hz', hrest⟩ := h
  rw [hz] at hz'
  cases hz'
  rcases hrest with ⟨hnil, -⟩ | ⟨u', b', hu, hb', hleast⟩
  · cases hnil
  · cases hu
    rw [hb] at hb'
    cases hb'
    exact hleast

theorem stored_mul {k : Nat} (hd : -2 ^ 63 ≤ z * k ∧ z * k < 2 ^ 64) (hlt : stored z * k < 2 ^ 64) :
    ((stored z * k : Nat) : Int) = z * k % 2 ^ 64 := by
  rcases Nat.lt_or_ge z.natAbs (2 ^ 64) with habs | habs
  · rw [← Int.emod_eq_of_lt (Int.natCast_nonneg _) (show ((stored z * k : Nat) : Int) < 2 ^ 64 by omega),
      Nat.cast_mul, stored_of_lt habs, Int.mul_emod, Int.emod_emod, ← Int.mul_emod]
  · have hmax : stored z = 2 ^ 64 - 1 := by
      unfold stored
      rw [if_pos habs]
      rfl
    obtain rfl | rfl : k = 0 ∨ k = 1 := by rw [hmax] at hlt; omega
    · simp
    · omega

/-- **A number is read as what it denotes** unless sectors overflow that are rounded up. -/
theorem NumericDef.reads_iff (f : NumericDef) (h : newStrtoll v f.scale = .ok l)
    (hq : Quantity (scaleBytes f.scale) v d) (hd : -2 ^ 63 ≤ d ∧ d < 2 ^ 64) :
    f.Reads v d ↔ f.NoOverflow v := by
  have hscale : f.scale ∈ ['\x01', '1', 'k', 'K', 's'] := List.mem_cons_of_mem _ f.scale_mem
  have hreads : f.Reads v d ↔ (l : Int) = d % 2 ^ 64 := by
    unfold Reads
    rw [h, Except.ok.injEq]
    omega
  rw [hreads]
  unfold NoOverflow
  obtain ⟨z, rest, hz, ⟨rfl, rfl⟩ | ⟨u, b, rfl, hb, hread⟩⟩ := newStrtoll_cases hscale h
  · obtain rfl := hq.eq_of_nil hz
    have hstored := @stored_mul d 1
    rw [Nat.mul_one, Nat.cast_one, Int.mul_one] at hstored
    refine iff_of_true (hstored hd (stored_lt d)) fun _ _ hz' => ?_
    rw [hz] at hz'
    cases hz'
  · have hleast := hq.isLeast hz hb
    rcases hread with ⟨k, rfl, rfl, hlt⟩ | ⟨rfl, hunit, rfl⟩
    · have hpos : 0 < scaleBytes f.scale := by
        obtain ⟨e, -, he, -⟩ := defUnitShift_scale hscale
        rw [he]
        exact Int.pow_pos (by decide)
      have heq : d = z * k := by
        refine Int.le_antisymm (hleast.2 ?_) ?_
        · exact le_of_eq (Int.mul_assoc z k (scaleBytes f.scale)).symm
        · have hle : z * (k * scaleBytes f.scale) ≤ d * scaleBytes f.scale := hleast.1
          rw [← Int.mul_assoc] at hle
          exact Int.le_of_mul_le_mul_right hle hpos
      subst heq
      refine iff_of_true (stored_mul hd hlt) fun z' hunit hz' => ?_
      rw [hz] at hz'
      cases hz'
      rw [hunit] at hb
      have hbytes : (512 : Int) = k * 1024 := Option.some.inj hb
      omega
    · obtain rfl : 512 = b := Option.some.inj hb
      rw [hunit] at hleast
      have hle : z * 512 ≤ d * 1024 := hleast.1
      have hge : d ≤ (z + 1) / 2 := by
        refine hleast.2 ?_
        show z * 512 ≤ (z + 1) / 2 * 1024
        omega
      have hround : ((stored z + 1) % 2 ^ 64 / 2 : Nat) = d % 2 ^ 64 ↔ -1 ≤ z ∧ z < 2 ^ 64 - 1 := by
        unfold stored ULONG_MAX
        split <;> omega
      refine hround.trans ⟨fun hz64 z' _ hz' => ?_, fun hall => hall z hunit hz⟩
      rw [hz] at hz'
      cases hz'
      exact hz64

end Numbers

/-! ## Numeric fields -/

section Numeric

variable {f : NumericDef} {v w : List Char} {l : Nat} {x d : Int}

theorem bmod_cases (x : Int) (m : Nat) :
    x.bmod m = x % m ∧ x % m < (m + 1) / 2 ∨ x.bmod m = x % m - m ∧ ¬x % m < (m + 1) / 2 := by
  rw [Int.bmod_def]
  split
  · next h => exact Or.inl ⟨rfl, h⟩
  · next h => exact Or.inr ⟨rfl, h⟩

theorem NumericDef.signExtend_holds (f : NumericDef) (l : Nat) :
    f.Holds (f.signExtend (l % 2 ^ f.nlaType.bits)) := by
  have hmod := bmod_cases ((l % 2 ^ f.nlaType.bits : Nat) : Int) (2 ^ f.nlaType.bits)
  unfold Holds signExtend
  generalize Int.bmod _ _ = y at *
  cases hb : f.nlaType <;> cases hs : f.isSigned <;>
    simp only [NlaType.bits, hb, if_true, if_false, Bool.false_eq_true] at hmod ⊢ <;> omega

theorem NumericDef.signExtend_of_holds (h : f.Holds x) :
    f.signExtend ((x % 2 ^ 64).toNat % 2 ^ f.nlaType.bits) = x := by
  have hmod := bmod_cases (((x % 2 ^ 64).toNat % 2 ^ f.nlaType.bits : Nat) : Int)
    (2 ^ f.nlaType.bits)
  unfold Holds at h
  unfold signExtend
  generalize Int.bmod _ _ = y at *
  cases hb : f.nlaType <;> cases hs : f.isSigned <;>
    simp only [NlaType.bits, hb, hs, if_true, if_false, Bool.false_eq_true] at h hmod ⊢ <;> omega

theorem NumericDef.Holds.bounds (h : f.Holds x) : -2 ^ 63 ≤ x ∧ x < 2 ^ 64 := by
  obtain ⟨nlaType, min, max, defv, isSigned, scale, implicitClamp, scale_mem⟩ := f
  cases nlaType <;> cases isSigned <;>
    simp only [Holds, NlaType.bits, if_true, if_false, Bool.false_eq_true] at h <;> omega

theorem NumericDef.getNumeric_eq (f : NumericDef) (n : Nat) :
    ∃ suffix, getNumeric f n = intText (f.signExtend n) ++ suffix ∧
      (suffix = [] ∨ ∃ u t, suffix = [u] ∧ unitShift u = some t ∧ defUnitShift f.scale = some (-t)) ∧
      ∀ c ∈ suffix.head?, ¬digitVal c < 10 := by
  refine ⟨_, rfl, ?_⟩
  have hmem := f.scale_mem
  simp only [List.mem_cons, List.not_mem_nil, or_false] at hmem
  rcases hmem with h | h | h | h <;> rw [h]
  · exact ⟨Or.inl rfl, by simp⟩
  · exact ⟨Or.inr ⟨'k', 10, rfl, rfl, rfl⟩, by simp; decide⟩
  · exact ⟨Or.inr ⟨'K', 10, rfl, rfl, rfl⟩, by simp; decide⟩
  · exact ⟨Or.inr ⟨'s', 9, rfl, rfl, rfl⟩, by simp; decide⟩

/-- What is printed is read as the number that the attribute holds. -/
theorem NumericDef.reads_getNumeric (f : NumericDef) (n : Nat) (h : f.Holds (f.signExtend n)) :
    f.Reads (getNumeric f n) (f.signExtend n) := by
  obtain ⟨suffix, htext, hsuffix, hdigit⟩ := f.getNumeric_eq n
  have hz := numeral_intText (f.signExtend n) hdigit
  have hstored : stored (f.signExtend n) = (f.signExtend n % 2 ^ 64).toNat := by
    have hbounds := h.bounds
    unfold stored
    rw [if_neg (by omega)]
  have hne := ne_nil_of_numeral hz
  unfold Reads newStrtoll
  rw [htext, sscanfLlu_eq, hz, Option.map_some, hstored]
  rcases hsuffix with rfl | ⟨u, t, rfl, hu, hscale⟩
  · obtain ⟨e, he, -⟩ := defUnitShift_scale (List.mem_cons_of_mem _ f.scale_mem)
    rw [he]
    dsimp only
    rw [if_neg hne]
  · rw [hscale]
    dsimp only
    rw [if_neg hne, hu]
    dsimp only
    unfold convert
    rw [show -t + t = 0 by omega, if_neg (by decide), Int.toNat_zero, pow_zero, Nat.div_one,
      if_neg (by omega), Nat.mul_one]

/-- Equal numbers are accepted alike. -/
theorem numericCheck_congr (h : newStrtoll v f.scale = newStrtoll w f.scale) :
    numericCheck f v = numericCheck f w := by
  unfold numericCheck
  rw [h]

theorem newStrtoll_of_check (h : numericCheck f v = .ok) : ∃ l, newStrtoll v f.scale = .ok l := by
  unfold numericCheck at h
  split at h
  · cases h
  · next l hl => exact ⟨l, hl⟩

theorem numericIsEqual_iff {l' : Nat} (hv : newStrtoll v f.scale = .ok l)
    (hw : newStrtoll w f.scale = .ok l') : numericIsEqual f v w = some true ↔ l = l' := by
  have hscale := List.mem_cons_of_mem '\x01' f.scale_mem
  have hl := newStrtoll_lt hscale hv
  have hl' := newStrtoll_lt hscale hw
  unfold numericIsEqual mStrtoll toLongLong
  rw [hv, hw]
  simp only [Except.toOption, Option.bind_eq_bind, Option.bind_some, Option.pure_def,
    Option.some.injEq, decide_eq_true_eq]
  constructor
  · intro h
    simp only [Int.bmod_def] at h
    omega
  · rintro rfl
    rfl

theorem agrees_numeric (f : NumericDef) (x d : Int) : Agrees (.numeric f) (.num x) (.num d) ↔
    if f.implicitClamp then f.clamp x = f.clamp d else x = d :=
  Iff.rfl

/-- **The numbers that survive.** -/
theorem NumericDef.survives_iff (keys : Option Keyring) (hc : numericCheck f v = .ok) :
    Survives keys (.numeric f) v ↔ Carries keys (.numeric f) v := by
  obtain ⟨l, hl⟩ := newStrtoll_of_check hc
  have hscale := List.mem_cons_of_mem '\x01' f.scale_mem
  have hlt := newStrtoll_lt hscale hl
  have hholds := f.signExtend_holds l
  have hback := f.reads_getNumeric _ hholds
  have hput : put keys (.numeric f) v = some [.int (l % 2 ^ f.nlaType.bits)] := by
    show putNumeric f v = _
    unfold putNumeric mStrtoll
    rw [hl]
    rfl
  -- What comes back is equal exactly when the attribute holds what was read.
  have hreturn : (∀ a ∈ [Nlattr.int (l % 2 ^ f.nlaType.bits)], ∃ w, get keys (.numeric f) a = some w ∧
      check (.numeric f) w = .ok ∧ isEqual keys (.numeric f) v w = some true ∧
      ∃ b, isDefault keys (.numeric f) v = some b ∧ isDefault keys (.numeric f) w = some b) ↔
      f.Reads v (f.signExtend (l % 2 ^ f.nlaType.bits)) := by
    unfold Reads at hback ⊢
    constructor
    · intro h
      obtain ⟨w, hw, -, heq, -⟩ := h _ (List.mem_singleton_self _)
      cases hw
      rw [← (numericIsEqual_iff hl hback).1 heq]
      exact hl
    · intro h a ha
      rw [List.mem_singleton.1 ha]
      refine ⟨_, rfl, ?_, ?_, ?_⟩
      · exact (numericCheck_congr (hback.trans h.symm)).trans hc
      · rw [hl] at h
        exact (numericIsEqual_iff hl hback).2 (Except.ok.inj h)
      · refine ⟨toLongLong l = f.defv, ?_, ?_⟩
        · show numericIsDefault f v = _
          unfold numericIsDefault mStrtoll
          rw [hl]
          rfl
        · show numericIsDefault f _ = _
          unfold numericIsDefault mStrtoll
          rw [hback, ← h, hl]
          rfl
  -- What the attribute holds is what was read when there is a number to be held.
  have hheld {x : Int} (hx : f.Holds x) (hr : f.Reads v x) :
      f.signExtend (l % 2 ^ f.nlaType.bits) = x := by
    unfold Reads at hr
    rw [hl, Except.ok.injEq] at hr
    rw [hr]
    exact NumericDef.signExtend_of_holds hx
  unfold Survives
  rw [hput]
  simp only [Option.some.injEq, exists_eq_left']
  rw [hreturn]
  constructor
  · rintro ⟨⟨m, m', ⟨d, hq, rfl⟩, ⟨n, hn, rfl⟩, hagrees⟩, hr⟩
    cases hn
    refine ⟨d, hq, ?_⟩
    rw [agrees_numeric] at hagrees
    split
    · next hclamp =>
      rw [if_pos hclamp] at hagrees
      exact ⟨_, hholds, hr, hagrees⟩
    · next hclamp =>
      rw [if_neg hclamp] at hagrees
      rw [hagrees] at hholds hr
      exact ⟨hholds, (f.reads_iff hl hq hholds.bounds).1 hr⟩
  · rintro ⟨d, hq, hd⟩
    split at hd
    · next hclamp =>
      obtain ⟨x, hx, hr, hagrees⟩ := hd
      rw [hheld hx hr]
      refine ⟨⟨_, _, ⟨d, hq, rfl⟩, ⟨_, rfl, rfl⟩, ?_⟩, hr⟩
      rw [agrees_numeric, if_pos hclamp, hheld hx hr]
      exact hagrees
    · next hclamp =>
      have hr := (f.reads_iff hl hq hd.1.bounds).2 hd.2
      rw [hheld hd.1 hr]
      refine ⟨⟨_, _, ⟨d, hq, rfl⟩, ⟨_, rfl, rfl⟩, ?_⟩, hr⟩
      rw [agrees_numeric, if_neg hclamp, hheld hd.1 hr]

end Numeric

/-! ## The other classes -/

section Others

variable {keys : Option Keyring} {v : List Char}

theorem strcmp_trans {a b : List Char} (h : strcmp a b = true) : strcmp b = strcmp a := by
  rw [of_decide_eq_true h]

theorem strcasecmp_trans {a b : List Char} (h : strcasecmp a b = true) :
    strcasecmp b = strcasecmp a := by
  have hlower : a.map Char.toLower = b.map Char.toLower := of_decide_eq_true h
  funext c
  unfold strcasecmp
  rw [hlower]

/-- What is sent of v name: its index. -/
theorem enum_sent {e : EnumDef} {eq : List Char → List Char → Bool} (hc : enumCheck e eq v = .ok) :
    ∃ (n : Nat) (name : List Char), enumStringToInt e.map v eq = n ∧ n < 2 ^ 31 ∧
      Names e.map n name ∧ eq v name = true ∧ putEnum e eq v = some [.int n] := by
  cases hn : e.map.findIdx? fun name => name.any (eq v) with
  | none =>
    unfold enumCheck enumStringToInt at hc
    rw [hn] at hc
    cases hc
  | some n =>
    obtain ⟨hlt, hany, -⟩ := List.findIdx?_eq_some_iff_getElem.1 hn
    obtain ⟨name, hname, heq⟩ := (Option.any_eq_true _ _).1 hany
    have hsize := e.size_lt
    have hindex : enumStringToInt e.map v eq = n := by
      unfold enumStringToInt
      rw [hn]
    refine ⟨n, name, hindex, hlt.trans hsize, ?_, heq, ?_⟩
    · unfold Names
      rw [List.getElem?_eq_getElem hlt, hname]
    · unfold putEnum
      rw [hindex]
      dsimp only
      rw [if_neg (by omega)]
      congr 3
      omega

/-- A name comes back as the first name that is equal. -/
theorem enum_returns {e : EnumDef} {eq : List Char → List Char → Bool}
    (htrans : ∀ {a b}, eq a b = true → eq b = eq a) (hc : enumCheck e eq v = .ok) :
    ∃ (n : Nat) (name : List Char), Names e.map n name ∧ eq v name = true ∧
      putEnum e eq v = some [.int n] ∧ getEnum e n = some name ∧ enumCheck e eq name = .ok ∧
      enumIsDefault e eq name = enumIsDefault e eq v := by
  obtain ⟨n, name, hindex, hlt, hname, heq, hput⟩ := enum_sent hc
  have hsame : enumStringToInt e.map name eq = enumStringToInt e.map v eq := by
    unfold enumStringToInt
    rw [htrans heq]
  have hcheck : enumCheck e eq name = enumCheck e eq v := by
    unfold enumCheck
    rw [hsame]
  have hsize : n < e.map.length := (List.getElem?_eq_some_iff.1 hname).1
  have hint : (n : Int).bmod (2 ^ 32) = n := by
    have hmod := bmod_cases n (2 ^ 32)
    omega
  refine ⟨n, name, hname, heq, hput, ?_, hcheck.trans hc, ?_⟩
  · unfold getEnum
    rw [hint]
    dsimp only
    rw [if_neg (by omega), Int.toNat_natCast]
    unfold Names at hname
    rw [hname]
    rfl
  · unfold enumIsDefault
    rw [hsame]

theorem enum_survives {e : EnumDef} (hc : enumCheck e strcmp v = .ok) :
    Survives keys (.enum e) v := by
  obtain ⟨n, name, hname, heq, hput, hget, hcheck, hdefault⟩ := enum_returns strcmp_trans hc
  obtain rfl : v = name := of_decide_eq_true heq
  refine ⟨_, hput, ⟨_, _, ⟨n, hname, rfl⟩, ⟨n, rfl, rfl⟩, rfl⟩, fun a ha => ?_⟩
  rw [List.mem_singleton.1 ha]
  exact ⟨v, hget, hcheck, congrArg some heq, _, rfl, rfl⟩

theorem enumNocase_survives {e : EnumDef} (hc : enumCheck e strcasecmp v = .ok) :
    Survives keys (.enumNocase e) v := by
  obtain ⟨n, name, hname, heq, hput, hget, hcheck, hdefault⟩ := enum_returns strcasecmp_trans hc
  refine ⟨_, hput, ⟨_, _, ⟨n, name, hname, heq, rfl⟩, ⟨n, rfl, rfl⟩, rfl⟩, fun a ha => ?_⟩
  rw [List.mem_singleton.1 ha]
  exact ⟨name, hget, hcheck, congrArg some heq, _, rfl, congrArg some hdefault⟩

theorem boolean_of_check (hc : (if booleanStringToInt (some v) = -1 then CheckCodes.notABool else .ok) =
    .ok) : v = ['y', 'e', 's'] ∨ v = ['n', 'o'] := by
  by_contra hno
  obtain ⟨hyes, hno⟩ := not_or.1 hno
  have hint : booleanStringToInt (some v) = -1 := by
    unfold booleanStringToInt
    simp [hyes, hno]
  rw [if_pos hint] at hc
  cases hc

theorem boolean_survives {defv : Bool} (hc : check (.boolean defv) v = .ok) :
    Survives keys (.boolean defv) v := by
  rcases boolean_of_check hc with rfl | rfl
  · refine ⟨[.int 1], rfl, ⟨_, _, Or.inl ⟨rfl, rfl⟩, ⟨1, rfl, rfl⟩, rfl⟩, fun a ha => ?_⟩
    rw [List.mem_singleton.1 ha]
    exact ⟨_, rfl, rfl, rfl, _, rfl, rfl⟩
  · refine ⟨[.int 0], rfl, ⟨_, _, Or.inr ⟨rfl, rfl⟩, ⟨0, rfl, rfl⟩, rfl⟩, fun a ha => ?_⟩
    rw [List.mem_singleton.1 ha]
    exact ⟨_, rfl, rfl, rfl, _, rfl, rfl⟩

theorem flag_survives {defv : Bool} (hc : check (.flag defv) v = .ok) :
    Survives keys (.flag defv) v := by
  rcases boolean_of_check hc with rfl | rfl
  · refine ⟨[.int 1], rfl, ⟨_, _, Or.inl ⟨rfl, rfl⟩, Or.inr ⟨1, rfl, rfl⟩, rfl⟩, fun a ha => ?_⟩
    rw [List.mem_singleton.1 ha]
    exact ⟨_, rfl, rfl, rfl, _, rfl, rfl⟩
  · exact ⟨[], rfl, ⟨_, _, Or.inr ⟨rfl, rfl⟩, Or.inl ⟨rfl, rfl⟩, rfl⟩, fun a ha => by cases ha⟩

theorem string_survives_iff {maxLen len : Nat} (hc : check (.string maxLen len) v = .ok) :
    Survives keys (.string maxLen len) v ↔ v.length ≤ len := by
  constructor
  · rintro ⟨attrs, hput, -, hall⟩
    cases hput
    obtain ⟨w, hw, -⟩ := hall _ (List.mem_singleton_self _)
    by_contra hlen
    have hnone : get keys (.string maxLen len) (.str v) = none := if_neg hlen
    rw [hnone] at hw
    cases hw
  · intro hlen
    refine ⟨_, rfl, ⟨_, _, rfl, ⟨v, rfl, rfl⟩, rfl⟩, fun a ha => ?_⟩
    rw [List.mem_singleton.1 ha]
    exact ⟨v, if_pos hlen, hc, by simp [isEqual, strcmp], _, rfl, rfl⟩

theorem keySerial_survives_iff {type : List Char} :
    Survives keys (.keySerial type) v ↔ Carries keys (.keySerial type) v := by
  constructor
  · rintro ⟨attrs, hput, ⟨m, m', ⟨k, key, rfl, rfl, hkey, -⟩, -, -⟩, hall⟩
    have hattr : put (some k) (.keySerial type) v = some [.int _] := if_neg hkey
    rw [hattr] at hput
    cases hput
    obtain ⟨w, hw, -, heq, -⟩ := hall _ (List.mem_singleton_self _)
    exact ⟨k, w, rfl, hkey, hw, of_decide_eq_true (Option.some.inj heq)⟩
  · rintro ⟨k, w, rfl, hkey, hw, heq⟩
    refine ⟨_, if_neg hkey, ⟨_, _, ⟨k, _, rfl, rfl, hkey, rfl⟩, ⟨_, rfl, rfl⟩, rfl⟩, fun a ha => ?_⟩
    rw [List.mem_singleton.1 ha]
    refine ⟨w, hw, rfl, congrArg some (decide_eq_true heq), _, rfl, ?_⟩
    show some (decide (stringToKeySerial k type w = 0)) = _
    rw [heq]

theorem int_bmod {z : Int} (h : -2 ^ 31 ≤ z ∧ z < 2 ^ 31) :
    (((z % 2 ^ 32).toNat : Nat) : Int).bmod (2 ^ 32) = z := by
  have hmod := bmod_cases (((z % 2 ^ 32).toNat : Nat) : Int) (2 ^ 32)
  omega

theorem enumNumToInt_bounds (en : EnumNumDef) (v : List Char) :
    -2 ^ 31 ≤ (enumNumToInt en.map v).1 ∧ (enumNumToInt en.map v).1 < 2 ^ 31 := by
  unfold enumNumToInt
  split
  · next m hm => exact en.int_values m (List.mem_of_find?_eq_some hm)
  · split
    · next l hl =>
      have hmod := bmod_cases (l : Int) (2 ^ 32)
      dsimp only
      omega
    · dsimp only
      omega

theorem newStrtoll_intText (z : Int) : newStrtoll (intText z) '\x01' = .ok (stored z) := by
  have hz := numeral_intText_self z
  unfold newStrtoll
  rw [sscanfLlu_eq, hz]
  exact if_neg (ne_nil_of_numeral hz)

/-- A symbol or a number survives when it is what is printed of its value. -/
theorem enumNum_survives_iff_printed {en : EnumNumDef} (hc : enumNumCheck en v = .ok) :
    Survives keys (.enumNum en) v ↔ (enumNumToInt en.map v).1 ≠ -1 ∧
      Denotes keys (.enumNum en) v (.num (enumNumToInt en.map v).1) ∧
      enumNumToString en.map (enumNumToInt en.map v).1 = v := by
  have hint := int_bmod (enumNumToInt_bounds en v)
  have hput (hne : (enumNumToInt en.map v).1 ≠ -1) : put keys (.enumNum en) v =
      some [.int ((enumNumToInt en.map v).1 % 2 ^ 32).toNat] := if_neg hne
  have hget : get keys (.enumNum en) (.int ((enumNumToInt en.map v).1 % 2 ^ 32).toNat) =
      some (enumNumToString en.map (enumNumToInt en.map v).1) := by
    show some (enumNumToString en.map _) = _
    rw [hint]
  constructor
  · rintro ⟨attrs, hattrs, ⟨m, m', hm, ⟨n, rfl, rfl⟩, hagrees⟩, hall⟩
    have hne : (enumNumToInt en.map v).1 ≠ -1 := by
      intro heq
      have hnone : put keys (.enumNum en) v = none := if_pos heq
      rw [hnone] at hattrs
      cases hattrs
    rw [hput hne] at hattrs
    cases hattrs
    obtain ⟨w, hw, -, heq, -⟩ := hall _ (List.mem_singleton_self _)
    rw [hget] at hw
    cases hw
    rw [hint] at hagrees
    refine ⟨hne, ?_, (of_decide_eq_true (Option.some.inj heq)).symm⟩
    have hsame : Meaning.num (enumNumToInt en.map v).1 = m := hagrees
    rw [hsame]
    exact hm
  · rintro ⟨hne, hm, hprinted⟩
    refine ⟨_, hput hne, ⟨_, _, hm, ⟨_, rfl, rfl⟩, ?_⟩, fun a ha => ?_⟩
    · rw [hint]
      rfl
    · rw [List.mem_singleton.1 ha, hget, hprinted]
      exact ⟨v, rfl, hc, by simp [isEqual, strcmp], _, rfl, rfl⟩

theorem enumNum_survives_iff {en : EnumNumDef} (hc : enumNumCheck en v = .ok) :
    Survives keys (.enumNum en) v ↔ Carries keys (.enumNum en) v := by
  rw [enumNum_survives_iff_printed hc]
  cases hfind : en.map.find? (·.1 = v) with
  | some m =>
    obtain ⟨name, z⟩ := m
    obtain rfl : name = v := by simpa using List.find?_some hfind
    have hmem := List.mem_of_find?_eq_some hfind
    have hint : enumNumToInt en.map name = (z, none) := by
      unfold enumNumToInt
      rw [hfind]
    have hne : z ≠ -1 := by
      rintro rfl
      unfold enumNumCheck at hc
      rw [hint] at hc
      cases hc
    rw [hint]
    have hprinted : enumNumToString en.map z = name ↔ en.map.find? (·.2 = z) = some (name, z) := by
      unfold enumNumToString
      cases hz : en.map.find? (·.2 = z) with
      | none => exact absurd (decide_eq_true rfl) (List.find?_eq_none.1 hz _ hmem)
      | some m =>
        obtain ⟨name', z'⟩ := m
        obtain rfl : z' = z := by simpa using List.find?_some hz
        simp
    constructor
    · rintro ⟨-, -, hname⟩
      exact Or.inl ⟨z, hfind, hprinted.1 hname⟩
    · rintro (⟨z', hname, hz⟩ | ⟨z', -, -, -, hall⟩)
      · rw [hfind] at hname
        cases hname
        exact ⟨hne, ⟨z, Or.inl hmem, rfl⟩, hprinted.2 hz⟩
      · exact absurd rfl (hall _ hmem).1
  | none =>
    have hnames : ∀ p ∈ en.map, p.1 ≠ v := by simpa using hfind
    have hbounds := enumNumToInt_bounds en v
    constructor
    · rintro ⟨hne, ⟨z, -, hz⟩, hprinted⟩
      unfold enumNumToString at hprinted
      cases hvalue : en.map.find? (·.2 = (enumNumToInt en.map v).1) with
      | some m =>
        rw [hvalue] at hprinted
        exact absurd hprinted (hnames m (List.mem_of_find?_eq_some hvalue))
      | none =>
        rw [hvalue] at hprinted
        refine Or.inr ⟨_, hprinted.symm, hbounds, hne, fun p hp => ⟨hnames p hp, ?_⟩⟩
        simpa using List.find?_eq_none.1 hvalue p hp
    · rintro (⟨z, hname, -⟩ | ⟨z, rfl, hz, hne, hall⟩)
      · rw [hfind] at hname
        cases hname
      · have hint : (enumNumToInt en.map (intText z)).1 = z := by
          have hmod := bmod_cases (stored z : Int) (2 ^ 32)
          have hstored := stored_of_lt (z := z) (by omega)
          unfold enumNumToInt
          rw [hfind, newStrtoll_intText]
          dsimp only
          omega
        have hvalue : en.map.find? (·.2 = z) = none := by
          simpa using fun name z' hp => (hall (name, z') hp).2
        rw [hint]
        refine ⟨hne, ⟨z, Or.inr ⟨hnames, z, [], numeral_intText_self z, Or.inl ⟨rfl, rfl⟩⟩, rfl⟩, ?_⟩
        unfold enumNumToString
        rw [hvalue]

end Others

/-! ## All classes -/

/-- **An accepted text survives exactly under the condition of its class.** -/
theorem option_survives_iff (keys : Option Keyring) (f : FieldDef) (v : List Char)
    (h : check f v = .ok) : Survives keys f v ↔ Carries keys f v := by
  cases f with
  | enum e => exact iff_of_true (enum_survives h) trivial
  | enumNocase e => exact iff_of_true (enumNocase_survives h) trivial
  | numeric n => exact NumericDef.survives_iff keys h
  | enumNum en => exact enumNum_survives_iff h
  | boolean defv => exact iff_of_true (boolean_survives h) trivial
  | flag defv => exact iff_of_true (flag_survives h) trivial
  | string maxLen len => exact string_survives_iff h
  | keySerial type => exact keySerial_survives_iff

/-- The field "al-extents". -/
def alExtents : NumericDef :=
  { nlaType := .u32, min := 67, max := 65534, defv := 1237, implicitClamp := true,
    scale_mem := one_mem_scales }

/-- A number above the limit survives, because it fits the attribute. -/
theorem survives_alExtents : Survives none (.numeric alExtents) (intText 100000) := by
  refine (option_survives_iff none (.numeric alExtents) (intText 100000) (by decide)).2 ?_
  refine ⟨100000, ⟨100000, [], numeral_intText_self _, Or.inl ⟨rfl, rfl⟩⟩, 100000, ?_, ?_, rfl⟩
  · exact ⟨by decide, by decide⟩
  · rfl

/-- A larger one is accepted in place of the limit, and then its last 32 bits are sent. -/
theorem alExtents_not_survives : check (.numeric alExtents) (intText 4294967296) = .ok ∧
    ¬Survives none (.numeric alExtents) (intText 4294967296) := by
  refine ⟨by decide, ?_⟩
  rintro ⟨attrs, hput, -, hall⟩
  have hattr : put none (.numeric alExtents) (intText 4294967296) = some [.int 0] := by decide
  rw [hattr] at hput
  cases hput
  obtain ⟨w, hw, -, heq, -⟩ := hall _ (List.mem_singleton_self _)
  cases hw
  exact absurd heq (by decide)

end DrbdUtils.Setup.ConfigFlags
