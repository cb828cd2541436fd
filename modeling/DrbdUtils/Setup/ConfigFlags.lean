import DrbdUtils.Lib.Strtoul

/-!
# Option values on the way to the kernel and back

The field classes of `config_flags.c`: for a field of an option context, `check()` accepts a text,
`put()` makes an attribute of it, `get()` prints the attribute, and `is_equal()` and `is_default()`
compare texts.  With them `new_strtoll()` of `shared_tool.c`.
-/

set_option autoImplicit false

namespace DrbdUtils.Setup.ConfigFlags

open Numerals

/-! ## Numbers with a unit -/

/-- `enum new_strtoll_errs`. -/
inductive NewStrtollErrs where
  | ok
  | defaultUnit
  | missingNumber
  | invalidNumber
  | invalidUnit
  | outOfRange
  deriving DecidableEq, Repr

/-- The `shift` of the default unit. -/
def defUnitShift : Char → Option Int
  | '\x00' | '\x01' | '1' => some 0
  | 'K' | 'k' => some (-10)
  | 's' => some (-9)
  | _ => none

/-- What the unit in the text adds to `shift`. -/
def unitShift : Char → Option Int
  | 'K' | 'k' => some 10
  | 'M' | 'm' => some 20
  | 'G' | 'g' => some 30
  | 's' => some 9
  | _ => none

/-- The conversion of a number of one unit, in 64 bits. -/
def convert (shift : Int) (rv : Nat) : Except NewStrtollErrs Nat :=
  if shift < 0 then
    .ok ((rv + (2 ^ (-shift).toNat - 1)) % 2 ^ 64 / 2 ^ (-shift).toNat)
  else if (2 ^ 64 - 1) / 2 ^ shift.toNat < rv then .error .outOfRange
  else .ok (rv * 2 ^ shift.toNat)

/-- `new_strtoll`. -/
def newStrtoll (s : List Char) (defUnit : Char) : Except NewStrtollErrs Nat :=
  match defUnitShift defUnit with
  | none => .error .defaultUnit
  | some shift =>
    if s = [] then .error .missingNumber
    else match sscanfLlu s with
      | none => .error .invalidNumber
      | some (rv, []) => .ok rv
      | some (rv, [unit]) =>
        match unitShift unit with
        | none => .error .invalidUnit
        | some s => convert (shift + s) rv
      | some _ => .error .invalidNumber

/-- `m_strtoll`: the process exits when there is no number. -/
def mStrtoll (s : List Char) (defUnit : Char) : Option Nat := (newStrtoll s defUnit).toOption

/-! ## The fields -/

/-- `enum check_codes`. -/
inductive CheckCodes where
  | ok
  | notAnEnum
  | notABool
  | notANumber
  | tooSmall
  | tooBig
  | strTooLong
  | notAnEnumNum
  deriving DecidableEq, Repr

/-- The member `e` of a `struct field_def`. -/
structure EnumDef where
  map : List (Option (List Char))
  defv : Int
  size_lt : map.length < 2 ^ 31

/-- The integer types of an attribute. -/
inductive NlaType where
  | u8
  | u16
  | u32
  | u64
  deriving DecidableEq, Repr

def NlaType.bits : NlaType → Nat
  | .u8 => 8
  | .u16 => 16
  | .u32 => 32
  | .u64 => 64

theorem one_mem_scales : '1' ∈ ['1', 'k', 'K', 's'] := by decide

/-- The member `n` of a `struct field_def`, the type in the policy, and `implicit_clamp`. -/
structure NumericDef where
  nlaType : NlaType
  min : Int
  max : Int
  defv : Int
  isSigned : Bool := false
  scale : Char := '1'
  implicitClamp : Bool := false
  scale_mem : scale ∈ ['1', 'k', 'K', 's'] := by decide

/-- The member `en` of a `struct field_def`. -/
structure EnumNumDef where
  map : List (List Char × Int)
  min : Int
  max : Int
  defv : Int
  int_values : ∀ m ∈ map, -2 ^ 31 ≤ m.2 ∧ m.2 < 2 ^ 31

/-- A `struct field_def` of each class; `len` is the length in the policy of a string. -/
inductive FieldDef where
  | enum (e : EnumDef)
  | enumNocase (e : EnumDef)
  | numeric (n : NumericDef)
  | enumNum (en : EnumNumDef)
  | boolean (defv : Bool)
  | flag (defv : Bool)
  | string (maxLen len : Nat)
  | keySerial (type : List Char)

/-- The payload of an attribute. -/
inductive Nlattr where
  | int (value : Nat)
  | str (text : List Char)
  deriving DecidableEq, Repr

/-- The key management of the kernel: `request_key()` with or without information for a callout, and
the description that `keyctl_describe()` has behind the type, the owner and the permissions. -/
structure Keyring where
  requestKey : List Char → List Char → Option (List Char) → BitVec 32
  describe : BitVec 32 → Option (List Char)

/-! ## The classes -/

def strcmp (a b : List Char) : Bool := a = b

def strcasecmp (a b : List Char) : Bool := a.map Char.toLower = b.map Char.toLower

/-- `enum_string_to_int`; a comparison is true of equal texts here. -/
def enumStringToInt (map : List (Option (List Char))) (value : List Char)
    (strcmpFn : List Char → List Char → Bool) : Int :=
  match map.findIdx? fun name => name.any (strcmpFn value) with
  | some n => n
  | none => -1

def enumIsDefault (e : EnumDef) (strcmpFn : List Char → List Char → Bool) (value : List Char) : Bool :=
  enumStringToInt e.map value strcmpFn = e.defv

/-- `get_enum`. -/
def getEnum (e : EnumDef) (value : Nat) : Option (List Char) :=
  let i := (value : Int).bmod (2 ^ 32)
  if i < 0 ∨ (e.map.length : Int) ≤ i then none else (e.map[i.toNat]?).join

/-- `put_enum`. -/
def putEnum (e : EnumDef) (strcmpFn : List Char → List Char → Bool) (value : List Char) :
    Option (List Nlattr) :=
  let n := enumStringToInt e.map value strcmpFn
  if n = -1 then none else some [.int (n % 2 ^ 32).toNat]

/-- `enum_check`. -/
def enumCheck (e : EnumDef) (strcmpFn : List Char → List Char → Bool) (value : List Char) :
    CheckCodes :=
  if enumStringToInt e.map value strcmpFn = -1 then .notAnEnum else .ok

/-- A `long long` that is assigned an `unsigned long long`. -/
def toLongLong (l : Nat) : Int := (l : Int).bmod (2 ^ 64)

def numericIsDefault (f : NumericDef) (value : List Char) : Option Bool :=
  (mStrtoll value f.scale).map fun l => toLongLong l = f.defv

def numericIsEqual (f : NumericDef) (a b : List Char) : Option Bool := do
  let la ← mStrtoll a f.scale
  let lb ← mStrtoll b f.scale
  return toLongLong la = toLongLong lb

/-- The number in an attribute, with the sign extension of `get_numeric`. -/
def NumericDef.signExtend (f : NumericDef) (value : Nat) : Int :=
  if f.isSigned then (value : Int).bmod (2 ^ f.nlaType.bits) else value

/-- `get_numeric`. -/
def getNumeric (f : NumericDef) (value : Nat) : List Char :=
  intText (f.signExtend value) ++ if f.scale = '1' then [] else [f.scale]

/-- `put_numeric`. -/
def putNumeric (f : NumericDef) (value : List Char) : Option (List Nlattr) :=
  (mStrtoll value f.scale).map fun l => [.int (l % 2 ^ f.nlaType.bits)]

/-- `numeric_check`; the limits are converted to `unsigned long long` in its comparisons. -/
def numericCheck (f : NumericDef) (value : List Char) : CheckCodes :=
  match newStrtoll value f.scale with
  | .error _ => .notANumber
  | .ok l =>
    let min := (f.min % 2 ^ 64).toNat
    let max := (f.max % 2 ^ 64).toNat
    if l < min ∧ ¬f.implicitClamp then .tooSmall
    else
      let l := if l < min then min else l
      if max < l ∧ ¬f.implicitClamp then .tooBig else .ok

/-- `enum_num_to_int`, with what it leaves at `err_p`; a symbol leaves it untouched. -/
def enumNumToInt (map : List (List Char × Int)) (value : List Char) : Int × Option NewStrtollErrs :=
  match map.find? (·.1 = value) with
  | some m => (m.2, none)
  | none =>
    match newStrtoll value '\x01' with
    | .ok l => ((l : Int).bmod (2 ^ 32), some .ok)
    | .error e => (-1, some e)

/-- `enum_num_to_string`. -/
def enumNumToString (map : List (List Char × Int)) (value : Int) : List Char :=
  match map.find? (·.2 = value) with
  | some m => m.1
  | none => intText value

/-- `put_enum_num`. -/
def putEnumNum (en : EnumNumDef) (value : List Char) : Option (List Nlattr) :=
  let n := (enumNumToInt en.map value).1
  if n = -1 then none else some [.int (n % 2 ^ 32).toNat]

/-- `enum_num_check`. -/
def enumNumCheck (en : EnumNumDef) (value : List Char) : CheckCodes :=
  let (n, e) := enumNumToInt en.map value
  if n = -1 ∧ e ≠ some .ok then .notAnEnumNum
  else if e = none then .ok
  else if n < en.min then .tooSmall
  else if en.max < n then .tooBig
  else .ok

/-- `boolean_string_to_int`; an option without an argument has no text. -/
def booleanStringToInt (value : Option (List Char)) : Int :=
  if value = none ∨ value = some ['y', 'e', 's'] then 1
  else if value = some ['n', 'o'] then 0
  else -1

/-- `get_boolean`. -/
def getBoolean (value : Nat) : List Char := if value ≠ 0 then ['y', 'e', 's'] else ['n', 'o']

/-- `put_boolean`. -/
def putBoolean (value : List Char) : Option (List Nlattr) :=
  let yesno := booleanStringToInt (some value)
  if yesno = -1 then none else some [.int yesno.toNat]

/-- `put_flag`. -/
def putFlag (value : List Char) : Option (List Nlattr) :=
  let yesno := booleanStringToInt (some value)
  if yesno = -1 then none else if yesno ≠ 0 then some [.int yesno.toNat] else some []

/-- `get_string`: no result where the assertion fails that the text ends within the length. -/
def getString (len : Nat) (text : List Char) : Option (List Char) :=
  if text.length ≤ len then some text else none

def stringToKeySerial (keys : Keyring) (type value : List Char) : BitVec 32 :=
  keys.requestKey type value none

/-- `get_key_serial`; the last conversion of its `sscanf()` is `%255s`. -/
def getKeySerial (keys : Option Keyring) (value : Nat) : Option (List Char) :=
  match keys with
  | none => some []
  | some keys => do
    let serial := BitVec.ofNat 32 value
    guard (0 < serial.toInt)
    let description ← keys.describe serial
    let word := (description.dropWhile isSpace).takeWhile fun c => !isSpace c
    guard (word ≠ [])
    return word.take 255

/-- `put_key_serial`. -/
def putKeySerial (keys : Option Keyring) (type value : List Char) : Option (List Nlattr) :=
  match keys with
  | none => some [.int 0]
  | some keys =>
    let key := keys.requestKey type value (some ['d', 'r', 'b', 'd'])
    if key = -1 then none else some [.int key.toNat]

section Classes

-- The key management, when the tools are built with `KEYUTILS`.
variable (keys : Option Keyring)

/-- `ops->check()`. -/
def check : FieldDef → List Char → CheckCodes
  | .enum e, value => enumCheck e strcmp value
  | .enumNocase e, value => enumCheck e strcasecmp value
  | .numeric n, value => numericCheck n value
  | .enumNum en, value => enumNumCheck en value
  | .boolean _, value | .flag _, value =>
    if booleanStringToInt (some value) = -1 then .notABool else .ok
  | .string maxLen _, value => if maxLen ≠ 0 ∧ maxLen ≤ value.length then .strTooLong else .ok
  | .keySerial _, _ => .ok

/-- `ops->is_equal()`; no result where the process exits. -/
def isEqual : FieldDef → List Char → List Char → Option Bool
  | .enum _, a, b => some (strcmp a b)
  | .enumNocase _, a, b => some (strcasecmp a b)
  | .numeric n, a, b => numericIsEqual n a b
  | .enumNum _, a, b => some (strcmp a b)
  | .boolean _, a, b | .flag _, a, b =>
    some (booleanStringToInt (some a) = booleanStringToInt (some b))
  | .string _ _, a, b => some (strcmp a b)
  | .keySerial type, a, b =>
    match keys with
    | none => some true
    | some keys => some (stringToKeySerial keys type a = stringToKeySerial keys type b)

/-- `ops->is_default()`; no result where the process exits. -/
def isDefault : FieldDef → List Char → Option Bool
  | .enum e, value => some (enumIsDefault e strcmp value)
  | .enumNocase e, value => some (enumIsDefault e strcasecmp value)
  | .numeric n, value => numericIsDefault n value
  | .enumNum en, value => some ((enumNumToInt en.map value).1 = en.defv)
  | .boolean defv, value | .flag defv, value =>
    some (booleanStringToInt (some value) = if defv then 1 else 0)
  | .string _ _, value => some (value = [])
  | .keySerial type, value =>
    match keys with
    | none => some true
    | some keys => some (stringToKeySerial keys type value = 0)

/-- `ops->put()`: the attributes in the message, or failure. -/
def put : FieldDef → List Char → Option (List Nlattr)
  | .enum e, value => putEnum e strcmp value
  | .enumNocase e, value => putEnum e strcasecmp value
  | .numeric n, value => putNumeric n value
  | .enumNum en, value => putEnumNum en value
  | .boolean _, value => putBoolean value
  | .flag _, value => putFlag value
  | .string _ _, value => some [.str value]
  | .keySerial type, value => putKeySerial keys type value

/-- `ops->get()` for an attribute of the type in the policy. -/
def get : FieldDef → Nlattr → Option (List Char)
  | .enum e, .int value | .enumNocase e, .int value => getEnum e value
  | .numeric n, .int value => some (getNumeric n value)
  | .enumNum en, .int value => some (enumNumToString en.map ((value : Int).bmod (2 ^ 32)))
  | .boolean _, .int value | .flag _, .int value => some (getBoolean value)
  | .string _ len, .str text => getString len text
  | .keySerial _, .int value => getKeySerial keys value
  | _, _ => none

end Classes

end DrbdUtils.Setup.ConfigFlags
