import Mathlib.Data.List.Lex
import Mathlib.Order.Fin.Basic
import DrbdUtils.Lib.BigEndian
import DrbdUtils.Lib.OrdMap

/-!
# drbdmon's configuration file

`CfgEntryStore::save_to()` and `CfgEntryStore::load_from()` with the entries of `CfgEntry.cpp`,
`CfgEntryBoolean.cpp`, `CfgEntryIntegerTypes.cpp` and `CfgEntryNumeric.h`.

* `Record` — an entry as it stands in the file.
* `loadEntry_iff` — one turn of the loop reads a record, or finds less than a type field.
* `loadEntries_records`, `loadEntries_rest` — what the loop does with the records, and with what is behind
  them.
* `loadFrom_saveTo` — what is saved is loaded.
* `loadFrom_records` — what is loaded of any file.
-/

set_option autoImplicit false

namespace DrbdUtils.DrbdMon.CfgEntryStore

/-! ## Model -/

abbrev Byte := Fin (2 ^ 8)

abbrev Key := List Byte

inductive IoException where
  | plain
  | message (text : String)
  deriving DecidableEq, Repr

/-- An input stream; its `badbit` is never set here. -/
structure IStream where
  data : List Byte
  eof : Bool
  fail : Bool
  deriving DecidableEq, Repr

/-- A stream before the first read. -/
def IStream.of (data : List Byte) : IStream := ⟨data, false, false⟩

def IStream.good (dataIn : IStream) : Bool := !dataIn.eof && !dataIn.fail

/-- `std::istream::read`: a short read sets both flags. -/
def IStream.read (dataIn : IStream) (n : Nat) : List Byte × IStream :=
  if dataIn.good then
    if n ≤ dataIn.data.length then (dataIn.data.take n, { dataIn with data := dataIn.data.drop n })
    else (dataIn.data, ⟨[], true, true⟩)
  else ([], { dataIn with fail := true })

/-- The subclasses of `CfgEntry`, each with its value; the key is apart. -/
inductive CfgEntry where
  | boolean (flag : Bool)
  | unsgInt8 (number : BitVec 8)
  | unsgInt16 (number : BitVec 16)
  | unsgInt32 (number : BitVec 32)
  | unsgInt64 (number : BitVec 64)
  | int8 (number : BitVec 8)
  | int16 (number : BitVec 16)
  | int32 (number : BitVec 32)
  | int64 (number : BitVec 64)
  deriving DecidableEq, Repr

/-- `MAX_KEY_LENGTH`. -/
def maxKeyLength : Nat := 40

/-- `get_type`. -/
def CfgEntry.getType : CfgEntry → BitVec 32
  | .boolean _ => 0x0
  | .unsgInt8 _ => 0x1
  | .unsgInt16 _ => 0x2
  | .unsgInt32 _ => 0x3
  | .unsgInt64 _ => 0x4
  | .int8 _ => 0x5
  | .int16 _ => 0x6
  | .int32 _ => 0x7
  | .int64 _ => 0x8

/-- The loop that writes a number, of a signed type or not. -/
def serializeNumber {w : Nat} (signed : Bool) (number : BitVec w) : List Byte :=
  (List.range (w / 8)).map fun idx =>
    let shift := (w / 8 - idx - 1) <<< 3
    (((if signed then number.sshiftRight shift else number >>> shift) &&& 0xFF).setWidth 8).toFin

/-- The loop that reads a number. -/
def deserializeNumber {w : Nat} (buffer : List Byte) : BitVec w :=
  buffer.foldl (fun number char => number <<< 8 ||| ((BitVec.ofFin char : BitVec 8).signExtend w &&& 0xFF))
    0

/-- `serialize_key`. -/
def serializeKey (key : Key) : Except IoException (List Byte) :=
  if key.length < 1 ∨ maxKeyLength < key.length then .error .plain
  else .ok (Fin.ofNat _ key.length :: key)

/-- What `serialize` writes behind the key. -/
def CfgEntry.serializeValue : CfgEntry → List Byte
  | .boolean flag => [if flag then 1 else 0]
  | .unsgInt8 number => [number.toFin]
  | .unsgInt16 number => serializeNumber false number
  | .unsgInt32 number => serializeNumber false number
  | .unsgInt64 number => serializeNumber false number
  | .int8 number => [number.toFin]
  | .int16 number => serializeNumber true number
  | .int32 number => serializeNumber true number
  | .int64 number => serializeNumber true number

/-- `serialize`. -/
def serialize (key : Key) (entry : CfgEntry) : Except IoException (List Byte) :=
  (· ++ entry.serializeValue) <$> serializeKey key

/-- `deserialize_key`. -/
def deserializeKey (dataIn : IStream) : Except IoException (Key × IStream) :=
  let (charIn, dataIn) := dataIn.read 1
  if !dataIn.good then .error .plain
  else
    let keyLength := (charIn.headD 0).val
    if keyLength < 1 ∨ maxKeyLength < keyLength then .error .plain
    else
      let (buffer, dataIn) := dataIn.read keyLength
      if !dataIn.good then .error .plain else .ok (buffer, dataIn)

/-- `CfgEntryBoolean::deserialize` behind the key. -/
def deserializeBoolean (dataIn : IStream) : Except IoException (CfgEntry × IStream) :=
  let (charIn, dataIn) := dataIn.read 1
  if !dataIn.good then .error (.message "I/O error while deserializing a boolean value")
  else if charIn.headD 0 = 0 then .ok (.boolean false, dataIn)
  else if charIn.headD 0 = 1 then .ok (.boolean true, dataIn)
  else .error (.message "Invalid stored value for boolean configuration value")

/-- The `deserialize` of the entries with one byte behind the key. -/
def deserializeByte (entry : BitVec 8 → CfgEntry) (dataIn : IStream) :
    Except IoException (CfgEntry × IStream) :=
  let (charIn, dataIn) := dataIn.read 1
  if dataIn.fail then .error .plain else .ok (entry (BitVec.ofFin (charIn.headD 0)), dataIn)

/-- `CfgEntryNumeric::deserialize` behind the key. -/
def deserializeNumeric {w : Nat} (entry : BitVec w → CfgEntry) (dataIn : IStream) :
    Except IoException (CfgEntry × IStream) :=
  let (buffer, dataIn) := dataIn.read (w / 8)
  if dataIn.fail then .error (.message "I/O error while deserializing a numeric value")
  else .ok (entry (deserializeNumber buffer), dataIn)

/-- What `deserialize` of an entry with some value does behind the key. -/
def CfgEntry.deserializeValue : CfgEntry → IStream → Except IoException (CfgEntry × IStream)
  | .boolean _ => deserializeBoolean
  | .unsgInt8 _ => deserializeByte .unsgInt8
  | .unsgInt16 _ => deserializeNumeric .unsgInt16
  | .unsgInt32 _ => deserializeNumeric .unsgInt32
  | .unsgInt64 _ => deserializeNumeric .unsgInt64
  | .int8 _ => deserializeByte .int8
  | .int16 _ => deserializeNumeric .int16
  | .int32 _ => deserializeNumeric .int32
  | .int64 _ => deserializeNumeric .int64

/-- `deserialize`. -/
def CfgEntry.deserialize (entry : CfgEntry) (dataIn : IStream) :
    Except IoException ((Key × CfgEntry) × IStream) := do
  let (key, dataIn) ← deserializeKey dataIn
  let (entry, dataIn) ← entry.deserializeValue dataIn
  return ((key, entry), dataIn)

abbrev Store := OrdMap Key CfgEntry

/-- `CES_UUID`. -/
def cesUuid : List Byte :=
  [0x6A, 0x45, 0x4A, 0x5D, 0x34, 0x7A, 0x49, 0x8D, 0x8E, 0x0A, 0x6A, 0xD5, 0xF5, 0x01, 0x41, 0x33]

/-- `CES_VERSION`. -/
def cesVersion : BitVec 32 := 0x00010000

/-- The loop of `save_to`. -/
def saveEntries : List (Key × CfgEntry) → Except IoException (List Byte)
  | [] => .ok []
  | (key, entry) :: rest => do
    let out ← serialize key entry
    let restOut ← saveEntries rest
    return serializeNumber false entry.getType ++ out ++ restOut

/-- `save_to` into a stream that takes everything. -/
def saveTo (config : Store) : Except IoException (List Byte) :=
  (cesUuid ++ serializeNumber false cesVersion ++ ·) <$> saveEntries config.entries

/-- The beginning of `load_from`. -/
def loadHeader (dataIn : IStream) : Except IoException IStream :=
  if dataIn.good then
    let (buffer, dataIn) := dataIn.read 16
    if dataIn.fail then
      .error (.message "I/O error while deserializing the configuration entry store UUID")
    else if buffer ≠ cesUuid then .error .plain
    else
      let (buffer, dataIn) := dataIn.read 4
      if dataIn.fail then
        .error (.message "I/O error while deserializing the configuration entry store version field")
      else if deserializeNumber buffer &&& 0xFFFF0000#32 ≠ cesVersion &&& 0xFFFF0000#32 then
        .error (.message "Incompatible configuration entry store version")
      else .ok dataIn
  else .ok dataIn

/-- The entry that is allocated for a type. -/
def newEntry (entryType : BitVec 32) : Option CfgEntry :=
  if entryType = 0x0 then some (.boolean false)
  else if entryType = 0x1 then some (.unsgInt8 0)
  else if entryType = 0x2 then some (.unsgInt16 0)
  else if entryType = 0x3 then some (.unsgInt32 0)
  else if entryType = 0x4 then some (.unsgInt64 0)
  else if entryType = 0x5 then some (.int8 0)
  else if entryType = 0x6 then some (.int16 0)
  else if entryType = 0x7 then some (.int32 0)
  else if entryType = 0x8 then some (.int64 0)
  else none

/-- The loop that reads the type of an entry.  What was shifted is overwritten. -/
def readEntryType (buffer : List Byte) : BitVec 32 :=
  buffer.foldl (fun _ char => (BitVec.ofFin char : BitVec 8).signExtend 32 &&& 0xFF) 0

/-- One turn of the loop of `load_from` up to the new entry; there is none at the end of the stream. -/
def loadEntry (dataIn : IStream) : Except IoException (Option (Key × CfgEntry) × IStream) :=
  let (buffer, dataIn) := dataIn.read 4
  if !dataIn.eof then
    if dataIn.fail then .error (.message "I/O error while deserializing an entry type value")
    else
      match newEntry (readEntryType buffer) with
      | none => .error .plain
      | some entry => (fun (entry, dataIn) => (some entry, dataIn)) <$> entry.deserialize dataIn
  else .ok (none, dataIn)

/-- The rest of the turn: `set_entry` if there is an entry with the key. -/
def setExisting (config : Store) (entry : Key × CfgEntry) : Store :=
  config.adjust entry.1 fun _ => entry.2

/-! ## Streams -/

theorem good_iff (dataIn : IStream) : dataIn.good = true ↔ dataIn = IStream.of dataIn.data := by
  obtain ⟨data, eof, fail⟩ := dataIn
  cases eof <;> cases fail <;> simp [IStream.good, IStream.of]

@[simp] theorem of_good (data : List Byte) : (IStream.of data).good = true := rfl

@[simp] theorem of_fail (data : List Byte) : (IStream.of data).fail = false := rfl

@[simp] theorem of_eof (data : List Byte) : (IStream.of data).eof = false := rfl

@[simp] theorem of_inj {data data' : List Byte} : IStream.of data = IStream.of data' ↔ data = data' := by
  simp [IStream.of]

theorem read_short {data : List Byte} {n : Nat} (h : data.length < n) :
    (IStream.of data).read n = (data, ⟨[], true, true⟩) := by
  rw [IStream.read, of_good, if_pos rfl, if_neg (by exact Nat.not_le.2 h)]
  rfl

theorem read_append {buffer : List Byte} {n : Nat} (h : buffer.length = n) (rest : List Byte) :
    (IStream.of (buffer ++ rest)).read n = (buffer, IStream.of rest) := by
  subst h
  rw [IStream.read, of_good, if_pos rfl]
  simp [IStream.of]

/-- A read gets what it wants, or the stream ends. -/
theorem read_cases (data : List Byte) (n : Nat) :
    (∃ buffer rest, buffer.length = n ∧ data = buffer ++ rest ∧
      (IStream.of data).read n = (buffer, IStream.of rest)) ∨
    data.length < n ∧ (IStream.of data).read n = (data, ⟨[], true, true⟩) := by
  by_cases h : data.length < n
  · exact Or.inr ⟨h, read_short h⟩
  · have htake : (data.take n).length = n := List.length_take_of_le (Nat.not_lt.1 h)
    refine Or.inl ⟨data.take n, data.drop n, htake, (List.take_append_drop n data).symm, ?_⟩
    have hread := read_append htake (data.drop n)
    rwa [List.take_append_drop] at hread

/-! ## Numbers -/

open BigEndian

/-- The mask leaves the lowest byte. -/
theorem setWidth_and {w : Nat} (hw : 8 ≤ w) (number : BitVec w) :
    (number &&& 0xFF).setWidth 8 = number.setWidth 8 := by
  apply BitVec.eq_of_getLsbD_eq
  intro i hi
  have hmask : (0xFF : BitVec w).getLsbD i = true := by
    have hlt : i < w := by omega
    rw [show (0xFF : BitVec w) = BitVec.ofNat w (2 ^ 8 - 1) from rfl, BitVec.getLsbD_ofNat,
      Nat.testBit_two_pow_sub_one]
    simp [hi, hlt]
  rw [BitVec.getLsbD_setWidth, BitVec.getLsbD_setWidth, BitVec.getLsbD_and, hmask, Bool.and_true]

theorem signExtend_and {w : Nat} (char : BitVec 8) :
    char.signExtend w &&& 0xFF = char.setWidth w := by
  apply BitVec.eq_of_getLsbD_eq
  intro i hi
  rw [show (0xFF : BitVec w) = BitVec.ofNat w (2 ^ 8 - 1) from rfl, BitVec.getLsbD_and,
    BitVec.getLsbD_ofNat, Nat.testBit_two_pow_sub_one, BitVec.getLsbD_signExtend,
    BitVec.getLsbD_setWidth]
  by_cases hlow : i < 8
  · simp [hi, hlow]
  · have hchar : char.getLsbD i = false := BitVec.getLsbD_of_ge _ _ (by omega)
    simp [hlow, hchar]

/-- Within the number the kinds of shifting do the same. -/
theorem sshiftRight_setWidth {w shift : Nat} (h : shift + 8 ≤ w) (number : BitVec w) :
    (number.sshiftRight shift).setWidth 8 = (number >>> shift).setWidth 8 := by
  apply BitVec.eq_of_getLsbD_eq
  intro i hi
  rw [BitVec.getLsbD_setWidth, BitVec.getLsbD_setWidth, BitVec.getLsbD_sshiftRight,
    BitVec.getLsbD_ushiftRight]
  have hlow : ¬w ≤ i := by omega
  have hlt : shift + i < w := by omega
  simp [hlow, hlt]

theorem serializeNumber_eq {w : Nat} (signed : Bool) (number : BitVec w) :
    serializeNumber signed number = (toBytes (w / 8) number).map BitVec.toFin := by
  rw [serializeNumber, toBytes_eq_map, List.map_map]
  apply List.map_congr_left
  intro idx hidx
  have hlt : idx < w / 8 := List.mem_range.1 hidx
  have hshift : (w / 8 - idx - 1) <<< 3 = 8 * (w / 8 - idx - 1) := by
    rw [Nat.shiftLeft_eq]
    omega
  dsimp only [Function.comp_apply]
  rw [hshift, setWidth_and (by omega)]
  cases signed with
  | false => rfl
  | true => rw [if_pos rfl, sshiftRight_setWidth (by omega)]

theorem deserializeNumber_eq {w : Nat} (buffer : List Byte) :
    (deserializeNumber buffer : BitVec w) = ofBytes 0 (buffer.map BitVec.ofFin) := by
  rw [deserializeNumber, ofBytes, List.foldl_map]
  congr 1
  funext number char
  rw [signExtend_and]

theorem serializeNumber_length {w : Nat} (signed : Bool) (number : BitVec w) :
    (serializeNumber signed number).length = w / 8 := by
  simp [serializeNumber]

/-- What is written is read. -/
theorem deserializeNumber_serializeNumber {w : Nat} (hdvd : w ≤ 8 * (w / 8)) (signed : Bool)
    (number : BitVec w) : (deserializeNumber (serializeNumber signed number) : BitVec w) = number := by
  rw [deserializeNumber_eq, serializeNumber_eq, List.map_map]
  have hid : (BitVec.ofFin ∘ BitVec.toFin : BitVec 8 → BitVec 8) = id := rfl
  rw [hid, List.map_id, ofBytes_toBytes hdvd]

/-- What is read is written. -/
theorem serializeNumber_deserializeNumber {w : Nat} (signed : Bool) {buffer : List Byte}
    (hbuffer : buffer.length = w / 8) :
    serializeNumber signed (deserializeNumber buffer : BitVec w) = buffer := by
  have hlength : (buffer.map BitVec.ofFin : List (BitVec 8)).length = w / 8 := by
    rw [List.length_map, hbuffer]
  rw [deserializeNumber_eq, serializeNumber_eq, ← hlength, toBytes_ofBytes _ (by omega), List.map_map]
  have hid : (BitVec.toFin ∘ BitVec.ofFin : Byte → Byte) = id := rfl
  rw [hid, List.map_id]

/-! ## Keys and values -/

/-- What is written for a key. -/
def keyBytes (key : Key) : List Byte := Fin.ofNat _ key.length :: key

def KeyLength (key : Key) : Prop := 1 ≤ key.length ∧ key.length ≤ maxKeyLength

theorem serializeKey_eq {key : Key} (h : KeyLength key) : serializeKey key = .ok (keyBytes key) := by
  have hkey : ¬(key.length < 1 ∨ maxKeyLength < key.length) := by
    have := h.1
    have := h.2
    omega
  rw [serializeKey, if_neg hkey, keyBytes]

theorem keyLength_val {key : Key} (h : KeyLength key) : (Fin.ofNat (2 ^ 8) key.length).val = key.length := by
  have hle := h.2
  rw [maxKeyLength] at hle
  rw [Fin.val_ofNat]
  omega

theorem deserializeKey_cons (char : Byte) (rest : List Byte) :
    deserializeKey (IStream.of (char :: rest)) =
      if char.val < 1 ∨ maxKeyLength < char.val then .error .plain
      else if !((IStream.of rest).read char.val).2.good then .error .plain
      else .ok ((IStream.of rest).read char.val) := rfl

theorem deserializeKey_keyBytes {key : Key} (h : KeyLength key) (rest : List Byte) :
    deserializeKey (IStream.of (keyBytes key ++ rest)) = .ok (key, IStream.of rest) := by
  have hkey : ¬(key.length < 1 ∨ maxKeyLength < key.length) := by
    have := h.1
    have := h.2
    omega
  rw [keyBytes, List.cons_append, deserializeKey_cons, keyLength_val h, if_neg hkey, read_append rfl]
  rfl

theorem deserializeKey_iff {data : List Byte} {key : Key} {dataIn : IStream} :
    deserializeKey (IStream.of data) = .ok (key, dataIn) ↔
      ∃ rest, KeyLength key ∧ data = keyBytes key ++ rest ∧ dataIn = IStream.of rest := by
  constructor
  · intro h
    cases data with
    | nil => cases h
    | cons char data =>
      rw [deserializeKey_cons] at h
      by_cases hkey : char.val < 1 ∨ maxKeyLength < char.val
      · rw [if_pos hkey] at h
        cases h
      · rw [if_neg hkey] at h
        rcases read_cases data char.val with ⟨buffer, rest, hbuffer, rfl, hread⟩ | ⟨-, hread⟩
        · rw [hread] at h
          cases h
          have hchar : Fin.ofNat (2 ^ 8) key.length = char := by
            apply Fin.ext
            rw [hbuffer, Fin.val_ofNat, Nat.mod_eq_of_lt char.isLt]
          refine ⟨rest, ⟨by omega, by omega⟩, ?_, rfl⟩
          rw [keyBytes, hchar]
          rfl
        · rw [hread] at h
          cases h
  · rintro ⟨rest, hkey, rfl, rfl⟩
    exact deserializeKey_keyBytes hkey rest

theorem deserializeBoolean_iff {data : List Byte} {entry : CfgEntry} {dataIn : IStream} :
    deserializeBoolean (IStream.of data) = .ok (entry, dataIn) ↔
      ∃ flag rest, entry = .boolean flag ∧ data = (if flag then 1 else 0) :: rest ∧
        dataIn = IStream.of rest := by
  rw [deserializeBoolean]
  rcases read_cases data 1 with ⟨charIn, rest, hchar, rfl, hread⟩ | ⟨hshort, hread⟩
  · obtain ⟨char, rfl⟩ := List.length_eq_one_iff.1 hchar
    rw [hread]
    simp only [of_good, Bool.not_true, Bool.false_eq_true, if_false]
    constructor
    · intro h
      by_cases hzero : char = 0
      · subst hzero
        cases h
        exact ⟨false, rest, rfl, rfl, rfl⟩
      · by_cases hone : char = 1
        · subst hone
          cases h
          exact ⟨true, rest, rfl, rfl, rfl⟩
        · simp [hzero, hone] at h
    · rintro ⟨flag, rest', rfl, hdata, rfl⟩
      obtain ⟨rfl, rfl⟩ := List.cons_eq_cons.1 hdata
      cases flag <;> rfl
  · rw [hread]
    obtain rfl : data = [] := List.length_eq_zero_iff.1 (by omega)
    refine iff_of_false (by simp [IStream.good]) ?_
    rintro ⟨flag, rest, -, hdata, -⟩
    cases hdata

theorem deserializeByte_iff {make : BitVec 8 → CfgEntry} {data : List Byte} {entry : CfgEntry}
    {dataIn : IStream} :
    deserializeByte make (IStream.of data) = .ok (entry, dataIn) ↔
      ∃ number rest, entry = make number ∧ data = [number.toFin] ++ rest ∧ dataIn = IStream.of rest := by
  rw [deserializeByte]
  rcases read_cases data 1 with ⟨charIn, rest, hchar, rfl, hread⟩ | ⟨hshort, hread⟩
  · obtain ⟨char, rfl⟩ := List.length_eq_one_iff.1 hchar
    rw [hread]
    simp only [of_fail, Bool.false_eq_true, if_false, List.headD_cons]
    constructor
    · intro h
      cases h
      exact ⟨BitVec.ofFin char, rest, rfl, rfl, rfl⟩
    · rintro ⟨number, rest', rfl, hdata, rfl⟩
      obtain ⟨rfl, rfl⟩ := List.cons_eq_cons.1 hdata
      rfl
  · rw [hread]
    obtain rfl : data = [] := List.length_eq_zero_iff.1 (by omega)
    refine iff_of_false (by simp) ?_
    rintro ⟨number, rest, -, hdata, -⟩
    cases hdata

theorem deserializeNumeric_iff {w : Nat} (hdvd : w ≤ 8 * (w / 8)) (signed : Bool)
    {make : BitVec w → CfgEntry} {data : List Byte} {entry : CfgEntry} {dataIn : IStream} :
    deserializeNumeric make (IStream.of data) = .ok (entry, dataIn) ↔
      ∃ number rest, entry = make number ∧ data = serializeNumber signed number ++ rest ∧
        dataIn = IStream.of rest := by
  rw [deserializeNumeric]
  rcases read_cases data (w / 8) with ⟨buffer, rest, hbuffer, rfl, hread⟩ | ⟨hshort, hread⟩
  · rw [hread]
    simp only [of_fail, Bool.false_eq_true, if_false]
    constructor
    · intro h
      cases h
      refine ⟨_, rest, rfl, ?_, rfl⟩
      rw [serializeNumber_deserializeNumber signed hbuffer]
    · rintro ⟨number, rest', rfl, hdata, rfl⟩
      obtain ⟨rfl, rfl⟩ := List.append_inj hdata (by rw [hbuffer, serializeNumber_length])
      rw [deserializeNumber_serializeNumber hdvd]
  · rw [hread]
    refine iff_of_false (by simp) ?_
    rintro ⟨number, rest, -, rfl, -⟩
    rw [List.length_append, serializeNumber_length] at hshort
    omega

/-- The entries of a type are those that one constructor makes. -/
theorem getType_iff {α : Type} {make : α → CfgEntry} {write : α → List Byte} {type : BitVec 32}
    (htype : ∀ entry, entry.getType = type ↔ ∃ value, entry = make value)
    (hwrite : ∀ value, (make value).serializeValue = write value) {data : List Byte} {entry : CfgEntry}
    {dataIn : IStream} :
    (∃ value rest, entry = make value ∧ data = write value ++ rest ∧ dataIn = IStream.of rest) ↔
      ∃ rest, entry.getType = type ∧ data = entry.serializeValue ++ rest ∧ dataIn = IStream.of rest := by
  constructor
  · rintro ⟨value, rest, rfl, rfl, rfl⟩
    exact ⟨rest, (htype _).2 ⟨value, rfl⟩, by rw [hwrite], rfl⟩
  · rintro ⟨rest, hentry, rfl, rfl⟩
    obtain ⟨value, rfl⟩ := (htype _).1 hentry
    exact ⟨value, rest, rfl, by rw [hwrite], rfl⟩

/-- What is read for an entry is what is written for it. -/
theorem deserializeValue_iff {entry entry' : CfgEntry} {data : List Byte} {dataIn : IStream} :
    entry.deserializeValue (IStream.of data) = .ok (entry', dataIn) ↔
      ∃ rest, entry'.getType = entry.getType ∧ data = entry'.serializeValue ++ rest ∧
        dataIn = IStream.of rest := by
  cases entry with
  | boolean _ =>
    apply deserializeBoolean_iff.trans
    exact getType_iff (fun entry => by cases entry <;> simp [CfgEntry.getType]) fun _ => rfl
  | unsgInt8 _ =>
    apply deserializeByte_iff.trans
    exact getType_iff (fun entry => by cases entry <;> simp [CfgEntry.getType]) fun _ => rfl
  | unsgInt16 _ =>
    apply (deserializeNumeric_iff (by decide) false).trans
    exact getType_iff (fun entry => by cases entry <;> simp [CfgEntry.getType]) fun _ => rfl
  | unsgInt32 _ =>
    apply (deserializeNumeric_iff (by decide) false).trans
    exact getType_iff (fun entry => by cases entry <;> simp [CfgEntry.getType]) fun _ => rfl
  | unsgInt64 _ =>
    apply (deserializeNumeric_iff (by decide) false).trans
    exact getType_iff (fun entry => by cases entry <;> simp [CfgEntry.getType]) fun _ => rfl
  | int8 _ =>
    apply deserializeByte_iff.trans
    exact getType_iff (fun entry => by cases entry <;> simp [CfgEntry.getType]) fun _ => rfl
  | int16 _ =>
    apply (deserializeNumeric_iff (by decide) true).trans
    exact getType_iff (fun entry => by cases entry <;> simp [CfgEntry.getType]) fun _ => rfl
  | int32 _ =>
    apply (deserializeNumeric_iff (by decide) true).trans
    exact getType_iff (fun entry => by cases entry <;> simp [CfgEntry.getType]) fun _ => rfl
  | int64 _ =>
    apply (deserializeNumeric_iff (by decide) true).trans
    exact getType_iff (fun entry => by cases entry <;> simp [CfgEntry.getType]) fun _ => rfl

theorem deserialize_iff {entry entry' : CfgEntry} {key : Key} {data : List Byte} {dataIn : IStream} :
    entry.deserialize (IStream.of data) = .ok ((key, entry'), dataIn) ↔
      ∃ rest, KeyLength key ∧ entry'.getType = entry.getType ∧
        data = keyBytes key ++ (entry'.serializeValue ++ rest) ∧ dataIn = IStream.of rest := by
  rw [CfgEntry.deserialize]
  constructor
  · intro h
    cases hkey : deserializeKey (IStream.of data) with
    | error e => rw [hkey] at h; cases h
    | ok result =>
      obtain ⟨key', dataIn'⟩ := result
      obtain ⟨valueData, hlength, rfl, rfl⟩ := deserializeKey_iff.1 hkey
      rw [hkey] at h
      cases hvalue : entry.deserializeValue (IStream.of valueData) with
      | error e => simp [hvalue, bind, Except.bind] at h
      | ok result =>
        obtain ⟨entry'', dataIn''⟩ := result
        obtain ⟨rest, htype, rfl, rfl⟩ := deserializeValue_iff.1 hvalue
        simp only [hvalue, bind, Except.bind, pure, Except.pure] at h
        cases h
        exact ⟨rest, hlength, htype, rfl, rfl⟩
  · rintro ⟨rest, hlength, htype, rfl, rfl⟩
    rw [deserializeKey_keyBytes hlength]
    have hvalue := deserializeValue_iff.2 ⟨rest, htype, rfl, rfl⟩
    simp [hvalue, bind, Except.bind, pure, Except.pure]

/-! ## Records -/

/-- The byte of the type that is read. -/
def typeByte (entry : CfgEntry) : Byte := (entry.getType.setWidth 8).toFin

/-- An entry in the file: three bytes that are not looked at, the byte of the type, the key, the value. -/
structure Record where
  high : List Byte
  high_length : high.length = 3
  key : Key
  key_length : KeyLength key
  entry : CfgEntry

def Record.bytes (record : Record) : List Byte :=
  record.high ++ typeByte record.entry :: (keyBytes record.key ++ record.entry.serializeValue)

theorem newEntry_getType (entry : CfgEntry) :
    ∃ entry', newEntry entry.getType = some entry' ∧ entry'.getType = entry.getType := by
  cases entry <;> exact ⟨_, rfl, rfl⟩

theorem getType_of_newEntry {entryType : BitVec 32} {entry : CfgEntry}
    (h : newEntry entryType = some entry) : entry.getType = entryType := by
  rw [newEntry] at h
  repeat' split at h
  all_goals first
    | cases h
      subst_vars
      rfl
    | cases h

theorem readEntryType_four (a b c d : Byte) :
    readEntryType [a, b, c, d] = (BitVec.ofFin d : BitVec 8).setWidth 32 := signExtend_and _

theorem setWidth_typeByte (entry : CfgEntry) :
    (BitVec.ofFin (typeByte entry) : BitVec 8).setWidth 32 = entry.getType := by
  cases entry <;> rfl

theorem typeByte_of_getType {entry : CfgEntry} {d : Byte}
    (h : entry.getType = (BitVec.ofFin d : BitVec 8).setWidth 32) : typeByte entry = d := by
  rw [typeByte, h, BitVec.setWidth_setWidth_of_le _ (by decide)]
  simp

theorem loadEntry_four (a b c d : Byte) (rest : List Byte) :
    loadEntry (IStream.of (a :: b :: c :: d :: rest)) =
      match newEntry (readEntryType [a, b, c, d]) with
      | none => .error .plain
      | some entry =>
        (fun (entry, dataIn) => (some entry, dataIn)) <$> entry.deserialize (IStream.of rest) := rfl

theorem loadEntry_short {data : List Byte} (h : data.length < 4) :
    loadEntry (IStream.of data) = .ok (none, ⟨[], true, true⟩) := by
  rw [loadEntry, read_short h]
  rfl

theorem loadEntry_record (record : Record) (rest : List Byte) :
    loadEntry (IStream.of (record.bytes ++ rest)) =
      .ok (some (record.key, record.entry), IStream.of rest) := by
  obtain ⟨high, hhigh, key, hkey, entry⟩ := record
  obtain ⟨a, b, c, rfl⟩ := List.length_eq_three.1 hhigh
  obtain ⟨entry', hentry', htype⟩ := newEntry_getType entry
  have hdeserialize : entry'.deserialize (IStream.of (keyBytes key ++ (entry.serializeValue ++ rest))) =
      .ok ((key, entry), IStream.of rest) :=
    deserialize_iff.2 ⟨rest, hkey, htype.symm, rfl, rfl⟩
  have hbytes : Record.bytes ⟨[a, b, c], hhigh, key, hkey, entry⟩ ++ rest =
      a :: b :: c :: typeByte entry :: (keyBytes key ++ (entry.serializeValue ++ rest)) := by
    simp [Record.bytes]
  rw [hbytes, loadEntry_four, readEntryType_four, setWidth_typeByte, hentry']
  dsimp only
  rw [hdeserialize]
  rfl

/-- A turn reads a record, or finds less than a type field. -/
theorem loadEntry_iff {data : List Byte} {result : Option (Key × CfgEntry)} {dataIn : IStream} :
    loadEntry (IStream.of data) = .ok (result, dataIn) ↔
      (data.length < 4 ∧ result = none ∧ dataIn = ⟨[], true, true⟩) ∨
      ∃ record rest, data = Record.bytes record ++ rest ∧ result = some (record.key, record.entry) ∧
        dataIn = IStream.of rest := by
  constructor
  · intro h
    rcases read_cases data 4 with ⟨buffer, rest, hbuffer, rfl, -⟩ | ⟨hshort, -⟩
    · right
      match buffer, hbuffer with
      | [a, b, c, d], _ =>
        rw [show [a, b, c, d] ++ rest = a :: b :: c :: d :: rest from rfl, loadEntry_four,
          readEntryType_four] at h
        cases hnew : newEntry ((BitVec.ofFin d : BitVec 8).setWidth 32) with
        | none => rw [hnew] at h; cases h
        | some entry =>
          rw [hnew] at h
          dsimp only at h
          cases hdeserialize : entry.deserialize (IStream.of rest) with
          | error e => rw [hdeserialize] at h; cases h
          | ok read =>
            obtain ⟨⟨key, entry'⟩, dataIn'⟩ := read
            obtain ⟨rest, hkey, htype, rfl, rfl⟩ := deserialize_iff.1 hdeserialize
            rw [hdeserialize] at h
            cases h
            have hbyte : typeByte entry' = d :=
              typeByte_of_getType (htype.trans (getType_of_newEntry hnew))
            refine ⟨⟨[a, b, c], rfl, key, hkey, entry'⟩, rest, ?_, rfl, rfl⟩
            simp [Record.bytes, hbyte]
    · rw [loadEntry_short hshort] at h
      cases h
      exact Or.inl ⟨hshort, rfl, rfl⟩
  · rintro (⟨hshort, rfl, rfl⟩ | ⟨record, rest, rfl, rfl, rfl⟩)
    · exact loadEntry_short hshort
    · exact loadEntry_record record rest

theorem Record.bytes_length (record : Record) : 4 ≤ record.bytes.length := by
  rw [Record.bytes, List.length_append, record.high_length, List.length_cons]
  omega

/-! ## The loop -/

/-- A turn takes something from the stream, or it ends it. -/
theorem loadEntry_lt {dataIn dataIn' : IStream} {result : Option (Key × CfgEntry)}
    (hgood : dataIn.good = true) (h : loadEntry dataIn = .ok (result, dataIn')) :
    dataIn'.data.length + dataIn'.good.toNat < dataIn.data.length + dataIn.good.toNat := by
  rw [(good_iff dataIn).1 hgood] at h
  rcases loadEntry_iff.1 h with ⟨-, -, rfl⟩ | ⟨record, rest, hdata, -, rfl⟩
  · rw [hgood]
    exact Nat.succ_pos _
  · have hlength := record.bytes_length
    rw [hdata, hgood, List.length_append]
    simp only [IStream.of, IStream.good, Bool.not_false, Bool.and_true, Bool.toNat_true]
    omega

/-- The loop of `load_from` and the check behind it. -/
def loadEntries (dataIn : IStream) (config : Store) : Except IoException Unit × Store :=
  if hgood : dataIn.good = true then
    match hentry : loadEntry dataIn with
    | .error e => (.error e, config)
    | .ok (none, dataIn') => loadEntries dataIn' config
    | .ok (some entry, dataIn') => loadEntries dataIn' (setExisting config entry)
  else if dataIn.fail && !dataIn.eof then (.error .plain, config)
  else (.ok (), config)
termination_by dataIn.data.length + dataIn.good.toNat
decreasing_by all_goals exact loadEntry_lt hgood hentry

/-- `load_from`. -/
def loadFrom (dataIn : IStream) (config : Store) : Except IoException Unit × Store :=
  match loadHeader dataIn with
  | .error e => (.error e, config)
  | .ok dataIn => loadEntries dataIn config

/-- The store behind some records. -/
def applied (config : Store) (records : List Record) : Store :=
  records.foldl (fun config record => setExisting config (record.key, record.entry)) config

/-- What is behind the last record does not begin with one. -/
def NoRecord (rest : List Byte) : Prop := ∀ (record : Record) rest', rest ≠ record.bytes ++ rest'

theorem loadEntries_record (record : Record) (rest : List Byte) (config : Store) :
    loadEntries (IStream.of (record.bytes ++ rest)) config =
      loadEntries (IStream.of rest) (setExisting config (record.key, record.entry)) := by
  rw [loadEntries, dif_pos (of_good _)]
  split
  · next e h => rw [loadEntry_record] at h; cases h
  · next dataIn' h => rw [loadEntry_record] at h; cases h
  · next entry dataIn' h => rw [loadEntry_record] at h; cases h; rfl

theorem loadEntries_records (records : List Record) (rest : List Byte) (config : Store) :
    loadEntries (IStream.of (records.flatMap Record.bytes ++ rest)) config =
      loadEntries (IStream.of rest) (applied config records) := by
  induction records generalizing config with
  | nil => rfl
  | cons record records ih =>
    rw [List.flatMap_cons, List.append_assoc, loadEntries_record, ih]
    rfl

/-- Where there is no record, the loop ends, without an exception at less than a type field. -/
theorem loadEntries_rest {rest : List Byte} (h : NoRecord rest) (config : Store) :
    (loadEntries (IStream.of rest) config).2 = config ∧
      ((loadEntries (IStream.of rest) config).1 = .ok () ↔ rest.length < 4) := by
  have hended : loadEntries ⟨[], true, true⟩ config = (.ok (), config) := by
    rw [loadEntries]
    rfl
  by_cases hshort : rest.length < 4
  · rw [loadEntries, dif_pos (of_good _)]
    split
    · next e hentry => rw [loadEntry_short hshort] at hentry; cases hentry
    · next dataIn' hentry =>
      rw [loadEntry_short hshort] at hentry
      cases hentry
      rw [hended]
      exact ⟨rfl, iff_of_true rfl hshort⟩
    · next entry dataIn' hentry => rw [loadEntry_short hshort] at hentry; cases hentry
  · cases hentry : loadEntry (IStream.of rest) with
    | error e =>
      rw [loadEntries, dif_pos (of_good _)]
      split
      · exact ⟨rfl, iff_of_false nofun hshort⟩
      · next h => rw [hentry] at h; cases h
      · next h => rw [hentry] at h; cases h
    | ok result =>
      rcases loadEntry_iff.1 hentry with ⟨hlt, -, -⟩ | ⟨record, rest', hrest, -, -⟩
      · exact absurd hlt hshort
      · exact absurd hrest (h record rest')

/-- Any bytes are some records, and something that does not begin with one. -/
theorem exists_records (bytes : List Byte) :
    ∃ (records : List Record) (rest : List Byte),
      bytes = records.flatMap Record.bytes ++ rest ∧ NoRecord rest := by
  induction hlength : bytes.length using Nat.strong_induction_on generalizing bytes with
  | _ length ih =>
    by_cases hrecord : NoRecord bytes
    · exact ⟨[], bytes, rfl, hrecord⟩
    · obtain ⟨record, rest, rfl⟩ : ∃ (record : Record) (rest : List Byte), bytes = record.bytes ++ rest := by
        simpa [NoRecord] using hrecord
      have hlt : rest.length < length := by
        have := record.bytes_length
        rw [List.length_append] at hlength
        omega
      obtain ⟨records, rest', rfl, hrest⟩ := ih rest.length hlt rest rfl
      refine ⟨record :: records, rest', ?_, hrest⟩
      rw [List.flatMap_cons, List.append_assoc]

/-! ## The header -/

theorem and_major (number : BitVec 32) : number &&& 0xFFFF0000#32 = (number >>> 16) <<< 16 := by
  rw [show (0xFFFF0000#32 : BitVec 32) = BitVec.allOnes 32 <<< 16 from rfl]
  apply BitVec.eq_of_getLsbD_eq
  intro i hi
  rw [BitVec.getLsbD_and, BitVec.getLsbD_shiftLeft, BitVec.getLsbD_shiftLeft, BitVec.getLsbD_ushiftRight,
    BitVec.getLsbD_allOnes]
  by_cases hlow : i < 16
  · simp [hlow]
  · have hidx : 16 + (i - 16) = i := by omega
    have hlt : i - 16 < 32 := by omega
    simp [hlow, hidx, hlt, hi]

theorem major_iff (number : BitVec 32) :
    number &&& 0xFFFF0000#32 = cesVersion &&& 0xFFFF0000#32 ↔
      (number >>> 24).setWidth 8 = 0#8 ∧ (number >>> 16).setWidth 8 = 1#8 := by
  rw [and_major, and_major, cesVersion]
  bv_omega

/-- The bytes of the UUID and of the major version. -/
def headerBytes : List Byte := cesUuid ++ [0, 1]

theorem version_iff (a b c d : Byte) :
    (deserializeNumber [a, b, c, d] : BitVec 32) &&& 0xFFFF0000#32 = cesVersion &&& 0xFFFF0000#32 ↔
      a = 0 ∧ b = 1 := by
  have hbytes := serializeNumber_deserializeNumber false (show [a, b, c, d].length = 32 / 8 from rfl)
  rw [major_iff]
  generalize (deserializeNumber [a, b, c, d] : BitVec 32) = number at hbytes ⊢
  rw [serializeNumber_eq] at hbytes
  obtain ⟨ha, hrest⟩ := List.cons_eq_cons.1 hbytes
  obtain ⟨hb, -⟩ := List.cons_eq_cons.1 hrest
  rw [← ha, ← hb, ← BitVec.toFin_inj, ← BitVec.toFin_inj]
  rfl

theorem loadHeader_uuid {buffer : List Byte} (hbuffer : buffer.length = 16) (rest : List Byte) :
    loadHeader (IStream.of (buffer ++ rest)) =
      if buffer ≠ cesUuid then .error .plain
      else if ((IStream.of rest).read 4).2.fail then
        .error (.message "I/O error while deserializing the configuration entry store version field")
      else if (deserializeNumber ((IStream.of rest).read 4).1 : BitVec 32) &&& 0xFFFF0000#32 ≠
          cesVersion &&& 0xFFFF0000#32 then
        .error (.message "Incompatible configuration entry store version")
      else .ok ((IStream.of rest).read 4).2 := by
  rw [loadHeader, of_good, if_pos rfl, read_append hbuffer]
  rfl

theorem loadHeader_version (a b c d : Byte) (rest : List Byte) :
    loadHeader (IStream.of (cesUuid ++ a :: b :: c :: d :: rest)) =
      if a = 0 ∧ b = 1 then .ok (IStream.of rest)
      else .error (.message "Incompatible configuration entry store version") := by
  have hread : (IStream.of (a :: b :: c :: d :: rest)).read 4 = ([a, b, c, d], IStream.of rest) := rfl
  rw [loadHeader_uuid (by decide), hread, if_neg (not_not.2 rfl)]
  by_cases hversion : a = 0 ∧ b = 1
  · rw [if_pos hversion, if_neg nofun, if_neg (not_not.2 ((version_iff a b c d).2 hversion))]
  · rw [if_neg hversion, if_neg nofun, if_pos fun h => hversion ((version_iff a b c d).1 h)]

/-- The header that is accepted. -/
theorem loadHeader_iff {bytes : List Byte} {dataIn : IStream} :
    loadHeader (IStream.of bytes) = .ok dataIn ↔
      ∃ minor rest, minor.length = 2 ∧ bytes = headerBytes ++ (minor ++ rest) ∧
        dataIn = IStream.of rest := by
  constructor
  · intro h
    rcases read_cases bytes 16 with ⟨buffer, rest, hbuffer, rfl, -⟩ | ⟨-, hread⟩
    · rw [loadHeader_uuid hbuffer] at h
      by_cases huuid : buffer = cesUuid
      · subst huuid
        rcases read_cases rest 4 with ⟨version, rest, hversion, rfl, -⟩ | ⟨-, hread⟩
        · match version, hversion with
          | [a, b, c, d], _ =>
            rw [← loadHeader_uuid hbuffer] at h
            have hmajor := loadHeader_version a b c d rest
            rw [show [a, b, c, d] ++ rest = a :: b :: c :: d :: rest from rfl, hmajor] at h
            split at h
            · next hab =>
              cases h
              obtain ⟨rfl, rfl⟩ := hab
              exact ⟨[c, d], rest, rfl, rfl, rfl⟩
            · cases h
        · rw [if_neg (not_not.2 rfl), hread] at h
          cases h
      · rw [if_pos huuid] at h
        cases h
    · rw [loadHeader, of_good, if_pos rfl, hread] at h
      cases h
  · rintro ⟨minor, rest, hminor, rfl, rfl⟩
    match minor, hminor with
    | [c, d], _ => exact loadHeader_version 0 1 c d rest

/-! ## What is loaded -/

/-- The entry of the last record with a key. -/
def lastEntry (key : Key) : List Record → Option CfgEntry
  | [] => none
  | record :: records => (lastEntry key records).or (if record.key = key then some record.entry else none)

theorem get_applied (config : Store) (records : List Record) (key : Key) :
    (applied config records).get key =
      (config.get key).map fun entry => (lastEntry key records).getD entry := by
  induction records generalizing config with
  | nil => simp [applied, lastEntry]
  | cons record records ih =>
    have happlied : applied config (record :: records) =
        applied (setExisting config (record.key, record.entry)) records := rfl
    rw [happlied, ih, setExisting, OrdMap.get_adjust, lastEntry]
    by_cases hkey : record.key = key
    · rw [if_pos hkey.symm, if_pos hkey, Option.map_map]
      congr 1
      funext entry
      cases lastEntry key records <;> rfl
    · rw [if_neg (Ne.symm hkey), if_neg hkey, Option.or_none]

theorem lastEntry_mem {key : Key} {records : List Record} {entry : CfgEntry}
    (h : lastEntry key records = some entry) : ∃ record ∈ records, record.key = key ∧ record.entry = entry := by
  induction records with
  | nil => cases h
  | cons record records ih =>
    rw [lastEntry] at h
    cases hlast : lastEntry key records with
    | some last =>
      rw [hlast] at h
      cases h
      obtain ⟨record', hmem, hrecord'⟩ := ih hlast
      exact ⟨record', List.mem_cons_of_mem _ hmem, hrecord'⟩
    | none =>
      rw [hlast, Option.none_or] at h
      split at h
      · next hkey =>
        cases h
        exact ⟨record, List.mem_cons_self, hkey, rfl⟩
      · cases h

theorem lastEntry_isSome {record : Record} {records : List Record} (h : record ∈ records) :
    ∃ entry, lastEntry record.key records = some entry := by
  induction records with
  | nil => cases h
  | cons record' records ih =>
    rw [lastEntry]
    rcases List.mem_cons.1 h with rfl | hmem
    · rw [if_pos rfl]
      cases lastEntry record.key records with
      | none => exact ⟨record.entry, rfl⟩
      | some last => exact ⟨last, rfl⟩
    · obtain ⟨entry, hentry⟩ := ih hmem
      exact ⟨entry, by rw [hentry, Option.some_or]⟩

/-- Where the records are the entries of a store, the last one for a key is its entry. -/
theorem lastEntry_entries {config : Store} {records : List Record}
    (h : records.map (fun record => (record.key, record.entry)) = config.entries) (key : Key) :
    lastEntry key records = config.get key := by
  have hmem : ∀ {key entry}, (∃ record ∈ records, record.key = key ∧ record.entry = entry) ↔
      config.get key = some entry := by
    intro key entry
    rw [← OrdMap.mem_iff_get, ← h, List.mem_map]
    simp
  cases hlast : lastEntry key records with
  | some entry => exact (hmem.1 (lastEntry_mem hlast)).symm
  | none =>
    cases hget : config.get key with
    | none => rfl
    | some entry =>
      obtain ⟨record, hrecord, rfl, -⟩ := hmem.2 hget
      obtain ⟨last, hlast'⟩ := lastEntry_isSome hrecord
      rw [hlast] at hlast'
      cases hlast'

/-- The bytes in front of the key. -/
theorem serializeNumber_getType (entry : CfgEntry) :
    serializeNumber false entry.getType = [0, 0, 0, typeByte entry] := by
  cases entry
  all_goals
    rw [typeByte, CfgEntry.getType]
    decide

/-- The entries that are saved are records. -/
theorem saveEntries_records {entries : List (Key × CfgEntry)} (h : ∀ entry ∈ entries, KeyLength entry.1) :
    ∃ records : List Record, records.map (fun record => (record.key, record.entry)) = entries ∧
      saveEntries entries = .ok (records.flatMap Record.bytes) := by
  induction entries with
  | nil => exact ⟨[], rfl, rfl⟩
  | cons entry entries ih =>
    obtain ⟨key, entry⟩ := entry
    have hkey : KeyLength key := h _ List.mem_cons_self
    obtain ⟨records, hrecords, hsave⟩ := ih fun entry hentry => h entry (List.mem_cons_of_mem _ hentry)
    refine ⟨⟨[0, 0, 0], rfl, key, hkey, entry⟩ :: records, by rw [List.map_cons, hrecords], ?_⟩
    rw [saveEntries, hsave, serialize, serializeKey_eq hkey, serializeNumber_getType]
    simp [Record.bytes, bind, Except.bind, pure, Except.pure, Functor.map, Except.map]

theorem loadFrom_header {minor : List Byte} (hminor : minor.length = 2) (body : List Byte) (config : Store) :
    loadFrom (IStream.of (headerBytes ++ (minor ++ body))) config =
      loadEntries (IStream.of body) config := by
  rw [loadFrom, loadHeader_iff.2 ⟨minor, body, hminor, rfl, rfl⟩]

/-- A store that is saved is loaded into a store: its common keys get the saved entries. -/
theorem loadFrom_saveTo (store target : Store) (hkeys : ∀ key entry, store.get key = some entry →
    KeyLength key) :
    ∃ bytes config, saveTo store = .ok bytes ∧ loadFrom (IStream.of bytes) target = (.ok (), config) ∧
      (∀ key, config.get key = (target.get key).map fun entry => (store.get key).getD entry) ∧
      ((∀ key, (target.get key).isSome = (store.get key).isSome) → config = store) := by
  obtain ⟨records, hrecords, hsave⟩ := @saveEntries_records store.entries fun entry hentry =>
    hkeys entry.1 entry.2 (OrdMap.mem_iff_get.1 hentry)
  have hget : ∀ key, (applied target records).get key =
      (target.get key).map fun entry => (store.get key).getD entry := by
    intro key
    rw [get_applied, lastEntry_entries hrecords]
  refine ⟨headerBytes ++ ([0, 0] ++ (records.flatMap Record.bytes ++ [])), applied target records, ?_, ?_,
    hget, ?_⟩
  · rw [saveTo, hsave, List.append_nil]
    rfl
  · have hrest : NoRecord [] := by
      intro record rest' h
      have hlength := congrArg List.length h
      have := record.bytes_length
      rw [List.length_nil, List.length_append] at hlength
      omega
    obtain ⟨hconfig, hok⟩ := loadEntries_rest hrest (applied target records)
    rw [loadFrom_header rfl, loadEntries_records]
    exact Prod.ext (hok.2 (by decide)) hconfig
  · intro hsame
    apply OrdMap.ext_get
    intro key
    have hkey := hsame key
    rw [hget]
    cases htarget : target.get key with
    | none =>
      rw [htarget] at hkey
      cases hstore : store.get key with
      | none => rfl
      | some entry => rw [hstore] at hkey; cases hkey
    | some old =>
      rw [htarget] at hkey
      cases hstore : store.get key with
      | none => rw [hstore] at hkey; cases hkey
      | some entry => rfl

/-- A store with one entry. -/
def single (key : Key) (entry : CfgEntry) : Store := ⟨[(key, entry)], List.pairwise_singleton _ _⟩

theorem loadFrom_saveTo_single :
    ∃ bytes, saveTo (single [0x61] (.int16 0x8001)) = .ok bytes ∧
      loadFrom (IStream.of bytes) (single [0x61] (.int16 0)) = (.ok (), single [0x61] (.int16 0x8001)) := by
  have hkeys : ∀ key entry, (single [0x61] (.int16 0x8001)).get key = some entry → KeyLength key := by
    intro key entry h
    rw [← OrdMap.mem_iff_get] at h
    cases List.mem_singleton.1 h
    exact ⟨by decide, by decide⟩
  obtain ⟨bytes, config, hsave, hload, -, hsame⟩ :=
    loadFrom_saveTo (single [0x61] (.int16 0x8001)) (single [0x61] (.int16 0)) hkeys
  refine ⟨bytes, hsave, ?_⟩
  rw [hload, hsame fun key => ?_]
  simp only [OrdMap.get, single, OrdMap.lookup]
  split <;> rfl

/-- The complete entries in front of the end or of a fault are applied, each at once. -/
theorem loadFrom_records (bytes : List Byte) (config : Store) :
    ((∃ e, loadFrom (IStream.of bytes) config = (.error e, config)) ∧
      ∀ minor rest, minor.length = 2 → bytes ≠ headerBytes ++ (minor ++ rest)) ∨
    ∃ (minor : List Byte) (records : List Record) (rest : List Byte), minor.length = 2 ∧
      bytes = headerBytes ++ (minor ++ (records.flatMap Record.bytes ++ rest)) ∧
      (∀ (record : Record) rest', rest = record.bytes ++ rest' → record.high ≠ [0, 0, 0]) ∧
      ((loadFrom (IStream.of bytes) config).1 = .ok () → rest.length < 4) ∧
      (rest = [] → (loadFrom (IStream.of bytes) config).1 = .ok ()) ∧
      ∀ key, (loadFrom (IStream.of bytes) config).2.get key =
        (config.get key).map fun entry => (lastEntry key records).getD entry := by
  cases hheader : loadHeader (IStream.of bytes) with
  | error e =>
    left
    refine ⟨⟨e, by rw [loadFrom, hheader]⟩, ?_⟩
    intro minor rest hminor hbytes
    rw [loadHeader_iff.2 ⟨minor, rest, hminor, hbytes, rfl⟩] at hheader
    cases hheader
  | ok dataIn =>
    right
    obtain ⟨minor, body, hminor, rfl, -⟩ := loadHeader_iff.1 hheader
    obtain ⟨records, rest, rfl, hrest⟩ := exists_records body
    obtain ⟨hconfig, hok⟩ := loadEntries_rest hrest (applied config records)
    have hload : loadFrom (IStream.of (headerBytes ++ (minor ++ (records.flatMap Record.bytes ++ rest)))) config =
        loadEntries (IStream.of rest) (applied config records) := by
      rw [loadFrom_header hminor, loadEntries_records]
    refine ⟨minor, records, rest, hminor, rfl, ?_, ?_, ?_, ?_⟩
    · intro record rest' h
      exact absurd h (hrest record rest')
    · rw [hload]
      exact hok.1
    · rintro rfl
      rw [hload]
      exact hok.2 (by decide)
    · intro key
      rw [hload, hconfig, get_applied]

/-- An entry in front of an unknown type is applied, and an entry changes the type of the one that was
    there. -/
theorem fault_applied :
    loadFrom (IStream.of (headerBytes ++ [0, 0, 0, 0, 0, 5, 1, 0x61, 0x80, 0, 0, 0, 9]))
        (single [0x61] (.int8 0)) = (.error .plain, single [0x61] (.int8 0x80)) ∧
      loadFrom (IStream.of (headerBytes ++ [0, 0, 0, 0, 0, 5, 1, 0x61, 0x80]))
        (single [0x61] (.boolean false)) = (.ok (), single [0x61] (.int8 0x80)) := by
  have hentry : ∀ rest config, loadEntries (IStream.of ([0, 0, 0, 5, 1, 0x61, 0x80] ++ rest)) config =
      loadEntries (IStream.of rest) (setExisting config ([0x61], .int8 0x80)) :=
    loadEntries_record ⟨[0, 0, 0], rfl, [0x61], ⟨by decide, by decide⟩, .int8 0x80⟩
  constructor
  · refine (loadFrom_header (show [0, 0].length = 2 from rfl)
      ([0, 0, 0, 5, 1, 0x61, 0x80] ++ [0, 0, 0, 9]) _).trans ?_
    rw [hentry, loadEntries]
    rfl
  · refine (loadFrom_header (show [0, 0].length = 2 from rfl)
      ([0, 0, 0, 5, 1, 0x61, 0x80] ++ []) _).trans ?_
    rw [hentry, loadEntries]
    change loadEntries ⟨[], true, true⟩ _ = _
    rw [loadEntries]
    rfl

end DrbdUtils.DrbdMon.CfgEntryStore
