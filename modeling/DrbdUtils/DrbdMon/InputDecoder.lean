import Mathlib.Data.List.Basic
import Mathlib.Tactic.SplitIfs

/-!
# drbdmon's decoder of terminal input

`InputSequenceDecoder.cpp`: characters become keys and mouse events; two state machines share the buffer of
digits.

* `Sequence` — the complete units of input.
* `inputChar_savedSeq`, `decode_savedSeq` — the buffer stays within its bound.
* `decode_csi`, `decode_csi_tail`, `decode_mouse` — what a unit decodes to, and where it leaves the mouse
  state.
* `compositional_iff` — when input decodes unit by unit.
-/

set_option autoImplicit false

namespace DrbdUtils.DrbdMon.InputDecoder

/-! ## Model -/

/-- `MAX_SEQ_LENGTH`. -/
def maxSeqLength : Nat := 16

namespace EscSeqCodes

def esc : UInt8 := 0x1B
def ss3 : UInt8 := 0x4F
def csi : UInt8 := 0x5B
def csiSep : UInt8 := 0x3B
def funcTerm : UInt8 := 0x7E
def mouseEvent : UInt8 := 0x3C
def mouseRelease : UInt8 := 0x6D
def mouseDown : UInt8 := 0x4D

end EscSeqCodes

namespace KeyCodes

def backspace : UInt32 := 0x10000201
def tab : UInt32 := 0x10000202
def enter : UInt32 := 0x10000203
def mouseEvent : UInt32 := 0x11000000
def none : UInt32 := 0xFFFFFFFF

end KeyCodes

/-- The cursor keys, behind `ESC [`. -/
def cursorKeys : List (UInt8 × UInt32) :=
  [(0x41, 0x10000001), (0x42, 0x10000002), (0x44, 0x10000003), (0x43, 0x10000004)]

/-- The keys behind `ESC O`. -/
def ss3Keys : List (UInt8 × UInt32) :=
  [(0x50, 0x10000301), (0x51, 0x10000302), (0x52, 0x10000303), (0x53, 0x10000304)]

/-- The keys with a number behind `ESC [` and a tilde at the end. -/
def funcKeys : List (List UInt8 × UInt32) :=
  [([0x31, 0x35], 0x10000305), ([0x31, 0x37], 0x10000306), ([0x31, 0x38], 0x10000307),
    ([0x31, 0x39], 0x10000308), ([0x32, 0x30], 0x10000309), ([0x32, 0x31], 0x1000030A),
    ([0x32, 0x33], 0x1000030B), ([0x32, 0x34], 0x1000030C), ([0x31], 0x10000103), ([0x34], 0x10000104),
    ([0x37], 0x10000103), ([0x38], 0x10000104), ([0x32], 0x10000101), ([0x33], 0x10000102),
    ([0x35], 0x10000105), ([0x36], 0x10000106)]

/-- The comparisons of the decoder with one code after the other. -/
def keyOf {α : Type} [DecidableEq α] (keys : List (α × UInt32)) (code : α) : UInt32 :=
  ((keys.find? (·.1 = code)).map (·.2)).getD KeyCodes.none

inductive EngineState where
  | direct
  | escSeq
  | ss3Seq
  | csiSeq
  | mouseSeq
  | csiSeqIgn
  deriving DecidableEq, Repr

inductive EngineMouseState where
  | initial
  | coordCol
  | coordRow
  deriving DecidableEq, Repr

inductive EventId where
  | mouseMove
  | mouseDown
  | mouseRelease
  | scrollUp
  | scrollDown
  deriving DecidableEq, Repr

inductive ButtonId where
  | none
  | button01
  | button02
  | button03
  deriving DecidableEq, Repr

structure MouseEvent where
  event : EventId
  button : ButtonId
  coordColumn : Nat
  coordRow : Nat
  deriving DecidableEq, Repr

structure Decoder where
  state : EngineState
  mouseState : EngineMouseState
  savedSeq : List UInt8
  mouseEventData : MouseEvent
  deriving DecidableEq, Repr

def isDigit (char : UInt8) : Prop := 0x30 ≤ char ∧ char ≤ 0x39

instance (char : UInt8) : Decidable (isDigit char) := inferInstanceAs (Decidable (_ ∧ _))

/-- The loop of `parse_unsigned_numeric_impl`. -/
def parseDigits (maxValue result : Nat) : List UInt8 → Option Nat
  | [] => some result
  | char :: rest =>
    if maxValue / 10 < result then none
    else if ¬isDigit char then none
    else if maxValue - result * 10 < char.toNat - 0x30 then none
    else parseDigits maxValue (result * 10 + (char.toNat - 0x30)) rest

/-- `parse_unsigned_decimal_impl`; there is none where it throws. -/
def parseUnsigned (maxValue : Nat) (text : List UInt8) : Option Nat :=
  if text.length < 1 then none else parseDigits maxValue 0 text

def parseUnsignedInt8 : List UInt8 → Option Nat := parseUnsigned 255

def parseUnsignedInt16 : List UInt8 → Option Nat := parseUnsigned 65535

/-- `reset_mouse_event_data`. -/
def resetMouseEventData : MouseEvent := ⟨.mouseMove, .none, 0, 0⟩

/-- `reset_state`. -/
def Decoder.resetState (decoder : Decoder) (nextState : EngineState) : Decoder :=
  { decoder with state := nextState, savedSeq := [] }

/-- `reset_mouse_state`. -/
def Decoder.resetMouseState (decoder : Decoder) : Decoder :=
  { decoder with mouseState := .initial, mouseEventData := resetMouseEventData }

/-- The event of an action. -/
def actionEvent (action : Nat) : MouseEvent :=
  if action = 0 then { resetMouseEventData with button := .button01 }
  else if action = 1 then { resetMouseEventData with button := .button02 }
  else if action = 2 then { resetMouseEventData with button := .button03 }
  else if action = 64 then { resetMouseEventData with event := .scrollUp }
  else if action = 65 then { resetMouseEventData with event := .scrollDown }
  else resetMouseEventData

/-- The row of an event, and what happened to the button; nothing changes where the row is no number. -/
def rowEvent (data : MouseEvent) (row : List UInt8) (inChar : UInt8) : MouseEvent :=
  match parseUnsignedInt16 row with
  | none => data
  | some coordRow =>
    if data.event ≠ .scrollDown ∧ data.event ≠ .scrollUp then
      if inChar = EscSeqCodes.mouseDown then { data with coordRow, event := .mouseDown }
      else if inChar = EscSeqCodes.mouseRelease then { data with coordRow, event := .mouseRelease }
      else { data with coordRow }
    else { data with coordRow }

/-- `update_mouse_event`. -/
def updateMouseEvent (inChar : UInt8) (decoder : Decoder) (mouse : MouseEvent) :
    UInt32 × Decoder × MouseEvent :=
  let ignore := { decoder.resetMouseState with state := .csiSeqIgn }
  match decoder.mouseState with
  | .initial =>
    if inChar = EscSeqCodes.csiSep then
      match parseUnsignedInt8 decoder.savedSeq with
      | some action =>
        (KeyCodes.none,
          { decoder with
            mouseEventData := actionEvent action, savedSeq := [], mouseState := .coordCol },
          mouse)
      | none => (KeyCodes.none, ignore, mouse)
    else (KeyCodes.none, ignore, mouse)
  | .coordCol =>
    if inChar = EscSeqCodes.csiSep then
      match parseUnsignedInt16 decoder.savedSeq with
      | some coordColumn =>
        (KeyCodes.none,
          { decoder with
            mouseEventData := { decoder.mouseEventData with coordColumn }, savedSeq := [],
            mouseState := .coordRow },
          mouse)
      | none => (KeyCodes.none, ignore, mouse)
    else (KeyCodes.none, ignore, mouse)
  | .coordRow =>
    if inChar = EscSeqCodes.mouseDown ∨ inChar = EscSeqCodes.mouseRelease then
      (KeyCodes.mouseEvent, (decoder.resetState .direct).resetMouseState,
        rowEvent decoder.mouseEventData decoder.savedSeq inChar)
    else if inChar = EscSeqCodes.csiSep then (KeyCodes.none, ignore, mouse)
    else (KeyCodes.none, (decoder.resetState .direct).resetMouseState, mouse)

/-- `input_char`: the key, and the decoder and the mouse event behind it. -/
def inputChar (inChar : UInt8) (decoder : Decoder) (mouse : MouseEvent) : UInt32 × Decoder × MouseEvent :=
  match decoder.state with
  | .direct =>
    if inChar = EscSeqCodes.esc then (KeyCodes.none, { decoder with state := .escSeq }, mouse)
    else if inChar = 0x0D ∨ inChar = 0x0A then (KeyCodes.enter, decoder, mouse)
    else if inChar = 0x09 then (KeyCodes.tab, decoder, mouse)
    else if inChar = 0x7F then (KeyCodes.backspace, decoder, mouse)
    else (inChar.toUInt32, decoder, mouse)
  | .escSeq =>
    if inChar = EscSeqCodes.ss3 then (KeyCodes.none, { decoder with state := .ss3Seq }, mouse)
    else if inChar = EscSeqCodes.csi then (KeyCodes.none, { decoder with state := .csiSeq }, mouse)
    else (KeyCodes.none, { decoder with state := .direct }, mouse)
  | .csiSeq =>
    if isDigit inChar ∧ decoder.savedSeq.length < maxSeqLength then
      (KeyCodes.none, { decoder with savedSeq := decoder.savedSeq ++ [inChar] }, mouse)
    else if decoder.savedSeq.length = 0 then
      if inChar = EscSeqCodes.mouseEvent then
        (KeyCodes.none, { decoder with state := .mouseSeq }, mouse)
      else (keyOf cursorKeys inChar, decoder.resetState .direct, mouse)
    else
      (if inChar = EscSeqCodes.funcTerm then keyOf funcKeys decoder.savedSeq else KeyCodes.none,
        decoder.resetState .direct, mouse)
  | .ss3Seq => (keyOf ss3Keys inChar, decoder.resetState .direct, mouse)
  | .csiSeqIgn =>
    -- the rest of a sequence is ignored
    if ¬isDigit inChar ∧ inChar ≠ EscSeqCodes.csiSep then
      (KeyCodes.none, decoder.resetState .direct, mouse)
    else (KeyCodes.none, decoder, mouse)
  | .mouseSeq =>
    if isDigit inChar then
      if decoder.savedSeq.length < maxSeqLength then
        (KeyCodes.none, { decoder with savedSeq := decoder.savedSeq ++ [inChar] }, mouse)
      else (KeyCodes.none, decoder.resetState .csiSeqIgn, mouse)
    else updateMouseEvent inChar decoder mouse

/-- The decoder after its construction, and the mouse event of its caller. -/
def fresh : Decoder × MouseEvent := (⟨.direct, .initial, [], resetMouseEventData⟩, resetMouseEventData)

/-- A key that is delivered, with the mouse event where it is one. -/
abbrev Output := UInt32 × Option MouseEvent

/-- What the caller makes of a key. -/
def output (key : UInt32) (mouse : MouseEvent) : List Output :=
  if key = KeyCodes.none then [] else [(key, if key = KeyCodes.mouseEvent then some mouse else none)]

/-- Some input, character by character. -/
def decode : List UInt8 → Decoder × MouseEvent → List Output × Decoder × MouseEvent
  | [], s => ([], s)
  | char :: rest, s =>
    let (key, s) := inputChar char s.1 s.2
    let (outputs, s') := decode rest s
    (output key s.2 ++ outputs, s')

/-! ## Complete units -/

/-- The digits of a number. -/
abbrev Number := { digits : List UInt8 // ∀ char ∈ digits, isDigit char }

/-- Parameters with separators between them. -/
def paramBytes : List Number → List UInt8
  | [] => []
  | [number] => number.val
  | number :: rest => number.val ++ EscSeqCodes.csiSep :: paramBytes rest

/-- A unit of input: a plain character, or a complete sequence. -/
inductive Sequence where
  | plain (char : { char : UInt8 // char ≠ EscSeqCodes.esc })
  | ss3 (char : UInt8)
  | csi (params : List Number) (final : { char : UInt8 // 0x40 ≤ char ∧ char ≤ 0x7E })
  | mouse (button column row : Number) (release : Bool)

def Sequence.bytes : Sequence → List UInt8
  | .plain char => [char.val]
  | .ss3 char => [EscSeqCodes.esc, EscSeqCodes.ss3, char]
  | .csi params final => EscSeqCodes.esc :: EscSeqCodes.csi :: (paramBytes params ++ [final.val])
  | .mouse button column row release =>
    EscSeqCodes.esc :: EscSeqCodes.csi :: EscSeqCodes.mouseEvent ::
      (button.val ++ EscSeqCodes.csiSep :: (column.val ++ EscSeqCodes.csiSep ::
        (row.val ++ [if release then EscSeqCodes.mouseRelease else EscSeqCodes.mouseDown])))

/-- The sequences that have a meaning. -/
def Sequence.Recognised : Sequence → Prop
  | .plain _ => True
  | .ss3 char => ∃ entry ∈ ss3Keys, entry.1 = char
  | .csi params final =>
    (paramBytes params = [] ∧ ∃ entry ∈ cursorKeys, entry.1 = final.val) ∨
      (final.val = EscSeqCodes.funcTerm ∧ ∃ entry ∈ funcKeys, entry.1 = paramBytes params)
  | .mouse .. => True

/-- What a unit alone decodes to. -/
def Sequence.alone (sequence : Sequence) : List Output := (decode sequence.bytes fresh).1

/-! ## Characters -/

@[simp] theorem output_none (mouse : MouseEvent) : output KeyCodes.none mouse = [] := rfl

theorem decode_cons (char : UInt8) (rest : List UInt8) (s : Decoder × MouseEvent) :
    decode (char :: rest) s =
      (output (inputChar char s.1 s.2).1 (inputChar char s.1 s.2).2.2 ++
          (decode rest (inputChar char s.1 s.2).2).1,
        (decode rest (inputChar char s.1 s.2).2).2) := rfl

theorem decode_append (front rest : List UInt8) (s : Decoder × MouseEvent) :
    decode (front ++ rest) s =
      ((decode front s).1 ++ (decode rest (decode front s).2).1, (decode rest (decode front s).2).2) := by
  induction front generalizing s with
  | nil => rfl
  | cons char front ih =>
    rw [List.cons_append, decode_cons, ih, decode_cons, List.append_assoc]

theorem updateMouseEvent_savedSeq {inChar : UInt8} {decoder : Decoder} {mouse : MouseEvent}
    (h : decoder.savedSeq.length ≤ maxSeqLength) :
    (updateMouseEvent inChar decoder mouse).2.1.savedSeq.length ≤ maxSeqLength := by
  rw [updateMouseEvent]
  cases decoder.mouseState with
  | initial =>
    dsimp only
    split
    · split
      · exact Nat.zero_le _
      · exact h
    · exact h
  | coordCol =>
    dsimp only
    split
    · split
      · exact Nat.zero_le _
      · exact h
    · exact h
  | coordRow =>
    dsimp only
    split
    · exact Nat.zero_le _
    · split
      · exact h
      · exact Nat.zero_le _

/-- A character keeps the bound of the buffer. -/
theorem inputChar_savedSeq {inChar : UInt8} {decoder : Decoder} {mouse : MouseEvent}
    (h : decoder.savedSeq.length ≤ maxSeqLength) :
    (inputChar inChar decoder mouse).2.1.savedSeq.length ≤ maxSeqLength := by
  have hpush : decoder.savedSeq.length < maxSeqLength →
      (decoder.savedSeq ++ [inChar]).length ≤ maxSeqLength := by
    intro hlt
    rw [List.length_append, List.length_singleton]
    exact hlt
  rw [inputChar]
  cases decoder.state with
  | direct =>
    dsimp only
    repeat' split
    all_goals exact h
  | escSeq =>
    dsimp only
    repeat' split
    all_goals exact h
  | csiSeq =>
    dsimp only
    split
    · next hdigit => exact hpush hdigit.2
    · split
      · split
        · exact h
        · exact Nat.zero_le _
      · exact Nat.zero_le _
  | ss3Seq => exact Nat.zero_le _
  | csiSeqIgn =>
    dsimp only
    split
    · exact Nat.zero_le _
    · exact h
  | mouseSeq =>
    dsimp only
    split
    · split
      · next hlt => exact hpush hlt
      · exact Nat.zero_le _
    · exact updateMouseEvent_savedSeq h

theorem decode_savedSeq {s : Decoder × MouseEvent} (h : s.1.savedSeq.length ≤ maxSeqLength)
    (bytes : List UInt8) : (decode bytes s).2.1.savedSeq.length ≤ maxSeqLength := by
  induction bytes generalizing s with
  | nil => exact h
  | cons char rest ih =>
    rw [decode_cons]
    exact ih (inputChar_savedSeq h)

theorem digit_ne {char other : UInt8} (h : isDigit char) (hother : ¬isDigit other) : char ≠ other := by
  rintro rfl
  exact hother h

/-! ## Numbers -/

section Numbers

variable {mouseState : EngineMouseState} {data mouse : MouseEvent}

/-- In both states a digit goes into the buffer where it fits. -/
theorem inputChar_digit {state : EngineState} (hstate : state = .csiSeq ∨ state = .mouseSeq)
    {char : UInt8} {seq : List UInt8} (hdigit : isDigit char) (hseq : seq.length < maxSeqLength) :
    inputChar char ⟨state, mouseState, seq, data⟩ mouse =
      (KeyCodes.none, ⟨state, mouseState, seq ++ [char], data⟩, mouse) := by
  rw [inputChar]
  rcases hstate with rfl | rfl
  · exact if_pos ⟨hdigit, hseq⟩
  · dsimp only
    rw [if_pos hdigit, if_pos hseq]

theorem inputChar_mouse_full {char : UInt8} {seq : List UInt8} (hdigit : isDigit char)
    (hseq : ¬seq.length < maxSeqLength) :
    inputChar char ⟨.mouseSeq, mouseState, seq, data⟩ mouse =
      (KeyCodes.none, ⟨.csiSeqIgn, mouseState, [], data⟩, mouse) := by
  rw [inputChar]
  dsimp only
  rw [if_pos hdigit, if_neg hseq]
  rfl

/-- The digits of a number that fits. -/
theorem decode_digits {state : EngineState} (hstate : state = .csiSeq ∨ state = .mouseSeq)
    {digits seq : List UInt8} (hdigits : ∀ char ∈ digits, isDigit char)
    (hlength : seq.length + digits.length ≤ maxSeqLength) :
    decode digits (⟨state, mouseState, seq, data⟩, mouse) =
      ([], ⟨state, mouseState, seq ++ digits, data⟩, mouse) := by
  induction digits generalizing seq with
  | nil => rw [List.append_nil, decode]
  | cons char rest ih =>
    rw [List.length_cons] at hlength
    have hchar := hdigits char List.mem_cons_self
    have hrest := @ih (seq ++ [char]) (fun c hc => hdigits c (List.mem_cons_of_mem _ hc))
      (by rw [List.length_append, List.length_singleton]; omega)
    rw [decode_cons, inputChar_digit hstate hchar (by omega), hrest]
    simp

/-- What is ignored of a sequence. -/
theorem decode_ignored {chars seq : List UInt8}
    (hchars : ∀ char ∈ chars, isDigit char ∨ char = EscSeqCodes.csiSep) :
    decode chars (⟨.csiSeqIgn, mouseState, seq, data⟩, mouse) =
      ([], ⟨.csiSeqIgn, mouseState, seq, data⟩, mouse) := by
  induction chars with
  | nil => rfl
  | cons char rest ih =>
    have hchar : ¬(¬isDigit char ∧ char ≠ EscSeqCodes.csiSep) := by
      rintro ⟨hdigit, hsep⟩
      exact (hchars char List.mem_cons_self).elim hdigit hsep
    have hinput : inputChar char ⟨.csiSeqIgn, mouseState, seq, data⟩ mouse =
        (KeyCodes.none, ⟨.csiSeqIgn, mouseState, seq, data⟩, mouse) := by
      rw [inputChar]
      exact if_neg hchar
    rw [decode_cons, hinput, ih fun c hc => hchars c (List.mem_cons_of_mem _ hc)]
    rfl

/-- A number that is too long is ignored, but the mouse state stays. -/
theorem decode_mouse_long {digits seq : List UInt8} (hdigits : ∀ char ∈ digits, isDigit char)
    (hseq : seq.length ≤ maxSeqLength) (hlength : maxSeqLength < seq.length + digits.length) :
    decode digits (⟨.mouseSeq, mouseState, seq, data⟩, mouse) =
      ([], ⟨.csiSeqIgn, mouseState, [], data⟩, mouse) := by
  induction digits generalizing seq with
  | nil =>
    rw [List.length_nil] at hlength
    omega
  | cons char rest ih =>
    rw [List.length_cons] at hlength
    have hchar := hdigits char List.mem_cons_self
    have hrest : ∀ c ∈ rest, isDigit c := fun c hc => hdigits c (List.mem_cons_of_mem _ hc)
    by_cases hfits : seq.length < maxSeqLength
    · have hdecode := @ih (seq ++ [char]) hrest
        (by rw [List.length_append, List.length_singleton]; omega)
        (by rw [List.length_append, List.length_singleton]; omega)
      rw [decode_cons, inputChar_digit (Or.inr rfl) hchar hfits, hdecode]
      rfl
    · rw [decode_cons, inputChar_mouse_full hchar hfits, decode_ignored fun c hc => Or.inl (hrest c hc)]
      rfl

end Numbers

/-! ## Keys -/

theorem keyOf_cases {α : Type} [DecidableEq α] (keys : List (α × UInt32)) (code : α) :
    (∃ entry ∈ keys, entry.1 = code ∧ keyOf keys code = entry.2) ∨
      (∀ entry ∈ keys, entry.1 ≠ code) ∧ keyOf keys code = KeyCodes.none := by
  rw [keyOf]
  cases hfind : keys.find? (·.1 = code) with
  | none =>
    right
    refine ⟨fun entry hentry heq => ?_, rfl⟩
    exact List.find?_eq_none.1 hfind entry hentry (decide_eq_true heq)
  | some entry =>
    left
    exact ⟨entry, List.mem_of_find?_eq_some hfind,
      of_decide_eq_true (List.find?_some (p := fun entry : α × UInt32 => decide (entry.1 = code)) hfind),
      rfl⟩

/-- A key that is no mouse event. -/
def keyOutput (key : UInt32) : List Output := if key = KeyCodes.none then [] else [(key, none)]

theorem output_eq {key : UInt32} (h : key ≠ KeyCodes.mouseEvent) (mouse : MouseEvent) :
    output key mouse = keyOutput key := by
  rw [output, keyOutput, if_neg h]

theorem keyOf_ne_mouseEvent {α : Type} [DecidableEq α] {keys : List (α × UInt32)}
    (h : (keys.all fun entry => entry.2 != KeyCodes.mouseEvent) = true) (code : α) :
    keyOf keys code ≠ KeyCodes.mouseEvent := by
  rcases keyOf_cases keys code with ⟨entry, hentry, -, hkey⟩ | ⟨-, hkey⟩
  · rw [hkey]
    exact bne_iff_ne.1 (List.all_eq_true.1 h entry hentry)
  · rw [hkey]
    decide

/-- The key of a plain character. -/
def plainKey (char : UInt8) : UInt32 :=
  if char = 0x0D ∨ char = 0x0A then KeyCodes.enter
  else if char = 0x09 then KeyCodes.tab
  else if char = 0x7F then KeyCodes.backspace
  else char.toUInt32

theorem plainKey_ne (char : UInt8) :
    plainKey char ≠ KeyCodes.none ∧ plainKey char ≠ KeyCodes.mouseEvent := by
  have hlt : char.toUInt32.toNat < 256 := by
    rw [UInt8.toNat_toUInt32]
    exact char.toNat_lt
  have hne : ∀ key : UInt32, 256 ≤ key.toNat → char.toUInt32 ≠ key := by
    rintro key hkey rfl
    omega
  rw [plainKey]
  split
  · decide
  · split
    · decide
    · split
      · decide
      · exact ⟨hne _ (by decide), hne _ (by decide)⟩

theorem inputChar_plain {char : UInt8} (h : char ≠ EscSeqCodes.esc) {decoder : Decoder}
    (hstate : decoder.state = .direct) (mouse : MouseEvent) :
    inputChar char decoder mouse = (plainKey char, decoder, mouse) := by
  rw [inputChar, hstate, plainKey]
  dsimp only
  rw [if_neg h]
  split
  · rfl
  · split
    · rfl
    · split <;> rfl

/-! ## Units without a mouse report -/

/-- A unit that leaves the decoder as it was, and decodes to the same in every mouse state. -/
def Uniform (bytes : List UInt8) (outputs : List Output) : Prop :=
  ∀ mouseState data mouse, decode bytes (⟨.direct, mouseState, [], data⟩, mouse) =
    (outputs, ⟨.direct, mouseState, [], data⟩, mouse)

theorem decode_plain (char : { char : UInt8 // char ≠ EscSeqCodes.esc }) :
    Uniform [char.val] (keyOutput (plainKey char.val)) := by
  intro mouseState data mouse
  rw [decode_cons, inputChar_plain char.property rfl]
  dsimp only
  rw [output_eq (plainKey_ne _).2, decode, List.append_nil]

theorem decode_ss3 (char : UInt8) :
    Uniform [EscSeqCodes.esc, EscSeqCodes.ss3, char] (keyOutput (keyOf ss3Keys char)) := by
  intro mouseState data mouse
  have hkey : keyOf ss3Keys char ≠ KeyCodes.mouseEvent := keyOf_ne_mouseEvent (by decide) char
  have hstart : decode [EscSeqCodes.esc, EscSeqCodes.ss3] (⟨.direct, mouseState, [], data⟩, mouse) =
      ([], ⟨.ss3Seq, mouseState, [], data⟩, mouse) := rfl
  have hsplit : [EscSeqCodes.esc, EscSeqCodes.ss3, char] = [EscSeqCodes.esc, EscSeqCodes.ss3] ++ [char] := rfl
  rw [hsplit, decode_append, hstart, decode_cons, inputChar]
  dsimp only [Decoder.resetState]
  rw [output_eq hkey, decode, List.append_nil, List.nil_append]

/-- The key of a sequence with parameters that fit. -/
def csiKey (params : List UInt8) (final : UInt8) : UInt32 :=
  if params = [] then keyOf cursorKeys final
  else if final = EscSeqCodes.funcTerm then keyOf funcKeys params
  else KeyCodes.none

theorem csiKey_ne (params : List UInt8) (final : UInt8) : csiKey params final ≠ KeyCodes.mouseEvent := by
  rw [csiKey]
  split
  · exact keyOf_ne_mouseEvent (by decide) final
  · split
    · exact keyOf_ne_mouseEvent (by decide) params
    · decide

theorem decode_start (mouseState : EngineMouseState) (data mouse : MouseEvent) :
    decode [EscSeqCodes.esc, EscSeqCodes.csi] (⟨.direct, mouseState, [], data⟩, mouse) =
      ([], ⟨.csiSeq, mouseState, [], data⟩, mouse) := rfl

theorem not_isDigit_final {final : UInt8} (h : 0x40 ≤ final ∧ final ≤ 0x7E) : ¬isDigit final := by
  rintro ⟨-, hle⟩
  exact absurd (UInt8.le_trans h.1 hle) (by decide)

theorem decode_csi {params : List UInt8} (hdigits : ∀ char ∈ params, isDigit char)
    (hlength : params.length ≤ maxSeqLength) {final : UInt8} (hfinal : 0x40 ≤ final ∧ final ≤ 0x7E) :
    Uniform (EscSeqCodes.esc :: EscSeqCodes.csi :: (params ++ [final]))
      (keyOutput (csiKey params final)) := by
  intro mouseState data mouse
  have hmouse : final ≠ EscSeqCodes.mouseEvent := by
    rintro rfl
    exact absurd hfinal.1 (by decide)
  have hlast : inputChar final ⟨.csiSeq, mouseState, params, data⟩ mouse =
      (csiKey params final, ⟨.direct, mouseState, [], data⟩, mouse) := by
    rw [inputChar, csiKey]
    dsimp only
    rw [if_neg fun h => not_isDigit_final hfinal h.1]
    by_cases hparams : params = []
    · subst hparams
      rw [if_pos List.length_nil, if_neg hmouse, if_pos rfl]
      rfl
    · rw [if_neg (mt List.eq_nil_of_length_eq_zero hparams), if_neg hparams]
      rfl
  have hsplit : EscSeqCodes.esc :: EscSeqCodes.csi :: (params ++ [final]) =
      [EscSeqCodes.esc, EscSeqCodes.csi] ++ (params ++ [final]) := rfl
  rw [hsplit, decode_append, decode_start]
  dsimp only
  rw [decode_append, decode_digits (Or.inl rfl) hdigits (by simpa using hlength)]
  dsimp only [List.nil_append]
  rw [decode_cons, hlast]
  dsimp only
  rw [output_eq (csiKey_ne _ _), decode, List.append_nil]

/-- Plain characters keep the decoder in the state for them. -/
theorem decode_direct {chars : List UInt8} (hchars : ∀ char ∈ chars, char ≠ EscSeqCodes.esc)
    {s : Decoder × MouseEvent} (hstate : s.1.state = .direct) :
    (decode chars s).2.1.state = .direct := by
  induction chars generalizing s with
  | nil => exact hstate
  | cons char rest ih =>
    rw [decode_cons, inputChar_plain (hchars char List.mem_cons_self) hstate]
    exact ih (fun c hc => hchars c (List.mem_cons_of_mem _ hc)) hstate

/-- A separator, or a digit that does not fit, ends the sequence. -/
theorem decode_csi_state {chars seq : List UInt8} {mouseState : EngineMouseState} {data mouse : MouseEvent}
    (hchars : ∀ char ∈ chars, isDigit char ∨ char = EscSeqCodes.csiSep)
    (h : ¬(EscSeqCodes.csiSep ∉ chars ∧ seq.length + chars.length ≤ maxSeqLength))
    (hseq : seq.length ≤ maxSeqLength) :
    (decode chars (⟨.csiSeq, mouseState, seq, data⟩, mouse)).2.1.state = .direct := by
  induction chars generalizing seq with
  | nil => exact absurd ⟨List.not_mem_nil, hseq⟩ h
  | cons char rest ih =>
    have hrest : ∀ c ∈ rest, isDigit c ∨ c = EscSeqCodes.csiSep :=
      fun c hc => hchars c (List.mem_cons_of_mem _ hc)
    by_cases hpush : isDigit char ∧ seq.length < maxSeqLength
    · rw [decode_cons, inputChar_digit (Or.inl rfl) hpush.1 hpush.2]
      apply ih hrest
      · rintro ⟨hsep, hlength⟩
        apply h
        rw [List.length_append, List.length_singleton] at hlength
        refine ⟨?_, by rw [List.length_cons]; omega⟩
        rw [List.mem_cons, not_or]
        exact ⟨(digit_ne hpush.1 (by decide)).symm, hsep⟩
      · rw [List.length_append, List.length_singleton]
        exact hpush.2
    · have hmouse : char ≠ EscSeqCodes.mouseEvent := by
        rcases hchars char List.mem_cons_self with hdigit | rfl
        · exact digit_ne hdigit (by decide)
        · decide
      have hne : ∀ c ∈ rest, c ≠ EscSeqCodes.esc := by
        intro c hc
        rcases hrest c hc with hdigit | rfl
        · exact digit_ne hdigit (by decide)
        · decide
      rw [decode_cons]
      apply decode_direct hne
      rw [inputChar]
      dsimp only
      rw [if_neg hpush]
      split
      · rfl
      · rfl

/-- What is behind the end of a sequence is decoded as plain characters. -/
theorem decode_csi_tail {params : List UInt8}
    (hparams : ∀ char ∈ params, isDigit char ∨ char = EscSeqCodes.csiSep)
    (h : ¬(EscSeqCodes.csiSep ∉ params ∧ params.length ≤ maxSeqLength)) {final : UInt8}
    (hfinal : 0x40 ≤ final ∧ final ≤ 0x7E) (s : MouseEvent) (mouseState : EngineMouseState)
    (data : MouseEvent) :
    (decode (EscSeqCodes.esc :: EscSeqCodes.csi :: (params ++ [final]))
      (⟨.direct, mouseState, [], data⟩, s)).1 ≠ [] := by
  have hesc : final ≠ EscSeqCodes.esc := by
    rintro rfl
    exact absurd hfinal.1 (by decide)
  have hstate := @decode_csi_state params [] mouseState data s hparams (by simpa using h) (Nat.zero_le _)
  have hsplit : EscSeqCodes.esc :: EscSeqCodes.csi :: (params ++ [final]) =
      [EscSeqCodes.esc, EscSeqCodes.csi] ++ (params ++ [final]) := rfl
  rw [hsplit, decode_append, decode_start, decode_append, decode_cons, inputChar_plain hesc hstate]
  dsimp only
  rw [output_eq (plainKey_ne final).2, keyOutput, if_neg (plainKey_ne final).1]
  simp

/-! ## Mouse reports -/

/-- Some input leads from a state to the one for plain characters, with a mouse state. -/
def Decodes (bytes : List UInt8) (s : Decoder × MouseEvent) (outputs : List Output)
    (mouseState : EngineMouseState) : Prop :=
  ∃ data mouse, decode bytes s = (outputs, ⟨.direct, mouseState, [], data⟩, mouse)

theorem Decodes.append {front rest : List UInt8} {s s' : Decoder × MouseEvent} {outputs : List Output}
    {mouseState : EngineMouseState} (hfront : decode front s = ([], s'))
    (h : Decodes rest s' outputs mouseState) : Decodes (front ++ rest) s outputs mouseState := by
  obtain ⟨data, mouse, hrest⟩ := h
  refine ⟨data, mouse, ?_⟩
  rw [decode_append, hfront, hrest, List.nil_append]

theorem Decodes.cons {char : UInt8} {rest : List UInt8} {decoder decoder' : Decoder}
    {mouse mouse' : MouseEvent} {outputs : List Output} {mouseState : EngineMouseState}
    (hchar : inputChar char decoder mouse = (KeyCodes.none, decoder', mouse'))
    (h : Decodes rest (decoder', mouse') outputs mouseState) :
    Decodes (char :: rest) (decoder, mouse) outputs mouseState := by
  obtain ⟨data, mouse, hrest⟩ := h
  refine ⟨data, mouse, ?_⟩
  rw [decode_cons, hchar]
  dsimp only
  rw [hrest]
  rfl

/-- The last character of a mouse report. -/
def releaseChar (release : Bool) : UInt8 :=
  if release then EscSeqCodes.mouseRelease else EscSeqCodes.mouseDown

/-- The rest of a report that is ignored. -/
theorem decodes_ignored {chars seq : List UInt8}
    (hchars : ∀ char ∈ chars, isDigit char ∨ char = EscSeqCodes.csiSep) (release : Bool)
    (mouseState : EngineMouseState) (data mouse : MouseEvent) :
    Decodes (chars ++ [releaseChar release]) (⟨.csiSeqIgn, mouseState, seq, data⟩, mouse) []
      mouseState := by
  apply Decodes.append (decode_ignored hchars)
  refine ⟨data, mouse, ?_⟩
  cases release <;> rfl

theorem inputChar_sep {mouseState : EngineMouseState} {seq : List UInt8} {data mouse : MouseEvent} :
    inputChar EscSeqCodes.csiSep ⟨.mouseSeq, mouseState, seq, data⟩ mouse =
      updateMouseEvent EscSeqCodes.csiSep ⟨.mouseSeq, mouseState, seq, data⟩ mouse := by
  rw [inputChar]
  exact if_neg (by decide)

/-- A number that does not fit into the buffer. -/
def TooLong (number : Number) : Prop := maxSeqLength < number.val.length

instance (number : Number) : Decidable (TooLong number) := inferInstanceAs (Decidable (_ < _))

section Report

variable {data mouse : MouseEvent}

/-- A number that is too long leaves the mouse state as it is. -/
theorem decodes_long {number : Number} (h : TooLong number) {chars : List UInt8}
    (hchars : ∀ char ∈ chars, isDigit char ∨ char = EscSeqCodes.csiSep) (release : Bool)
    (mouseState : EngineMouseState) :
    Decodes (number.val ++ (chars ++ [releaseChar release])) (⟨.mouseSeq, mouseState, [], data⟩, mouse) []
      mouseState :=
  Decodes.append (decode_mouse_long number.property (Nat.zero_le _) (by simpa [TooLong] using h))
    (decodes_ignored hchars release mouseState data mouse)

theorem decode_fits {number : Number} (h : ¬TooLong number) (mouseState : EngineMouseState) :
    decode number.val (⟨.mouseSeq, mouseState, [], data⟩, mouse) =
      ([], ⟨.mouseSeq, mouseState, number.val, data⟩, mouse) :=
  decode_digits (Or.inr rfl) number.property (by simpa [TooLong] using h)

/-- What the row of a report gives. -/
def rowOutput (data : MouseEvent) (row : Number) (release : Bool) : List Output :=
  if TooLong row then [] else [(KeyCodes.mouseEvent, some (rowEvent data row.val (releaseChar release)))]

def rowState (row : Number) : EngineMouseState := if TooLong row then .coordRow else .initial

theorem decodes_row (row : Number) (release : Bool) :
    Decodes (row.val ++ [releaseChar release]) (⟨.mouseSeq, .coordRow, [], data⟩, mouse)
      (rowOutput data row release) (rowState row) := by
  rw [rowOutput, rowState]
  by_cases hrow : TooLong row
  · rw [if_pos hrow, if_pos hrow]
    exact decodes_long hrow (nofun : ∀ char ∈ [], _) release .coordRow
  · rw [if_neg hrow, if_neg hrow]
    apply Decodes.append (decode_fits hrow .coordRow)
    refine ⟨resetMouseEventData, rowEvent data row.val (releaseChar release), ?_⟩
    cases release <;> rfl

/-- The bytes behind the button. -/
def columnBytes (column row : Number) : List UInt8 := column.val ++ EscSeqCodes.csiSep :: row.val

theorem columnBytes_chars (column row : Number) :
    ∀ char ∈ columnBytes column row, isDigit char ∨ char = EscSeqCodes.csiSep := by
  intro char hchar
  rcases List.mem_append.1 hchar with hchar | hchar
  · exact Or.inl (column.property char hchar)
  · rcases List.mem_cons.1 hchar with rfl | hchar
    · exact Or.inr rfl
    · exact Or.inl (row.property char hchar)

theorem rowBytes_chars (row : Number) :
    ∀ char ∈ row.val, isDigit char ∨ char = EscSeqCodes.csiSep :=
  fun char hchar => Or.inl (row.property char hchar)

theorem sepBytes_chars {chars : List UInt8}
    (h : ∀ char ∈ chars, isDigit char ∨ char = EscSeqCodes.csiSep) :
    ∀ char ∈ EscSeqCodes.csiSep :: chars, isDigit char ∨ char = EscSeqCodes.csiSep :=
  List.forall_mem_cons.2 ⟨Or.inr rfl, h⟩

/-- What the column and the row of a report give. -/
def columnOutput (data : MouseEvent) (column row : Number) (release : Bool) : List Output :=
  if TooLong column then []
  else
    match parseUnsignedInt16 column.val with
    | none => []
    | some coordColumn => rowOutput { data with coordColumn } row release

def columnState (column row : Number) : EngineMouseState :=
  if TooLong column then .coordCol
  else
    match parseUnsignedInt16 column.val with
    | none => .initial
    | some _ => rowState row

/-- In the state for a column, a separator takes the number for one. -/
theorem decodes_column_sep {number : Number} {chars : List UInt8}
    (hchars : ∀ char ∈ chars, isDigit char ∨ char = EscSeqCodes.csiSep) (release : Bool)
    {outputs : Nat → List Output} {after : EngineMouseState}
    (hrest : ∀ coordColumn, Decodes (chars ++ [releaseChar release])
      (⟨.mouseSeq, .coordRow, [], { data with coordColumn }⟩, mouse) (outputs coordColumn) after) :
    Decodes (number.val ++ (EscSeqCodes.csiSep :: chars ++ [releaseChar release]))
      (⟨.mouseSeq, .coordCol, [], data⟩, mouse)
      (if TooLong number then []
        else
          match parseUnsignedInt16 number.val with
          | none => []
          | some coordColumn => outputs coordColumn)
      (if TooLong number then .coordCol
        else
          match parseUnsignedInt16 number.val with
          | none => .initial
          | some _ => after) := by
  by_cases hnumber : TooLong number
  · rw [if_pos hnumber, if_pos hnumber]
    exact decodes_long hnumber (sepBytes_chars hchars) release .coordCol
  · rw [if_neg hnumber, if_neg hnumber]
    apply Decodes.append (decode_fits hnumber .coordCol)
    cases hparse : parseUnsignedInt16 number.val with
    | none =>
      have hsep : inputChar EscSeqCodes.csiSep ⟨.mouseSeq, .coordCol, number.val, data⟩ mouse =
          (KeyCodes.none, ⟨.csiSeqIgn, .initial, number.val, resetMouseEventData⟩, mouse) := by
        rw [inputChar_sep, updateMouseEvent]
        dsimp only
        rw [if_pos rfl, hparse]
        rfl
      exact Decodes.cons hsep (decodes_ignored hchars release .initial _ mouse)
    | some coordColumn =>
      have hsep : inputChar EscSeqCodes.csiSep ⟨.mouseSeq, .coordCol, number.val, data⟩ mouse =
          (KeyCodes.none, ⟨.mouseSeq, .coordRow, [], { data with coordColumn }⟩, mouse) := by
        rw [inputChar_sep, updateMouseEvent]
        dsimp only
        rw [if_pos rfl, hparse]
      exact Decodes.cons hsep (hrest coordColumn)

theorem decodes_column (column row : Number) (release : Bool) :
    Decodes (column.val ++ (EscSeqCodes.csiSep :: row.val ++ [releaseChar release]))
      (⟨.mouseSeq, .coordCol, [], data⟩, mouse) (columnOutput data column row release)
      (columnState column row) :=
  decodes_column_sep (rowBytes_chars row) release fun _ => decodes_row row release

/-- In the state for a row, a separator ends the report. -/
theorem decodes_row_sep {number : Number} {chars : List UInt8}
    (hchars : ∀ char ∈ chars, isDigit char ∨ char = EscSeqCodes.csiSep) (release : Bool) :
    Decodes (number.val ++ (EscSeqCodes.csiSep :: chars ++ [releaseChar release]))
      (⟨.mouseSeq, .coordRow, [], data⟩, mouse) []
      (if TooLong number then .coordRow else .initial) := by
  by_cases hnumber : TooLong number
  · rw [if_pos hnumber]
    exact decodes_long hnumber (sepBytes_chars hchars) release .coordRow
  · rw [if_neg hnumber]
    apply Decodes.append (decode_fits hnumber .coordRow)
    have hsep : inputChar EscSeqCodes.csiSep ⟨.mouseSeq, .coordRow, number.val, data⟩ mouse =
        (KeyCodes.none, ⟨.csiSeqIgn, .initial, number.val, resetMouseEventData⟩, mouse) := by
      rw [inputChar_sep]
      rfl
    exact Decodes.cons hsep (decodes_ignored hchars release .initial _ mouse)

/-- What a report gives where no other one is pending. -/
def mouseOutput (button column row : Number) (release : Bool) : List Output :=
  if TooLong button then []
  else
    match parseUnsignedInt8 button.val with
    | none => []
    | some action => columnOutput (actionEvent action) column row release

/-- The mouse state behind a report. -/
def mouseStateAfter (button column row : Number) : EngineMouseState → EngineMouseState
  | .initial =>
    if TooLong button then .initial
    else
      match parseUnsignedInt8 button.val with
      | none => .initial
      | some _ => columnState column row
  | .coordCol =>
    if TooLong button then .coordCol
    else
      match parseUnsignedInt16 button.val with
      | none => .initial
      | some _ => if TooLong column then .coordRow else .initial
  | .coordRow => if TooLong button then .coordRow else .initial

theorem columnBytes_append (column row : Number) (release : Bool) :
    columnBytes column row ++ [releaseChar release] =
      column.val ++ (EscSeqCodes.csiSep :: row.val ++ [releaseChar release]) := by
  simp [columnBytes]

/-- The report where no other one is pending. -/
theorem decodes_button_initial (button column row : Number) (release : Bool) :
    Decodes (button.val ++ (EscSeqCodes.csiSep :: columnBytes column row ++ [releaseChar release]))
      (⟨.mouseSeq, .initial, [], data⟩, mouse) (mouseOutput button column row release)
      (mouseStateAfter button column row .initial) := by
  rw [mouseOutput, mouseStateAfter]
  by_cases hbutton : TooLong button
  · rw [if_pos hbutton, if_pos hbutton]
    exact decodes_long hbutton (sepBytes_chars (columnBytes_chars column row)) release .initial
  · rw [if_neg hbutton, if_neg hbutton]
    apply Decodes.append (decode_fits hbutton .initial)
    cases hparse : parseUnsignedInt8 button.val with
    | none =>
      have hsep : inputChar EscSeqCodes.csiSep ⟨.mouseSeq, .initial, button.val, data⟩ mouse =
          (KeyCodes.none, ⟨.csiSeqIgn, .initial, button.val, resetMouseEventData⟩, mouse) := by
        rw [inputChar_sep, updateMouseEvent]
        dsimp only
        rw [if_pos rfl, hparse]
        rfl
      exact Decodes.cons hsep
        (decodes_ignored (columnBytes_chars column row) release .initial _ mouse)
    | some action =>
      have hsep : inputChar EscSeqCodes.csiSep ⟨.mouseSeq, .initial, button.val, data⟩ mouse =
          (KeyCodes.none, ⟨.mouseSeq, .coordCol, [], actionEvent action⟩, mouse) := by
        rw [inputChar_sep, updateMouseEvent]
        dsimp only
        rw [if_pos rfl, hparse]
      apply Decodes.cons hsep
      change Decodes (columnBytes column row ++ [releaseChar release]) _ _ _
      rw [columnBytes_append]
      exact decodes_column column row release

/-- The report in every mouse state: one that is pending takes the button for its own number. -/
theorem decodes_button (button column row : Number) (release : Bool) (mouseState : EngineMouseState) :
    Decodes (button.val ++ (EscSeqCodes.csiSep :: columnBytes column row ++ [releaseChar release]))
      (⟨.mouseSeq, mouseState, [], data⟩, mouse)
      (if mouseState = .initial then mouseOutput button column row release else [])
      (mouseStateAfter button column row mouseState) := by
  cases mouseState with
  | initial =>
    rw [if_pos rfl]
    exact decodes_button_initial button column row release
  | coordCol =>
    have hnone : (if TooLong button then ([] : List Output)
        else
          match parseUnsignedInt16 button.val with
          | none => []
          | some _ => []) = [] := by
      split
      · rfl
      · split <;> rfl
    rw [if_neg nofun, mouseStateAfter, ← hnone]
    apply decodes_column_sep (columnBytes_chars column row) release
    intro coordColumn
    rw [columnBytes_append]
    exact decodes_row_sep (rowBytes_chars row) release
  | coordRow =>
    rw [if_neg nofun, mouseStateAfter]
    exact decodes_row_sep (columnBytes_chars column row) release

theorem decode_mouse (button column row : Number) (release : Bool) (mouseState : EngineMouseState) :
    Decodes (Sequence.mouse button column row release).bytes (⟨.direct, mouseState, [], data⟩, mouse)
      (if mouseState = .initial then mouseOutput button column row release else [])
      (mouseStateAfter button column row mouseState) := by
  have hstart : decode [EscSeqCodes.esc, EscSeqCodes.csi, EscSeqCodes.mouseEvent]
      (⟨.direct, mouseState, [], data⟩, mouse) = ([], ⟨.mouseSeq, mouseState, [], data⟩, mouse) := rfl
  have hbytes : (Sequence.mouse button column row release).bytes =
      [EscSeqCodes.esc, EscSeqCodes.csi, EscSeqCodes.mouseEvent] ++
        (button.val ++ (EscSeqCodes.csiSep :: columnBytes column row ++ [releaseChar release])) := by
    simp [Sequence.bytes, columnBytes, releaseChar]
  rw [hbytes]
  exact Decodes.append hstart (decodes_button button column row release mouseState)

end Report

/-! ## Sequences of units -/

/-- A sequence with parameters that the buffer takes as one number. -/
def Sequence.Fits : Sequence → Prop
  | .csi params _ => EscSeqCodes.csiSep ∉ paramBytes params ∧ (paramBytes params).length ≤ maxSeqLength
  | _ => True

/-- The mouse state behind a unit. -/
def Sequence.mouseStateAfter (mouseState : EngineMouseState) : Sequence → EngineMouseState
  | .mouse button column row _ => InputDecoder.mouseStateAfter button column row mouseState
  | _ => mouseState

/-- A mouse report that gives an event: its button and its column are numbers, and its row fits. -/
def Sequence.GivesEvent : Sequence → Prop
  | .mouse button column row _ =>
    ¬TooLong button ∧ (parseUnsignedInt8 button.val).isSome ∧ ¬TooLong column ∧
      (parseUnsignedInt16 column.val).isSome ∧ ¬TooLong row
  | _ => False

theorem paramBytes_chars (params : List Number) :
    ∀ char ∈ paramBytes params, isDigit char ∨ char = EscSeqCodes.csiSep := by
  induction params with
  | nil => exact nofun
  | cons number rest ih =>
    cases rest with
    | nil => exact rowBytes_chars number
    | cons next rest =>
      intro char hchar
      rcases List.mem_append.1 hchar with hchar | hchar
      · exact Or.inl (number.property char hchar)
      · exact sepBytes_chars ih char hchar

theorem paramBytes_digits {params : List Number} (h : EscSeqCodes.csiSep ∉ paramBytes params) :
    ∀ char ∈ paramBytes params, isDigit char := by
  intro char hchar
  apply (paramBytes_chars params char hchar).resolve_right
  rintro rfl
  exact h hchar

/-- What a unit that fits gives in a mouse state. -/
def Sequence.outputs (mouseState : EngineMouseState) : Sequence → List Output
  | .plain char => keyOutput (plainKey char.val)
  | .ss3 char => keyOutput (keyOf ss3Keys char)
  | .csi params final => keyOutput (csiKey (paramBytes params) final.val)
  | .mouse button column row release =>
    if mouseState = .initial then mouseOutput button column row release else []

theorem decode_sequence {sequence : Sequence} (hfits : sequence.Fits) (mouseState : EngineMouseState)
    (data mouse : MouseEvent) :
    Decodes sequence.bytes (⟨.direct, mouseState, [], data⟩, mouse) (sequence.outputs mouseState)
      (sequence.mouseStateAfter mouseState) := by
  cases sequence with
  | plain char => exact ⟨data, mouse, decode_plain char mouseState data mouse⟩
  | ss3 char => exact ⟨data, mouse, decode_ss3 char mouseState data mouse⟩
  | csi params final =>
    exact ⟨data, mouse, decode_csi (paramBytes_digits hfits.1) hfits.2 final.property mouseState data mouse⟩
  | mouse button column row release => exact decode_mouse button column row release mouseState

theorem alone_eq {sequence : Sequence} (hfits : sequence.Fits) :
    sequence.alone = sequence.outputs .initial := by
  obtain ⟨data, mouse, hdecode⟩ :=
    decode_sequence hfits .initial resetMouseEventData resetMouseEventData
  rw [Sequence.alone, fresh, hdecode]

/-- What some units give, one behind the other. -/
def outputsFrom (mouseState : EngineMouseState) : List Sequence → List Output
  | [] => []
  | sequence :: rest =>
    sequence.outputs mouseState ++ outputsFrom (sequence.mouseStateAfter mouseState) rest

theorem decode_sequences {sequences : List Sequence} (hfits : ∀ sequence ∈ sequences, sequence.Fits)
    (mouseState : EngineMouseState) (data mouse : MouseEvent) :
    (decode (sequences.flatMap Sequence.bytes) (⟨.direct, mouseState, [], data⟩, mouse)).1 =
      outputsFrom mouseState sequences := by
  induction sequences generalizing mouseState data mouse with
  | nil => rfl
  | cons sequence rest ih =>
    obtain ⟨data', mouse', hdecode⟩ :=
      decode_sequence (hfits sequence List.mem_cons_self) mouseState data mouse
    have hrest := ih fun s hs => hfits s (List.mem_cons_of_mem _ hs)
    rw [List.flatMap_cons, decode_append, hdecode, outputsFrom]
    dsimp only
    rw [hrest]

theorem rowOutput_eq_nil {data : MouseEvent} {row : Number} {release : Bool} :
    rowOutput data row release = [] ↔ TooLong row := by
  rw [rowOutput]
  split
  · next h => exact iff_of_true rfl h
  · next h => exact iff_of_false nofun h

theorem mouseOutput_eq_nil {button column row : Number} {release : Bool} :
    mouseOutput button column row release = [] ↔
      ¬(Sequence.mouse button column row release).GivesEvent := by
  rw [mouseOutput, Sequence.GivesEvent]
  by_cases hbutton : TooLong button
  · rw [if_pos hbutton]
    exact iff_of_true rfl fun h => h.1 hbutton
  · rw [if_neg hbutton]
    cases hparse : parseUnsignedInt8 button.val with
    | none => exact iff_of_true rfl fun h => Bool.false_ne_true h.2.1
    | some action =>
      dsimp only
      rw [columnOutput]
      by_cases hcolumn : TooLong column
      · rw [if_pos hcolumn]
        exact iff_of_true rfl fun h => h.2.2.1 hcolumn
      · rw [if_neg hcolumn]
        cases hcoord : parseUnsignedInt16 column.val with
        | none => exact iff_of_true rfl fun h => Bool.false_ne_true h.2.2.2.1
        | some coordColumn =>
          dsimp only
          rw [rowOutput_eq_nil]
          simp [hbutton, hcolumn]

/-- A unit gives the same in every mouse state, but for a report that gives an event. -/
theorem outputs_eq_iff (sequence : Sequence) (mouseState : EngineMouseState) :
    sequence.outputs mouseState = sequence.outputs .initial ↔
      (sequence.GivesEvent → mouseState = .initial) := by
  cases sequence with
  | plain char => exact iff_of_true rfl nofun
  | ss3 char => exact iff_of_true rfl nofun
  | csi params final => exact iff_of_true rfl nofun
  | mouse button column row release =>
    rw [Sequence.outputs, Sequence.outputs, if_pos rfl]
    by_cases hstate : mouseState = .initial
    · rw [if_pos hstate]
      exact iff_of_true rfl fun _ => hstate
    · rw [if_neg hstate, eq_comm, mouseOutput_eq_nil]
      exact ⟨fun hno h => absurd h hno, fun h hgives => hstate (h hgives)⟩

theorem outputs_length_le (sequence : Sequence) (mouseState : EngineMouseState) :
    (sequence.outputs mouseState).length ≤ (sequence.outputs .initial).length := by
  cases sequence with
  | plain char => exact Nat.le_refl _
  | ss3 char => exact Nat.le_refl _
  | csi params final => exact Nat.le_refl _
  | mouse button column row release =>
    rw [Sequence.outputs, Sequence.outputs, if_pos rfl]
    split
    · exact Nat.le_refl _
    · exact Nat.zero_le _

theorem outputsFrom_length_le (mouseState : EngineMouseState) (sequences : List Sequence) :
    (outputsFrom mouseState sequences).length ≤
      (sequences.flatMap (Sequence.outputs .initial)).length := by
  induction sequences generalizing mouseState with
  | nil => exact Nat.le_refl _
  | cons sequence rest ih =>
    rw [outputsFrom, List.flatMap_cons, List.length_append, List.length_append]
    exact Nat.add_le_add (outputs_length_le sequence mouseState) (ih _)

/-- No event is lost: at each report that gives one, no earlier report is pending. -/
def NoneLost (mouseState : EngineMouseState) (sequences : List Sequence) : Prop :=
  ∀ front sequence rest, sequences = front ++ sequence :: rest → sequence.GivesEvent →
    front.foldl Sequence.mouseStateAfter mouseState = .initial

theorem noneLost_cons {mouseState : EngineMouseState} {sequence : Sequence} {rest : List Sequence} :
    NoneLost mouseState (sequence :: rest) ↔
      (sequence.GivesEvent → mouseState = .initial) ∧
        NoneLost (sequence.mouseStateAfter mouseState) rest := by
  constructor
  · intro h
    refine ⟨h [] sequence rest rfl, ?_⟩
    rintro front sequence' rest' rfl hgives
    exact h (sequence :: front) sequence' rest' rfl hgives
  · rintro ⟨hfirst, hrest⟩ front sequence' rest' heq hgives
    cases front with
    | nil =>
      obtain ⟨rfl, -⟩ := List.cons_eq_cons.1 heq
      exact hfirst hgives
    | cons first front =>
      obtain ⟨rfl, rfl⟩ := List.cons_eq_cons.1 heq
      exact hrest front sequence' rest' rfl hgives

theorem outputsFrom_iff (mouseState : EngineMouseState) (sequences : List Sequence) :
    outputsFrom mouseState sequences = sequences.flatMap (Sequence.outputs .initial) ↔
      NoneLost mouseState sequences := by
  induction sequences generalizing mouseState with
  | nil =>
    refine iff_of_true rfl ?_
    intro front sequence rest heq
    simp at heq
  | cons sequence rest ih =>
    rw [outputsFrom, List.flatMap_cons, noneLost_cons, ← outputs_eq_iff, ← ih]
    constructor
    · intro heq
      have hlength := congrArg List.length heq
      have hfirst := outputs_length_le sequence mouseState
      have hrest := outputsFrom_length_le (sequence.mouseStateAfter mouseState) rest
      rw [List.length_append, List.length_append] at hlength
      exact List.append_inj heq (by omega)
    · rintro ⟨hfirst, hrest⟩
      rw [hfirst, hrest]

/-- A sequence that does not fit has no meaning, and it gives keys. -/
theorem not_recognised {sequence : Sequence} (h : ¬sequence.Fits) :
    ¬sequence.Recognised ∧ sequence.alone ≠ [] := by
  cases sequence with
  | plain char => exact absurd trivial h
  | ss3 char => exact absurd trivial h
  | mouse button column row release => exact absurd trivial h
  | csi params final =>
    refine ⟨?_, decode_csi_tail (paramBytes_chars params) h final.property _ _ _⟩
    rintro (⟨hparams, -⟩ | ⟨-, entry, hentry, hparams⟩)
    · apply h
      rw [Sequence.Fits, hparams]
      exact ⟨List.not_mem_nil, Nat.zero_le _⟩
    · apply h
      have hkeys : ∀ entry ∈ funcKeys, EscSeqCodes.csiSep ∉ entry.1 ∧ entry.1.length ≤ maxSeqLength := by
        decide
      rw [Sequence.Fits, ← hparams]
      exact hkeys entry hentry

/-- A sequence that fits and has no meaning gives nothing. -/
theorem alone_eq_nil {sequence : Sequence} (hfits : sequence.Fits) (h : ¬sequence.Recognised) :
    sequence.alone = [] := by
  rw [alone_eq hfits]
  cases sequence with
  | plain char => exact absurd trivial h
  | mouse button column row release => exact absurd trivial h
  | ss3 char =>
    rw [Sequence.outputs]
    rcases keyOf_cases ss3Keys char with ⟨entry, hentry, hcode, -⟩ | ⟨-, hkey⟩
    · exact absurd ⟨entry, hentry, hcode⟩ h
    · rw [hkey]
      rfl
  | csi params final =>
    rw [Sequence.outputs, csiKey]
    split
    · next hparams =>
      rcases keyOf_cases cursorKeys final.val with ⟨entry, hentry, hcode, -⟩ | ⟨-, hkey⟩
      · exact absurd (Or.inl ⟨hparams, entry, hentry, hcode⟩) h
      · rw [hkey]
        rfl
    · split
      · next hfinal =>
        rcases keyOf_cases funcKeys (paramBytes params) with ⟨entry, hentry, hcode, -⟩ | ⟨-, hkey⟩
        · exact absurd (Or.inr ⟨hfinal, entry, hentry, hcode⟩) h
        · rw [hkey]
          rfl
      · rfl

/-- Input decodes unit by unit, without keys for what has no meaning and within the bound of the buffer. -/
structure Compositional (sequences : List Sequence) : Prop where
  concat : (decode (sequences.flatMap Sequence.bytes) fresh).1 = sequences.flatMap Sequence.alone
  unrecognised : ∀ sequence ∈ sequences, ¬sequence.Recognised → sequence.alone = []
  bounded : ∀ input, input <+: sequences.flatMap Sequence.bytes →
    (decode input fresh).2.1.savedSeq.length ≤ maxSeqLength

/-- Input decodes unit by unit where each sequence fits, and no report that gives an event comes while an
    earlier one is pending. -/
theorem compositional_iff (sequences : List Sequence) :
    Compositional sequences ↔
      (∀ sequence ∈ sequences, sequence.Fits) ∧ NoneLost .initial sequences := by
  have hconcat : (∀ sequence ∈ sequences, sequence.Fits) →
      ((decode (sequences.flatMap Sequence.bytes) fresh).1 = sequences.flatMap Sequence.alone ↔
        NoneLost .initial sequences) := by
    intro hfits
    have halone : sequences.flatMap Sequence.alone = sequences.flatMap (Sequence.outputs .initial) :=
      List.flatMap_congr fun sequence hsequence => alone_eq (hfits sequence hsequence)
    rw [halone, fresh, decode_sequences hfits]
    exact outputsFrom_iff .initial sequences
  constructor
  · intro h
    have hfits : ∀ sequence ∈ sequences, sequence.Fits := by
      intro sequence hsequence
      by_contra hfits
      obtain ⟨hrecognised, halone⟩ := not_recognised hfits
      exact halone (h.unrecognised sequence hsequence hrecognised)
    exact ⟨hfits, (hconcat hfits).1 h.concat⟩
  · rintro ⟨hfits, hnone⟩
    exact ⟨(hconcat hfits).2 hnone,
      fun sequence hsequence hrecognised => alone_eq_nil (hfits sequence hsequence) hrecognised,
      fun input _ => decode_savedSeq (Nat.zero_le _) input⟩

/-- The digits of a number below ten. -/
def digit (n : Nat) (h : n < 10) : Number :=
  ⟨[UInt8.ofNat (0x30 + n)], by
    have hdigit : ∀ n < 10, isDigit (UInt8.ofNat (0x30 + n)) := by decide
    intro char hchar
    rw [List.mem_singleton.1 hchar]
    exact hdigit n h⟩

/-- A number with more digits than the buffer takes. -/
def manyZeros : Number :=
  ⟨List.replicate 17 0x30, fun char hchar => by
    rw [List.eq_of_mem_replicate hchar]
    decide⟩

/-- `ESC [ 1 ; 5 A` gives the keys 5 and A, and behind a report that is broken off at the column the next one
    is lost. -/
theorem tail_decoded :
    (Sequence.csi [digit 1 (by decide), digit 5 (by decide)] ⟨0x41, by decide⟩).alone =
        [(0x35, none), (0x41, none)] ∧
      ¬Compositional [.csi [digit 1 (by decide), digit 5 (by decide)] ⟨0x41, by decide⟩] ∧
      ¬Compositional [
        .mouse (digit 0 (by decide)) manyZeros (digit 1 (by decide)) false,
        .mouse (digit 0 (by decide)) (digit 1 (by decide)) (digit 1 (by decide)) false] := by
  have halone : (Sequence.csi [digit 1 (by decide), digit 5 (by decide)] ⟨0x41, by decide⟩).alone =
      [(0x35, none), (0x41, none)] := by decide
  refine ⟨halone, ?_, fun h => absurd h.concat (by decide)⟩
  intro h
  have hfits : ¬(Sequence.csi [digit 1 (by decide), digit 5 (by decide)] ⟨0x41, by decide⟩).Fits :=
    fun hfits => hfits.1 (by decide)
  have hnil := h.unrecognised _ List.mem_cons_self (not_recognised hfits).1
  rw [halone] at hnil
  cases hnil

end DrbdUtils.DrbdMon.InputDecoder
