import DrbdUtils.Lib.EscapedText

/-!
# The text column of the monitor

`TextColumn` cuts a text into lines of limited length, for the help and message pages.  A mark in the
text, `ESC` and one byte, selects the emphasis of what follows and has no length.

* `scan_spec`, `forward_spec`, `skipSpaces_spec` — the three loops of `prepare_line()`.
* `prepareLine_spec` — a line, and a gap behind it that only has spaces and marks, or a newline.
-/

set_option autoImplicit false

namespace DrbdUtils.DrbdMon

open Lib.EscapedText

namespace TextColumn

def space : UInt8 := 0x20
def newline : UInt8 := 0x0A
def esc : UInt8 := 0x1B

/-- `ColorTable::EMP_CLM_TEXT_SIZE` -/
def empClmTextSize : UInt8 := 5

def minLineLength : Nat := 40
def maxLineLength : Nat := 400
def dfltLineLength : Nat := 120

end TextColumn

open TextColumn

/-- The fields of `TextColumn`; `text_length` is that of the text. -/
structure TextColumn where
  text : Option (List UInt8)
  startEmphasis : UInt8
  endEmphasis : UInt8
  offset : Nat
  lineSpace : Nat
  lineStart : Nat
  lineEnd : Nat
  indent : Nat
  isNewLine : Bool
  lineSpace_ge : minLineLength ≤ lineSpace
  lineSpace_le : lineSpace ≤ maxLineLength

namespace TextColumn

/-- The object as constructed. -/
def new : TextColumn where
  text := none
  startEmphasis := 0xFF
  endEmphasis := 0xFF
  offset := 0
  lineSpace := dfltLineLength
  lineStart := 0
  lineEnd := 0
  indent := 0
  isNewLine := true
  lineSpace_ge := by decide
  lineSpace_le := by decide

def reset (tc : TextColumn) : TextColumn := { tc with text := none }

def restart (tc : TextColumn) : TextColumn :=
  { tc with offset := 0, indent := 0, lineStart := 0, lineEnd := 0, isNewLine := true }

/-- `set_text()`; `none` is the null pointer. -/
def setText (tc : TextColumn) : Option (List UInt8) → TextColumn
  | none => tc
  | some newText =>
    { tc with
      text := some newText, offset := 0, indent := 0, lineStart := 0, lineEnd := 0, isNewLine := true }

def bounds (minValue value maxValue : Nat) : Nat :=
  if minValue ≤ value then if value ≤ maxValue then value else maxValue else minValue

def setLineLength (tc : TextColumn) (newLength : Nat) : TextColumn :=
  { tc with
    lineSpace := bounds minLineLength newLength maxLineLength
    lineSpace_ge := by
      have h : minLineLength ≤ maxLineLength := by decide
      unfold bounds
      grind
    lineSpace_le := by
      have h : minLineLength ≤ maxLineLength := by decide
      unfold bounds
      grind }

/-! ## The loops of `prepare_line()` -/

/-- The local variables of the search for the end of the line, with the fields it changes. -/
structure Scan where
  offset : Nat
  curLength : Nat
  lineLength : Nat
  lineEnd : Nat
  haveSpace : Bool
  ignSpace : Bool
  escaped : Bool
  isNewLine : Bool
  endEmphasis : UInt8
  savedEmphasis : UInt8

/-- A space: the first one after a word is remembered. -/
def Scan.atSpace (st : Scan) : Scan :=
  let st :=
    if st.ignSpace then st
    else
      { st with
        savedEmphasis := st.endEmphasis, lineLength := st.curLength, lineEnd := st.offset
        haveSpace := true }
  { st with ignSpace := true, curLength := st.curLength + 1, offset := st.offset + 1 }

/-- The search, one further than the length that remains. -/
def scan (remain : Nat) : List UInt8 → Scan → Scan
  | [], st => st
  | c :: cs, st =>
    if st.curLength ≤ remain then
      if st.escaped then
        scan remain cs { st with endEmphasis := c, escaped := false, offset := st.offset + 1 }
      else if c = space then
        scan remain cs st.atSpace
      else if c = newline then
        { st with
          lineLength := st.curLength, lineEnd := st.offset, isNewLine := true
          offset := st.offset + 1 }
      else if c = esc then
        scan remain cs { st with escaped := true, offset := st.offset + 1 }
      else
        scan remain cs
          { st with ignSpace := false, curLength := st.curLength + 1, offset := st.offset + 1 }
    else
      st

/-- The search forward by `remain` characters, from the one with number `idx` on: the bytes it takes. -/
def forward (remain : Nat) : List UInt8 → Bool → Nat → Nat
  | [], _, _ => 0
  | c :: cs, escaped, idx =>
    if idx < remain then
      if escaped then forward remain cs false idx + 1
      else if c = esc then forward remain cs true idx + 1
      else forward remain cs false (idx + 1) + 1
    else
      0

/-- Discard spaces, but save any emphasis: the offset and `end_emphasis`. -/
def skipSpaces : List UInt8 → Bool → Nat → UInt8 → Nat × UInt8
  | [], _, offset, emphasis => (offset, emphasis)
  | c :: cs, escaped, offset, emphasis =>
    if escaped then skipSpaces cs false (offset + 1) c
    else if c = esc then skipSpaces cs true (offset + 1) emphasis
    else if c ≠ space then (offset, emphasis)
    else skipSpaces cs false (offset + 1) emphasis

/-! ## `prepare_line()` -/

/-- The indent of a new line of the text.  The branches for marks in this loop of the source are not
reached, as the loop only goes on at a space. -/
def takeIndent (tc : TextColumn) (text : List UInt8) : TextColumn :=
  let newIndent := ((text.drop tc.offset).takeWhile (· = space)).length
  { tc with
    lineStart := tc.offset, offset := tc.offset + newIndent
    indent := min newIndent (tc.lineSpace / 2), isNewLine := false }

def remainLength (tc : TextColumn) : Nat := tc.lineSpace - tc.indent

/-- The search from the current offset. -/
def scanLine (tc : TextColumn) (text : List UInt8) : Scan :=
  scan tc.remainLength (text.drop tc.offset)
    { offset := tc.offset, curLength := 0, lineLength := 0, lineEnd := tc.lineEnd, haveSpace := false
      ignSpace := false, escaped := false, isNewLine := tc.isNewLine, endEmphasis := tc.endEmphasis
      savedEmphasis := tc.endEmphasis }

/-- Where the line ends, according to the search. -/
def cutLine (tc : TextColumn) (text : List UInt8) (st : Scan) : TextColumn :=
  let tc' := { tc with lineStart := tc.offset, isNewLine := st.isNewLine }
  if tc.remainLength < st.curLength then
    if !st.haveSpace || st.lineLength < tc.lineSpace / 4 then
      let lineEnd := tc.offset + forward tc.remainLength (text.drop tc.offset) false 0
      { tc' with lineEnd := lineEnd, offset := lineEnd, endEmphasis := st.endEmphasis }
    else
      { tc' with lineEnd := st.lineEnd, offset := st.lineEnd, endEmphasis := st.savedEmphasis }
  else if text.length ≤ st.offset then
    { tc' with lineEnd := st.offset, offset := st.offset, endEmphasis := st.endEmphasis }
  else
    { tc' with lineEnd := st.lineEnd, offset := st.offset, endEmphasis := st.endEmphasis }

/-- Trailing space is discarded unless a new line of the text begins. -/
def skipTrailing (tc : TextColumn) (text : List UInt8) : TextColumn :=
  if tc.isNewLine then tc
  else
    let skipped := skipSpaces (text.drop tc.offset) false tc.offset tc.endEmphasis
    { tc with offset := skipped.1, endEmphasis := skipped.2 }

def findLine (tc : TextColumn) (text : List UInt8) : TextColumn :=
  (tc.cutLine text (tc.scanLine text)).skipTrailing text

def beginLine (tc : TextColumn) (text : List UInt8) : TextColumn :=
  let tc := { tc with startEmphasis := tc.endEmphasis }
  if tc.isNewLine then tc.takeIndent text else tc

def prepareLine (tc : TextColumn) : Bool × TextColumn :=
  match tc.text with
  | none => (false, tc)
  | some text =>
    let tc := tc.beginLine text
    (decide (tc.offset < text.length), tc.findLine text)

def skipLine (tc : TextColumn) : Bool × TextColumn := tc.prepareLine

/-! ## `next_line()` -/

/-- What is appended to a line: a byte, or one of the colour sequences. -/
inductive Glyph where
  | byte (b : UInt8)
  | textColor
  | rst
  | emphasis (n : UInt8)
  deriving DecidableEq, Repr

/-- The sequence for the emphasis at the start of a line. -/
def startGlyphs (e : UInt8) : List Glyph :=
  if e = 0xFF then [.textColor]
  else if 1 ≤ e ∧ e ≤ empClmTextSize then [.emphasis e]
  else []

/-- The sequence for a mark. -/
def markGlyphs (e : UInt8) : List Glyph :=
  if e = 0xFF then [.rst, .textColor]
  else if 1 ≤ e ∧ e ≤ empClmTextSize then [.emphasis e]
  else []

/-- The loop over the bytes of the line. -/
def render : Bool → List UInt8 → List Glyph
  | _, [] => []
  | true, c :: cs => markGlyphs c ++ render false cs
  | false, c :: cs => if c = esc then render true cs else .byte c :: render false cs

/-- `line_start` to `line_end`. -/
def lineBytes (tc : TextColumn) : List UInt8 :=
  ((tc.text.getD []).take tc.lineEnd).drop tc.lineStart

def nextLine (tc : TextColumn) : Option (List Glyph) × TextColumn :=
  let (haveContent, tc) := tc.prepareLine
  if haveContent then
    (some (List.replicate tc.indent (.byte space) ++ startGlyphs tc.startEmphasis ++
      render false tc.lineBytes), tc)
  else
    (none, tc)

/-! ## The search for the end of the line -/

/-- What the search knows when it has gone over `seg`, from `start` on. -/
structure ScanInv (remain start : Nat) (seg : List UInt8) (st : Scan) : Prop where
  offset : st.offset = start + seg.length
  escaped : pending esc false seg = st.escaped
  curLength : (visible esc false seg).length = st.curLength
  curLength_le : st.curLength ≤ remain + 1
  full : st.curLength = remain + 1 → st.escaped = false
  newLine : st.isNewLine = false
  saved : st.haveSpace = true → ∃ a b, seg = a ++ b ∧ st.lineEnd = start + a.length ∧
    pending esc false a = false ∧ (visible esc false a).length = st.lineLength ∧
    st.lineLength ≤ remain

section Step

variable {remain start : Nat} {seg : List UInt8} {st : Scan}

theorem ScanInv.saved_concat (h : ScanInv remain start seg st) (c : UInt8)
    (hs : st.haveSpace = true) : ∃ a b, seg ++ [c] = a ++ b ∧ st.lineEnd = start + a.length ∧
      pending esc false a = false ∧ (visible esc false a).length = st.lineLength ∧
      st.lineLength ≤ remain := by
  obtain ⟨a, b, hseg, hend⟩ := h.saved hs
  exact ⟨a, b ++ [c], by simp [hseg], hend⟩

theorem ScanInv.mark (h : ScanInv remain start seg st) (hesc : st.escaped = true) (c : UInt8) :
    ScanInv remain start (seg ++ [c])
      { st with endEmphasis := c, escaped := false, offset := st.offset + 1 } := by
  have hpend := h.escaped.trans hesc
  constructor
  · simp [h.offset, Nat.add_assoc]
  · simp [pending_append, hpend]
  · simp [visible_append, hpend, h.curLength]
  · exact h.curLength_le
  · simp
  · exact h.newLine
  · exact h.saved_concat c

theorem ScanInv.opened (h : ScanInv remain start seg st) (hlen : st.curLength ≤ remain)
    (hesc : st.escaped = false) :
    ScanInv remain start (seg ++ [esc]) { st with escaped := true, offset := st.offset + 1 } := by
  have hpend := h.escaped.trans hesc
  constructor
  · simp [h.offset, Nat.add_assoc]
  · simp [pending_append, hpend]
  · simp [visible_append, hpend, h.curLength]
  · exact h.curLength_le
  · intro hfull
    simp only at hfull
    omega
  · exact h.newLine
  · exact h.saved_concat esc

theorem ScanInv.char (h : ScanInv remain start seg st) (hlen : st.curLength ≤ remain)
    (hesc : st.escaped = false) {c : UInt8} (hc : c ≠ esc) :
    ScanInv remain start (seg ++ [c])
      { st with ignSpace := false, curLength := st.curLength + 1, offset := st.offset + 1 } := by
  have hpend := h.escaped.trans hesc
  constructor
  · simp [h.offset, Nat.add_assoc]
  · simp [pending_append, hpend, pending_cons hc, hesc]
  · simp [visible_append, hpend, visible_cons hc, h.curLength]
  · simpa using hlen
  · exact fun _ => hesc
  · exact h.newLine
  · exact h.saved_concat c

theorem ScanInv.space (h : ScanInv remain start seg st) (hlen : st.curLength ≤ remain)
    (hesc : st.escaped = false) : ScanInv remain start (seg ++ [TextColumn.space]) st.atSpace := by
  have hpend := h.escaped.trans hesc
  have hne : TextColumn.space ≠ esc := by decide
  have hchar := h.char hlen hesc hne
  unfold Scan.atSpace
  split
  · exact ⟨hchar.offset, hchar.escaped, hchar.curLength, hchar.curLength_le, hchar.full,
      hchar.newLine, hchar.saved⟩
  · refine ⟨hchar.offset, hchar.escaped, hchar.curLength, hchar.curLength_le, hchar.full,
      hchar.newLine, fun _ => ?_⟩
    exact ⟨seg, [TextColumn.space], rfl, h.offset, hpend, h.curLength, hlen⟩

end Step

/-- How the search ends that has gone over `seg` and has `cs` in front of it: at a newline, one
character after the limit, or at the end of the text. -/
def ScanOut (remain start : Nat) (seg cs : List UInt8) (out : Scan) : Prop :=
  ∃ more rest, cs = more ++ rest ∧
    ((∃ body, seg ++ more = body ++ [newline] ∧ out.isNewLine = true ∧
        out.lineEnd = start + body.length ∧ out.offset = start + body.length + 1 ∧
        pending esc false body = false ∧ (visible esc false body).length = out.curLength ∧
        out.curLength ≤ remain) ∨
      (ScanInv remain start (seg ++ more) out ∧ (out.curLength ≤ remain → rest = [])))

theorem ScanOut.cons {remain start : Nat} {seg cs : List UInt8} {out : Scan} {c : UInt8}
    (h : ScanOut remain start (seg ++ [c]) cs out) : ScanOut remain start seg (c :: cs) out := by
  obtain ⟨more, rest, hcs, hout⟩ := h
  refine ⟨c :: more, rest, by rw [hcs, List.cons_append], ?_⟩
  simpa using hout

/-- **The search**, from a place where its invariant holds. -/
theorem scan_spec (remain start : Nat) (cs seg : List UInt8) (st : Scan)
    (h : ScanInv remain start seg st) : ScanOut remain start seg cs (scan remain cs st) := by
  induction cs generalizing seg st with
  | nil => exact ⟨[], [], rfl, .inr ⟨by simpa [scan] using h, fun _ => rfl⟩⟩
  | cons c cs ih =>
    by_cases hlen : st.curLength ≤ remain
    · cases hesc : st.escaped with
      | true =>
        simp only [scan, hlen, hesc, if_true]
        exact (ih _ _ (h.mark hesc c)).cons
      | false =>
        simp only [scan, hlen, hesc, if_true, Bool.false_eq_true, if_false]
        split
        · rename_i hsp
          subst hsp
          exact (ih _ _ (h.space hlen hesc)).cons
        · split
          · rename_i hnl
            subst hnl
            refine ⟨[newline], cs, rfl, .inl ⟨seg, rfl, rfl, h.offset, ?_, ?_, h.curLength, hlen⟩⟩
            · simp [h.offset]
            · exact h.escaped.trans hesc
          · split
            · rename_i he
              subst he
              have hopened := h.opened hlen hesc
              exact (ih _ _ hopened).cons
            · rename_i he
              have hchar := (ih _ _ (h.char hlen hesc he)).cons
              rwa [hesc] at hchar
    · simp only [scan, hlen, if_false]
      refine ⟨[], c :: cs, rfl, .inr ⟨by simpa using h, fun hle => absurd hle hlen⟩⟩

/-- **The search forward** goes over `remain` characters, and ends behind one. -/
theorem forward_spec (remain : Nat) (l : List UInt8) (escaped : Bool) (idx : Nat) (hle : idx ≤ remain)
    (hesc : idx = remain → escaped = false)
    (hvis : remain ≤ idx + (visible esc escaped l).length) :
    ∃ a b, l = a ++ b ∧ forward remain l escaped idx = a.length ∧
      idx + (visible esc escaped a).length = remain ∧ pending esc escaped a = false := by
  induction l generalizing escaped idx with
  | nil =>
    have heq : idx = remain := by
      simp at hvis
      omega
    exact ⟨[], [], rfl, rfl, by simp [heq], by simp [hesc heq]⟩
  | cons c cs ih =>
    by_cases hlt : idx < remain
    · cases escaped with
      | true =>
        obtain ⟨a, b, hcs, hfwd, hlen, hpend⟩ := ih false idx hle (fun _ => rfl) (by simpa using hvis)
        exact ⟨c :: a, b, by rw [hcs, List.cons_append], by simp [forward, hlt, hfwd],
          by simpa using hlen, by simpa using hpend⟩
      | false =>
        by_cases hc : c = esc
        · subst hc
          obtain ⟨a, b, hcs, hfwd, hlen, hpend⟩ := ih true idx hle (by omega) (by simpa using hvis)
          exact ⟨esc :: a, b, by rw [hcs, List.cons_append], by simp [forward, hlt, hfwd],
            by simpa using hlen, by simpa using hpend⟩
        · rw [visible_cons hc, List.length_cons] at hvis
          obtain ⟨a, b, hcs, hfwd, hlen, hpend⟩ := ih false (idx + 1) hlt (fun _ => rfl) (by omega)
          refine ⟨c :: a, b, by rw [hcs, List.cons_append], by simp [forward, hlt, hc, hfwd], ?_, ?_⟩
          · rw [visible_cons hc, List.length_cons]
            omega
          · rwa [pending_cons hc]
    · have heq : idx = remain := by omega
      exact ⟨[], c :: cs, rfl, by simp [forward, hlt], by simp [heq], by simp [hesc heq]⟩

/-- The characters that are no white space. -/
def solid (l : List UInt8) : List UInt8 := l.filter fun c => c ≠ space ∧ c ≠ newline

@[simp]
theorem solid_nil : solid [] = [] := rfl

theorem solid_append (l m : List UInt8) : solid (l ++ m) = solid l ++ solid m := by
  simp [solid]

theorem solid_of_spaces {l : List UInt8} (h : ∀ c ∈ l, c = space) : solid l = [] := by
  rw [solid, List.filter_eq_nil_iff]
  intro c hc
  simp [h c hc]

/-- **Discarded space** has nothing but spaces and whole marks. -/
theorem skipSpaces_spec (l : List UInt8) (escaped : Bool) (offset : Nat) (emphasis : UInt8) :
    ∃ a b, l = a ++ b ∧ (skipSpaces l escaped offset emphasis).1 = offset + a.length ∧
      solid (visible esc escaped a) = [] ∧ (pending esc escaped a = false ∨ b = []) := by
  induction l generalizing escaped offset emphasis with
  | nil => exact ⟨[], [], rfl, rfl, by simp, .inr rfl⟩
  | cons c cs ih =>
    cases escaped with
    | true =>
      obtain ⟨a, b, hcs, hoff, hsolid, hpend⟩ := ih false (offset + 1) c
      refine ⟨c :: a, b, by rw [hcs, List.cons_append], ?_, by simpa using hsolid, by simpa using hpend⟩
      simp only [skipSpaces, if_true, hoff, List.length_cons]
      omega
    | false =>
      by_cases hc : c = esc
      · subst hc
        obtain ⟨a, b, hcs, hoff, hsolid, hpend⟩ := ih true (offset + 1) emphasis
        refine ⟨esc :: a, b, by rw [hcs, List.cons_append], ?_, by simpa using hsolid,
          by simpa using hpend⟩
        simp only [skipSpaces, Bool.false_eq_true, if_false, if_true, hoff, List.length_cons]
        omega
      · by_cases hsp : c = space
        · subst hsp
          obtain ⟨a, b, hcs, hoff, hsolid, hpend⟩ := ih false (offset + 1) emphasis
          refine ⟨space :: a, b, by rw [hcs, List.cons_append], ?_, ?_, ?_⟩
          · simp only [skipSpaces, Bool.false_eq_true, if_false, hc, ne_eq, not_true, hoff,
              List.length_cons]
            omega
          · rw [visible_cons hc]
            simpa [solid] using hsolid
          · rwa [pending_cons hc]
        · exact ⟨[], c :: cs, rfl, by simp [skipSpaces, hc, hsp], by simp, .inl (by simp)⟩

/-! ## One line -/

/-- How a line is cut from the `rest` of the text, behind `pre`: `line` is shown, `gap` is left out
and `tail` is kept for the next line. -/
structure Cut (tc out : TextColumn) (pre line gap tail : List UInt8) : Prop where
  text : out.text = tc.text
  lineSpace : out.lineSpace = tc.lineSpace
  indent : out.indent = tc.indent
  startEmphasis : out.startEmphasis = tc.startEmphasis
  lineStart : out.lineStart = pre.length
  lineEnd : out.lineEnd = pre.length + line.length
  offset : out.offset = pre.length + line.length + gap.length
  width : ((visible esc false line).filter (· ≠ newline)).length ≤ tc.remainLength
  gap_blank : solid (visible esc false gap) = []
  line_whole : pending esc false line = false ∨ gap ++ tail = []
  gap_whole : pending esc false gap = false ∨ tail = []
  progress : line ++ gap ++ tail ≠ [] → line ++ gap ≠ []

theorem drop_offset {text pre rest : List UInt8} {tc : TextColumn} (htext : text = pre ++ rest)
    (hoff : tc.offset = pre.length) : text.drop tc.offset = rest := by
  rw [htext, hoff, List.drop_left]

theorem scanLine_spec (tc : TextColumn) (text pre rest : List UInt8) (htext : text = pre ++ rest)
    (hoff : tc.offset = pre.length) (hnl : tc.isNewLine = false) :
    ScanOut tc.remainLength pre.length [] rest (tc.scanLine text) := by
  rw [scanLine, drop_offset htext hoff]
  apply scan_spec
  constructor <;> simp [hoff, hnl]

theorem length_noNewline_le {l : List UInt8} {n : Nat} (h : l.length ≤ n) :
    (l.filter (· ≠ newline)).length ≤ n :=
  Nat.le_trans (List.length_filter_le ..) h

section CutLine

variable {tc : TextColumn} {text pre : List UInt8} {st : Scan}

theorem cutLine_isNewLine (tc : TextColumn) (text : List UInt8) (st : Scan) :
    (tc.cutLine text st).isNewLine = st.isNewLine := by
  unfold cutLine
  split
  · split <;> rfl
  · split <;> rfl

/-- At a newline, which stays in the line when the text ends with it. -/
theorem cutLine_newline {body rest : List UInt8} (htext : text = pre ++ (body ++ newline :: rest))
    (hoff : tc.offset = pre.length) (hend : st.lineEnd = pre.length + body.length)
    (hoffset : st.offset = pre.length + body.length + 1) (hpend : pending esc false body = false)
    (hvis : (visible esc false body).length ≤ tc.remainLength)
    (hcur : st.curLength ≤ tc.remainLength) :
    ∃ line gap tail, body ++ newline :: rest = line ++ gap ++ tail ∧
      Cut tc (tc.cutLine text st) pre line gap tail := by
  have hlt : ¬ tc.remainLength < st.curLength := by omega
  have hlen : text.length = pre.length + body.length + 1 + rest.length := by
    rw [htext]
    simp
    omega
  cases rest with
  | nil =>
    have htlen : text.length ≤ st.offset := by
      rw [hoffset, hlen]
      simp
    refine ⟨body ++ [newline], [], [], by simp, ?_⟩
    rw [cutLine, if_neg hlt, if_pos htlen]
    constructor
    case width =>
      rw [visible_append, hpend, visible_cons (by decide), visible_nil, List.filter_append]
      simpa using length_noNewline_le hvis
    case progress => simp
    all_goals simp [hoff, hoffset, Nat.add_assoc]
  | cons c rest =>
    have htlen : ¬ text.length ≤ st.offset := by
      rw [hoffset, hlen, List.length_cons]
      omega
    refine ⟨body, [newline], c :: rest, by simp, ?_⟩
    rw [cutLine, if_neg hlt, if_neg htlen]
    constructor
    case width => exact length_noNewline_le hvis
    case gap_blank => decide
    case gap_whole => exact .inl (by decide)
    all_goals simp [hoff, hoffset, hend, hpend]

/-- After as many characters as there is room for. -/
theorem cutLine_forward {rest : List UInt8} (htext : text = pre ++ rest)
    (hoff : tc.offset = pre.length) (hremain : 0 < tc.remainLength)
    (hlt : tc.remainLength < st.curLength)
    (hshort : (!st.haveSpace || decide (st.lineLength < tc.lineSpace / 4)) = true)
    (hvis : tc.remainLength ≤ (visible esc false rest).length) :
    ∃ line tail, rest = line ++ tail ∧ Cut tc (tc.cutLine text st) pre line [] tail := by
  obtain ⟨a, b, hab, hfwd, hvisa, hpend⟩ :=
    forward_spec tc.remainLength rest false 0 (Nat.zero_le _) (fun _ => rfl) (by omega)
  have ha : a ≠ [] := by
    rintro rfl
    simp at hvisa
    omega
  refine ⟨a, b, hab, ?_⟩
  rw [cutLine, if_pos hlt, if_pos hshort, drop_offset htext hoff, hfwd]
  constructor
  case width => exact length_noNewline_le (by omega)
  case progress => simp [ha]
  all_goals simp [hoff, hpend]

/-- At the remembered space between words. -/
theorem cutLine_space {line tail : List UInt8} (hoff : tc.offset = pre.length)
    (hspace : 4 ≤ tc.lineSpace) (hlt : tc.remainLength < st.curLength)
    (hshort : ¬ (!st.haveSpace || decide (st.lineLength < tc.lineSpace / 4)) = true)
    (hend : st.lineEnd = pre.length + line.length) (hpend : pending esc false line = false)
    (hvis : (visible esc false line).length = st.lineLength)
    (hle : st.lineLength ≤ tc.remainLength) :
    Cut tc (tc.cutLine text st) pre line [] tail := by
  have hline : line ≠ [] := by
    rintro rfl
    simp only [visible_nil, List.length_nil] at hvis
    simp only [Bool.or_eq_true, decide_eq_true_eq, not_or] at hshort
    omega
  rw [cutLine, if_pos hlt, if_neg hshort]
  constructor
  case width => exact length_noNewline_le (by omega)
  case progress => simp [hline]
  all_goals simp [hoff, hend, hpend]

/-- At the end of the text. -/
theorem cutLine_end {rest : List UInt8} (htext : text = pre ++ rest) (hoff : tc.offset = pre.length)
    (hlt : ¬ tc.remainLength < st.curLength) (hoffset : st.offset = pre.length + rest.length)
    (hvis : (visible esc false rest).length = st.curLength) :
    Cut tc (tc.cutLine text st) pre rest [] [] := by
  have htlen : text.length ≤ st.offset := by
    rw [hoffset, htext]
    simp
  rw [cutLine, if_neg hlt, if_pos htlen]
  constructor
  case width => exact length_noNewline_le (by omega)
  all_goals simp [hoff, hoffset]

/-- **The end of the line**, in all cases; only a newline is left out. -/
theorem cutLine_spec (tc : TextColumn) (text pre rest : List UInt8) (htext : text = pre ++ rest)
    (hoff : tc.offset = pre.length) (hindent : tc.indent ≤ tc.lineSpace / 2)
    (hnl : tc.isNewLine = false) :
    ∃ line gap tail, rest = line ++ gap ++ tail ∧
      Cut tc (tc.cutLine text (tc.scanLine text)) pre line gap tail ∧
      ((tc.cutLine text (tc.scanLine text)).isNewLine = false → gap = []) := by
  have hspace : 40 ≤ tc.lineSpace := tc.lineSpace_ge
  have hremain : 0 < tc.remainLength := by
    unfold remainLength
    omega
  obtain ⟨more, rest', rfl, hout⟩ := scanLine_spec tc text pre rest htext hoff hnl
  rw [List.nil_append] at hout
  rw [cutLine_isNewLine]
  generalize tc.scanLine text = st at hout ⊢
  rcases hout with ⟨body, rfl, hnew, hend, hoffset, hpend, hvis, hle⟩ | ⟨hinv, hfin⟩
  · rw [List.append_assoc, List.singleton_append] at htext ⊢
    obtain ⟨line, gap, tail, hrest, hcut⟩ :=
      cutLine_newline htext hoff hend hoffset hpend (hvis ▸ hle) hle
    exact ⟨line, gap, tail, hrest, hcut, fun h => absurd (hnew.symm.trans h) (by decide)⟩
  · by_cases hlt : tc.remainLength < st.curLength
    · by_cases hshort : (!st.haveSpace || decide (st.lineLength < tc.lineSpace / 4)) = true
      · have hvis : tc.remainLength ≤ (visible esc false (more ++ rest')).length := by
          rw [visible_append, List.length_append, hinv.curLength]
          omega
        obtain ⟨line, tail, hrest, hcut⟩ := cutLine_forward htext hoff hremain hlt hshort hvis
        exact ⟨line, [], tail, by simpa using hrest, hcut, fun _ => rfl⟩
      · have hsaved : st.haveSpace = true := by
          simp only [Bool.or_eq_true, Bool.not_eq_true', not_or, Bool.not_eq_false] at hshort
          exact hshort.1
        obtain ⟨line, b, rfl, hend, hpend, hvis, hle⟩ := hinv.saved hsaved
        have hcut := @cutLine_space tc text pre st line (b ++ rest') hoff (by omega) hlt hshort hend
          hpend hvis hle
        exact ⟨line, [], b ++ rest', by simp, hcut, fun _ => rfl⟩
    · obtain rfl := hfin (Nat.le_of_not_lt hlt)
      rw [List.append_nil] at htext ⊢
      exact ⟨more, [], [], by simp, cutLine_end htext hoff hlt hinv.offset hinv.curLength,
        fun _ => rfl⟩

end CutLine

/-- **The line and the gap behind it.** -/
theorem findLine_spec (tc : TextColumn) (text pre rest : List UInt8) (htext : text = pre ++ rest)
    (hoff : tc.offset = pre.length) (hindent : tc.indent ≤ tc.lineSpace / 2)
    (hnl : tc.isNewLine = false) :
    ∃ line gap tail, rest = line ++ gap ++ tail ∧ Cut tc (tc.findLine text) pre line gap tail := by
  obtain ⟨line, gap, tail, hrest, hcut, hgap⟩ := cutLine_spec tc text pre rest htext hoff hindent hnl
  rw [findLine, skipTrailing]
  generalize tc.cutLine text (tc.scanLine text) = out at hcut hgap ⊢
  cases hnew : out.isNewLine with
  | true => exact ⟨line, gap, tail, hrest, by simpa using hcut⟩
  | false =>
    obtain rfl := hgap hnew
    have hdrop : text.drop out.offset = tail := by
      rw [htext, hrest, hcut.offset]
      simp [← List.append_assoc, ← List.length_append]
    obtain ⟨a, b, htail, hskip, hsolid, hpend⟩ := skipSpaces_spec tail false out.offset out.endEmphasis
    refine ⟨line, a, b, by rw [hrest, htail]; simp, ?_⟩
    simp only [Bool.false_eq_true, if_false, hdrop]
    constructor
    case offset => rw [hskip, hcut.offset, List.length_nil, Nat.add_zero]
    case width => exact hcut.width
    case gap_blank => exact hsolid
    case line_whole =>
      refine hcut.line_whole.imp_right fun h => ?_
      rw [← htail]
      simpa using h
    case gap_whole => exact hpend
    case progress =>
      intro hne hnil
      have hline : line = [] := (List.append_eq_nil_iff.1 hnil).1
      have hprog := hcut.progress (by rw [htail]; simpa using hne)
      simp [hline] at hprog
    all_goals simp [hcut.text, hcut.lineSpace, hcut.indent, hcut.startEmphasis, hcut.lineStart,
      hcut.lineEnd]

/-- The discarded indent, and the state in which the search begins. -/
theorem beginLine_spec (tc : TextColumn) (pre rest : List UInt8) (hoff : tc.offset = pre.length)
    (hindent : tc.indent ≤ tc.lineSpace / 2) :
    ∃ spaces rest', rest = spaces ++ rest' ∧ (∀ c ∈ spaces, c = space) ∧
      (tc.beginLine (pre ++ rest)).offset = (pre ++ spaces).length ∧
      (tc.beginLine (pre ++ rest)).indent ≤ tc.lineSpace / 2 ∧
      (tc.beginLine (pre ++ rest)).isNewLine = false ∧
      (tc.beginLine (pre ++ rest)).text = tc.text ∧
      (tc.beginLine (pre ++ rest)).lineSpace = tc.lineSpace ∧
      (tc.beginLine (pre ++ rest)).startEmphasis = tc.endEmphasis ∧
      (tc.isNewLine = true → ∀ c ∈ rest'.head?, c ≠ space) := by
  cases hnew : tc.isNewLine with
  | true =>
    refine ⟨rest.takeWhile (· = space), rest.dropWhile (· = space),
      (List.takeWhile_append_dropWhile ..).symm, ?_, ?_⟩
    · intro c hc
      simpa using List.all_eq_true.1 List.all_takeWhile c hc
    · simp only [beginLine, hnew, if_true, takeIndent]
      rw [drop_offset rfl hoff]
      refine ⟨by simp [hoff], Nat.min_le_right .., trivial, trivial, trivial, trivial, ?_⟩
      intro _ c hc
      have hhead := List.head?_dropWhile_not (· = space) rest
      rw [hc] at hhead
      simpa using hhead
  | false =>
    refine ⟨[], rest, rfl, by simp, ?_⟩
    simp [beginLine, hnew, hoff, hindent]

/-- What a call does: `spaces` are the indent, and the line is cut from what follows. -/
structure Prepared (tc : TextColumn) (pre spaces line gap tail : List UInt8) : Prop where
  indent_spaces : ∀ c ∈ spaces, c = space
  indent_whole : tc.isNewLine = true → ∀ c ∈ (line ++ gap ++ tail).head?, c ≠ space
  startEmphasis : tc.prepareLine.2.startEmphasis = tc.endEmphasis
  indent : (tc.prepareLine).2.indent ≤ tc.lineSpace / 2
  haveContent : (tc.prepareLine).1 = true ↔ line ++ gap ++ tail ≠ []
  cut : ∃ tc', tc'.text = tc.text ∧ tc'.lineSpace = tc.lineSpace ∧
    tc'.indent ≤ tc.lineSpace / 2 ∧ Cut tc' tc.prepareLine.2 (pre ++ spaces) line gap tail

/-- **A call of `prepare_line()`.** -/
theorem prepareLine_spec (tc : TextColumn) (pre rest : List UInt8)
    (htext : tc.text = some (pre ++ rest)) (hoff : tc.offset = pre.length)
    (hindent : tc.indent ≤ tc.lineSpace / 2) :
    ∃ spaces line gap tail, rest = spaces ++ line ++ gap ++ tail ∧
      Prepared tc pre spaces line gap tail := by
  obtain ⟨spaces, rest', hrest, hspaces, hoff', hindent', hnew, htext', hspace', hstart, hhead⟩ :=
    beginLine_spec tc pre rest hoff hindent
  have hsplit : pre ++ rest = pre ++ spaces ++ rest' := by rw [hrest, List.append_assoc]
  obtain ⟨line, gap, tail, hline, hcut⟩ := findLine_spec (tc.beginLine (pre ++ rest)) (pre ++ rest)
    (pre ++ spaces) rest' hsplit hoff' (hspace' ▸ hindent') hnew
  have hcall : tc.prepareLine = (decide ((tc.beginLine (pre ++ rest)).offset < (pre ++ rest).length),
      (tc.beginLine (pre ++ rest)).findLine (pre ++ rest)) := by
    simp only [prepareLine, htext]
  refine ⟨spaces, line, gap, tail, by rw [hrest, hline]; simp, hspaces, hline ▸ hhead, ?_, ?_, ?_, ?_⟩
  · rw [hcall, hcut.startEmphasis, hstart]
  · rw [hcall, hcut.indent]
    exact hindent'
  · have hlen : (pre ++ spaces ++ rest').length = (pre ++ spaces).length + rest'.length :=
      List.length_append
    rw [hcall, hoff', hsplit, hlen, ← hline]
    simp [List.length_pos_iff]
  · exact ⟨_, htext', hspace', hindent', hcall ▸ hcut⟩

end TextColumn

end DrbdUtils.DrbdMon
