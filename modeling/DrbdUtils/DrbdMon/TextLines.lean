import DrbdUtils.DrbdMon.TextColumn

/-!
# The lines of a text

What the pages of the monitor show of a text, call by call of `next_line()`.

* `wrapped_of_started` — the lines end, fit, keep the characters and split no mark.
* `lines_depend_on_emphasis` — the emphasis of the text shown before is that of the first line.
* `wrapsText_iff` — which texts look the same whatever has been shown before.
-/

set_option autoImplicit false

namespace DrbdUtils.DrbdMon.TextColumn

open Lib.EscapedText

/-! ## Calls -/

/-- The object after a number of calls of `next_line()`. -/
def advance : Nat → TextColumn → TextColumn
  | 0, tc => tc
  | n + 1, tc => advance n tc.nextLine.2

/-- The lines of the first calls, up to the one that has no content. -/
def output : Nat → TextColumn → List (List Glyph)
  | 0, _ => []
  | n + 1, tc =>
    match tc.nextLine.1 with
    | none => []
    | some line => line :: output n tc.nextLine.2

def Glyph.bytes : Glyph → List UInt8
  | byte b => [b]
  | _ => []

/-- The bytes of a line that are no colour sequences. -/
def lineText (line : List Glyph) : List UInt8 := line.flatMap Glyph.bytes

/-- The position is not inside a mark. -/
def Unsplit (text : List UInt8) (i : Nat) : Prop :=
  pending esc false (text.take i) = false ∨ text.length ≤ i

/-- The line of the text at the position, between newlines or the ends of the text, is blank. -/
def BlankAt (text : List UInt8) (i : Nat) : Prop :=
  ∃ before body after, text = before ++ body ++ after ∧
    before.length ≤ i ∧ i ≤ before.length + body.length ∧
    (before = [] ∨ ∃ b, before = b ++ [newline] ∧ pending esc false b = false) ∧
    (after = [] ∨ ∃ a, after = newline :: a ∧ pending esc false (before ++ body) = false) ∧
    solid (visible esc false body) = []

/-! ## What is shown of a text -/

/-- The lines of an object that is at the start of the text. -/
structure Wrapped (text : List UInt8) (tc : TextColumn) : Prop where
  /-- The calls come to an end, and all non-space characters have been shown until then. -/
  ends : ∃ n, (advance n tc).nextLine.1 = none ∧
    solid ((output n tc).flatMap lineText) = solid (visible esc false text)
  width : ∀ n, ∀ line ∈ (advance n tc).nextLine.1,
    ((lineText line).filter (· ≠ newline)).length ≤ tc.lineSpace
  whole : ∀ n, ∀ _line ∈ (advance n tc).nextLine.1,
    Unsplit text (advance (n + 1) tc).lineStart ∧ Unsplit text (advance (n + 1) tc).lineEnd
  skips : ∀ n, (advance n tc).skipLine =
    ((advance n tc).nextLine.1.isSome, (advance n tc).nextLine.2)

/-- A line without visible characters stands for a blank line of the text. -/
def EmptyOnlyForBlank (text : List UInt8) (tc : TextColumn) : Prop :=
  ∀ n, ∀ _line ∈ (advance n tc).nextLine.1,
    (visible esc false (advance (n + 1) tc).lineBytes).filter (· ≠ newline) = [] →
      BlankAt text (advance (n + 1) tc).lineStart

/-- The objects there are, by what was done with them. -/
inductive Displayed : TextColumn → Prop
  | new : Displayed new
  | reset {tc : TextColumn} (h : Displayed tc) : Displayed tc.reset
  | restart {tc : TextColumn} (h : Displayed tc) : Displayed tc.restart
  | setText {tc : TextColumn} (h : Displayed tc) (text : Option (List UInt8)) :
      Displayed (tc.setText text)
  | setLineLength {tc : TextColumn} (h : Displayed tc) (newLength : Nat) :
      Displayed (tc.setLineLength newLength)
  | nextLine {tc : TextColumn} (h : Displayed tc) : Displayed tc.nextLine.2

/-- An object that is to show the text, with a line length, from the start on. -/
def Started (text : List UInt8) (newLength : Nat) (tc : TextColumn) : Prop :=
  ∃ old, Displayed old ∧
    (tc = (old.setLineLength newLength).setText (some text) ∨
      old.text = some text ∧ tc = (old.setLineLength newLength).restart)

/-- The lines are those of the text, and do not depend on what was displayed before. -/
structure WrapsText (text : List UInt8) (newLength : Nat) : Prop where
  wrapped : ∀ tc, Started text newLength tc → Wrapped text tc
  empty : ∀ tc, Started text newLength tc → EmptyOnlyForBlank text tc
  repeatable : ∀ tc tc', Started text newLength tc → Started text newLength tc' →
    ∀ n, output n tc = output n tc'

/-! ## Rendering -/

theorem lineText_append (l m : List Glyph) : lineText (l ++ m) = lineText l ++ lineText m := by
  simp [lineText]

theorem lineText_startGlyphs (e : UInt8) : lineText (startGlyphs e) = [] := by
  unfold startGlyphs
  split
  · rfl
  · split <;> rfl

theorem lineText_markGlyphs (e : UInt8) : lineText (markGlyphs e) = [] := by
  unfold markGlyphs
  split
  · rfl
  · split <;> rfl

theorem lineText_replicate (n : Nat) (b : UInt8) :
    lineText (List.replicate n (.byte b)) = List.replicate n b := by
  induction n with
  | zero => rfl
  | succ n ih =>
    rw [List.replicate_succ, List.replicate_succ, ← ih]
    rfl

/-- The bytes that are shown are the visible ones. -/
theorem lineText_render (escaped : Bool) (l : List UInt8) :
    lineText (render escaped l) = visible esc escaped l := by
  induction l generalizing escaped with
  | nil => cases escaped <;> rfl
  | cons c l ih =>
    cases escaped with
    | true => rw [render, lineText_append, lineText_markGlyphs, ih]; rfl
    | false =>
      by_cases hc : c = esc
      · subst hc
        rw [visible_esc_cons, ← ih]
        simp [render]
      · rw [visible_cons hc, ← ih]
        simp [render, hc, lineText, Glyph.bytes]

/-! ## One call -/

/-- The object is between two lines of the text; `rest` has not been shown. -/
structure At (text : List UInt8) (tc : TextColumn) (pre rest : List UInt8) : Prop where
  text_eq : tc.text = some text
  split : text = pre ++ rest
  offset : tc.offset = pre.length
  indent : tc.indent ≤ tc.lineSpace / 2
  whole : pending esc false pre = false ∨ rest = []

/-- What a call of `next_line()` shows of the rest of the text, and what it leaves. -/
structure Call (text : List UInt8) (tc : TextColumn) (pre spaces line gap tail : List UInt8) : Prop where
  next : At text tc.nextLine.2 (pre ++ spaces ++ line ++ gap) tail
  lineSpace : tc.nextLine.2.lineSpace = tc.lineSpace
  indent_spaces : ∀ c ∈ spaces, c = space
  indent_whole : tc.isNewLine = true → ∀ c ∈ (line ++ gap ++ tail).head?, c ≠ space
  gap_blank : solid (visible esc false gap) = []
  line_whole : pending esc false line = false ∨ gap ++ tail = []
  gap_whole : pending esc false gap = false ∨ tail = []
  none : tc.nextLine.1 = none → line ++ gap ++ tail = []
  some : ∀ l ∈ tc.nextLine.1, line ++ gap ≠ [] ∧
    Unsplit text tc.nextLine.2.lineStart ∧ Unsplit text tc.nextLine.2.lineEnd ∧
    ∃ k, l = List.replicate k (.byte space) ++ startGlyphs tc.endEmphasis ++ render false line ∧
      k + ((visible esc false line).filter (· ≠ newline)).length ≤ tc.lineSpace

theorem nextLine_snd (tc : TextColumn) : tc.nextLine.2 = tc.prepareLine.2 := by
  unfold nextLine
  split
  split <;> simp_all

theorem nextLine_isSome (tc : TextColumn) : tc.nextLine.1.isSome = tc.prepareLine.1 := by
  unfold nextLine
  split
  split <;> simp_all

theorem pending_spaces {l : List UInt8} (h : ∀ c ∈ l, c = space) : pending esc false l = false := by
  apply pending_of_not_mem
  intro hesc
  exact absurd (h esc hesc) (by decide)

theorem visible_spaces {l : List UInt8} (h : ∀ c ∈ l, c = space) : visible esc false l = l := by
  apply visible_of_not_mem
  intro hesc
  exact absurd (h esc hesc) (by decide)

theorem unsplit_prefix {a b : List UInt8} (h : pending esc false a = false ∨ b = []) :
    Unsplit (a ++ b) a.length := by
  rcases h with h | rfl
  · left
    rwa [List.take_left]
  · right
    simp

/-- The parts of a text begin and end between marks, unless nothing follows. -/
theorem whole_parts {pre spaces line gap tail : List UInt8}
    (hpre : pending esc false pre = false ∨ spaces ++ line ++ gap ++ tail = [])
    (hspaces : ∀ c ∈ spaces, c = space) (hline : pending esc false line = false ∨ gap ++ tail = [])
    (hgap : pending esc false gap = false ∨ tail = []) :
    (pending esc false (pre ++ spaces) = false ∨ line ++ gap ++ tail = []) ∧
      (pending esc false (pre ++ spaces ++ line) = false ∨ gap ++ tail = []) ∧
      (pending esc false (pre ++ spaces ++ line ++ gap) = false ∨ tail = []) := by
  rcases hpre with hpre | hnil
  · have hstart : pending esc false (pre ++ spaces) = false := by
      rw [pending_append, hpre, pending_spaces hspaces]
    refine ⟨.inl hstart, ?_⟩
    rw [pending_append _ _ gap, pending_append _ _ line, hstart]
    rcases hline with hline | hnil
    · exact ⟨.inl hline, by rwa [hline]⟩
    · exact ⟨.inr hnil, .inr (List.append_eq_nil_iff.1 hnil).2⟩
  · simp only [List.append_eq_nil_iff] at hnil
    obtain ⟨⟨⟨-, rfl⟩, rfl⟩, rfl⟩ := hnil
    exact ⟨.inr rfl, .inr rfl, .inr rfl⟩

/-- **A call** shows the next part of the text. -/
theorem At.call {text pre rest : List UInt8} {tc : TextColumn} (h : At text tc pre rest) :
    ∃ spaces line gap tail, rest = spaces ++ line ++ gap ++ tail ∧
      Call text tc pre spaces line gap tail := by
  obtain ⟨spaces, line, gap, tail, hrest, hprep⟩ :=
    prepareLine_spec tc pre rest (h.split ▸ h.text_eq) h.offset h.indent
  obtain ⟨tc', htext', hspace', hindent', hcut⟩ := hprep.cut
  refine ⟨spaces, line, gap, tail, hrest, ?_⟩
  have hsplit : text = pre ++ spaces ++ line ++ gap ++ tail := by
    rw [h.split, hrest]
    simp
  obtain ⟨hstart, hend, hnext⟩ := whole_parts (hrest ▸ h.whole) hprep.indent_spaces hcut.line_whole
    hcut.gap_whole
  have hprogress : tc.prepareLine.1 = true → line ++ gap ≠ [] := fun hc =>
    hcut.progress (hprep.haveContent.1 hc)
  constructor
  case next =>
    rw [nextLine_snd]
    refine ⟨by rw [hcut.text, htext', h.text_eq], hsplit, ?_, ?_, hnext⟩
    · rw [hcut.offset]
      simp [Nat.add_assoc]
    · rw [hcut.lineSpace, hspace']
      exact hprep.indent
  case lineSpace => rw [nextLine_snd, hcut.lineSpace, hspace']
  case indent_spaces => exact hprep.indent_spaces
  case indent_whole => exact hprep.indent_whole
  case gap_blank => exact hcut.gap_blank
  case line_whole => exact hcut.line_whole
  case gap_whole => exact hcut.gap_whole
  case none =>
    intro hnone
    apply Classical.byContradiction
    intro hne
    have hc := hprep.haveContent.2 hne
    rw [← nextLine_isSome, hnone] at hc
    cases hc
  case some =>
    intro l hl
    have hc : tc.prepareLine.1 = true := by
      rw [← nextLine_isSome, hl]
      rfl
    have hbytes : tc.prepareLine.2.lineBytes = line := by
      rw [lineBytes, hcut.text, htext', h.text_eq, hcut.lineStart, hcut.lineEnd, hsplit,
        ← List.length_append, Option.getD_some, List.append_assoc _ gap tail, List.take_left,
        List.drop_left]
    refine ⟨hprogress hc, ?_, ?_, tc.prepareLine.2.indent, ?_, ?_⟩
    · have htext : text = pre ++ spaces ++ (line ++ gap ++ tail) := by simp [hsplit]
      rw [nextLine_snd, hcut.lineStart, htext]
      exact unsplit_prefix hstart
    · have htext : text = pre ++ spaces ++ line ++ (gap ++ tail) := by simp [hsplit]
      rw [nextLine_snd, hcut.lineEnd, htext, ← List.length_append]
      exact unsplit_prefix hend
    · have hl' : tc.nextLine.1 = some l := hl
      rw [nextLine] at hl'
      simp only [hc, if_true, hbytes, hprep.startEmphasis] at hl'
      exact (Option.some.inj hl').symm
    · have hwidth := hcut.width
      have hle := hprep.indent
      rw [remainLength, hspace'] at hwidth
      rw [hcut.indent] at hle ⊢
      omega

/-! ## All calls -/

theorem advance_succ (n : Nat) (tc : TextColumn) :
    advance (n + 1) tc = (advance n tc).nextLine.2 := by
  induction n generalizing tc with
  | zero => rfl
  | succ n ih => rw [advance, ih, advance]

/-- Calls go on in the text. -/
theorem At.advance {text pre rest : List UInt8} {tc : TextColumn} (h : At text tc pre rest) (n : Nat) :
    (advance n tc).lineSpace = tc.lineSpace ∧ ∃ pre' rest', At text (advance n tc) pre' rest' := by
  induction n with
  | zero => exact ⟨rfl, pre, rest, h⟩
  | succ n ih =>
    obtain ⟨hspace, pre', rest', hat⟩ := ih
    obtain ⟨spaces, line, gap, tail, -, hcall⟩ := hat.call
    rw [advance_succ]
    exact ⟨hcall.lineSpace.trans hspace, _, _, hcall.next⟩

theorem lineText_line (k : Nat) (e : UInt8) (line : List UInt8) :
    lineText (List.replicate k (.byte space) ++ startGlyphs e ++ render false line) =
      List.replicate k space ++ visible esc false line := by
  rw [lineText_append, lineText_append, lineText_startGlyphs, lineText_replicate, lineText_render,
    List.append_nil]

/-- What a call leaves out is white space. -/
theorem Call.solid_rest {text pre spaces line gap tail : List UInt8} {tc : TextColumn}
    (h : Call text tc pre spaces line gap tail) :
    solid (visible esc false (spaces ++ line ++ gap ++ tail)) =
      solid (visible esc false line) ++ solid (visible esc false tail) := by
  have hspaces := solid_of_spaces h.indent_spaces
  rw [List.append_assoc, List.append_assoc, visible_append, pending_spaces h.indent_spaces,
    visible_spaces h.indent_spaces, solid_append, hspaces, List.nil_append, visible_append,
    solid_append]
  congr 1
  rcases h.line_whole with hline | hnil
  · rw [hline, visible_append, solid_append, h.gap_blank, List.nil_append]
    rcases h.gap_whole with hgap | rfl
    · rw [hgap]
    · simp
  · obtain ⟨rfl, rfl⟩ := List.append_eq_nil_iff.1 hnil
    simp

/-- **The calls come to an end**, and show every character until then. -/
theorem At.ends {text pre rest : List UInt8} {tc : TextColumn} (h : At text tc pre rest) :
    ∃ n, (TextColumn.advance n tc).nextLine.1 = none ∧
      solid ((output n tc).flatMap lineText) = solid (visible esc false rest) := by
  obtain ⟨spaces, line, gap, tail, hrest, hcall⟩ := h.call
  have hsolid := hcall.solid_rest
  rw [← hrest] at hsolid
  cases hl : tc.nextLine.1 with
  | none =>
    have hnil := hcall.none hl
    simp only [List.append_eq_nil_iff] at hnil
    obtain ⟨⟨rfl, -⟩, rfl⟩ := hnil
    exact ⟨0, hl, by simpa [output] using hsolid.symm⟩
  | some l =>
    obtain ⟨hne, -, -, k, hline, -⟩ := hcall.some l hl
    have hlt : tail.length < rest.length := by
      have hpos := List.length_pos_iff.2 hne
      rw [hrest]
      simp only [List.length_append] at hpos ⊢
      omega
    obtain ⟨n, hend, hout⟩ := hcall.next.ends
    refine ⟨n + 1, hend, ?_⟩
    have hk : solid (List.replicate k space) = [] := by
      apply solid_of_spaces
      intro c hc
      exact (List.mem_replicate.1 hc).2
    rw [output, hl, List.flatMap_cons, solid_append, hout, hsolid, hline, lineText_line, solid_append,
      hk, List.nil_append]
termination_by rest.length

/-! ## From the start of the text -/

theorem Started.at {text : List UInt8} {newLength : Nat} {tc : TextColumn}
    (h : Started text newLength tc) : At text tc [] text := by
  obtain ⟨old, -, rfl | ⟨htext, rfl⟩⟩ := h
  · exact ⟨rfl, rfl, rfl, Nat.zero_le _, .inl rfl⟩
  · exact ⟨htext, rfl, rfl, Nat.zero_le _, .inl rfl⟩

/-- **What holds of the lines of every text**, whatever was displayed before. -/
theorem wrapped_of_started {text : List UInt8} {newLength : Nat} {tc : TextColumn}
    (h : Started text newLength tc) : Wrapped text tc := by
  have hat := h.at
  constructor
  case ends => exact hat.ends
  case width =>
    intro n l hl
    obtain ⟨hspace, pre, rest, hn⟩ := hat.advance n
    obtain ⟨spaces, line, gap, tail, -, hcall⟩ := hn.call
    obtain ⟨-, -, -, k, rfl, hwidth⟩ := hcall.some l hl
    rw [lineText_line, List.filter_append, List.length_append, ← hspace]
    exact Nat.le_trans (Nat.add_le_add_right (length_noNewline_le (by simp)) _) hwidth
  case whole =>
    intro n l hl
    obtain ⟨-, pre, rest, hn⟩ := hat.advance n
    obtain ⟨spaces, line, gap, tail, -, hcall⟩ := hn.call
    rw [advance_succ]
    exact ⟨(hcall.some l hl).2.1, (hcall.some l hl).2.2.1⟩
  case skips =>
    intro n
    rw [nextLine_isSome, nextLine_snd]
    rfl

/-! ## Texts that show nothing -/

theorem nextLine_none_of_call {text pre spaces line gap tail : List UInt8} {tc : TextColumn}
    (h : Call text tc pre spaces line gap tail) (hnil : line ++ gap = []) : tc.nextLine.1 = none := by
  cases hl : tc.nextLine.1 with
  | none => rfl
  | some l => exact absurd hnil (h.some l hl).1

theorem At.nextLine_nil {text pre : List UInt8} {tc : TextColumn} (h : At text tc pre []) :
    tc.nextLine.1 = none ∧ ∃ pre', At text tc.nextLine.2 pre' [] := by
  obtain ⟨spaces, line, gap, tail, hnil, hcall⟩ := h.call
  simp only [List.nil_eq, List.append_eq_nil_iff] at hnil
  obtain ⟨⟨⟨-, rfl⟩, rfl⟩, rfl⟩ := hnil
  exact ⟨nextLine_none_of_call hcall rfl, _, hcall.next⟩

/-- A text of spaces has no lines. -/
theorem Started.nextLine_spaces {text : List UInt8} {newLength : Nat} {tc : TextColumn}
    (h : Started text newLength tc) (hspaces : ∀ c ∈ text, c = space) :
    tc.nextLine.1 = none ∧ ∃ pre, At text tc.nextLine.2 pre [] := by
  have hnew : tc.isNewLine = true := by
    obtain ⟨old, -, rfl | ⟨-, rfl⟩⟩ := h <;> rfl
  obtain ⟨spaces, line, gap, tail, htext, hcall⟩ := h.at.call
  have hnil : line ++ gap ++ tail = [] := by
    cases hrest : line ++ gap ++ tail with
    | nil => rfl
    | cons c cs =>
      have hc : c ∈ text := by
        rw [htext, List.append_assoc, List.append_assoc, ← List.append_assoc line, hrest]
        simp
      exact absurd (hspaces c hc) (hcall.indent_whole hnew c (by simp [hrest]))
  simp only [List.append_eq_nil_iff] at hnil
  obtain ⟨⟨rfl, rfl⟩, rfl⟩ := hnil
  exact ⟨nextLine_none_of_call hcall rfl, _, hcall.next⟩

theorem Started.advance_spaces {text : List UInt8} {newLength : Nat} {tc : TextColumn}
    (h : Started text newLength tc) (hspaces : ∀ c ∈ text, c = space) (n : Nat) :
    (TextColumn.advance n tc).nextLine.1 = none := by
  obtain ⟨hfirst, hnext⟩ := h.nextLine_spaces hspaces
  cases n with
  | zero => exact hfirst
  | succ n =>
    have hrest : ∃ pre, At text (TextColumn.advance (n + 1) tc) pre [] := by
      induction n with
      | zero => exact hnext
      | succ n ih =>
        obtain ⟨pre, hat⟩ := ih
        rw [advance_succ]
        exact hat.nextLine_nil.2
    obtain ⟨pre, hat⟩ := hrest
    exact hat.nextLine_nil.1

/-! ## The emphasis of the text before -/

def Glyph.isByte : Glyph → Bool
  | byte _ => true
  | _ => false

/-- The first colour sequence of a line is that of the emphasis it starts with. -/
theorem find?_line (k : Nat) {e : UInt8} {g : Glyph} {gs : List Glyph} (hstart : startGlyphs e = g :: gs)
    (hg : g.isByte = false) (line : List UInt8) :
    (List.replicate k (Glyph.byte space) ++ startGlyphs e ++ render false line).find? (!·.isByte) =
      some g := by
  have hnone : (List.replicate k (Glyph.byte space)).find? (!·.isByte) = none := by
    rw [List.find?_eq_none]
    intro x hx
    rw [(List.mem_replicate.1 hx).2]
    simp [Glyph.isByte]
  rw [List.append_assoc, List.find?_append, hnone, hstart]
  simp [hg]

/-- The first line of a text that has other characters than spaces. -/
theorem Started.output_one {text : List UInt8} {newLength : Nat} {tc : TextColumn}
    (h : Started text newLength tc) (hsolid : ¬ ∀ c ∈ text, c = space) :
    ∃ k line, output 1 tc =
      [List.replicate k (.byte space) ++ startGlyphs tc.endEmphasis ++ render false line] := by
  obtain ⟨spaces, line, gap, tail, htext, hcall⟩ := h.at.call
  cases hl : tc.nextLine.1 with
  | none =>
    have hnil := hcall.none hl
    rw [List.append_assoc, List.append_assoc, ← List.append_assoc line, hnil, List.append_nil] at htext
    exact absurd (htext ▸ hcall.indent_spaces) hsolid
  | some l =>
    obtain ⟨-, -, -, k, hline, -⟩ := hcall.some l hl
    exact ⟨k, line, by simp [output, hl, hline]⟩

/-- An object that has shown a text with the emphasis 1 at its end. -/
def emphasised : TextColumn := (new.setText (some [esc, 1, 0x78])).nextLine.2

theorem emphasised_endEmphasis : emphasised.endEmphasis = 1 := by
  decide

/-- **The emphasis of the text shown before** is that of the first line. -/
theorem lines_depend_on_emphasis {text : List UInt8} (hsolid : ¬ ∀ c ∈ text, c = space)
    (newLength : Nat) : ∃ tc tc', Started text newLength tc ∧ Started text newLength tc' ∧
      output 1 tc ≠ output 1 tc' := by
  have hplain : Started text newLength ((new.setLineLength newLength).setText (some text)) :=
    ⟨new, .new, .inl rfl⟩
  have hmarked : Started text newLength ((emphasised.setLineLength newLength).setText (some text)) :=
    ⟨emphasised, .nextLine (.setText .new _), .inl rfl⟩
  refine ⟨_, _, hplain, hmarked, fun heq => ?_⟩
  obtain ⟨k, line, hout⟩ := hplain.output_one hsolid
  obtain ⟨k', line', hout'⟩ := hmarked.output_one hsolid
  rw [hout, hout', List.singleton_inj] at heq
  have hfirst := congrArg (List.find? (!·.isByte)) heq
  have hcolor : startGlyphs ((new.setLineLength newLength).setText (some text)).endEmphasis =
      [.textColor] := rfl
  have hemph : startGlyphs ((emphasised.setLineLength newLength).setText (some text)).endEmphasis =
      [.emphasis 1] := by
    show startGlyphs emphasised.endEmphasis = [.emphasis 1]
    rw [emphasised_endEmphasis]
    decide
  rw [find?_line k hcolor rfl, find?_line k' hemph rfl] at hfirst
  cases hfirst

/-- **Which texts are wrapped as they should be.**  The lines of every text end, fit, keep the
characters and split no mark; but they are the same whatever was displayed before only where the text
has no lines. -/
theorem wrapsText_iff (text : List UInt8) (newLength : Nat) :
    (∀ tc, Started text newLength tc → Wrapped text tc) ∧
      (WrapsText text newLength ↔ ∀ c ∈ text, c = space) := by
  refine ⟨fun tc h => wrapped_of_started h, ?_, ?_⟩
  · intro h
    apply Classical.byContradiction
    intro hsolid
    obtain ⟨tc, tc', htc, htc', hne⟩ := lines_depend_on_emphasis hsolid newLength
    exact hne (h.repeatable tc tc' htc htc' 1)
  · intro hspaces
    have houtput : ∀ tc, Started text newLength tc → ∀ n, output n tc = [] := by
      intro tc htc n
      cases n with
      | zero => rfl
      | succ n => simp [output, (htc.nextLine_spaces hspaces).1]
    constructor
    case wrapped => exact fun tc h => wrapped_of_started h
    case empty =>
      intro tc h n l hl
      rw [h.advance_spaces hspaces n] at hl
      cases hl
    case repeatable =>
      intro tc tc' h h' n
      rw [houtput tc h, houtput tc' h']

/-- A line that is filled exactly, with a space behind it and one more line. -/
def filledText : List UInt8 := List.replicate 40 0x78 ++ [space, newline, 0x79]

/-- An empty line follows the filled one, although no line of the text is blank. -/
theorem filled_line_wrong : ¬ WrapsText filledText 40 := by
  intro h
  have hstart : Started filledText 40 ((new.setLineLength 40).setText (some filledText)) :=
    ⟨new, .new, .inl rfl⟩
  have hblank : BlankAt filledText 41 :=
    h.empty _ hstart 1 [.textColor] (by decide +kernel) (by decide +kernel)
  obtain ⟨before, body, after, htext, hle, hge, hbefore, -, hsolid⟩ := hblank
  rcases hbefore with rfl | ⟨b, rfl, -⟩
  · -- the line of the text begins with its first character
    cases body with
    | nil => simp at hge
    | cons c body =>
      have hc : c = 0x78 := by
        have hhead := congrArg List.head? htext
        simpa [filledText, List.replicate] using hhead.symm
      subst hc
      rw [visible_cons (by decide)] at hsolid
      simp [solid, space, newline] at hsolid
  · -- no newline stands in front of the empty line
    have hnone : ∀ i < 41, filledText[i]? ≠ some newline := by decide
    apply hnone b.length
    · simp at hle
      omega
    · rw [htext]
      simp

end DrbdUtils.DrbdMon.TextColumn
