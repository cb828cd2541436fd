import DrbdUtils.Lib.Lines
import DrbdUtils.Lib.Strtoul
import DrbdUtils.Meta.BitmapDump

/-!
# The text of a bitmap dump

What `fprintf_bm()` of `drbdmeta.c` writes around its items: the lines with eight words each, and a
comment with the offset in front of some of them.

* `TextInv` — the lines so far, and how much of the last one is there.
* `fprintfBmText_lines` — the lines of a whole section.
-/

set_option autoImplicit false

namespace DrbdUtils.Meta

open BlockDevice Numerals

/-! ## The program -/

/-- `fprintf_bm_eol`, without an indent. -/
def fprintfBmEol (i peerNr : Nat) : List Char :=
  if i &&& 63 = peerNr then
    "\n   # at ".toList ++ decText (128 * (i - peerNr)) ++ "kB\n   ".toList
  else "\n   ".toList

/-- `" %u times 0x%08X%08X;"` or `" 0x%08X%08X;"`. -/
def DumpItem.text : DumpItem → List Char
  | .single value => " 0x".toList ++ hexText 16 value.toNat ++ [';']
  | .repeated n value =>
    ' ' :: decText n.toNat ++ " times 0x".toList ++ hexText 16 value.toNat ++ [';']

/-- What a visit of `next:` writes: the end of the line before, unless a run is open, and then the
    items that it prints. -/
def visitText (maxPeers peerNr : Nat) (s s' : BmDump) : List Char :=
  (if s.i % (WPL * maxPeers) = peerNr ∧ s.count = 0 then fprintfBmEol s.r peerNr else []) ++
    (s'.out.drop s.out.length).flatMap DumpItem.text

/-- `fprintfBmLoop`, with the text. -/
def fprintfBmLoopText (cfg : Format) (maxPeers peerNr n maxChunkSize : Nat) :
    Nat → BmLabel → BmDump → List Char → MetaRun (BmDump × List Char)
  | _, .done, s, text => pure (s, text)
  | 0, _, _, _ => Run.stop .outOfFuel
  | fuel + 1, .head, s, text =>
    if s.r < n then
      if maxChunkSize ≤ s.i * 4 then do
        let s ← fprintfBmStart cfg maxPeers n maxChunkSize { s with i := s.i - maxChunkSize / 4 }
        fprintfBmLoopText cfg maxPeers peerNr n maxChunkSize fuel .next s text
      else fprintfBmLoopText cfg maxPeers peerNr n maxChunkSize fuel .next s text
    else pure (s, text)
  | fuel + 1, .next, s, text => do
    let bm ← Run.getBuf
    let visit ← liftExcept (fprintfBmNext bm maxPeers peerNr n s)
    fprintfBmLoopText cfg maxPeers peerNr n maxChunkSize fuel visit.1 visit.2
      (text ++ visitText maxPeers peerNr s visit.2)

/-- `fprintf_bm`: the text and `bits_set`. -/
def fprintfBmText (cfg : Format) (peerNr fuel : Nat) : MetaRun (List Char × Nat) := do
  let maxPeers := cfg.md.maxPeers.toNat
  let n := cfg.bmBytes / 4 % 2 ^ 32
  let maxChunkSize := roundDown bufferSize (4096 * maxPeers)
  assert (DRBD_PEERS_MAX * 4096 ≤ bufferSize)
  assert (maxChunkSize ≠ 0)
  let s : BmDump := ⟨cfg.bmOffset, 0, 0, 0, 0, 0, peerNr, peerNr, []⟩
  if peerNr < n then do
    let s ← fprintfBmStart cfg maxPeers n maxChunkSize s
    let (s, text) ← fprintfBmLoopText cfg maxPeers peerNr n maxChunkSize fuel .next s ['{']
    pure (text ++ "\n\x7d\n".toList, s.bitsSet)
  else pure ('{' :: "\n\x7d\n".toList, 0)

/-! ## The lines -/

/-- A line of a section: where it begins, and its items. -/
structure DumpLine where
  at_ : Nat
  items : List DumpItem

/-- A line with the end of the line before. -/
def DumpLine.text (peerNr : Nat) (line : DumpLine) : List Char :=
  fprintfBmEol line.at_ peerNr ++ line.items.flatMap DumpItem.text

/-- A run alone, or some single values. -/
inductive DumpLine.Full (line : DumpLine) : Prop where
  | run (n v : BitVec 64) (items : line.items = [.repeated n v])
  | values (vs : List (BitVec 64)) (items : line.items = vs.map .single) (ne_nil : vs ≠ [])

/-- What is printed when `ki` words of the chunk are done: full lines, and perhaps one that is begun
    with a value for every two words. -/
structure TextInv (p ki : Nat) (s : BmDump) (text : List Char) (lines : List DumpLine)
    (begun : Option DumpLine) : Prop where
  text_eq : text = '{' :: (lines ++ begun.toList).flatMap (DumpLine.text p)
  out_eq : s.out = (lines ++ begun.toList).flatMap DumpLine.items
  full : ∀ line ∈ lines, line.Full
  begun_iff : begun = none ↔ s.count = 0 ∧ ki % 8 = 0
  values : ∀ line ∈ begun, ∃ vs : List (BitVec 64), line.items = vs.map .single ∧
    vs.length = ki % 8 / 2

section Visit

variable {p m n cm : Nat} {W : Nat → BitVec 32} {bmOffset : Nat} {s s' : BmDump} {bm : Mem}
  {kb ki ki' : Nat} {text : List Char} {lines : List DumpLine} {begun : Option DumpLine}

theorem TextInv.of_same (h : TextInv p ki s text lines begun) (hout : s'.out = s.out)
    (hcount : s'.count = s.count) (hki : ki' % 8 = ki % 8) : TextInv p ki' s' text lines begun where
  text_eq := h.text_eq
  out_eq := hout.trans h.out_eq
  full := h.full
  begun_iff := by rw [hcount, hki]; exact h.begun_iff
  values := by rw [hki]; exact h.values

/-- The line that a visit writes to: the one that is begun, or a new one. -/
theorem TextInv.begin (h : TextInv p ki s text lines begun) :
    ∃ line : DumpLine, (∃ vs : List (BitVec 64), line.items = vs.map .single ∧
        vs.length = ki % 8 / 2) ∧
      text ++ (if ki % 8 = 0 ∧ s.count = 0 then fprintfBmEol s.r p else []) =
        '{' :: (lines ++ [line]).flatMap (DumpLine.text p) ∧
      s.out = (lines ++ [line]).flatMap DumpLine.items := by
  have htext := h.text_eq
  have hout := h.out_eq
  cases begun with
  | none =>
    obtain ⟨hcount, hki⟩ := h.begun_iff.1 rfl
    refine ⟨⟨s.r, []⟩, ⟨[], rfl, by rw [hki]; rfl⟩, ?_, ?_⟩
    · rw [if_pos ⟨hki, hcount⟩, htext]
      simp [DumpLine.text]
    · rw [hout]
      simp
  | some line =>
    have hnot : ¬(ki % 8 = 0 ∧ s.count = 0) := fun hc => by
      cases h.begun_iff.2 ⟨hc.2, hc.1⟩
    refine ⟨line, h.values line rfl, ?_, hout⟩
    rw [if_neg hnot, List.append_nil, htext]
    rfl

/-- The items that a visit prints end the line. -/
theorem DumpLine.text_append (line : DumpLine) (lines : List DumpLine) (items : List DumpItem) :
    (lines ++ [{ line with items := line.items ++ items }]).flatMap (DumpLine.text p) =
      (lines ++ [line]).flatMap (DumpLine.text p) ++ items.flatMap DumpItem.text := by
  simp [DumpLine.text]

theorem DumpLine.items_append (line : DumpLine) (lines : List DumpLine) (items : List DumpItem) :
    (lines ++ [{ line with items := line.items ++ items }]).flatMap DumpLine.items =
      (lines ++ [line]).flatMap DumpLine.items ++ items := by
  simp

/-- **A visit** keeps the lines in order. -/
theorem TextInv.visit (h : TextInv p ki s text lines begun) (hinv : DumpInv p m n cm W bmOffset s bm kb ki)
    (g : DumpGeometry p m n cm) (hvisit : Visit s s' ki ki') :
    ∃ lines' begun', TextInv p ki' s' (text ++ visitText m p s s') lines' begun' := by
  obtain ⟨line, ⟨vs, hitems, hlength⟩, htext, hout⟩ := h.begin
  have hline : (s.i % (WPL * m) = p ∧ s.count = 0) ↔ (ki % 8 = 0 ∧ s.count = 0) :=
    and_congr_left fun _ => hinv.line_iff g
  have hnew : ∀ items, s'.out = s.out ++ items → text ++ visitText m p s s' =
      '{' :: (lines ++ [{ line with items := line.items ++ items }]).flatMap (DumpLine.text p) := by
    intro items hs'
    rw [visitText, ← List.append_assoc, hs', List.drop_left, DumpLine.text_append, ← List.cons_append,
      ← htext]
    simp only [hline]
  cases hvisit with
  | grow hki hki' hcount hs' =>
    have hnil := hnew [] (by rw [hs', List.append_nil])
    simp only [List.append_nil] at hnil
    refine ⟨lines, some line, hnil, hs'.trans hout, h.full, ?_, ?_⟩
    · exact ⟨nofun, fun hc => by omega⟩
    · rintro line' ⟨⟩
      exact ⟨vs, hitems, by omega⟩
  | run n v hki hki' hcount hs' =>
    have hvs : vs = [] := List.length_eq_zero_iff.1 (by omega)
    have hfull : DumpLine.Full { line with items := line.items ++ [.repeated n v] } :=
      .run n v (by rw [hitems, hvs]; rfl)
    refine ⟨lines ++ [{ line with items := line.items ++ [.repeated n v] }], none, ?_, ?_, ?_, ?_, nofun⟩
    · rw [hnew _ hs']
      simp
    · rw [Option.toList_none, List.append_nil, DumpLine.items_append, ← hout, hs']
    · rw [List.forall_mem_append]
      exact ⟨h.full, by simpa using hfull⟩
    · exact ⟨fun _ => ⟨hcount, hki'⟩, fun _ => rfl⟩
  | low heven hnext hcount hcount' hs' =>
    have hnil := hnew [] (by rw [hs', List.append_nil])
    simp only [List.append_nil] at hnil
    refine ⟨lines, some line, hnil, hs'.trans hout, h.full, ?_, ?_⟩
    · exact ⟨nofun, fun hc => by omega⟩
    · rintro line' ⟨⟩
      exact ⟨vs, hitems, by omega⟩
  | high v hodd hnext hcount hcount' hs' =>
    have hsingle : line.items ++ [.single v] = (vs ++ [v]).map DumpItem.single := by
      rw [hitems, List.map_append]
      rfl
    by_cases hend : ki' % 8 = 0
    · have hfull : DumpLine.Full { line with items := line.items ++ [.single v] } :=
        .values (vs ++ [v]) hsingle (by simp)
      refine ⟨lines ++ [{ line with items := line.items ++ [.single v] }], none, ?_, ?_, ?_, ?_, nofun⟩
      · rw [hnew _ hs']
        simp
      · rw [Option.toList_none, List.append_nil, DumpLine.items_append, ← hout, hs']
      · rw [List.forall_mem_append]
        exact ⟨h.full, by simpa using hfull⟩
      · exact ⟨fun _ => ⟨hcount', hend⟩, fun _ => rfl⟩
    · refine ⟨lines, some { line with items := line.items ++ [.single v] }, hnew _ hs', ?_, h.full,
        ?_, ?_⟩
      · rw [Option.toList_some, DumpLine.items_append, ← hout, hs']
      · exact ⟨nofun, fun hc => absurd hc.2 hend⟩
      · rintro line' ⟨⟩
        refine ⟨vs ++ [v], hsingle, ?_⟩
        rw [List.length_append, List.length_singleton]
        omega

end Visit

/-! ## A whole section -/

section Section

variable {cfg : Format} {p m n cm : Nat}

/-- With the text the loop goes the way it goes without. -/
theorem of_fprintfBmLoopText_ok {maxChunkSize fuel : Nat} {l : BmLabel} {s s' : BmDump}
    {text text' : List Char} {w w' : World}
    (h : fprintfBmLoopText cfg m p n maxChunkSize fuel l s text w = (.ok (s', text'), w')) :
    fprintfBmLoop cfg m p n maxChunkSize fuel l s w = (.ok s', w') := by
  induction fuel generalizing l s text w with
  | zero =>
    cases l with
    | done =>
      cases h
      rfl
    | head => cases h
    | next => cases h
  | succ fuel ih =>
    cases l with
    | done =>
      cases h
      rfl
    | head =>
      rw [fprintfBmLoopText] at h
      rw [fprintfBmLoop]
      split at h
      · next hr =>
        rw [if_pos hr]
        split at h
        · next hwrap =>
          obtain ⟨s₁, w₁, hstart, hrest⟩ := Run.of_bind_ok h
          rw [if_pos hwrap, Run.bind_ok hstart]
          exact ih hrest
        · next hstay =>
          rw [if_neg hstay]
          exact ih h
      · next hr =>
        rw [if_neg hr]
        cases h
        rfl
    | next =>
      obtain ⟨bm, w₁, hbuf, h₁⟩ := Run.of_bind_ok h
      obtain ⟨visit, w₂, hvisit, hrest⟩ := Run.of_bind_ok h₁
      rw [fprintfBmLoop, Run.bind_ok hbuf, Run.bind_ok hvisit]
      exact ih hrest

/-- **The text is that of the items** `fprintf_bm()` prints. -/
theorem of_fprintfBmText_ok {fuel bits : Nat} {text : List Char} {w w' : World}
    (h : fprintfBmText cfg p fuel w = (.ok (text, bits), w')) :
    ∃ items, fprintfBm cfg p fuel w = (.ok (items, bits), w') := by
  obtain ⟨_, w₁, hsize, h⟩ := Run.of_bind_ok h
  obtain ⟨_, w₂, hchunk, h⟩ := Run.of_bind_ok h
  unfold fprintfBm
  rw [Run.bind_ok hsize, Run.bind_ok hchunk]
  dsimp only at h ⊢
  split at h
  · next hp =>
    rw [if_pos hp]
    obtain ⟨s, w₃, hstart, h⟩ := Run.of_bind_ok h
    obtain ⟨⟨s', text'⟩, w₄, hloop, h⟩ := Run.of_bind_ok h
    cases h
    rw [Run.bind_ok hstart, Run.bind_ok (of_fprintfBmLoopText_ok hloop)]
    exact ⟨s'.out, rfl⟩
  · next hp =>
    rw [if_neg hp]
    cases h
    exact ⟨[], rfl⟩

theorem of_fprintfBmStart_ok {maxChunkSize : Nat} {s s' : BmDump} {w w' : World}
    (h : fprintfBmStart cfg m n maxChunkSize s w = (.ok s', w')) :
    s'.out = s.out ∧ s'.count = s.count := by
  unfold fprintfBmStart at h
  obtain ⟨-, w₁, -, h⟩ := Run.of_bind_ok h
  obtain ⟨-, w₂, -, h⟩ := Run.of_bind_ok h
  cases h
  exact ⟨rfl, rfl⟩

/-- **The loop** prints lines: behind it every word is in one of them. -/
theorem fprintfBmLoopText_lines (g : DumpGeometry p m n cm)
    (hdev : cfg.bmOffset + 4 * n ≤ cfg.bdSize) {disk : Mem} :
    ∀ (fuel : Nat) (l : BmLabel) (s : BmDump) (w : World) (kb ki : Nat), w.disk = disk →
      DumpInv p m n cm (bitmapWord cfg disk) cfg.bmOffset s w.buf kb ki → AtLabel n cm ki l s →
      (l ≠ .done → bmRank n l s ≤ fuel) → ∀ text lines begun, TextInv p ki s text lines begun →
      ∃ s' text' w' kb' ki' lines' begun',
        fprintfBmLoopText cfg m p n (4 * (cm * m)) fuel l s text w = (.ok (s', text'), w') ∧
          w'.disk = disk ∧ n ≤ s'.r ∧ s'.count = 0 ∧ TextInv p ki' s' text' lines' begun' ∧
          DumpInv p m n cm (bitmapWord cfg disk) cfg.bmOffset s' w'.buf kb' ki' := by
  refine fprintfBmLoop_rule g hdev ?_ ?_ ?_ ?_ ?_
  · intro fuel s w kb ki hd h hr hc text lines begun htext
    refine ⟨s, text, w, kb, ki, lines, begun, ?_, hd, hr, hc, htext, h⟩
    cases fuel <;> rfl
  · intro fuel s w kb ki hd h hr hc text lines begun htext
    rw [fprintfBmLoopText, if_neg (by omega)]
    exact ⟨s, text, w, kb, ki, lines, begun, rfl, hd, hr, hc, htext, h⟩
  · intro fuel s s' w w' hr hwrap hrun hrest text lines begun htext
    obtain ⟨hout, hcount⟩ := of_fprintfBmStart_ok hrun
    have hchunk : 0 % 8 = cm % 8 := by
      have := g.chunk
      omega
    rw [fprintfBmLoopText, if_pos hr, if_pos hwrap, Run.bind_ok hrun]
    exact hrest text lines begun (htext.of_same hout hcount hchunk)
  · intro fuel s w ki hr hstay hrest text lines begun htext
    rw [fprintfBmLoopText, if_pos hr, if_neg hstay]
    exact hrest text lines begun htext
  · intro fuel l s s' w kb ki ki' hinv hrun hvisit hrest text lines begun htext
    have hlift : liftExcept (fprintfBmNext w.buf m p n s) w = (.ok (l, s'), w) := by
      rw [hrun]
      rfl
    obtain ⟨lines', begun', htext'⟩ := htext.visit hinv g hvisit
    rw [fprintfBmLoopText, Run.bind_ok (Run.getBuf_apply w), Run.bind_ok hlift]
    exact hrest _ lines' begun' htext'

/-- The text of a section: lines with items, and perhaps a last one without. -/
structure SectionText (p k : Nat) (items : List DumpItem) (text : List Char) (lines : List DumpLine)
    (blank : Option Nat) : Prop where
  text_eq : text = '{' :: lines.flatMap (DumpLine.text p) ++
    blank.toList.flatMap (fprintfBmEol · p) ++ "\n\x7d\n".toList
  items_eq : items = lines.flatMap DumpLine.items
  full : ∀ line ∈ lines, line.Full
  blank_iff : blank.isSome = true ↔ k % 8 = 1

/-- A last line that is begun has a value, or none when only a low word is left. -/
theorem TextInv.section {ki : Nat} {s : BmDump} {text : List Char} {lines : List DumpLine}
    {begun : Option DumpLine} (h : TextInv p ki s text lines begun) (hcount : s.count = 0) :
    ∃ lines' blank, SectionText p ki s.out (text ++ "\n\x7d\n".toList) lines' blank := by
  have htext := h.text_eq
  have hout := h.out_eq
  cases begun with
  | none =>
    have hki := (h.begun_iff.1 rfl).2
    refine ⟨lines, none, ?_, ?_, h.full, ?_⟩
    · rw [htext]
      simp
    · rw [hout]
      simp
    · simp [hki]
  | some line =>
    have hki : ki % 8 ≠ 0 := fun h0 => nomatch h.begun_iff.2 ⟨hcount, h0⟩
    obtain ⟨vs, hitems, hlength⟩ := h.values line rfl
    by_cases hvs : vs = []
    · -- the line has its indent only
      have hnil : line.items = [] := by rw [hitems, hvs, List.map_nil]
      rw [hvs, List.length_nil] at hlength
      refine ⟨lines, some line.at_, ?_, ?_, h.full, ?_⟩
      · rw [htext]
        simp [DumpLine.text, hnil]
      · rw [hout]
        simp [hnil]
      · simp only [Option.isSome_some, true_iff]
        omega
    · have hpos : 0 < vs.length := List.length_pos_iff.2 hvs
      refine ⟨lines ++ [line], none, ?_, ?_, ?_, ?_⟩
      · rw [htext]
        simp
      · rw [hout]
        simp
      · rw [List.forall_mem_append]
        exact ⟨h.full, by simpa using DumpLine.Full.values vs hitems hvs⟩
      · simp only [Option.isSome_none, Bool.false_eq_true, false_iff]
        omega

/-- **The lines of a section**: all words of the slot below the 32-bit word count, but for a last low
    word, are in lines with items; a last line without any is there exactly if the number of words is
    one more than a multiple of eight. -/
theorem fprintfBmText_lines {cfg : Format} {p fuel : Nat} (hbm : 4096 ∣ cfg.bmBytes)
    (hp : p < cfg.md.maxPeers.toNat) (hm : cfg.md.maxPeers.toNat ≤ DRBD_PEERS_MAX)
    (hdev : cfg.bmOffset + cfg.bmBytes ≤ cfg.bdSize) (hfuel : cfg.bmBytes + 3 ≤ fuel) (w : World) :
    ∃ s text bits w' lines blank, fprintfBmText cfg p fuel w = (.ok (text, bits), w') ∧
      w'.disk = w.disk ∧
      Dumped p cfg.md.maxPeers.toNat (cfg.bmBytes / 4 % 2 ^ 32) (bitmapWord cfg w.disk) s ∧
      SectionText p (slotWordCount (cfg.bmBytes / 4 % 2 ^ 32) cfg.md.maxPeers.toNat p) s.out text lines
        blank := by
  have hn1024 : cfg.bmBytes / 4 % 2 ^ 32 % 1024 = 0 := by omega
  have hnlt : cfg.bmBytes / 4 % 2 ^ 32 < 2 ^ 32 := Nat.mod_lt _ (by omega)
  have hnle : 4 * (cfg.bmBytes / 4 % 2 ^ 32) ≤ cfg.bmBytes := by omega
  generalize hn : cfg.bmBytes / 4 % 2 ^ 32 = n at *
  obtain ⟨g, hchunk⟩ := dumpGeometry hp hm hn1024 hnlt
  generalize bufferSize / (4096 * cfg.md.maxPeers.toNat) * 1024 = cm at g hchunk
  have hcpos : 4 * (cm * cfg.md.maxPeers.toNat) ≠ 0 := by
    have := Nat.mul_pos g.chunk_pos (show 0 < cfg.md.maxPeers.toNat by omega)
    omega
  unfold fprintfBmText
  rw [hn, hchunk, Run.bind_ok (assert_pos (by decide +kernel) w), Run.bind_ok (assert_pos hcpos w)]
  by_cases hpn : p < n
  · rw [if_pos hpn]
    obtain ⟨s, w1, hrun, hlog, hbase, hc, hr, hinv⟩ := @fprintfBmStart_inv cfg p _ n _
      ⟨cfg.bmOffset, 0, 0, 0, 0, 0, p, p, []⟩ 0 g (by omega) (by simp) rfl hpn
      (Nat.dvd_zero _) (by simp) w rfl rfl
    have hd : w1.disk = w.disk := by unfold World.disk; rw [hlog, hbase]
    have hat : AtLabel n cm 0 .next s := ⟨by rw [hr]; exact hpn, g.chunk_pos⟩
    have hrank : bmRank n .next s ≤ fuel := by
      simp only [bmRank, hr, hc, if_true]
      simp
      omega
    have hout : s.out = [] := (of_fprintfBmStart_ok hrun).1
    have htext : TextInv p 0 s ['{'] [] none :=
      ⟨by simp, by simp [hout], by simp, by simp [hc], by simp⟩
    obtain ⟨s', text', w2, kb, ki, lines, begun, hloop, hd2, hr', hc', htext', hinv'⟩ :=
      fprintfBmLoopText_lines g (by omega) fuel .next s w1 0 0 hd hinv hat (fun _ => hrank) _ _ _ htext
    obtain ⟨lines', blank, hsection⟩ := htext'.section hc'
    have hk : slotWordCount n cfg.md.maxPeers.toNat p = kb + ki :=
      slotWordCount_unique hp (hinv'.r_eq ▸ hr') (hinv'.r_eq ▸ hinv'.r_lt)
    have hmod : (kb + ki) % 8 = ki % 8 := by
      have := hinv'.base
      omega
    refine ⟨s', text' ++ "\n\x7d\n".toList, s'.bitsSet, w2, lines', blank, ?_, hd2, hinv'.dumped hr' hc', ?_⟩
    · rw [Run.bind_ok hrun, Run.bind_ok hloop]
      rfl
    · exact { hsection with blank_iff := by rw [hk, hmod]; exact hsection.blank_iff }
  · rw [if_neg hpn]
    have hk : slotWordCount n cfg.md.maxPeers.toNat p = 0 :=
      slotWordCount_unique hp (by omega) (by omega)
    refine ⟨⟨0, 0, 0, 0, 0, 0, 0, 0, []⟩, '{' :: "\n\x7d\n".toList, 0, w, [], none, rfl, rfl,
      ⟨0, by omega, by omega, ?_⟩, ?_⟩
    · simp [halfWords, slotWords]
    · exact ⟨by simp, by simp, by simp, by simp [hk]⟩

end Section

end DrbdUtils.Meta
