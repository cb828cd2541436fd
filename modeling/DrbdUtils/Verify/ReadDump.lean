import DrbdUtils.Meta.DryRun
import DrbdUtils.Meta.DumpMd
import DrbdUtils.Verify.OosBitmap
import DrbdUtils.Verify.ParseBitmap

/-!
# drbd-verify reads what dump-md prints

`parse_bitmap_for_peer()` on the text of `meta_dump_md()`.

* `readBitmap_section` — a section is read back, unless its last line is blank.
* `bit_values` — the bytes that are read have the bits of the words that were printed.
* `parseBitmapForPeer_readsBack_iff` — when the bitmap of a peer is read back.
-/

set_option autoImplicit false

namespace DrbdUtils.Verify

open BlockDevice Meta Pattern Numerals LittleEndian

/-! ## Texts without a brace -/

section Chars

@[simp] theorem brace_not_mem_decText (n : Nat) : '{' ∉ decText n := not_mem_decText (by decide) n

@[simp] theorem brace_not_mem_intText (z : Int) : '{' ∉ intText z :=
  not_mem_intText (by decide) (by decide) z

@[simp] theorem brace_not_mem_hexText (width n : Nat) : '{' ∉ hexText width n :=
  not_mem_hexText (by decide) width n

@[simp] theorem newline_not_mem_decText (n : Nat) : '\n' ∉ decText n := not_mem_decText (by decide) n

@[simp] theorem newline_not_mem_intText (z : Int) : '\n' ∉ intText z :=
  not_mem_intText (by decide) (by decide) z

@[simp] theorem newline_not_mem_hexText (width n : Nat) : '\n' ∉ hexText width n :=
  not_mem_hexText (by decide) width n

@[simp] theorem b_not_mem_decText (n : Nat) : 'b' ∉ decText n := not_mem_decText (by decide) n

@[simp] theorem b_not_mem_hexText (width n : Nat) : 'b' ∉ hexText width n :=
  not_mem_hexText_of_toUpper (by decide) width n

@[simp] theorem y_not_mem_intText (z : Int) : 'y' ∉ intText z :=
  not_mem_intText (by decide) (by decide) z

@[simp] theorem y_not_mem_hexText (width n : Nat) : 'y' ∉ hexText width n :=
  not_mem_hexText (by decide) width n

theorem peerFlagText_plain : ∀ i ∈ List.range 32, ∀ c ∈ ['{', 'b'], c ∉ peerFlagText i := by
  have hall : ((List.range 32).all fun i =>
      ['{', 'b'].all fun c => !(peerFlagText i).contains c) = true := by decide +kernel
  intro i hi c hc
  simpa using List.all_eq_true.1 (List.all_eq_true.1 hall i hi) c hc

theorem prettyFlagsLoop_plain {c : Char} (hc : c ∈ ['{', 'b']) (flags : BitVec 32) {sep : List Char}
    (hsep : c ∉ sep) : ∀ (is : List Nat) (n : Nat) (curSep : List Char), c ∉ curSep →
      (∀ i ∈ is, i ∈ List.range 32) → c ∉ prettyFlagsLoop flags sep is n curSep
  | [], _, _, _, _ => List.not_mem_nil
  | i :: is, n, curSep, hcur, his => by
    rw [List.forall_mem_cons] at his
    have hpiece : c ∉ curSep ++ peerFlagText i := by
      rw [List.mem_append, not_or]
      exact ⟨hcur, peerFlagText_plain i his.1 c hc⟩
    rw [prettyFlagsLoop]
    dsimp only
    split
    · split
      · exact fun hmem => hpiece (List.mem_of_mem_take hmem)
      · rw [List.mem_append, not_or]
        exact ⟨hpiece, prettyFlagsLoop_plain hc flags hsep is _ sep hsep his.2⟩
    · exact prettyFlagsLoop_plain hc flags hsep is n curSep hcur his.2

theorem prettyPeerMdFlags_plain {c : Char} (hc : c ∈ ['{', 'b']) (flags : BitVec 32) :
    c ∉ prettyPeerMdFlags 80 flags " # ".toList " | ".toList := by
  have hsep : ∀ c ∈ ['{', 'b'], c ∉ " | ".toList ∧ c ∉ " # ".toList := by simp
  exact prettyFlagsLoop_plain hc flags (hsep c hc).1 _ _ _ (hsep c hc).2 fun _ hi => hi

@[simp] theorem brace_not_mem_flags (flags : BitVec 32) :
    '{' ∉ prettyPeerMdFlags 80 flags " # ".toList " | ".toList :=
  prettyPeerMdFlags_plain (by decide) flags

@[simp] theorem b_not_mem_flags (flags : BitVec 32) :
    'b' ∉ prettyPeerMdFlags 80 flags " # ".toList " | ".toList :=
  prettyPeerMdFlags_plain (by decide) flags

end Chars

/-! ## Lines of the superblock -/

section Superblock

theorem peerText_eq (md : MdCpu) (i : Fin DRBD_PEERS_MAX) (rest : List Char) : peerText md i ++ rest =
    sectionHead "peer".toList (decText i) ++ '\n' ::
      ("    bitmap-index ".toList ++ intText (md.peers i).bitmapIndex.toInt ++ [';'] ++ '\n' ::
        (peerRest (md.peers i) ++ rest)) := by
  have hopen : "peer[".toList = "peer".toList ++ ['['] := rfl
  have hclose : "] \x7b\n".toList = "] \x7b".toList ++ ['\n'] := rfl
  have hend : ";\n".toList = [';'] ++ ['\n'] := rfl
  unfold peerText sectionHead
  simp only [hopen, hclose, hend]
  simp only [List.append_assoc, List.cons_append, List.nil_append]

theorem ends_append (front : List Char) {text : List Char} (h : text.getLast? = some '\n') :
    (front ++ text).getLast? = some '\n' := by
  rw [List.getLast?_append, h]
  rfl

theorem peerRest_unmatched {pat : List Piece} (hy : 'y' ∈ chars pat) (hb : 'b' ∈ chars pat)
    (peer : PeerMdCpu) : Unmatched pat (peerRest peer) := by
  refine .append (.of_not_mem hy ?_ (ends_append _ (by decide)))
    (.of_not_mem hb ?_ (ends_append _ (by decide)))
  · simp only [uuidHex, uuidText, List.mem_append, y_not_mem_hexText, or_false]
    decide
  · simp only [flagsHex, List.mem_append, b_not_mem_hexText, b_not_mem_flags, or_false]
    decide

theorem newline_not_mem_sectionHead {tag number : List Char} (htag : '\n' ∉ tag)
    (hnumber : '\n' ∉ number) : '\n' ∉ sectionHead tag number := by
  simp [sectionHead, htag, hnumber]

theorem newline_not_mem_bitmapIndex (z : Int) :
    '\n' ∉ "    bitmap-index ".toList ++ intText z ++ [';'] := by
  simp

/-- Another peer, for the reader that looks for one. -/
theorem peerText_unmatched_peer (md : MdCpu) {i : Fin DRBD_PEERS_MAX} {n : Nat} (h : i.val ≠ n) :
    Unmatched (peerPattern n) (peerText md i) := by
  have hbrace : '{' ∈ chars (peerPattern n) := by simp [peerPattern, sectionPattern, chars]
  have hindex : search (peerPattern n) ("    bitmap-index ".toList ++
      intText (md.peers i).bitmapIndex.toInt ++ [';']) = none :=
    search_eq_none hbrace (by simp)
  have hrest : Unmatched (peerPattern n) (peerRest (md.peers i)) := by
    unfold peerRest
    refine .of_not_mem hbrace ?_ (ends_append _ (ends_append _ (by decide)))
    simp only [uuidHex, uuidText, flagsHex, List.mem_append, brace_not_mem_hexText,
      brace_not_mem_flags, or_false]
    decide
  have hall := Unmatched.cons (newline_not_mem_sectionHead (by decide) (newline_not_mem_decText _))
    (search_peer_none h) (.cons (newline_not_mem_bitmapIndex _) hindex hrest)
  have heq := peerText_eq md i []
  rw [List.append_nil, List.append_nil] at heq
  rw [heq]
  exact hall

/-- A peer, for the reader that looks for the granularity. -/
theorem peerText_unmatched_granularity (md : MdCpu) (i : Fin DRBD_PEERS_MAX) :
    Unmatched bmBytePerBitPattern (peerText md i) := by
  have hhead : search bmBytePerBitPattern (sectionHead "peer".toList (decText i)) = none :=
    search_eq_none (c := 'b') (by decide) (by simp [sectionHead])
  have hindex : search bmBytePerBitPattern ("    bitmap-index ".toList ++
      intText (md.peers i).bitmapIndex.toInt ++ [';']) = none :=
    search_eq_none (c := 'y') (by decide) (by simp)
  have hall := Unmatched.cons (newline_not_mem_sectionHead (by decide) (newline_not_mem_decText i))
    hhead (.cons (newline_not_mem_bitmapIndex _) hindex
      (peerRest_unmatched (by decide) (by decide) (md.peers i)))
  have heq := peerText_eq md i []
  rw [List.append_nil, List.append_nil] at heq
  rw [heq]
  exact hall

theorem findBitmapIndex_unmatched {n : Nat} {text : List Char} (h : Unmatched (peerPattern n) text)
    (rest : List Char) : findBitmapIndex n false (Lines.lines '\n' (text ++ rest)) =
      findBitmapIndex n false (Lines.lines '\n' rest) := by
  obtain ⟨ls, hlines, hnone⟩ := h
  rw [hlines]
  clear hlines
  induction ls with
  | nil => rfl
  | cons line ls ih =>
    rw [List.forall_mem_cons] at hnone
    rw [List.cons_append, findBitmapIndex, hnone.1]
    exact ih hnone.2

/-- **The first loop** finds the index of the peer, and stops behind it. -/
theorem findBitmapIndex_peers (md : MdCpu) (node : Fin DRBD_PEERS_MAX) {front : List Char}
    (hfront : Unmatched (peerPattern node) front) : ∃ back : List (Fin DRBD_PEERS_MAX), ∀ rest,
      findBitmapIndex node false
          (Lines.lines '\n' (front ++ ((List.finRange DRBD_PEERS_MAX).flatMap (peerText md) ++ rest))) =
        some ((md.peers node).bitmapIndex.toInt,
          Lines.lines '\n' (peerRest (md.peers node) ++ (back.flatMap (peerText md) ++ rest))) := by
  obtain ⟨before, back, hsplit, hnot⟩ := List.eq_append_cons_of_mem (List.mem_finRange node)
  have hbefore : Unmatched (peerPattern node) (before.flatMap (peerText md)) :=
    .flatMap fun i hi => peerText_unmatched_peer md fun heq => hnot (Fin.ext heq ▸ hi)
  refine ⟨back, fun rest => ?_⟩
  obtain ⟨groups, hsearch, hindex⟩ := search_bitmapIndex (md.peers node).bitmapIndex.toInt
  have hnone : ¬(search (peerPattern node) ("    bitmap-index ".toList ++
      intText (md.peers node).bitmapIndex.toInt ++ [';'])).isSome = true := by
    rw [search_eq_none (c := '{') (by simp [peerPattern, sectionPattern, chars]) (by simp)]
    decide
  rw [hsplit, List.flatMap_append, List.flatMap_cons, List.append_assoc, List.append_assoc,
    findBitmapIndex_unmatched hfront, findBitmapIndex_unmatched hbefore, peerText_eq,
    Lines.lines_cons (newline_not_mem_sectionHead (by decide) (newline_not_mem_decText _)),
    findBitmapIndex, if_pos ((search_peer_iff _ _).2 rfl),
    Lines.lines_cons (newline_not_mem_bitmapIndex _), findBitmapIndex, if_neg hnone, if_pos rfl, hsearch]
  dsimp only
  rw [hindex]

theorem historyText_unmatched (md : MdCpu) : Unmatched bmBytePerBitPattern (historyText md) := by
  have huuid : ∀ i : Fin HISTORY_UUIDS, 'b' ∉ (if i.val % 4 = 0 then "\n        ".toList else [' ']) ++
      uuidHex (md.historyUuids i) ++ [';'] := by
    intro i
    simp only [uuidHex, uuidText, List.mem_append, b_not_mem_hexText, or_false]
    split <;> decide
  unfold historyText
  refine .of_not_mem (c := 'b') (by decide) ?_ (ends_append _ (by decide))
  simp only [List.mem_append, List.mem_flatMap, huuid, and_false, exists_false, or_false]
  decide

/-- The sizes in front of the granularity. -/
def extentsText (md : MdCpu) : List Char :=
  "# al-extents ".toList ++ decText md.alNrExtents.toNat ++ ";\n".toList ++
    "la-size-sect ".toList ++ decText md.effectiveSize.toNat ++ ";\n".toList

/-- What is between the granularity and the bitmap. -/
def behindGranularity (cfg : Format) : List Char :=
  deviceText cfg.md ++ "# bm-bytes ".toList ++ decText cfg.bmBytes ++ ";\n".toList

theorem sizesText_eq {cfg : Format} (h : cfg.version = .v09) (rest : List Char) : sizesText cfg ++ rest =
    extentsText cfg.md ++ ("bm-byte-per-bit ".toList ++ decText cfg.md.bmBytesPerBit.toNat ++ [';'] ++
      '\n' :: (behindGranularity cfg ++ rest)) := by
  have hver : cfg.version ≠ .v07 := by rw [h]; decide
  have hend : granularityText cfg.md = "bm-byte-per-bit ".toList ++
      decText cfg.md.bmBytesPerBit.toNat ++ ([';'] ++ ['\n']) := rfl
  unfold sizesText extentsText behindGranularity
  rw [if_pos hver, hend]
  simp only [List.append_assoc, List.cons_append, List.nil_append]

/-- **The second loop** finds the granularity. -/
theorem findLine_granularity {cfg : Format} (h : cfg.version = .v09) (peer : PeerMdCpu)
    (back : List (Fin DRBD_PEERS_MAX)) (rest : List Char) :
    findLine bmBytePerBitPattern (Lines.lines '\n' (peerRest peer ++
        (back.flatMap (peerText cfg.md) ++ (historyText cfg.md ++ (sizesText cfg ++ rest))))) =
      some (["bm-byte-per-bit".toList, [' '], decText cfg.md.bmBytesPerBit.toNat, [';']],
        Lines.lines '\n' (behindGranularity cfg ++ rest)) := by
  have hextents : Unmatched bmBytePerBitPattern (extentsText cfg.md) := by
    unfold extentsText
    refine .of_not_mem (c := 'b') (by decide) ?_ (ends_append _ (by decide))
    simp only [List.mem_append, b_not_mem_decText, or_false]
    decide
  have hline : '\n' ∉ "bm-byte-per-bit ".toList ++ decText cfg.md.bmBytesPerBit.toNat ++ [';'] := by
    simp
  rw [findLine_unmatched (peerRest_unmatched (by decide) (by decide) peer),
    findLine_unmatched (.flatMap fun i _ => peerText_unmatched_granularity cfg.md i),
    findLine_unmatched (historyText_unmatched cfg.md), sizesText_eq h, findLine_unmatched hextents,
    Lines.lines_cons hline, findLine, search_bmBytePerBit]

theorem behindGranularity_unmatched (cfg : Format) (z : Int) :
    Unmatched (bitmapPattern z) (behindGranularity cfg) := by
  unfold behindGranularity deviceText
  refine .of_not_mem (c := '{') (by simp [bitmapPattern, sectionPattern, chars]) ?_
    (ends_append _ (by decide))
  simp only [uuidHex, uuidText, List.mem_append, brace_not_mem_hexText,
    brace_not_mem_decText, brace_not_mem_intText, or_false]
  decide

end Superblock

/-! ## Lines of a section -/

section Section

/-- The end of a line, behind the line feed. -/
def eolTail (i p : Nat) : List Char :=
  if i &&& 63 = p then "   # at ".toList ++ decText (128 * (i - p)) ++ "kB\n   ".toList else "   ".toList

theorem fprintfBmEol_eq (i p : Nat) : fprintfBmEol i p = '\n' :: eolTail i p := by
  unfold fprintfBmEol eolTail
  split <;> rfl

/-- The values an item stands for. -/
def values : DumpItem → List (BitVec 64)
  | .single v => [v]
  | .repeated n v => List.replicate n.toNat v

/-- Values as they are written to a file. -/
def valuesBytes (vs : List (BitVec 64)) : List (BitVec 8) := vs.flatMap fun v => toBytes 8 v.toNat

/-- The bytes of some items. -/
def itemsBytes (items : List DumpItem) : List (BitVec 8) := valuesBytes (items.flatMap values)

theorem itemsBytes_append (items items' : List DumpItem) :
    itemsBytes (items ++ items') = itemsBytes items ++ itemsBytes items' := by
  simp [itemsBytes, valuesBytes]

/-- What follows the heading of a section. -/
def sectionTail (p : Nat) (lines : List DumpLine) (blank : Option Nat) : List Char :=
  lines.flatMap (fun line => eolTail line.at_ p ++ line.items.flatMap DumpItem.text ++ ['\n']) ++
    (blank.toList.flatMap (fun i => eolTail i p ++ ['\n']) ++ "\x7d\n".toList)

theorem sectionText_eq {p k : Nat} {items : List DumpItem} {text : List Char} {lines : List DumpLine}
    {blank : Option Nat} (h : SectionText p k items text lines blank) :
    sectionText p text = sectionHead "bitmap".toList (decText p) ++ '\n' :: sectionTail p lines blank := by
  have htext : text = '{' :: '\n' :: sectionTail p lines blank := by
    have hline : DumpLine.text p = fun line : DumpLine =>
        '\n' :: (eolTail line.at_ p ++ line.items.flatMap DumpItem.text) := by
      funext line
      rw [DumpLine.text, fprintfBmEol_eq, List.cons_append]
    have hblank : (fprintfBmEol · p) = fun i => '\n' :: eolTail i p := by
      funext i
      exact fprintfBmEol_eq i p
    have hclose : "\n\x7d\n".toList = '\n' :: "\x7d\n".toList := rfl
    rw [h.text_eq, hline, hblank, hclose, List.cons_append, List.cons_append, List.append_assoc,
      Lines.flatMap_cons_sep, Lines.flatMap_cons_sep]
    rfl
  have hopen : "bitmap[".toList = "bitmap".toList ++ ['['] := rfl
  have hclose : "] \x7b".toList = "] ".toList ++ ['{'] := rfl
  unfold sectionText sectionHead
  rw [htext, hopen, hclose]
  simp only [List.append_assoc, List.cons_append, List.nil_append]

/-- A line begins with its first character that is no white space. -/
theorem strip_head {blank t : List Char} {c : Char} (hblank : ∀ d ∈ blank, isSpacePy d = true)
    (hc : isSpacePy c = false) : (strip (blank ++ c :: t)).head? = some c := by
  have hc' : ¬isSpacePy c = true := by simp [hc]
  rw [strip, List.dropWhile_append_of_pos hblank, List.dropWhile_cons_of_neg hc', List.reverse_cons,
    List.dropWhile_append, List.dropWhile_cons_of_neg hc', List.head?_reverse]
  split
  · rfl
  · rw [List.getLast?_append_cons]
    rfl

variable {z : Int} {p k : Nat} {line : List Char} {bytes : List (BitVec 8)} {rest : List Char}

theorem search_bitmap_of_not_mem (h : '{' ∉ line) : ¬(search (bitmapPattern z) line).isSome = true := by
  rw [search_eq_none (c := '{') (by simp [bitmapPattern, sectionPattern, chars]) h]
  decide

/-- A comment in a section. -/
theorem readBitmap_comment (hbrace : '{' ∉ line) (hnewline : '\n' ∉ line)
    (hhead : (strip line).head? = some '#') (rest : List Char) :
    readBitmap z (Lines.lines '\n' (line ++ '\n' :: rest)) = readBitmap z (Lines.lines '\n' rest) := by
  have hclose : strip line ≠ ['}'] := fun h => by
    rw [h] at hhead
    cases hhead
  rw [Lines.lines_cons hnewline, readBitmap, if_neg (search_bitmap_of_not_mem hbrace), if_neg hclose,
    if_pos hhead]

/-- A line with items in a section. -/
theorem readBitmap_items (hbrace : '{' ∉ line) (hnewline : '\n' ∉ line)
    (hhead : ∃ c, (strip line).head? = some c ∧ c ≠ '}' ∧ c ≠ '#') (hline : readBitmapLine line = .ok bytes)
    (rest : List Char) : readBitmap z (Lines.lines '\n' (line ++ '\n' :: rest)) =
      (readBitmap z (Lines.lines '\n' rest)).map fun r => (bytes ++ r.1, r.2) := by
  obtain ⟨c, hhead, hc, hhash⟩ := hhead
  have hclose : strip line ≠ ['}'] := fun h => by
    rw [h] at hhead
    exact hc (Option.some.inj hhead).symm
  have hcomment : ¬(strip line).head? = some '#' := by
    rw [hhead]
    simpa using hhash
  rw [Lines.lines_cons hnewline, readBitmap, if_neg (search_bitmap_of_not_mem hbrace), if_neg hclose,
    if_neg hcomment, hline]
  cases readBitmap z (Lines.lines '\n' rest) <;> rfl

/-- **The items of a line** are read back. -/
theorem full_read {l : DumpLine} (h : l.Full) :
    '{' ∉ l.items.flatMap DumpItem.text ∧ '\n' ∉ l.items.flatMap DumpItem.text ∧
      (∃ c, (strip ("   ".toList ++ l.items.flatMap DumpItem.text)).head? = some c ∧ c ≠ '}' ∧ c ≠ '#') ∧
      readBitmapLine ("   ".toList ++ l.items.flatMap DumpItem.text) = .ok (itemsBytes l.items) := by
  cases h with
  | run n v items =>
    have htext : l.items.flatMap DumpItem.text =
        ' ' :: decText n.toNat ++ " times 0x".toList ++ hexText 16 v.toNat ++ [';'] := by
      rw [items, List.flatMap_singleton]
      rfl
    have hbytes : itemsBytes l.items = (List.replicate n.toNat (toBytes 8 v.toNat)).flatten := by
      rw [items, itemsBytes, List.flatMap_singleton, values, valuesBytes, List.flatMap_def,
        List.map_replicate]
    obtain ⟨d, ds, hd⟩ := List.exists_cons_of_ne_nil (decText_ne_nil n.toNat)
    have hdigit : Numerals.digitVal d < 10 := digitVal_lt_of_mem_decText (hd ▸ List.mem_cons_self)
    rw [htext, hbytes]
    refine ⟨by simp, by simp, ⟨d, ?_, ?_, ?_⟩, readBitmapLine_run n.toNat v⟩
    · have hline : "   ".toList ++ (' ' :: decText n.toNat ++ " times 0x".toList ++ hexText 16 v.toNat ++
          [';']) = "    ".toList ++ d :: (ds ++ " times 0x".toList ++ hexText 16 v.toNat ++ [';']) := by
        rw [hd]
        simp
      rw [hline]
      exact strip_head (List.all_eq_true.1 (by decide)) (isSpacePy_of_digitVal (by omega))
    · rintro rfl
      exact absurd hdigit (by decide)
    · rintro rfl
      exact absurd hdigit (by decide)
  | values vs items ne_nil =>
    have htext : l.items.flatMap DumpItem.text = vs.flatMap valueText := by
      rw [items, List.flatMap_map]
      rfl
    have hbytes : itemsBytes l.items = vs.flatMap fun v => toBytes 8 v.toNat := by
      rw [items, itemsBytes, List.flatMap_map]
      exact congrArg valuesBytes (List.flatMap_singleton' vs)
    obtain ⟨v, vs', rfl⟩ := List.exists_cons_of_ne_nil ne_nil
    rw [htext, hbytes]
    refine ⟨by simp [valueText], by simp [valueText], ⟨'0', ?_, by decide, by decide⟩,
      readBitmapLine_values ne_nil⟩
    have hline : "   ".toList ++ (v :: vs').flatMap valueText = "    ".toList ++ '0' ::
        ('x' :: hexText 16 v.toNat ++ [';'] ++ vs'.flatMap valueText) := by
      simp [valueText]
    rw [hline]
    exact strip_head (List.all_eq_true.1 (by decide)) (by decide)

theorem eolTail_plain (i p : Nat) : '{' ∉ eolTail i p := by
  unfold eolTail
  split <;> simp

/-- The comment in front of a line is skipped. -/
theorem readBitmap_eolTail (i : Nat) (rest : List Char) :
    readBitmap z (Lines.lines '\n' (eolTail i p ++ rest)) =
      readBitmap z (Lines.lines '\n' ("   ".toList ++ rest)) := by
  unfold eolTail
  split
  · have hcomment : "   # at ".toList ++ decText (128 * (i - p)) ++ "kB\n   ".toList ++ rest =
        "   # at ".toList ++ decText (128 * (i - p)) ++ "kB".toList ++ '\n' :: ("   ".toList ++ rest) := by
      simp
    have hhead : (strip ("   # at ".toList ++ decText (128 * (i - p)) ++ "kB".toList)).head? = some '#' := by
      have hline : "   # at ".toList ++ decText (128 * (i - p)) ++ "kB".toList =
          "   ".toList ++ '#' :: (" at ".toList ++ decText (128 * (i - p)) ++ "kB".toList) := by
        simp
      rw [hline]
      exact strip_head (List.all_eq_true.1 (by decide)) (by decide)
    rw [hcomment, readBitmap_comment (by simp) (by simp) hhead]
  · rfl

/-- The lines with items, one behind the other. -/
theorem readBitmap_lines {ls : List DumpLine} (hfull : ∀ l ∈ ls, l.Full) (rest : List Char) :
    readBitmap z (Lines.lines '\n' (ls.flatMap (fun l =>
        eolTail l.at_ p ++ l.items.flatMap DumpItem.text ++ ['\n']) ++ rest)) =
      (readBitmap z (Lines.lines '\n' rest)).map fun r =>
        (itemsBytes (ls.flatMap DumpLine.items) ++ r.1, r.2) := by
  induction ls with
  | nil => cases h : readBitmap z (Lines.lines '\n' rest) <;> exact h
  | cons l ls ih =>
    rw [List.forall_mem_cons] at hfull
    obtain ⟨hbrace, hnewline, hhead, hline⟩ := full_read hfull.1
    rw [List.flatMap_cons, List.append_assoc, List.append_assoc, List.append_assoc, readBitmap_eolTail,
      ← List.append_assoc, List.singleton_append,
      readBitmap_items (by simp [hbrace]) (by simp [hnewline]) hhead hline, ih hfull.2,
      List.flatMap_cons, itemsBytes_append]
    cases readBitmap z (Lines.lines '\n' rest) with
    | error e => rfl
    | ok r => simp [Except.map]

/-- **A section without a blank line is read back.** -/
theorem readBitmap_section {ls : List DumpLine} (hfull : ∀ l ∈ ls, l.Full) (rest : List Char) :
    readBitmap z (Lines.lines '\n' (sectionTail p ls none ++ rest)) =
      .ok (itemsBytes (ls.flatMap DumpLine.items), Lines.lines '\n' rest) := by
  have hclose : readBitmap z (Lines.lines '\n' ("\x7d\n".toList ++ rest)) =
      .ok ([], Lines.lines '\n' rest) := by
    have hlines : Lines.lines '\n' ("\x7d\n".toList ++ rest) = ['}'] :: Lines.lines '\n' rest :=
      @Lines.lines_cons _ _ '\n' ['}'] (by decide) rest
    rw [hlines, readBitmap, if_neg (search_bitmap_of_not_mem (by decide)), if_pos (by decide)]
  rw [sectionTail, List.append_assoc, readBitmap_lines hfull]
  rw [Option.toList_none, List.flatMap_nil, List.nil_append, hclose]
  exact congrArg (fun b => Except.ok (b, _)) (List.append_nil _)

/-- A blank line is refused. -/
theorem readBitmap_blank {ls : List DumpLine} (hfull : ∀ l ∈ ls, l.Full) (i : Nat) (rest : List Char) :
    ∃ e, readBitmap z (Lines.lines '\n' (sectionTail p ls (some i) ++ rest)) = .error e := by
  obtain ⟨e, hblank⟩ := readBitmapLine_blank
  refine ⟨e, ?_⟩
  have hlines : ∀ t, Lines.lines '\n' ("   ".toList ++ '\n' :: t) = "   ".toList :: Lines.lines '\n' t :=
    Lines.lines_cons (by decide)
  rw [sectionTail, List.append_assoc, readBitmap_lines hfull, Option.toList_some, List.flatMap_singleton,
    List.append_assoc, List.append_assoc, readBitmap_eolTail, List.singleton_append, hlines, readBitmap,
    if_neg (search_bitmap_of_not_mem (by decide)), if_neg (by decide), if_neg (by decide), hblank]
  rfl

/-- The section of another slot. -/
theorem section_unmatched {ls : List DumpLine} (hfull : ∀ l ∈ ls, l.Full) (blank : Option Nat)
    (h : (p : Int) ≠ z) : Unmatched (bitmapPattern z)
      (sectionHead "bitmap".toList (decText p) ++ '\n' :: sectionTail p ls blank) := by
  have hlines : ∀ l ∈ ls, '{' ∉ eolTail l.at_ p ++ l.items.flatMap DumpItem.text ++ ['\n'] := by
    intro l hl
    have hread := (full_read (hfull l hl)).1
    simp only [List.mem_append, eolTail_plain, hread, or_false]
    decide
  have hblank : ∀ i, '{' ∉ eolTail i p ++ ['\n'] := by
    intro i
    simp only [List.mem_append, eolTail_plain, false_or]
    decide
  unfold sectionTail
  refine .cons (newline_not_mem_sectionHead (by decide) (newline_not_mem_decText p))
    (search_bitmap_none h) (.of_not_mem (c := '{') (by simp [bitmapPattern, sectionPattern, chars]) ?_
      (ends_append _ (ends_append _ (by decide))))
  rw [List.mem_append, List.mem_append, not_or, not_or]
  refine ⟨fun hmem => ?_, fun hmem => ?_, by decide⟩
  · obtain ⟨l, hl, hmem⟩ := List.mem_flatMap.1 hmem
    exact hlines l hl hmem
  · obtain ⟨i, -, hmem⟩ := List.mem_flatMap.1 hmem
    exact hblank i hmem

end Section

/-! ## The bits -/

section Bits

theorem bit_halves_zero (v : BitVec 64) {k : Nat} (hk : k < 32) :
    (v.setWidth 32).getLsbD k = v.toNat.testBit k := by
  rw [BitVec.getLsbD_setWidth, decide_eq_true hk, Bool.true_and, BitVec.testBit_toNat]

theorem bit_halves_one (v : BitVec 64) {k : Nat} (hk : k < 32) :
    ((v >>> 32).setWidth 32).getLsbD k = v.toNat.testBit (32 + k) := by
  rw [BitVec.getLsbD_setWidth, decide_eq_true hk, Bool.true_and, BitVec.getLsbD_ushiftRight,
    BitVec.testBit_toNat]

/-- **The bytes of values** have the bits of their words. -/
theorem bit_values (vs : List (BitVec 64)) (k : Nat) :
    bit (valuesBytes vs) k = ((vs.flatMap halves).getD (k / 32) 0).getLsbD (k % 32) := by
  induction vs generalizing k with
  | nil => simp [valuesBytes]
  | cons v vs ih =>
    have hmod : k % 32 < 32 := Nat.mod_lt _ (by decide)
    have hhalves : (v :: vs).flatMap halves =
        v.setWidth 32 :: (v >>> 32).setWidth 32 :: vs.flatMap halves := rfl
    rw [valuesBytes, List.flatMap_cons, hhalves]
    by_cases hlow : k < 64
    · rw [bit_append_of_lt (by rw [length_toBytes]; omega), bit_toBytes _ hlow]
      rcases Nat.lt_or_ge k 32 with h | h
      · rw [Nat.div_eq_of_lt h, List.getD_cons_zero, bit_halves_zero v hmod, Nat.mod_eq_of_lt h]
      · have hdiv : k / 32 = 1 := by omega
        rw [hdiv, List.getD_cons_succ, List.getD_cons_zero, bit_halves_one v hmod]
        congr 1
        omega
    · have hdiv : k / 32 = (k - 64) / 32 + 1 + 1 := by omega
      have hrest : k % 32 = (k - 64) % 32 := by omega
      rw [bit_append_of_ge (by rw [length_toBytes]; omega), length_toBytes, hdiv, hrest,
        List.getD_cons_succ, List.getD_cons_succ]
      exact ih (k - 64)

theorem halfWords_values (items : List DumpItem) :
    halfWords items = (items.flatMap values).flatMap halves := by
  rw [halfWords, List.flatMap_assoc]
  refine List.flatMap_congr fun item _ => ?_
  cases item with
  | single v => simp [DumpItem.halfWords, values]
  | repeated n v =>
    rw [DumpItem.halfWords, values, List.flatMap_def, List.map_replicate]

/-- The words of items come in pairs. -/
theorem length_halfWords_mod (items : List DumpItem) : (halfWords items).length % 2 = 0 := by
  rw [halfWords_values, List.length_flatMap]
  induction items.flatMap values with
  | nil => rfl
  | cons v vs ih =>
    rw [List.map_cons, List.sum_cons, show (halves v).length = 2 from rfl]
    omega

/-- **The bits of a section**: those of the words of the slot, but for a last low word. -/
theorem bit_of_dumped {p m n : Nat} {W : Nat → BitVec 32} {s : BmDump} (h : Dumped p m n W s) (hp : p < m)
    (k : Nat) : bit (itemsBytes s.out) k =
      (decide (k / 64 < slotWordCount n m p / 2) && (W (p + k / 32 * m)).getLsbD (k % 32)) := by
  obtain ⟨count, h1, h2, hwords⟩ := h
  rw [slotWordCount_unique hp h1 h2]
  have hparity := length_halfWords_mod s.out
  have hlength := congrArg List.length hwords
  rw [List.length_append, slotWords, List.length_map, List.length_range] at hlength
  have hcount : (halfWords s.out).length = 2 * (count / 2) := by
    split at hlength
    · rw [List.length_singleton] at hlength
      omega
    · rw [List.length_nil] at hlength
      omega
  rw [itemsBytes, bit_values, ← halfWords_values]
  by_cases hk : k / 64 < count / 2
  · have hget : (halfWords s.out).getD (k / 32) 0 = W (p + k / 32 * m) := by
      have hpre := congrArg (·.getD (k / 32) 0) hwords
      rw [List.getD_append _ _ _ _ (by omega)] at hpre
      rw [hpre, slotWords, List.getD_eq_getElem?_getD, List.getElem?_map,
        List.getElem?_range (by omega)]
      rfl
    rw [hget, decide_eq_true hk, Bool.true_and]
  · rw [List.getD_eq_default _ _ (by omega), decide_eq_false hk, Bool.false_and]
    exact BitVec.getLsbD_zero

/-- A bit of the slot: of its words below the end of the bitmap. -/
def slotBit (cfg : Format) (disk : Mem) (p k : Nat) : Bool :=
  decide (p + k / 32 * cfg.md.maxPeers.toNat < cfg.bmBytes / 4) &&
    (bitmapWord cfg disk (p + k / 32 * cfg.md.maxPeers.toNat)).getLsbD (k % 32)

/-- The words of the slot below the 32-bit word count. -/
def countedWords (cfg : Format) (p : Nat) : Nat :=
  slotWordCount (cfg.bmBytes / 4 % 2 ^ 32) cfg.md.maxPeers.toNat p

/-- **A section has all bits of the slot** exactly if none is set behind the pairs of words that are
    counted. -/
theorem section_bits_iff {cfg : Format} {disk : Mem} {p : Nat} {s : BmDump}
    (h : Dumped p cfg.md.maxPeers.toNat (cfg.bmBytes / 4 % 2 ^ 32) (bitmapWord cfg disk) s)
    (hp : p < cfg.md.maxPeers.toNat) : (∀ k, bit (itemsBytes s.out) k = slotBit cfg disk p k) ↔
      ∀ k, slotBit cfg disk p k = true → k / 64 < countedWords cfg p / 2 := by
  constructor
  · intro hbits k hk
    rw [← hbits k, bit_of_dumped h hp, Bool.and_eq_true, decide_eq_true_eq] at hk
    exact hk.1
  · intro hcounted k
    rw [bit_of_dumped h hp]
    by_cases hk : k / 64 < countedWords cfg p / 2
    · have hinside : p + k / 32 * cfg.md.maxPeers.toNat < cfg.bmBytes / 4 := by
        have hword : k / 32 + 1 ≤ countedWords cfg p := by omega
        rw [countedWords, slotWordCount, Nat.le_div_iff_mul_le (by omega), Nat.add_mul] at hword
        omega
      rw [slotBit, decide_eq_true hinside]
      exact congrArg (· && _) (decide_eq_true hk)
    · have hclear : slotBit cfg disk p k = false := by
        rw [← Bool.not_eq_true]
        exact fun hset => hk (hcounted k hset)
      rw [hclear]
      exact congrArg (· && _) (decide_eq_false hk)

end Bits

/-! ## The whole dump -/

section Dump

/-- The names that the front of a dump is filled with have no brace. -/
structure PlainNames (I : Invocation) (lkFile : LkFile) (header : DumpHeader) : Prop where
  timeStr : '{' ∉ header.timeStr
  hostname : '{' ∉ header.hostname
  globalArgv : ∀ arg ∈ header.globalArgv, '{' ∉ arg
  mdDeviceName : '{' ∉ I.mdDeviceName
  lkBdName : ∀ bd ∈ lkBdevLoad lkFile, ∀ name ∈ bd.bdName, '{' ∉ name

/-- The slot of a peer. -/
def slotOf (cfg : Format) (node : Fin DRBD_PEERS_MAX) : Option Nat :=
  let index := (cfg.md.peers node).bitmapIndex.toInt
  if 0 ≤ index ∧ index < cfg.md.maxPeers.toNat then some index.toNat else none

/-- A bit of the bitmap of a peer. -/
def peerBit (cfg : Format) (disk : Mem) (node : Fin DRBD_PEERS_MAX) (k : Nat) : Bool :=
  (slotOf cfg node).elim false fun p => slotBit cfg disk p k

/-- The bitmap of a peer is read back, and the stream to its end. -/
def ReadsBack (cfg : Format) (disk : Mem) (node : Fin DRBD_PEERS_MAX)
    (parsed : Except ParseError ((Option Nat × List (BitVec 8)) × Stream)) : Prop :=
  ∃ data, parsed = .ok ((some cfg.md.bmBytesPerBit.toNat, data), []) ∧
    (∀ k, bit data k = peerBit cfg disk node k) ∧ (slotOf cfg node = none → data = []) ∧
    (iterateOosOffsets data).Pairwise (· < ·) ∧
    ∀ k, k ∈ iterateOosOffsets data ↔ peerBit cfg disk node k = true

/-- The slot is printed with lines that can be read, and they have all its bits. -/
def SlotReadable (cfg : Format) (disk : Mem) (p : Nat) : Prop :=
  countedWords cfg p % 8 ≠ 1 ∧ ∀ k, slotBit cfg disk p k = true → k / 64 < countedWords cfg p / 2

variable {I : Invocation} {lkFile : LkFile} {cfg₀ opened cfg : Format} {rc : MdOpenRc} {w : World}
  {header : DumpHeader}

theorem offsetsText_plain (sign : List Char) (hsign : '{' ∉ sign) (cfg : Format) :
    '{' ∉ offsetsText sign cfg := by
  unfold offsetsText
  simp only [List.mem_append, brace_not_mem_decText, hsign, or_false, false_or]
  decide

theorem resizedText_plain {name : List Char} {lkName : Option (List Char)} (hname : '{' ∉ name)
    (hlk : ∀ n ∈ lkName, '{' ∉ n) (cfg : Format) : '{' ∉ resizedText name lkName cfg := by
  have hlk' : '{' ∉ lkName.getD "-?-".toList := by
    cases lkName with
    | none => decide
    | some n => exact hlk n rfl
  unfold resizedText
  simp only [List.mem_append, brace_not_mem_decText, hname, hlk', offsetsText_plain "##".toList
    (by decide), or_false]
  decide

theorem headText_plain (h : PlainNames I lkFile header) (superblock : MdCpu) :
    '{' ∉ headText I lkFile header rc superblock opened cfg := by
  have hclip : '{' ∉ (if rc = .validMdFound then clipText superblock opened.maxUsableSect else []) := by
    unfold clipText
    split
    · split
      · simp only [List.mem_append, brace_not_mem_decText, or_false]
        decide
      · exact List.not_mem_nil
    · exact List.not_mem_nil
  have hheader : '{' ∉ printDumpHeader header := by
    have hargv : '{' ∉ header.globalArgv.flatMap (' ' :: ·) := by
      intro hmem
      obtain ⟨arg, harg, hmem⟩ := List.mem_flatMap.1 hmem
      exact (List.mem_cons.1 hmem).elim (by decide) (h.globalArgv arg harg)
    unfold printDumpHeader
    simp only [List.mem_append, h.timeStr, h.hostname, hargv, or_false]
    decide
  have hversion : '{' ∉ versionName opened.version := by
    cases opened.version <;> decide
  have hunclean : '{' ∉ uncleanText opened.md := by
    unfold uncleanText
    split <;> decide
  have hpeers : '{' ∉ (if opened.version = .v09 then
      "max-peers ".toList ++ intText opened.md.maxPeers.toInt ++ ";\n".toList else []) := by
    split
    · simp only [List.mem_append, brace_not_mem_intText, or_false]
      decide
    · exact List.not_mem_nil
  have hresized : '{' ∉ (if rc = .validMdFoundAtLastKnownLocation then
      resizedText I.mdDeviceName ((lkBdevLoad lkFile).bind BdevInfo.bdName) opened else []) := by
    split
    · refine resizedText_plain h.mdDeviceName (fun name hname => ?_) opened
      obtain ⟨bd, hbd, hname⟩ := Option.bind_eq_some_iff.1 hname
      exact h.lkBdName bd hbd name hname
    · exact List.not_mem_nil
  unfold headText
  simp only [List.mem_append, hclip, hheader, hversion, hunclean, hpeers, hresized, brace_not_mem_decText,
    offsetsText_plain ['#'] (by decide), or_false]
  decide

theorem front_unmatched (h : PlainNames I lkFile header) (superblock : MdCpu) (n : Nat) (md : MdCpu) :
    Unmatched (peerPattern n)
      (headText I lkFile header rc superblock opened cfg ++ idsText md) := by
  have hbrace : '{' ∈ chars (peerPattern n) := by simp [peerPattern, sectionPattern, chars]
  refine .append (.of_not_mem hbrace (headText_plain h superblock) (ends_append _ (by decide)))
    (.of_not_mem hbrace ?_ ?_)
  · unfold idsText
    simp only [uuidHex, uuidText, flagsHex, List.mem_append, brace_not_mem_hexText,
      brace_not_mem_intText, or_false]
    decide
  · unfold idsText
    exact ends_append _ (by decide)

/-- What the third loop and the drain make of the bitmap. -/
def parsedBitmap (cfg : Format) (z : Int) (stream : Stream) :
    Except ParseError ((Option Nat × List (BitVec 8)) × Stream) :=
  match findLine (bitmapPattern z) stream with
  | none => .ok ((some cfg.md.bmBytesPerBit.toNat, []), [])
  | some (_, stream) => (readBitmap z stream).map fun r => ((some cfg.md.bmBytesPerBit.toNat, r.1), [])

/-- What is behind the line with the bitmap index. -/
theorem parse_behind_index {node : Fin DRBD_PEERS_MAX} {lines stream rest : Stream} {z : Int}
    {groups : List (List Char)} (hindex : findBitmapIndex node false lines = some (z, stream))
    (hz : z ≠ -1) (hgroups : findLine bmBytePerBitPattern stream = some (groups, rest))
    (hvalue : ofDigits 10 (groups.getD 2 []) = cfg.md.bmBytesPerBit.toNat) :
    parseBitmapForPeer lines node = parsedBitmap cfg z rest := by
  rw [parseBitmapForPeer, hindex, parsedBitmap]
  dsimp only
  rw [if_neg hz, hgroups]
  dsimp only
  rw [hvalue]
  cases findLine (bitmapPattern z) rest with
  | none => rfl
  | some found => cases h : readBitmap z found.2 <;> simp [h, bind, Except.bind, Except.map, drain]

/-- The sections of other slots. -/
theorem sections_unmatched {disk : Mem} {slots : List Nat} {text : Nat → List Char} {z : Int}
    (hsections : ∀ i ∈ slots, IsSection cfg disk i (text i)) (hne : ∀ i ∈ slots, (i : Int) ≠ z) :
    Unmatched (bitmapPattern z) (sectionsText slots text) := by
  refine .flatMap fun i hi => ?_
  obtain ⟨s, ls, blank, -, hsection⟩ := hsections i hi
  rw [sectionText_eq hsection]
  exact section_unmatched hsection.full blank (hne i hi)

/-- The last line of the dump. -/
def bitsSetText (bitsSet : Nat) : List Char := "# bits-set ".toList ++ (decText bitsSet ++ ";\n".toList)

/-- **The third loop** finds no section when there is no such slot. -/
theorem findLine_noSlot {disk : Mem} {text : Nat → List Char} {z : Int}
    (hsections : ∀ i < cfg.md.maxPeers.toNat, IsSection cfg disk i (text i))
    (hz : ∀ i < cfg.md.maxPeers.toNat, (i : Int) ≠ z) (bitsSet : Nat) :
    findLine (bitmapPattern z) (Lines.lines '\n' (behindGranularity cfg ++
      (sectionsText (List.range' 0 cfg.md.maxPeers.toNat) text ++ bitsSetText bitsSet))) = none := by
  have hlt : ∀ i ∈ List.range' 0 cfg.md.maxPeers.toNat, i < cfg.md.maxPeers.toNat := fun i hi => by
    have := (List.mem_range'_1.1 hi).2
    omega
  have hlast : Unmatched (bitmapPattern z) (bitsSetText bitsSet) := by
    unfold bitsSetText
    refine .of_not_mem (c := '{') (by simp [bitmapPattern, sectionPattern, chars]) (by simp)
      (ends_append _ (ends_append _ (by decide)))
  rw [findLine_unmatched (behindGranularity_unmatched cfg z),
    findLine_unmatched (sections_unmatched (fun i hi => hsections i (hlt i hi)) fun i hi => hz i (hlt i hi)),
    ← List.append_nil (bitsSetText bitsSet), findLine_unmatched hlast, Lines.lines_nil]
  rfl

/-- **The third loop** stops at the section of the slot. -/
theorem findLine_slot {disk : Mem} {text : Nat → List Char} {p : Nat}
    (hsections : ∀ i < cfg.md.maxPeers.toNat, IsSection cfg disk i (text i))
    (hp : p < cfg.md.maxPeers.toNat) (last : List Char) :
    ∃ groups s ls blank rest,
      Dumped p cfg.md.maxPeers.toNat (cfg.bmBytes / 4 % 2 ^ 32) (bitmapWord cfg disk) s ∧
      SectionText p (countedWords cfg p) s.out (text p) ls blank ∧
      findLine (bitmapPattern p) (Lines.lines '\n' (behindGranularity cfg ++
          (sectionsText (List.range' 0 cfg.md.maxPeers.toNat) text ++ last))) =
        some (groups, Lines.lines '\n' (sectionTail p ls blank ++ rest)) := by
  obtain ⟨s, ls, blank, hdumped, hsection⟩ := hsections p hp
  obtain ⟨groups, hsearch⟩ := Option.isSome_iff_exists.1 ((search_bitmap_iff p p).2 rfl)
  have hsplit : List.range' 0 cfg.md.maxPeers.toNat =
      List.range' 0 p ++ p :: List.range' (p + 1) (cfg.md.maxPeers.toNat - p - 1) := by
    have happend := @List.range'_append_1 0 p (cfg.md.maxPeers.toNat - p)
    rw [Nat.zero_add, Nat.add_sub_cancel' (Nat.le_of_lt hp)] at happend
    rw [← happend, ← List.range'_succ, Nat.sub_add_cancel (by omega)]
  have hbefore : Unmatched (bitmapPattern p) (sectionsText (List.range' 0 p) text) := by
    refine sections_unmatched (fun i hi => hsections i ?_) fun i hi => ?_
    · have := (List.mem_range'_1.1 hi).2
      omega
    · have := (List.mem_range'_1.1 hi).2
      omega
  have hcons : sectionsText (List.range' 0 cfg.md.maxPeers.toNat) text ++ last =
      sectionsText (List.range' 0 p) text ++ (sectionHead "bitmap".toList (decText p) ++ '\n' ::
        (sectionTail p ls blank ++
          (sectionsText (List.range' (p + 1) (cfg.md.maxPeers.toNat - p - 1)) text ++ last))) := by
    rw [hsplit, sectionsText, List.flatMap_append, List.flatMap_cons, sectionText_eq hsection]
    simp only [List.append_assoc, List.cons_append]
    rfl
  refine ⟨groups, s, ls, blank,
    sectionsText (List.range' (p + 1) (cfg.md.maxPeers.toNat - p - 1)) text ++ last, hdumped, hsection, ?_⟩
  rw [hcons, findLine_unmatched (behindGranularity_unmatched cfg p), findLine_unmatched hbefore,
    Lines.lines_cons (newline_not_mem_sectionHead (by decide) (newline_not_mem_decText p)), findLine,
    hsearch]

theorem parsed_iff {disk : Mem} {node : Fin DRBD_PEERS_MAX} {data : List (BitVec 8)} :
    ReadsBack cfg disk node (.ok ((some cfg.md.bmBytesPerBit.toNat, data), [])) ↔
      (∀ k, bit data k = peerBit cfg disk node k) ∧ (slotOf cfg node = none → data = []) := by
  constructor
  · rintro ⟨data', hdata, hbits, hnil, -⟩
    cases hdata
    exact ⟨hbits, hnil⟩
  · rintro ⟨hbits, hnil⟩
    refine ⟨data, rfl, hbits, hnil, iterateOosOffsets_sorted data, fun k => ?_⟩
    rw [mem_iterateOosOffsets, hbits]

/-- A peer with a slot. -/
theorem readsBack_slot {disk : Mem} {node : Fin DRBD_PEERS_MAX} {text : Nat → List Char} {p : Nat}
    (hsections : ∀ i < cfg.md.maxPeers.toNat, IsSection cfg disk i (text i))
    (hp : p < cfg.md.maxPeers.toNat) (hslot : slotOf cfg node = some p) (last : List Char) :
    ReadsBack cfg disk node (parsedBitmap cfg p (Lines.lines '\n' (behindGranularity cfg ++
      (sectionsText (List.range' 0 cfg.md.maxPeers.toNat) text ++ last)))) ↔
        SlotReadable cfg disk p := by
  obtain ⟨groups, s, ls, blank, rest, hdumped, hsection, hfind⟩ := findLine_slot hsections hp last
  rw [parsedBitmap, hfind, SlotReadable]
  dsimp only
  cases blank with
  | none =>
    have hcount : countedWords cfg p % 8 ≠ 1 := fun h1 => nomatch hsection.blank_iff.2 h1
    rw [readBitmap_section hsection.full, ← hsection.items_eq, ← section_bits_iff hdumped hp]
    refine parsed_iff.trans ?_
    simp [peerBit, hslot, hcount]
  | some i =>
    have hcount : countedWords cfg p % 8 = 1 := hsection.blank_iff.1 rfl
    obtain ⟨e, hblank⟩ := readBitmap_blank (z := p) hsection.full i rest
    rw [hblank]
    refine iff_of_false ?_ fun hc => hc.1 hcount
    rintro ⟨data, hparsed, -⟩
    cases hparsed

/-- A peer without a slot. -/
theorem readsBack_noSlot {disk : Mem} {node : Fin DRBD_PEERS_MAX} {text : Nat → List Char}
    (hsections : ∀ i < cfg.md.maxPeers.toNat, IsSection cfg disk i (text i))
    (hslot : slotOf cfg node = none) (bitsSet : Nat) :
    ReadsBack cfg disk node (parsedBitmap cfg (cfg.md.peers node).bitmapIndex.toInt
      (Lines.lines '\n' (behindGranularity cfg ++
        (sectionsText (List.range' 0 cfg.md.maxPeers.toNat) text ++ bitsSetText bitsSet)))) := by
  have hz : ∀ i < cfg.md.maxPeers.toNat, (i : Int) ≠ (cfg.md.peers node).bitmapIndex.toInt := by
    intro i hi heq
    rw [slotOf, if_pos (by omega)] at hslot
    cases hslot
  rw [parsedBitmap, findLine_noSlot hsections hz]
  exact parsed_iff.2 ⟨by simp [peerBit, hslot], fun _ => rfl⟩

/-- What is parsed from the dump: nothing of a peer with the index -1, and otherwise what the third
    loop makes of the sections. -/
theorem parse_dump (h : DumpsMd I lkFile cfg₀ w rc opened cfg) (hplain : PlainNames I lkFile header)
    (node : Fin DRBD_PEERS_MAX) : ∃ out w', metaDumpMdText I lkFile cfg₀ header w = (.ok (some out), w') ∧
      ((cfg.md.peers node).bitmapIndex.toInt = -1 → ∃ stream, stream ≠ [] ∧
        parseBitmapForPeer (Lines.lines '\n' out) node = .ok ((none, []), stream)) ∧
      ((cfg.md.peers node).bitmapIndex.toInt ≠ -1 → ∃ text bitsSet,
        (∀ i < cfg.md.maxPeers.toNat, IsSection cfg w.disk i (text i)) ∧
        parseBitmapForPeer (Lines.lines '\n' out) node =
          parsedBitmap cfg (cfg.md.peers node).bitmapIndex.toInt (Lines.lines '\n' (behindGranularity cfg ++
            (sectionsText (List.range' 0 cfg.md.maxPeers.toNat) text ++ bitsSetText bitsSet)))) := by
  obtain ⟨superblock, text, bitsSet, w', hrun, hsections⟩ := metaDumpMdText_sections h header
  refine ⟨_, w', hrun, ?_⟩
  have hversion : cfg.version = .v09 := by
    obtain ⟨w₁, hopen⟩ := h.opens
    exact (dumpedMd_of_openMd h.version hopen h.found h.layout h.device).version
  have hgeneration : generationText cfg.md .v09 = idsText cfg.md ++
      (List.finRange DRBD_PEERS_MAX).flatMap (peerText cfg.md) ++ historyText cfg.md := rfl
  have hlast : "# bits-set ".toList ++ (decText bitsSet ++ ";\n".toList) = bitsSetText bitsSet := rfl
  have hfront : Unmatched (peerPattern node)
      (headText I lkFile header rc superblock opened cfg ++ idsText cfg.md) :=
    front_unmatched hplain superblock node cfg.md
  obtain ⟨back, hpeers⟩ := findBitmapIndex_peers cfg.md node hfront
  -- the loops stop at the peer, and at the granularity
  have hindex := hpeers (historyText cfg.md ++ (sizesText cfg ++
    (sectionsText (List.range' 0 cfg.md.maxPeers.toNat) text ++ bitsSetText bitsSet)))
  have hgranularity := findLine_granularity hversion (cfg.md.peers node) back
    (sectionsText (List.range' 0 cfg.md.maxPeers.toNat) text ++ bitsSetText bitsSet)
  rw [hgeneration]
  simp only [List.append_assoc, hlast] at hindex ⊢
  constructor
  · intro hz
    refine ⟨_, ?_, by rw [parseBitmapForPeer, hindex]; exact if_pos hz⟩
    intro hnil
    rw [hnil] at hgranularity
    cases hgranularity
  · intro hz
    exact ⟨text, bitsSet, hsections, parse_behind_index hindex hz hgranularity (ofDigits_decText _)⟩

theorem slotOf_eq_some_iff {node : Fin DRBD_PEERS_MAX} {p : Nat} : slotOf cfg node = some p ↔
    (cfg.md.peers node).bitmapIndex.toInt = p ∧ p < cfg.md.maxPeers.toNat := by
  rw [slotOf]
  split
  · next hin =>
    rw [Option.some.injEq]
    omega
  · next hout =>
    refine iff_of_false nofun ?_
    omega

end Dump

/-! ## A sample dump -/

/-- A superblock with five slots, for the nodes 0 to 4. -/
def fiveMd : MdCpu := normalMd .v09 { sampleMd 65448 16 5 with
  peers := fun i => ⟨0, 0, 0, if i.val < 5 then BitVec.ofNat 32 i.val else -1⟩ }

/-- Its device, before it is opened: 32 MiB. -/
def fiveFormat : Format := { grownFormat (2 ^ 25) with version := .v09 }

def fiveWorld : World := freshWorld (deviceWith fiveFormat fiveMd)

/-- What is opened, with 8192 bytes of bitmap. -/
def fiveOpened : Format :=
  { setByteOffsets { fiveFormat with mdOffset := superblockOffset fiveFormat } fiveMd with
    maxUsableSect := 65448
    bmBytes := 8192 }

def dumpInvocation : Invocation :=
  { dryInvocation with options := { force := true }, mdDeviceName := "/dev/vg/snap".toList, fuel := 8195 }

def dumpHeader : DumpHeader where
  timeStr := "1970-01-01 00:00:00 +0000 [0]".toList
  hostname := "alpha".toList
  globalArgv := ["drbdmeta".toList, "0".toList, "v09".toList, "/dev/vg/snap".toList, "internal".toList,
    "dump-md".toList, "--force".toList]

theorem dumpHeader_plain : PlainNames dumpInvocation none dumpHeader where
  timeStr := by decide
  hostname := by decide
  globalArgv := by decide
  mdDeviceName := by decide
  lkBdName := nofun

theorem dumpsMd_five :
    DumpsMd dumpInvocation none fiveFormat fiveWorld .validMdFound fiveOpened fiveOpened := by
  have hmd : superblockAt packedOnDisk9 fiveFormat fiveWorld.disk = fiveMd := by
    have hdisk (d : Mem) : (freshWorld d).disk = d := rfl
    rw [fiveWorld, hdisk, superblockAt_deviceWith]
    rfl
  have hopened : Opened packedOnDisk9 fiveFormat fiveWorld.disk fiveOpened := by
    refine ⟨by decide +kernel, by decide +kernel, ?_, ?_⟩
    · rw [hmd]
      decide +kernel
    · rw [hmd]
      rfl
  exact {
    version := rfl
    opens := ⟨_, (opened_iff (show MdFormat.v09 ≠ .v07 by decide)).2 ⟨hopened, rfl⟩⟩
    found := by decide
    clean := .inr rfl
    layout := rfl
    device := by decide +kernel
    fuel := by decide +kernel }

/-! ## Reading it -/

section Main

variable {I : Invocation} {lkFile : LkFile} {cfg₀ opened cfg : Format} {rc : MdOpenRc} {w : World}
  {header : DumpHeader}

/-- **drbd-verify reads what `dump-md` prints.**  Of metadata of the 9 format, clean or not, the whole
    dump is printed; what `parse_bitmap_for_peer()` gets from it is the granularity and the bitmap of
    the peer, with the stream read to its end, exactly if the bitmap index of the peer is not -1, and
    its slot, if it has one, can be read. -/
theorem parseBitmapForPeer_readsBack_iff (h : DumpsMd I lkFile cfg₀ w rc opened cfg)
    (hplain : PlainNames I lkFile header) (node : Fin DRBD_PEERS_MAX) :
    ∃ text w', metaDumpMdText I lkFile cfg₀ header w = (.ok (some text), w') ∧
      (ReadsBack cfg w.disk node (parseBitmapForPeer (Lines.lines '\n' text) node) ↔
        (cfg.md.peers node).bitmapIndex.toInt ≠ -1 ∧
          ∀ p ∈ slotOf cfg node, SlotReadable cfg w.disk p) := by
  obtain ⟨out, w', hrun, hnone, hparsed⟩ := parse_dump h hplain node
  refine ⟨out, w', hrun, ?_⟩
  by_cases hz : (cfg.md.peers node).bitmapIndex.toInt = -1
  · obtain ⟨stream, -, hparse⟩ := hnone hz
    refine iff_of_false ?_ fun hc => hc.1 hz
    rw [hparse]
    rintro ⟨data, hdata, -⟩
    cases hdata
  · obtain ⟨text, bitsSet, hsections, hparse⟩ := hparsed hz
    rw [hparse, and_iff_right hz]
    cases hslot : slotOf cfg node with
    | none => exact iff_of_true (readsBack_noSlot hsections hslot bitsSet) nofun
    | some p =>
      obtain ⟨hindex, hp⟩ := slotOf_eq_some_iff.1 hslot
      rw [hindex]
      refine (readsBack_slot hsections hp hslot (bitsSetText bitsSet)).trans ?_
      simp

end Main

theorem parseBitmapForPeer_readsBack_five : ∃ text w',
    metaDumpMdText dumpInvocation none fiveFormat dumpHeader fiveWorld = (.ok (some text), w') ∧
      ReadsBack fiveOpened fiveWorld.disk 0 (parseBitmapForPeer (Lines.lines '\n' text) (0 : Fin 32)) := by
  obtain ⟨text, w', hrun, hiff⟩ :=
    parseBitmapForPeer_readsBack_iff dumpsMd_five dumpHeader_plain (0 : Fin DRBD_PEERS_MAX)
  refine ⟨text, w', hrun, hiff.2 ⟨by decide +kernel, fun p hp => ?_⟩⟩
  obtain rfl : 0 = p := by
    have hslot : slotOf fiveOpened 0 = some 0 := slotOf_eq_some_iff.2 ⟨by decide +kernel, by decide +kernel⟩
    rw [hslot] at hp
    exact Option.some.inj hp
  have hcount : countedWords fiveOpened 0 = 410 := by decide +kernel
  refine ⟨by rw [hcount]; decide, fun k hk => ?_⟩
  rw [slotBit, Bool.and_eq_true, decide_eq_true_eq] at hk
  have hinside : 0 + k / 32 * 5 < 2048 := hk.1
  rw [hcount]
  omega

/-- **What is not read back**: the bitmap of a peer with the index -1, of which not even the granularity
    is reported, and the rest of the dump stays in the pipe; and that of the fourth of five slots, whose
    409 words end with a blank line. -/
theorem parseBitmapForPeer_misread : ∃ text w',
    metaDumpMdText dumpInvocation none fiveFormat dumpHeader fiveWorld = (.ok (some text), w') ∧
      (∃ stream, stream ≠ [] ∧ parseBitmapForPeer (Lines.lines '\n' text) 7 = .ok ((none, []), stream)) ∧
      ¬ReadsBack fiveOpened fiveWorld.disk 7 (parseBitmapForPeer (Lines.lines '\n' text) 7) ∧
      ¬ReadsBack fiveOpened fiveWorld.disk 3 (parseBitmapForPeer (Lines.lines '\n' text) 3) := by
  obtain ⟨text, w', hrun, hnone, -⟩ := parse_dump dumpsMd_five dumpHeader_plain (7 : Fin DRBD_PEERS_MAX)
  obtain ⟨text', w'', hrun', -, hparsed⟩ :=
    parse_dump dumpsMd_five dumpHeader_plain (3 : Fin DRBD_PEERS_MAX)
  obtain ⟨rfl, rfl⟩ : text' = text ∧ w'' = w' := by
    rw [hrun] at hrun'
    cases hrun'
    exact ⟨rfl, rfl⟩
  obtain ⟨stream, hstream, hparse⟩ := hnone (by decide +kernel)
  obtain ⟨sections, bitsSet, hsections, hparse'⟩ := hparsed (by decide +kernel)
  have hslot : slotOf fiveOpened 3 = some 3 := slotOf_eq_some_iff.2 ⟨by decide +kernel, by decide +kernel⟩
  have hindex : (fiveOpened.md.peers 3).bitmapIndex.toInt = (3 : Nat) := by decide +kernel
  refine ⟨_, _, hrun, ⟨stream, hstream, hparse⟩, ?_, fun hreads => ?_⟩
  · rintro ⟨data, hdata, -⟩
    have hsame := hdata.symm.trans hparse
    cases hsame
  · have hparse3 : parseBitmapForPeer (Lines.lines '\n' text') 3 = _ := hparse'
    rw [hparse3, hindex] at hreads
    have hreadable := (readsBack_slot hsections (by decide +kernel) hslot (bitsSetText bitsSet)).1 hreads
    exact hreadable.1 (by decide +kernel)

end DrbdUtils.Verify
