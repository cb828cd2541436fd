import DrbdUtils.Lib.Pattern
import DrbdUtils.Lib.LittleEndian
import DrbdUtils.Lib.Strtoul

/-!
# Reading the dump of a bitmap

`parse_bitmap_for_peer()` of `drbd-verify.py`: three loops over the lines of one stream, for the index
of the peer's slot, for the granularity, and for the section of the slot.  The stream is the list of
the lines that were not read yet, without their line feeds; past the comments at its front it is
ASCII.

* `search_section_iff` — which line begins a section.
* `readBitmapLine_values`, `readBitmapLine_run` — the lines with items.
-/

set_option autoImplicit false

namespace DrbdUtils.Verify

open Pattern Numerals LittleEndian

/-! ## The program -/

/-- `\s`, and what `strip()` removes. -/
def isSpacePy (c : Char) : Bool :=
  let n := c.toNat
  (9 ≤ n && n ≤ 13) || (28 ≤ n && n ≤ 32) || n = 0x85 || n = 0xa0 || n = 0x1680 ||
    (0x2000 ≤ n && n ≤ 0x200a) || n = 0x2028 || n = 0x2029 || n = 0x202f || n = 0x205f || n = 0x3000

/-- `\d`. -/
def isDigit (c : Char) : Bool := digitVal c < 10

/-- `[0-9A-Fa-f]`. -/
def isHexDigit (c : Char) : Bool := digitVal c < 16

/-- `line.strip()`. -/
def strip (line : List Char) : List Char :=
  ((line.dropWhile isSpacePy).reverse.dropWhile isSpacePy).reverse

/-- The errors, with the message of a `RuntimeError`; `to_bytes` raises the other one. -/
inductive ParseError where
  | runtimeError (message : List Char)
  | overflowError

/-- `tag[number]\s*{`. -/
def sectionPattern (tag number : List Char) : List Piece :=
  [.text (tag ++ '[' :: number ++ [']']), .many isSpacePy, .text ['{']]

def peerPattern (peerNodeId : Nat) : List Piece := sectionPattern "peer".toList (decText peerNodeId)

def bitmapIndexPattern : List Piece :=
  [.text "bitmap-index".toList, .some isSpacePy, .opt '-', .some isDigit, .text [';']]

def bmBytePerBitPattern : List Piece :=
  [.text "bm-byte-per-bit".toList, .some isSpacePy, .some isDigit, .text [';']]

def bitmapPattern (bitmapIndex : Int) : List Piece :=
  sectionPattern "bitmap".toList (intText bitmapIndex)

def timesPattern : List Piece :=
  [.some isDigit, .some isSpacePy, .text "times".toList, .some isSpacePy, .text "0x".toList,
    .some isHexDigit, .text [';']]

def hexPattern : List Piece := [.text "0x".toList, .some isHexDigit, .text [';']]

/-- The lines that were not read yet. -/
abbrev Stream := List (List Char)

/-- `int(match.group(1))` of a match of `bitmapIndexPattern`. -/
def matchedIndex (groups : List (List Char)) : Int :=
  let number : Int := ofDigits 10 (groups.getD 3 [])
  if groups.getD 2 [] = [] then number else -number

/-- The first loop, with `in_peer_section`. -/
def findBitmapIndex (peerNodeId : Nat) : Bool → Stream → Option (Int × Stream)
  | _, [] => none
  | inPeerSection, line :: stream =>
    if (search (peerPattern peerNodeId) line).isSome then findBitmapIndex peerNodeId true stream
    else if inPeerSection then
      match search bitmapIndexPattern line with
      | some groups => some (matchedIndex groups, stream)
      | none => findBitmapIndex peerNodeId (strip line ≠ ['}']) stream
    else findBitmapIndex peerNodeId false stream

/-- `int(text, 16).to_bytes(8, byteorder='little')`. -/
def valueBytes (text : List Char) : Except ParseError (List (BitVec 8)) :=
  if ofDigits 16 text < 2 ^ 64 then .ok (toBytes 8 (ofDigits 16 text)) else .error .overflowError

/-- The bytes of a line of the section. -/
def readBitmapLine (line : List Char) : Except ParseError (List (BitVec 8)) :=
  let timesMatches := findIter timesPattern line.length line
  let hexMatches := findIter hexPattern line.length line
  if timesMatches ≠ [] then
    (timesMatches.mapM fun groups => (valueBytes (groups.getD 5 [])).map fun bytes =>
      (List.replicate (ofDigits 10 (groups.getD 0 [])) bytes).flatten).map List.flatten
  else if hexMatches ≠ [] then
    (hexMatches.mapM fun groups => valueBytes (groups.getD 1 [])).map List.flatten
  else .error (.runtimeError ("Unexpected characters ".toList ++ line ++ " found in metadata".toList))

/-- The third loop, inside the section. -/
def readBitmap (bitmapIndex : Int) : Stream → Except ParseError (List (BitVec 8) × Stream)
  | [] => .ok ([], [])
  | line :: stream =>
    if (search (bitmapPattern bitmapIndex) line).isSome then readBitmap bitmapIndex stream
    else if strip line = ['}'] then .ok ([], stream)
    else if (strip line).head? = some '#' then readBitmap bitmapIndex stream
    else do
      let bytes ← readBitmapLine line
      let (result, stream) ← readBitmap bitmapIndex stream
      .ok (bytes ++ result, stream)

/-- `while metadata_stream.read(65536)`. -/
def drain (_ : Stream) : Stream := []

/-- `parse_bitmap_for_peer`, with the stream it leaves. -/
def parseBitmapForPeer (metadataStream : Stream) (peerNodeId : Nat) :
    Except ParseError ((Option Nat × List (BitVec 8)) × Stream) :=
  match findBitmapIndex peerNodeId false metadataStream with
  | none => .error (.runtimeError
      ("Peer with node-id ".toList ++ decText peerNodeId ++ " not found in metadata".toList))
  | some (bitmapIndex, stream) =>
    if bitmapIndex = -1 then .ok ((none, []), stream)
    else
      match findLine bmBytePerBitPattern stream with
      | none => .error (.runtimeError "bm-byte-per-bit field not found in metadata".toList)
      | some (groups, stream) =>
        let bmBytePerBit := ofDigits 10 (groups.getD 2 [])
        match findLine (bitmapPattern bitmapIndex) stream with
        | none => .ok ((some bmBytePerBit, []), drain [])
        | some (_, stream) => do
          let (result, stream) ← readBitmap bitmapIndex stream
          .ok ((some bmBytePerBit, result), drain stream)

/-! ## Headings -/

/-- The line `tag[number] {`. -/
def sectionHead (tag number : List Char) : List Char := tag ++ '[' :: number ++ "] \x7b".toList

theorem toNat_of_digitVal {c : Char} (h : digitVal c < 16) : 48 ≤ c.toNat ∧ c.toNat ≤ 102 := by
  unfold digitVal at h
  simp only [Char.le_def, UInt32.le_iff_toNat_le] at h
  simp only [Char.toNat]
  split at h
  · next hc =>
    have h0 : ('0' : Char).val.toNat = 48 := rfl
    have h9 : ('9' : Char).val.toNat = 57 := rfl
    omega
  · split at h
    · next hc =>
      have ha : ('a' : Char).val.toNat = 97 := rfl
      simp only [Char.toNat] at h
      omega
    · split at h
      · next hc =>
        have hA : ('A' : Char).val.toNat = 65 := rfl
        simp only [Char.toNat] at h
        omega
      · omega

theorem isSpacePy_of_digitVal {c : Char} (h : digitVal c < 16) : isSpacePy c = false := by
  obtain ⟨hge, hle⟩ := toNat_of_digitVal h
  simp only [isSpacePy, Bool.or_eq_false_iff, Bool.and_eq_false_iff, decide_eq_false_iff_not]
  omega

/-- Two texts up to the same mark. -/
theorem eq_of_append_cons {a : Char} {x y r s : List Char} (hx : a ∉ x) (hy : a ∉ y)
    (h : y ++ a :: s = x ++ a :: r) : y = x := by
  have htake : ∀ {z t : List Char}, a ∉ z → (z ++ a :: t).takeWhile (· ≠ a) = z := by
    intro z t hz
    have hall : ∀ c ∈ z, decide (c ≠ a) = true := fun c hc => by
      simpa using fun hca : c = a => hz (hca ▸ hc)
    rw [List.takeWhile_append_of_pos hall, List.takeWhile_cons_of_neg (by simp), List.append_nil]
  rw [← htake hy, h, htake hx]

section Heading

variable {c : Char} {t x y : List Char}

/-- **Which line begins a section.** -/
theorem search_section_iff (hct : c ∉ t) (hcx : c ∉ x) (hx : ']' ∉ x) (hy : ']' ∉ y)
    (hc : c ∉ "[] \x7b".toList) :
    (search (sectionPattern (c :: t) y) (sectionHead (c :: t) x)).isSome = true ↔ x = y := by
  constructor
  · intro h
    by_contra hne
    have hprefix : ¬(c :: t ++ '[' :: y ++ [']']) <+: sectionHead (c :: t) x := by
      rintro ⟨s, hs⟩
      have hsame : y ++ ']' :: s = x ++ ']' :: " \x7b".toList := by
        simpa [sectionHead] using hs
      exact hne (eq_of_append_cons hx hy hsame).symm
    have hfirst : matchAt (sectionPattern (c :: t) y) (sectionHead (c :: t) x) = none :=
      matchAt_text_eq_none hprefix
    have htail : search (sectionPattern (c :: t) y) (t ++ '[' :: x ++ "] \x7b".toList) = none := by
      refine search_eq_none (c := c) (by simp [sectionPattern, chars]) ?_
      simp at hc
      simp [hct, hcx, hc]
    rw [sectionHead, List.cons_append, List.cons_append] at h hfirst
    rw [search, hfirst, htail] at h
    cases h
  · rintro rfl
    have hhead : sectionHead (c :: t) x = (c :: t ++ '[' :: x ++ [']']) ++ ([' '] ++ ['{']) := by
      simp [sectionHead]
    have hmatch : matchAt (sectionPattern (c :: t) x) (sectionHead (c :: t) x) =
        some ([c :: t ++ '[' :: x ++ [']'], [' '], ['{']], []) := by
      rw [hhead, sectionPattern, matchAt_cons (match_text _ _),
        matchAt_cons (match_many (by simp) (List.all_eq_true.1 (by decide))
          (by rintro _ ⟨⟩; decide))]
      rfl
    rw [search_of_matchAt hmatch]
    rfl

theorem search_section_none (hct : c ∉ t) (hcx : c ∉ x) (hx : ']' ∉ x) (hy : ']' ∉ y)
    (hc : c ∉ "[] \x7b".toList) (hne : x ≠ y) :
    search (sectionPattern (c :: t) y) (sectionHead (c :: t) x) = none := by
  rw [← Option.not_isSome_iff_eq_none, search_section_iff hct hcx hx hy hc]
  exact hne

end Heading

theorem decText_inj {m n : Nat} : decText m = decText n ↔ m = n :=
  ⟨fun h => by rw [← ofDigits_decText m, h, ofDigits_decText], fun h => h ▸ rfl⟩

theorem decText_eq_intText {n : Nat} {z : Int} : decText n = intText z ↔ (n : Int) = z := by
  rw [intText]
  split
  · next hneg =>
    refine iff_of_false (fun h => ?_) (by omega)
    have hmem : '-' ∈ decText n := h ▸ List.mem_cons_self
    exact not_mem_decText (by decide) n hmem
  · next hpos =>
    rw [decText_inj]
    omega

/-- The line of a peer. -/
theorem search_peer_iff (i n : Nat) :
    (search (peerPattern n) (sectionHead "peer".toList (decText i))).isSome = true ↔ i = n :=
  (search_section_iff (by decide) (not_mem_decText (by decide) i) (not_mem_decText (by decide) i)
    (not_mem_decText (by decide) n) (by decide)).trans decText_inj

theorem search_peer_none {i n : Nat} (h : i ≠ n) :
    search (peerPattern n) (sectionHead "peer".toList (decText i)) = none := by
  rw [← Option.not_isSome_iff_eq_none, search_peer_iff]
  exact h

/-- The line of a slot. -/
theorem search_bitmap_iff (i : Nat) (z : Int) :
    (search (bitmapPattern z) (sectionHead "bitmap".toList (decText i))).isSome = true ↔ i = z :=
  (search_section_iff (by decide) (not_mem_decText (by decide) i) (not_mem_decText (by decide) i)
    (not_mem_intText (by decide) (by decide) z) (by decide)).trans decText_eq_intText

theorem search_bitmap_none {i : Nat} {z : Int} (h : i ≠ z) :
    search (bitmapPattern z) (sectionHead "bitmap".toList (decText i)) = none := by
  rw [← Option.not_isSome_iff_eq_none, search_bitmap_iff]
  exact h

/-! ## Fields -/

theorem isDigit_of_mem {n : Nat} : ∀ c ∈ decText n, isDigit c = true := fun _ hc =>
  decide_eq_true (digitVal_lt_of_mem_decText hc)

theorem isHexDigit_of_mem {width n : Nat} : ∀ c ∈ hexText width n, isHexDigit c = true := fun _ hc =>
  decide_eq_true (digitVal_lt_of_mem_hexText hc)

theorem isSpacePy_head_decText (n : Nat) (s : List Char) :
    ∀ c ∈ (decText n ++ s).head?, isSpacePy c = false := by
  intro c hc
  rw [List.head?_append_of_ne_nil _ (decText_ne_nil n)] at hc
  refine isSpacePy_of_digitVal ?_
  have := digitVal_lt_of_mem_decText (List.mem_of_mem_head? hc)
  omega

/-- The field with the index of the slot. -/
theorem search_bitmapIndex (z : Int) : ∃ groups,
    search bitmapIndexPattern ("    bitmap-index ".toList ++ intText z ++ [';']) = some groups ∧
      matchedIndex groups = z := by
  have hblank : ∀ d ∈ "    ".toList, ∀ s, matchAt bitmapIndexPattern (d :: s) = none := by
    intro d hd s
    obtain rfl : d = ' ' := by simpa using hd
    exact matchAt_text_cons_ne (by decide)
  have hline : "    bitmap-index ".toList ++ intText z ++ [';'] =
      "    ".toList ++ ("bitmap-index".toList ++ ([' '] ++ (intText z ++ [';']))) := by
    simp
  rw [hline, search_append hblank]
  by_cases hneg : z < 0
  · refine ⟨["bitmap-index".toList, [' '], ['-'], decText z.natAbs, [';']], search_of_matchAt
      (m := (_, [])) ?_, ?_⟩
    · rw [bitmapIndexPattern, matchAt_cons (match_text _ _), intText, if_pos hneg,
        matchAt_cons (match_some (by simp) (List.all_eq_true.1 (by decide))
          (by rintro _ ⟨⟩; decide)), List.cons_append,
        matchAt_cons (match_opt_self _),
        matchAt_cons (match_some (decText_ne_nil _) isDigit_of_mem (by rintro _ ⟨⟩; decide))]
      rfl
    · show -(ofDigits 10 (decText z.natAbs) : Int) = z
      rw [ofDigits_decText]
      omega
  · refine ⟨["bitmap-index".toList, [' '], [], decText z.natAbs, [';']], search_of_matchAt
      (m := (_, [])) ?_, ?_⟩
    · have hhead : (decText z.natAbs ++ [';']).head? ≠ some '-' := by
        rw [List.head?_append_of_ne_nil _ (decText_ne_nil _)]
        exact fun h => not_mem_decText (by decide) _ (List.mem_of_mem_head? h)
      rw [bitmapIndexPattern, matchAt_cons (match_text _ _), intText, if_neg hneg,
        matchAt_cons (match_some (by simp) (List.all_eq_true.1 (by decide))
      (isSpacePy_head_decText _ _)),
        matchAt_cons (match_opt_of_ne hhead),
        matchAt_cons (match_some (decText_ne_nil _) isDigit_of_mem (by rintro _ ⟨⟩; decide))]
      rfl
    · show (ofDigits 10 (decText z.natAbs) : Int) = z
      rw [ofDigits_decText]
      omega

/-- The field with the granularity. -/
theorem search_bmBytePerBit (n : Nat) : search bmBytePerBitPattern
    ("bm-byte-per-bit ".toList ++ decText n ++ [';']) =
      some ["bm-byte-per-bit".toList, [' '], decText n, [';']] := by
  have hline : "bm-byte-per-bit ".toList ++ decText n ++ [';'] =
      "bm-byte-per-bit".toList ++ ([' '] ++ (decText n ++ [';'])) := by
    simp
  refine search_of_matchAt (m := (_, [])) ?_
  rw [hline, bmBytePerBitPattern, matchAt_cons (match_text _ _),
    matchAt_cons (match_some (by simp) (List.all_eq_true.1 (by decide))
      (isSpacePy_head_decText _ _)),
    matchAt_cons (match_some (decText_ne_nil _) isDigit_of_mem (by rintro _ ⟨⟩; decide))]
  rfl

/-! ## Lines with items -/

/-- ` 0x..;`. -/
def valueText (v : BitVec 64) : List Char := " 0x".toList ++ hexText 16 v.toNat ++ [';']

theorem valueBytes_hexText (v : BitVec 64) :
    valueBytes (hexText 16 v.toNat) = .ok (toBytes 8 v.toNat) := by
  have hv : ofDigits 16 (hexText 16 v.toNat) = v.toNat := by
    rw [ofDigits_hexText]
    exact Nat.mod_eq_of_lt v.isLt
  rw [valueBytes, hv, if_pos v.isLt]

theorem matchAt_hex (v : BitVec 64) (rest : List Char) :
    matchAt hexPattern ("0x".toList ++ (hexText 16 v.toNat ++ ([';'] ++ rest))) =
      some (["0x".toList, hexText 16 v.toNat, [';']], rest) := by
  rw [hexPattern, matchAt_cons (match_text _ _),
    matchAt_cons (match_some (hexText_ne_nil (by decide) _) isHexDigit_of_mem (by rintro _ ⟨⟩; decide)),
    matchAt_cons (match_text _ _)]
  rfl

theorem matchAt_hex_blank : ∀ d ∈ "   ".toList, ∀ s, matchAt hexPattern (d :: s) = none := by
  intro d hd s
  obtain rfl : d = ' ' := by simpa using hd
  exact matchAt_text_cons_ne (by decide)

theorem findIter_values (vs : List (BitVec 64)) : ∀ n, (vs.flatMap valueText).length ≤ n →
    findIter hexPattern n (vs.flatMap valueText) =
      vs.map fun v => ["0x".toList, hexText 16 v.toNat, [';']] := by
  induction vs with
  | nil => exact fun n _ => findIter_nil _ n
  | cons v vs ih =>
    intro n hn
    have htext : (v :: vs).flatMap valueText = [' '] ++ ("0x".toList ++ (hexText 16 v.toNat ++
        ([';'] ++ vs.flatMap valueText))) := by
      simp [valueText]
    have hlength : 4 + (vs.flatMap valueText).length ≤ n := by
      refine Nat.le_trans ?_ hn
      rw [htext, List.length_append, List.length_append, List.length_append, List.length_append]
      show _ ≤ 1 + (2 + (_ + (1 + _)))
      omega
    obtain ⟨k, rfl⟩ : ∃ k, n = [' '].length + (k + 1) := ⟨n - 2, by
      rw [List.length_singleton]
      omega⟩
    rw [List.length_singleton] at hlength
    rw [htext, findIter_append fun d hd => matchAt_hex_blank d (by simpa using hd),
      findIter_of_matchAt (by simp) (matchAt_hex v _), ih k (by omega), List.map_cons]

/-- Steps that all succeed. -/
theorem mapM_map_ok {α β γ ε : Type} {f : α → β} {g : β → Except ε γ} {h : α → γ}
    (hstep : ∀ x, g (f x) = .ok (h x)) (l : List α) : (l.map f).mapM g = .ok (l.map h) := by
  induction l with
  | nil => rfl
  | cons x l ih =>
    rw [List.map_cons, List.mapM_cons, hstep, ih]
    rfl

/-- **A line with values.** -/
theorem readBitmapLine_values {vs : List (BitVec 64)} (hvs : vs ≠ []) :
    readBitmapLine ("   ".toList ++ vs.flatMap valueText) =
      .ok (vs.flatMap fun v => toBytes 8 v.toNat) := by
  have htimes : findIter timesPattern ("   ".toList ++ vs.flatMap valueText).length
      ("   ".toList ++ vs.flatMap valueText) = [] := by
    refine findIter_eq_nil (c := 't') (by decide) ?_
    have hnone : ∀ v : BitVec 64, 't' ∉ hexText 16 v.toNat := fun v =>
      not_mem_hexText (by decide) 16 v.toNat
    simp [valueText, hnone]
  have hhex : findIter hexPattern ("   ".toList ++ vs.flatMap valueText).length
      ("   ".toList ++ vs.flatMap valueText) =
        vs.map fun v => ["0x".toList, hexText 16 v.toNat, [';']] := by
    rw [List.length_append, findIter_append matchAt_hex_blank]
    exact findIter_values vs _ (Nat.le_refl _)
  have hne : (vs.map fun v => ["0x".toList, hexText 16 v.toNat, [';']]) ≠ [] := by
    simpa using hvs
  have hbytes := mapM_map_ok (g := fun groups : List (List Char) => valueBytes (groups.getD 1 []))
    (f := fun v : BitVec 64 => ["0x".toList, hexText 16 v.toNat, [';']]) valueBytes_hexText vs
  unfold readBitmapLine
  rw [htimes, hhex, if_neg (not_not.2 rfl), if_pos hne, hbytes, List.flatMap_def]
  rfl

/-- **A line with a run.** -/
theorem readBitmapLine_run (n : Nat) (v : BitVec 64) :
    readBitmapLine ("   ".toList ++ (' ' :: decText n ++ " times 0x".toList ++ hexText 16 v.toNat ++ [';'])) =
      .ok (List.replicate n (toBytes 8 v.toNat)).flatten := by
  have hline : "   ".toList ++ (' ' :: decText n ++ " times 0x".toList ++ hexText 16 v.toNat ++ [';']) =
      "    ".toList ++ (decText n ++ ([' '] ++ ("times".toList ++ ([' '] ++ ("0x".toList ++
        (hexText 16 v.toNat ++ [';'])))))) := by
    simp
  have hmatch : matchAt timesPattern (decText n ++ ([' '] ++ ("times".toList ++ ([' '] ++
      ("0x".toList ++ (hexText 16 v.toNat ++ [';'])))))) =
        some ([decText n, [' '], "times".toList, [' '], "0x".toList, hexText 16 v.toNat, [';']], []) := by
    rw [timesPattern,
      matchAt_cons (match_some (decText_ne_nil n) isDigit_of_mem (by rintro _ ⟨⟩; decide)),
      matchAt_cons (match_some (by simp) (List.all_eq_true.1 (by decide)) (by rintro _ ⟨⟩; decide)),
      matchAt_cons (match_text _ _),
      matchAt_cons (match_some (by simp) (List.all_eq_true.1 (by decide)) (by rintro _ ⟨⟩; decide)),
      matchAt_cons (match_text _ _),
      matchAt_cons (match_some (hexText_ne_nil (by decide) _) isHexDigit_of_mem
        (by rintro _ ⟨⟩; decide))]
    rfl
  have hblank : ∀ d ∈ "    ".toList, ∀ s, matchAt timesPattern (d :: s) = none := by
    intro d hd s
    obtain rfl : d = ' ' := by simpa using hd
    exact matchAt_some_cons_neg (by decide)
  have hne : (decText n ++ ([' '] ++ ("times".toList ++ ([' '] ++ ("0x".toList ++
      (hexText 16 v.toNat ++ [';'])))))) ≠ [] := by
    simp
  have htimes : findIter timesPattern ("    ".toList ++ (decText n ++ ([' '] ++ ("times".toList ++ ([' '] ++
      ("0x".toList ++ (hexText 16 v.toNat ++ [';']))))))).length ("    ".toList ++ (decText n ++ ([' '] ++
        ("times".toList ++ ([' '] ++ ("0x".toList ++ (hexText 16 v.toNat ++ [';']))))))) =
      [[decText n, [' '], "times".toList, [' '], "0x".toList, hexText 16 v.toNat, [';']]] := by
    obtain ⟨k, hk⟩ := Nat.exists_eq_add_one_of_ne_zero (List.length_pos_iff.2 hne).ne'
    rw [List.length_append, findIter_append hblank, hk, findIter_of_matchAt hne hmatch, findIter_nil]
  unfold readBitmapLine
  rw [hline, htimes, if_pos (by simp), List.mapM_cons, List.mapM_nil]
  show (do
    let bytes ← (valueBytes (hexText 16 v.toNat)).map fun bytes =>
      (List.replicate (ofDigits 10 (decText n)) bytes).flatten
    pure [bytes] : Except ParseError _).map List.flatten = _
  rw [valueBytes_hexText, ofDigits_decText]
  simp [bind, Except.bind, Except.map, pure, Except.pure]

/-- A line with nothing to read. -/
theorem readBitmapLine_blank : ∃ e, readBitmapLine "   ".toList = .error e :=
  ⟨_, rfl⟩

end DrbdUtils.Verify
