import DrbdUtils.Meta.BitmapDump
import DrbdUtils.Meta.Scanner

/-!
# `restore-md`: the bitmap section of a dump

`assign_32_of_64bit()`, `parse_bitmap_window_one_peer()`, `parse_bitmap_window()` and
`parse_bitmap()` of `drbdmeta.c`.  The section is scanned once per 32 MiB window of the I/O
buffer; every pass skips what lies outside its window.

* `parseItems_fills` — in the first window the items of a peer land, low half first, at the
  interleaved positions of its slot, as long as these lie in the window.
* `parseItems_skips` — in a later window the index starts below zero; it is compared with a
  `size_t`, so nothing is assigned and the index never advances.
* `parseBitmap_word32` — the content of every bitmap word after `parse_bitmap()`.
-/

set_option autoImplicit false

namespace DrbdUtils.Meta

open BlockDevice

/-! ## Model -/

/-- 32-bit words in the I/O buffer. -/
def windowWords : Nat := bufferSize / 4

/-- Value of a wider expression stored in an `int`. -/
def toInt32 (x : Int) : Int := x.bmod (2 ^ 32)

/-- `assign_32_of_64bit`. -/
def assign32Of64bit (i : Int) (value : BitVec 64) (maxPeers : Nat) (bm : Mem) : Int × Mem :=
  -- the `int` is converted to `size_t` for the comparison
  if windowWords ≤ toU64 i then (i, bm)
  else
    let bm :=
      if 0 ≤ i then
        if i.toNat / maxPeers % 2 = 0 then setWord32 bm i.toNat (value.setWidth 32)
        else setWord32 bm i.toNat ((value >>> 32).setWidth 32)
      else bm
    (i + maxPeers, bm)

/-- Both halves of a value, `n` times over. -/
def assignTimes (value : BitVec 64) (maxPeers : Nat) : Nat → Int → Mem → Int × Mem
  | 0, i, bm => (i, bm)
  | n + 1, i, bm =>
    let low := assign32Of64bit i value maxPeers bm
    let high := assign32Of64bit low.1 value maxPeers low.2
    assignTimes value maxPeers n high.1 high.2

/-- The items of one peer up to the closing brace.  `times` is an `int`: a count is cut to 32
    bits, and `while (times--)` runs that many times, a negative value counting down through
    the whole range. -/
def parseItems (maxPeers : Nat) (parseOnly : Bool) :
    List Token → Int → Mem → Except Stop (Int × Mem × List Token)
  | .u64 value :: .op .semicolon :: rest, i, bm =>
    if parseOnly then parseItems maxPeers parseOnly rest (toInt32 (i + maxPeers * 2)) bm
    else
      let s := assignTimes value maxPeers 1 i bm
      parseItems maxPeers parseOnly rest s.1 s.2
  | .num n :: .kw .times :: .u64 value :: .op .semicolon :: rest, i, bm =>
    let times : Nat := n.toNat % 2 ^ 32
    if parseOnly then parseItems maxPeers parseOnly rest (toInt32 (i + times * maxPeers * 2)) bm
    else
      let s := assignTimes value maxPeers times i bm
      parseItems maxPeers parseOnly rest s.1 s.2
  | .op .braceClose :: rest, i, bm => .ok (i, bm, rest)
  | _, _, _ => .error (.exit 10)

/-- What opens the section of a peer, up to the opening brace. -/
def parseBitmapHeader (cfg : Format) (peerNr : Nat) : List Token → Except Stop (List Token)
  | .kw .bm :: .op .braceOpen :: rest =>
    if cfg.version = .v09 then .error (.exit 10) else .ok rest
  | .kw .bitmap :: .op .bracketOpen :: .num n :: .op .bracketClose :: .op .braceOpen :: rest =>
    if cfg.version = .v09 ∧ n.toNat = peerNr then .ok rest else .error (.exit 10)
  | _ => .error (.exit 10)

/-- `parse_bitmap_window_one_peer`: words advanced, the buffer, and the rest of the input. -/
def parseBitmapWindowOnePeer (cfg : Format) (window peerNr : Nat) (parseOnly : Bool)
    (toks : List Token) (bm : Mem) : Except Stop (Int × Mem × List Token) := do
  let toks ← parseBitmapHeader cfg peerNr toks
  let (i, bm, toks) ← parseItems cfg.md.maxPeers.toNat parseOnly toks
    (toInt32 (peerNr - window * windowWords)) bm
  return (i - peerNr, bm, toks)

/-- The loop over the peers; `words` is the result for the last one. -/
def parseBitmapPeers (cfg : Format) (window : Nat) (parseOnly : Bool) :
    Nat → Nat → Int → List Token → Mem → Except Stop (Int × Mem × List Token)
  | 0, _, words, toks, bm => .ok (words, bm, toks)
  | n + 1, peerNr, _, toks, bm => do
    let (words, bm, toks) ← parseBitmapWindowOnePeer cfg window peerNr parseOnly toks bm
    parseBitmapPeers cfg window parseOnly n (peerNr + 1) words toks bm

/-- `parse_bitmap_window`. -/
def parseBitmapWindow (cfg : Format) (window : Nat) (parseOnly : Bool) (toks : List Token)
    (bm : Mem) : Except Stop (Int × Mem × List Token) :=
  if cfg.version = .v09 then
    parseBitmapPeers cfg window parseOnly cfg.md.maxPeers.toNat 0 0 toks bm
  else parseBitmapWindowOnePeer cfg window 0 parseOnly toks bm

/-- What one pass of `parse_bitmap` does with its window; the result is `truncated`. -/
def writeBitmapWindow (o : Options) (cfg : Format) (parseOnly : Bool) (window : Nat) (words : Int)
    (truncated : Bool) : MetaRun Bool :=
  if 0 < words ∧ truncated = false then
    if windowWords < words then Run.stop .outOfBounds  -- the `memset` leaves the buffer
    else do
      let s := words.toNat * 4
      Run.modifyBuf fun bm => fill bm s (bufferSize - s) 0
      let s := align s cfg.mdHardSectSize.val
      let offset := cfg.bmOffset + window * bufferSize
      let limit := cfg.bmOffset + align cfg.bmBytes 4096
      let c ← if parseOnly then pure (min (toU64 (limit - offset)) s)
        else pwriteWithLimitOrDie o cfg s offset limit
      pure (decide (s ≠ c))
  else pure truncated

/-- The loop of `parse_bitmap`, over passes; every pass scans the same input. -/
def parseBitmapLoop (o : Options) (cfg : Format) (parseOnly : Bool) (toks : List Token) :
    Nat → Nat → Bool → MetaRun (List Token)
  | 0, _, _ => Run.stop .outOfFuel
  | fuel + 1, window, truncated => do
    let bm ← Run.getBuf
    let pass ← liftExcept (parseBitmapWindow cfg window parseOnly toks bm)
    Run.modifyBuf fun _ => pass.2.1
    let words := pass.1
    let truncated ← writeBitmapWindow o cfg parseOnly window words truncated
    if words = windowWords then parseBitmapLoop o cfg parseOnly toks fuel (window + 1) truncated
    else pure pass.2.2

/-- `parse_bitmap`: the result is the input behind the bitmap section. -/
def parseBitmap (o : Options) (cfg : Format) (parseOnly : Bool) (toks : List Token) (fuel : Nat) :
    MetaRun (List Token) :=
  parseBitmapLoop o cfg parseOnly toks fuel 0 false

/-! ## Dumps -/

def DumpItem.tokens : DumpItem → List Token
  | .single value => [.u64 value, .op .semicolon]
  | .repeated n value => [.num n, .kw .times, .u64 value, .op .semicolon]

/-- The sequence with every repeat count cut to 32 bits, as the `int times` holds it. -/
def intHalfWords (items : List DumpItem) : List (BitVec 32) :=
  items.flatMap (·.halfWords fun n => n.toNat % 2 ^ 32)

/-- The section of peer `p`. -/
def sectionTokens (cfg : Format) (p : Nat) (items : List DumpItem) : List Token :=
  (if cfg.version = .v09 then
      [.kw .bitmap, .op .bracketOpen, .num (BitVec.ofNat 64 p), .op .bracketClose, .op .braceOpen]
    else [.kw .bm, .op .braceOpen]) ++
    items.flatMap DumpItem.tokens ++ [.op .braceClose]

/-- The sections of `n` peers from peer `p` on. -/
def sectionsTokens (cfg : Format) (dump : Nat → List DumpItem) : Nat → Nat → List Token
  | 0, _ => []
  | n + 1, p => sectionTokens cfg p (dump p) ++ sectionsTokens cfg dump n (p + 1)

/-- A bitmap dump: one section per peer. -/
def bitmapDump (cfg : Format) (dump : Nat → List DumpItem) : List Token :=
  sectionsTokens cfg dump cfg.md.maxPeers.toNat 0

/-! ## The first window -/

/-- How many words of slot `p` lie in the window. -/
def slotCapacity (m p : Nat) : Nat := (windowWords + m - 1 - p) / m

theorem lt_slotCapacity_iff {m p k : Nat} (hp : p < m) :
    k < slotCapacity m p ↔ p + k * m < windowWords := by
  rw [slotCapacity, Nat.lt_iff_add_one_le, Nat.le_div_iff_mul_le (by omega), Nat.add_mul]
  omega

/-- The state of the scan of slot `p` after the words `seq`: index and buffer. -/
structure Filled (m p : Nat) (seq : List (BitVec 32)) (bm₀ : Mem) (i : Int) (bm : Mem) : Prop where
  pos : i = p + (min seq.length (slotCapacity m p) * m : Nat)
  word : ∀ q, word32 bm q =
    if q < windowWords ∧ q % m = p then seq[q / m]?.getD (word32 bm₀ q) else word32 bm₀ q

theorem Filled.nil {m p : Nat} (bm : Mem) : Filled m p [] bm p bm where
  pos := by simp
  word := by intro q; simp

/-- The half that `assign_32_of_64bit` stores for word `k` of a slot. -/
def halfAt (k : Nat) (value : BitVec 64) : BitVec 32 :=
  if k % 2 = 0 then value.setWidth 32 else (value >>> 32).setWidth 32

/-- One call of `assign_32_of_64bit` in the first window. -/
theorem Filled.assign {m p : Nat} {seq : List (BitVec 32)} {bm₀ bm : Mem} {i : Int}
    (h : Filled m p seq bm₀ i bm) (hp : p < m) (hm : m < 2 ^ 32) (value : BitVec 64) :
    Filled m p (seq ++ [halfAt seq.length value]) bm₀ (assign32Of64bit i value m bm).1
      (assign32Of64bit i value m bm).2 := by
  have hcap := lt_slotCapacity_iff (k := seq.length) hp
  have hW : windowWords < 2 ^ 31 := by decide +kernel
  by_cases hk : seq.length < slotCapacity m p
  · -- inside the window: the word is stored and the index advances
    have hin := hcap.1 hk
    have hi : i = ((p + seq.length * m : Nat) : Int) := by
      rw [h.pos, Nat.min_eq_left hk.le]; push_cast; ring
    have hu : ¬ windowWords ≤ toU64 i := by
      rw [hi, toU64_natCast (by omega)]; omega
    have hdiv : (p + seq.length * m) / m = seq.length := by
      rw [Nat.add_mul_div_right _ _ (by omega), Nat.div_eq_of_lt hp, Nat.zero_add]
    have hmod : (p + seq.length * m) % m = p := by
      rw [Nat.add_mul_mod_self_right, Nat.mod_eq_of_lt hp]
    have hres : assign32Of64bit i value m bm =
        (i + m, setWord32 bm (p + seq.length * m) (halfAt seq.length value)) := by
      rw [assign32Of64bit, if_neg hu, if_pos (by omega), hi, Int.toNat_natCast, hdiv]
      unfold halfAt
      split <;> rfl
    rw [hres]
    refine ⟨?_, fun q => ?_⟩
    · rw [hi, List.length_append, List.length_singleton, Nat.min_eq_left (by omega)]
      push_cast
      ring
    · by_cases hq : q = p + seq.length * m
      · subst hq
        simp [hin, hmod, hdiv]
      · rw [word32_setWord32_ne _ _ hq, h.word q]
        by_cases hcol : q < windowWords ∧ q % m = p
        · have hne : q / m ≠ seq.length := by
            intro hc
            have := Nat.div_add_mod q m
            rw [hc, hcol.2, Nat.mul_comm] at this
            omega
          rw [if_pos hcol, if_pos hcol]
          congr 1
          rcases Nat.lt_or_gt_of_ne hne with hlt | hgt
          · rw [List.getElem?_append_left hlt]
          · rw [List.getElem?_eq_none (by omega), List.getElem?_eq_none (by simp; omega)]
        · rw [if_neg hcol, if_neg hcol]
  · -- past the window: nothing happens
    have hout : windowWords ≤ p + slotCapacity m p * m := by
      have := (lt_slotCapacity_iff (k := slotCapacity m p) hp).not
      omega
    have hi : i = ((p + slotCapacity m p * m : Nat) : Int) := by
      rw [h.pos, Nat.min_eq_right (by omega)]; push_cast; ring
    have hsmall : slotCapacity m p * m ≤ windowWords + m - 1 - p := Nat.div_mul_le_self _ _
    have hres : assign32Of64bit i value m bm = (i, bm) := by
      rw [assign32Of64bit, if_pos]
      rw [hi, toU64_natCast (by omega)]
      exact hout
    rw [hres]
    refine ⟨?_, fun q => ?_⟩
    · rw [h.pos, List.length_append, List.length_singleton, Nat.min_eq_right (by omega),
        Nat.min_eq_right (by omega)]
    · rw [h.word q]
      by_cases hcol : q < windowWords ∧ q % m = p
      · have hlt : q / m < slotCapacity m p := by
          rw [lt_slotCapacity_iff hp]
          have := Nat.div_add_mod q m
          rw [hcol.2, Nat.mul_comm] at this
          omega
        rw [if_pos hcol, if_pos hcol, List.getElem?_append_left (by omega)]
      · rw [if_neg hcol, if_neg hcol]

/-- The repeat loop in the first window. -/
theorem Filled.assignTimes {m p : Nat} {bm₀ : Mem} (hp : p < m) (hm : m < 2 ^ 32)
    (value : BitVec 64) : ∀ (n : Nat) (seq : List (BitVec 32)) (i : Int) (bm : Mem),
      Filled m p seq bm₀ i bm → seq.length % 2 = 0 →
      Filled m p (seq ++ (List.replicate n (halves value)).flatten) bm₀
        (assignTimes value m n i bm).1 (assignTimes value m n i bm).2
  | 0, seq, i, bm, h, _ => by
    simpa [Meta.assignTimes] using h
  | n + 1, seq, i, bm, h, heven => by
    have h1 := h.assign hp hm value
    have h2 := h1.assign hp hm value
    have hseq : seq ++ [halfAt seq.length value] ++
        [halfAt (seq ++ [halfAt seq.length value]).length value] = seq ++ halves value := by
      have hodd : ¬ (seq.length + 1) % 2 = 0 := by omega
      simp [halfAt, halves, heven, hodd]
    rw [hseq] at h2
    have h3 := Filled.assignTimes hp hm value n _ _ _ h2 (by simp [halves]; omega)
    rw [List.replicate_succ, List.flatten_cons, ← List.append_assoc]
    exact h3

theorem flatten_replicate_halves_length (n : Nat) (value : BitVec 64) :
    (List.replicate n (halves value)).flatten.length = n * 2 := by
  simp [halves]

theorem halfWords_even (count : BitVec 64 → Nat) : ∀ items : List DumpItem,
    (items.flatMap (·.halfWords count)).length % 2 = 0
  | [] => rfl
  | item :: items => by
    rw [List.flatMap_cons, List.length_append]
    have ih := halfWords_even count items
    cases item with
    | single value => rw [DumpItem.halfWords]; simp only [halves, List.length_cons, List.length_nil]; omega
    | repeated n value => rw [DumpItem.halfWords, flatten_replicate_halves_length]; omega

/-- **One section in the first window**: the words of the section land in the slot. -/
theorem parseItems_fills {m p : Nat} {bm₀ : Mem} (hp : p < m) (hm : m < 2 ^ 32)
    (rest : List Token) : ∀ (items : List DumpItem) (seq : List (BitVec 32)) (i : Int) (bm : Mem),
      Filled m p seq bm₀ i bm → seq.length % 2 = 0 →
      ∃ i' bm', parseItems m false
          (items.flatMap DumpItem.tokens ++ .op .braceClose :: rest) i bm = .ok (i', bm', rest) ∧
        Filled m p (seq ++ intHalfWords items) bm₀ i' bm'
  | [], seq, i, bm, h, _ => ⟨i, bm, rfl, by simpa [intHalfWords] using h⟩
  | .single value :: items, seq, i, bm, h, heven => by
    have h1 := h.assignTimes hp hm value 1 seq i bm heven
    obtain ⟨i', bm', hrun, hfill⟩ := parseItems_fills hp hm rest items _ _ _ h1
      (by rw [List.length_append, flatten_replicate_halves_length]; omega)
    refine ⟨i', bm', ?_, ?_⟩
    · exact hrun
    · simpa [intHalfWords, DumpItem.halfWords] using hfill
  | .repeated n value :: items, seq, i, bm, h, heven => by
    have h1 := h.assignTimes hp hm value (n.toNat % 2 ^ 32) seq i bm heven
    obtain ⟨i', bm', hrun, hfill⟩ := parseItems_fills hp hm rest items _ _ _ h1
      (by rw [List.length_append, flatten_replicate_halves_length]; omega)
    refine ⟨i', bm', ?_, ?_⟩
    · exact hrun
    · simpa [intHalfWords, DumpItem.halfWords] using hfill

/-! ## Later windows -/

/-- An index below zero is "past the window". -/
theorem assign32Of64bit_neg {i : Int} (hi : i < 0) (hlo : -2 ^ 31 ≤ i) (value : BitVec 64) (m : Nat)
    (bm : Mem) : assign32Of64bit i value m bm = (i, bm) := by
  have hu : toU64 i = (2 ^ 64 + i).toNat := by unfold toU64; omega
  rw [assign32Of64bit, if_pos]
  rw [hu, windowWords, bufferSize]
  omega

theorem assignTimes_neg {i : Int} (hi : i < 0) (hlo : -2 ^ 31 ≤ i) (value : BitVec 64) (m : Nat)
    (bm : Mem) : ∀ n, assignTimes value m n i bm = (i, bm)
  | 0 => rfl
  | n + 1 => by
    rw [assignTimes, assign32Of64bit_neg hi hlo]
    dsimp only
    rw [assign32Of64bit_neg hi hlo]
    exact assignTimes_neg hi hlo value m bm n

/-- **One section in a later window**: scanned to its end, without any effect. -/
theorem parseItems_skips {m : Nat} {i : Int} (hi : i < 0) (hlo : -2 ^ 31 ≤ i) (rest : List Token)
    (bm : Mem) : ∀ items : List DumpItem,
      parseItems m false (items.flatMap DumpItem.tokens ++ .op .braceClose :: rest) i bm =
        .ok (i, bm, rest)
  | [] => rfl
  | .single value :: items => by
    have h := parseItems_skips (m := m) hi hlo rest bm items
    simpa [parseItems, DumpItem.tokens, assignTimes_neg hi hlo] using h
  | .repeated n value :: items => by
    have h := parseItems_skips (m := m) hi hlo rest bm items
    simpa [parseItems, DumpItem.tokens, assignTimes_neg hi hlo] using h

/-! ## One pass -/

/-- Peer counts the formats admit: up to `DRBD_PEERS_MAX`, and a single one before 9. -/
structure PeersAdmitted (cfg : Format) : Prop where
  pos : 1 ≤ cfg.md.maxPeers.toNat
  le : cfg.md.maxPeers.toNat ≤ DRBD_PEERS_MAX
  single : cfg.version ≠ .v09 → cfg.md.maxPeers.toNat = 1

theorem parseBitmapHeader_section {cfg : Format} {p : Nat} (hp : p < 2 ^ 64) (items : List DumpItem)
    (rest : List Token) :
    parseBitmapHeader cfg p (sectionTokens cfg p items ++ rest) =
      .ok (items.flatMap DumpItem.tokens ++ .op .braceClose :: rest) := by
  unfold sectionTokens
  by_cases h : cfg.version = .v09
  · simpa [h, parseBitmapHeader] using hp
  · simp [h, parseBitmapHeader]

/-- The section of peer `p` in the first window. -/
theorem parseOnePeer_first {cfg : Format} {p : Nat} (hm : cfg.md.maxPeers.toNat ≤ DRBD_PEERS_MAX)
    (hp : p < cfg.md.maxPeers.toNat) (items : List DumpItem) (rest : List Token) (bm : Mem) :
    ∃ bm', parseBitmapWindowOnePeer cfg 0 p false (sectionTokens cfg p items ++ rest) bm =
        .ok (((min (intHalfWords items).length (slotCapacity cfg.md.maxPeers.toNat p) *
          cfg.md.maxPeers.toNat : Nat) : Int), bm', rest) ∧
      ∀ q, word32 bm' q = if q < windowWords ∧ q % cfg.md.maxPeers.toNat = p then
        (intHalfWords items)[q / cfg.md.maxPeers.toNat]?.getD (word32 bm q) else word32 bm q := by
  have hm32 : cfg.md.maxPeers.toNat ≤ 32 := hm
  have hstart : toInt32 (p - (0 : Nat) * windowWords) = p := by
    unfold toInt32; rw [Nat.cast_zero, zero_mul, sub_zero]
    exact Int.bmod_eq_of_le (by omega) (by omega)
  obtain ⟨i', bm', hrun, hfill⟩ := parseItems_fills hp (by omega) rest items [] p bm
    (Filled.nil bm) rfl
  rw [List.nil_append] at hfill
  refine ⟨bm', ?_, hfill.word⟩
  rw [parseBitmapWindowOnePeer, parseBitmapHeader_section (by omega)]
  simp only [hstart, hrun, bind, Except.bind, pure, Except.pure, hfill.pos]
  rw [add_sub_cancel_left]

/-- The section of peer `p` in the second window. -/
theorem parseOnePeer_second {cfg : Format} {p : Nat} (hm : cfg.md.maxPeers.toNat ≤ DRBD_PEERS_MAX)
    (hp : p < cfg.md.maxPeers.toNat) (items : List DumpItem) (rest : List Token) (bm : Mem) :
    parseBitmapWindowOnePeer cfg 1 p false (sectionTokens cfg p items ++ rest) bm =
      .ok (-windowWords, bm, rest) := by
  have hm32 : cfg.md.maxPeers.toNat ≤ 32 := hm
  have hstart : toInt32 (p - (1 : Nat) * windowWords) = p - windowWords := by
    unfold toInt32 windowWords bufferSize; rw [Nat.cast_one, one_mul]
    exact Int.bmod_eq_of_le (by omega) (by omega)
  have hneg : (p : Int) - windowWords < 0 ∧ -2 ^ 31 ≤ (p : Int) - windowWords := by
    unfold windowWords bufferSize; omega
  rw [parseBitmapWindowOnePeer, parseBitmapHeader_section (by omega)]
  simp only [hstart, parseItems_skips hneg.1 hneg.2, bind, Except.bind, pure, Except.pure]
  rw [sub_sub_cancel_left]

/-- The buffer once the slots below `p` have been filled. -/
def ColumnsFilled (m p : Nat) (dump : Nat → List DumpItem) (bm₀ bm : Mem) : Prop :=
  ∀ q, word32 bm q = if q < windowWords ∧ q % m < p then
    (intHalfWords (dump (q % m)))[q / m]?.getD (word32 bm₀ q) else word32 bm₀ q

/-- How many words of the bitmap the first pass returns, counted at the last peer. -/
def restoredWords (cfg : Format) (dump : Nat → List DumpItem) : Nat :=
  min (intHalfWords (dump (cfg.md.maxPeers.toNat - 1))).length
    (windowWords / cfg.md.maxPeers.toNat) * cfg.md.maxPeers.toNat

theorem slotCapacity_last {m : Nat} (hm : 0 < m) : slotCapacity m (m - 1) = windowWords / m := by
  rw [slotCapacity]; congr 1; omega

theorem parseBitmapPeers_first {cfg : Format} {dump : Nat → List DumpItem} {bm₀ : Mem}
    (hm : cfg.md.maxPeers.toNat ≤ DRBD_PEERS_MAX) (rest : List Token) :
    ∀ (n p : Nat) (words : Int) (bm : Mem), p + n = cfg.md.maxPeers.toNat →
      ColumnsFilled cfg.md.maxPeers.toNat p dump bm₀ bm →
      ∃ bm', parseBitmapPeers cfg 0 false n p words (sectionsTokens cfg dump n p ++ rest) bm =
          .ok (if n = 0 then words else restoredWords cfg dump, bm', rest) ∧
        ColumnsFilled cfg.md.maxPeers.toNat cfg.md.maxPeers.toNat dump bm₀ bm'
  | 0, p, words, bm, hp, h => ⟨bm, rfl, (show p = _ by omega) ▸ h⟩
  | n + 1, p, words, bm, hp, h => by
    obtain ⟨bm1, hrun, hword⟩ := parseOnePeer_first hm (show p < _ by omega) (dump p)
      (sectionsTokens cfg dump n (p + 1) ++ rest) bm
    have h1 : ColumnsFilled cfg.md.maxPeers.toNat (p + 1) dump bm₀ bm1 := by
      intro q
      rw [hword q, h q]
      by_cases hq : q < windowWords ∧ q % cfg.md.maxPeers.toNat = p
      · rw [if_pos hq, if_neg (by omega), if_pos (by omega), hq.2]
      · rw [if_neg hq]
        refine if_congr ?_ rfl rfl
        omega
    obtain ⟨bm2, hrest, h2⟩ := parseBitmapPeers_first hm rest n (p + 1)
      (min (intHalfWords (dump p)).length (slotCapacity cfg.md.maxPeers.toNat p) *
        cfg.md.maxPeers.toNat : Nat) bm1 (by omega) h1
    refine ⟨bm2, ?_, h2⟩
    rw [parseBitmapPeers, sectionsTokens, List.append_assoc, hrun]
    simp only [bind, Except.bind, hrest]
    rw [if_neg (Nat.succ_ne_zero n)]
    congr 2
    by_cases hn : n = 0
    · have hlast : p = cfg.md.maxPeers.toNat - 1 := by omega
      rw [if_pos hn, restoredWords, ← slotCapacity_last (by omega), hlast]
    · rw [if_neg hn]

theorem parseBitmapPeers_second {cfg : Format} {dump : Nat → List DumpItem}
    (hm : cfg.md.maxPeers.toNat ≤ DRBD_PEERS_MAX) (rest : List Token) (bm : Mem) :
    ∀ (n p : Nat) (words : Int), p + n = cfg.md.maxPeers.toNat →
      parseBitmapPeers cfg 1 false n p words (sectionsTokens cfg dump n p ++ rest) bm =
        .ok (if n = 0 then words else -windowWords, bm, rest)
  | 0, p, words, hp => rfl
  | n + 1, p, words, hp => by
    have hrest := @parseBitmapPeers_second _ dump hm rest bm n (p + 1) (-windowWords)
      (by omega)
    rw [parseBitmapPeers, sectionsTokens, List.append_assoc,
      parseOnePeer_second hm (by omega)]
    simp only [bind, Except.bind, hrest]
    simp

/-- With the admitted peer counts both formats go through the loop over the peers. -/
theorem parseBitmapWindow_eq {cfg : Format} (hc : PeersAdmitted cfg) (window : Nat)
    (toks : List Token) (bm : Mem) :
    parseBitmapWindow cfg window false toks bm =
      parseBitmapPeers cfg window false cfg.md.maxPeers.toNat 0 0 toks bm := by
  unfold parseBitmapWindow
  by_cases hv : cfg.version = .v09
  · rw [if_pos hv]
  · rw [if_neg hv, hc.single hv, parseBitmapPeers]
    cases parseBitmapWindowOnePeer cfg window 0 false toks bm with
    | error e => rfl
    | ok r => rfl

/-- **The first pass** fills the buffer with every section, as far as the window reaches. -/
theorem parseBitmapWindow_first {cfg : Format} (hc : PeersAdmitted cfg)
    (dump : Nat → List DumpItem) (rest : List Token) (bm : Mem) :
    ∃ bm', parseBitmapWindow cfg 0 false (bitmapDump cfg dump ++ rest) bm =
        .ok (restoredWords cfg dump, bm', rest) ∧
      ColumnsFilled cfg.md.maxPeers.toNat cfg.md.maxPeers.toNat dump bm bm' := by
  have hpos := hc.pos
  obtain ⟨bm', hrun, h⟩ := parseBitmapPeers_first hc.le rest
    cfg.md.maxPeers.toNat 0 0 bm (by omega) (by intro q; rw [if_neg (by omega)])
  rw [if_neg (by omega)] at hrun
  exact ⟨bm', by rw [parseBitmapWindow_eq hc]; exact hrun, h⟩

/-- **The second pass** changes nothing, and ends the loop. -/
theorem parseBitmapWindow_second {cfg : Format} (hc : PeersAdmitted cfg)
    (dump : Nat → List DumpItem) (rest : List Token) (bm : Mem) :
    parseBitmapWindow cfg 1 false (bitmapDump cfg dump ++ rest) bm =
      .ok (-windowWords, bm, rest) := by
  have hpos := hc.pos
  have hrun := @parseBitmapPeers_second _ dump hc.le rest bm cfg.md.maxPeers.toNat 0 0
    (by omega)
  rw [if_neg (by omega)] at hrun
  rw [parseBitmapWindow_eq hc]
  exact hrun

/-! ## The bitmap afterwards -/

theorem four_dvd_align {x : Nat} (h : 4 ∣ x) (hs : HardSectSize) : 4 ∣ align x hs.val := by
  obtain ⟨j, hj, hval⟩ := (Nat.dvd_prime_pow Nat.prime_two).1
    (show hs.val ∣ 2 ^ 12 from hs.dvd)
  rcases Nat.lt_or_ge j 2 with hlt | hge
  · have hdvd : hs.val ∣ 4 := hval ▸ Nat.pow_dvd_pow 2 hlt.le
    rw [align_eq_of_dvd hs.pos (hdvd.trans h)]
    exact h
  · have hdvd : 4 ∣ hs.val := hval ▸ Nat.pow_dvd_pow 2 hge
    exact hdvd.trans (dvd_align _ _)

theorem restoredWords_le {cfg : Format} (dump : Nat → List DumpItem) :
    restoredWords cfg dump ≤ windowWords :=
  (Nat.mul_le_mul_right _ (Nat.min_le_right _ _)).trans (Nat.div_mul_le_self _ _)

/-- Content of bitmap word `q` after `parse_bitmap()`: from the dump, from the padding of the
    write to whole sectors, or what was there. -/
def restoredWord (cfg : Format) (dump : Nat → List DumpItem) (disk buf : Mem) (q : Nat) :
    BitVec 32 :=
  if q < restoredWords cfg dump then
    (intHalfWords (dump (q % cfg.md.maxPeers.toNat)))[q / cfg.md.maxPeers.toNat]?.getD
      (word32 buf q)
  else if 4 * q < align (restoredWords cfg dump * 4) cfg.mdHardSectSize.val then 0
  else word32 (bitmapArea cfg disk) q

/-- Writing the first `n` words of the window: zero the rest of the buffer, and write whole
    sectors up to the end of the bitmap area. -/
theorem writeBitmapWindow_eq {o : Options} {cfg : Format} {n : Nat} (hd : o.dryRun = false)
    (harea : BitmapInside cfg (align cfg.bmBytes 4096)) (hbm : 0 < cfg.bmBytes)
    (hn : 0 < n) (hnW : n ≤ windowWords) (w : World) :
    ∃ t, writeBitmapWindow o cfg false 0 n false w =
      (.ok t, (w.mapBuf fun bm => fill bm (n * 4) (bufferSize - n * 4) 0).write
        (min (align (n * 4) cfg.mdHardSectSize.val) (align cfg.bmBytes 4096)) cfg.bmOffset) := by
  have hAge := align_ge cfg.bmBytes (show 0 < 4096 by omega)
  have hdev := harea.device
  have hoff : cfg.bmOffset + 0 * bufferSize = cfg.bmOffset := by omega
  have hlim : cfg.bmOffset + align cfg.bmBytes 4096 - cfg.bmOffset = align cfg.bmBytes 4096 := by
    omega
  have hwrite := @pwriteWithLimitOrDie_ok o cfg (align (n * 4) cfg.mdHardSectSize.val)
    cfg.bmOffset (cfg.bmOffset + align cfg.bmBytes 4096) (by omega) hd
    (harea.validate o (Nat.le_refl _) (by omega)) (by omega)
    (w.mapBuf fun bm => fill bm (n * 4) (bufferSize - n * 4) 0)
  rw [hlim] at hwrite
  refine ⟨decide (align (n * 4) cfg.mdHardSectSize.val ≠
    min (align (n * 4) cfg.mdHardSectSize.val) (align cfg.bmBytes 4096)), ?_⟩
  rw [writeBitmapWindow, if_pos ⟨by omega, rfl⟩, if_neg (by omega),
    Run.bind_ok (Run.modifyBuf_apply _ w), if_neg Bool.false_ne_true, hoff, Int.toNat_natCast,
    Run.bind_ok hwrite]
  rfl

/-- Writing the first window. -/
theorem writeBitmapWindow_first {o : Options} {cfg : Format} {dump : Nat → List DumpItem}
    {bm₀ : Mem} {w : World} (hm : 1 ≤ cfg.md.maxPeers.toNat) (hd : o.dryRun = false)
    (harea : BitmapInside cfg (align cfg.bmBytes 4096)) (hbm : 0 < cfg.bmBytes)
    (hfill : ColumnsFilled cfg.md.maxPeers.toNat cfg.md.maxPeers.toNat dump bm₀ w.buf) :
    ∃ t w', writeBitmapWindow o cfg false 0 (restoredWords cfg dump) false w = (.ok t, w') ∧
      ∀ q, 4 * q + 4 ≤ align cfg.bmBytes 4096 →
        word32 (bitmapArea cfg w'.disk) q = restoredWord cfg dump w.disk bm₀ q := by
  have hle := @restoredWords_le cfg dump
  by_cases h0 : restoredWords cfg dump = 0
  · refine ⟨false, w, ?_, fun q _ => ?_⟩
    · rw [writeBitmapWindow, if_neg (by rw [h0]; omega)]; rfl
    · rw [restoredWord, if_neg (by omega), if_neg]
      rw [h0, Nat.zero_mul, align_eq_of_dvd cfg.mdHardSectSize.pos (Nat.dvd_zero _)]
      omega
  obtain ⟨t, hrun⟩ := writeBitmapWindow_eq hd harea hbm (Nat.pos_of_ne_zero h0) hle w
  refine ⟨t, _, hrun, fun q hq => ?_⟩
  have hWb : windowWords * 4 = bufferSize := by decide +kernel
  have hs4 := four_dvd_align (Nat.dvd_mul_left 4 (restoredWords cfg dump)) cfg.mdHardSectSize
  have hA4 : 4 ∣ align cfg.bmBytes 4096 := Dvd.dvd.trans (by decide) (dvd_align _ _)
  have hsge := align_ge (restoredWords cfg dump * 4) cfg.mdHardSectSize.pos
  have hsle : align (restoredWords cfg dump * 4) cfg.mdHardSectSize.val ≤ bufferSize :=
    align_le_of_dvd cfg.mdHardSectSize.pos (by omega) (cfg.mdHardSectSize.dvd.trans (by decide +kernel))
  have hq' := hfill q
  unfold bitmapArea restoredWord
  rw [World.write_disk, World.mapBuf_disk, World.mapBuf_buf]
  by_cases h1 : q < restoredWords cfg dump
  · rw [if_pos h1, word32_blit_in (by omega), word32_fill_below (by omega), hq',
      if_pos ⟨by omega, Nat.mod_lt _ (by omega)⟩]
  · rw [if_neg h1]
    by_cases h2 : 4 * q < align (restoredWords cfg dump * 4) cfg.mdHardSectSize.val
    · rw [if_pos h2, word32_blit_in (by omega), word32_fill_zero (by omega) (by omega)]
    · rw [if_neg h2, word32_blit_behind (by omega)]
      rfl

/-- **What `parse_bitmap()` leaves on the device.**  It ends after at most two passes, and every
    word of the bitmap area is the one of `restoredWord`. -/
theorem parseBitmap_word32 {o : Options} {cfg : Format} {fuel : Nat} (hc : PeersAdmitted cfg)
    (hd : o.dryRun = false) (harea : BitmapInside cfg (align cfg.bmBytes 4096))
    (hbm : 0 < cfg.bmBytes) (hfuel : 2 ≤ fuel) (dump : Nat → List DumpItem) (rest : List Token)
    (w : World) :
    ∃ w', parseBitmap o cfg false (bitmapDump cfg dump ++ rest) fuel w = (.ok rest, w') ∧
      ∀ q, 4 * q + 4 ≤ align cfg.bmBytes 4096 →
        word32 (bitmapArea cfg w'.disk) q = restoredWord cfg dump w.disk w.buf q := by
  obtain ⟨f, rfl⟩ : ∃ f, fuel = f + 2 := ⟨fuel - 2, by omega⟩
  obtain ⟨bm', hrun, hfill⟩ := parseBitmapWindow_first hc dump rest w.buf
  obtain ⟨t, w1, hwrite, hword⟩ := writeBitmapWindow_first (w := w.mapBuf fun _ => bm') hc.pos hd
    harea hbm hfill
  have hlift : ∀ (w : World) (r : Int × Mem × List Token), liftExcept (.ok r) w = (.ok r, w) :=
    fun _ _ => rfl
  have hfirst : parseBitmap o cfg false (bitmapDump cfg dump ++ rest) (f + 2) w =
      (if (restoredWords cfg dump : Int) = windowWords then
        parseBitmapLoop o cfg false (bitmapDump cfg dump ++ rest) (f + 1) 1 t
      else pure rest) w1 := by
    rw [parseBitmap, parseBitmapLoop, Run.bind_ok (Run.getBuf_apply w), hrun,
      Run.bind_ok (hlift w _), Run.bind_ok (Run.modifyBuf_apply _ w), Run.bind_ok hwrite]
  by_cases hfull : (restoredWords cfg dump : Int) = windowWords
  · -- a full window: one more pass, which finds every index below zero
    have hsecond : writeBitmapWindow o cfg false 1 (-windowWords) t (w1.mapBuf fun _ => w1.buf) =
        (.ok t, w1) := by
      rw [writeBitmapWindow, if_neg (by rintro ⟨h, -⟩; unfold windowWords bufferSize at h; omega)]
      rfl
    refine ⟨w1, ?_, hword⟩
    rw [hfirst, if_pos hfull, parseBitmapLoop, Run.bind_ok (Run.getBuf_apply w1),
      parseBitmapWindow_second hc, Run.bind_ok (hlift w1 _),
      Run.bind_ok (Run.modifyBuf_apply _ w1), Run.bind_ok hsecond,
      if_neg (show ¬ (-windowWords : Int) = windowWords by decide +kernel)]
    rfl
  · exact ⟨w1, by rw [hfirst, if_neg hfull]; rfl, hword⟩

/-! ## The whole restore -/

/-- Every word the dump gives is where it belongs, as far as that lies in the bitmap area. -/
def BitmapRestored (cfg : Format) (dump : Nat → List DumpItem) (disk : Mem) : Prop :=
  ∀ p < cfg.md.maxPeers.toNat, ∀ k v, (halfWords (dump p))[k]? = some v →
    4 * (p + k * cfg.md.maxPeers.toNat) + 4 ≤ cfg.bmBytes →
    word32 (bitmapArea cfg disk) (p + k * cfg.md.maxPeers.toNat) = v

/-- Every word the dump gives inside the bitmap area is among the words of the first window, as
    counted at the last peer, and no repeat count cut to 32 bits moves it; or it is a zero in
    the padding of these words to whole sectors. -/
def FirstWindowSuffices (cfg : Format) (dump : Nat → List DumpItem) : Prop :=
  ∀ p < cfg.md.maxPeers.toNat, ∀ k v, (halfWords (dump p))[k]? = some v →
    4 * (p + k * cfg.md.maxPeers.toNat) + 4 ≤ cfg.bmBytes →
    (p + k * cfg.md.maxPeers.toNat < restoredWords cfg dump ∧
        (intHalfWords (dump p))[k]? = some v) ∨
      (restoredWords cfg dump ≤ p + k * cfg.md.maxPeers.toNat ∧
        4 * (p + k * cfg.md.maxPeers.toNat) <
          align (restoredWords cfg dump * 4) cfg.mdHardSectSize.val ∧ v = 0)

theorem word32_const_ne (q q' : Nat) :
    word32 (fun _ => 0) q ≠ word32 (fun _ => BitVec.allOnes 8) q' := by
  have h0 : word32 (fun _ => 0) q = 0 := by simp [word32]
  have h1 : word32 (fun _ => BitVec.allOnes 8) q' = BitVec.allOnes 32 := by
    simp only [word32]; decide
  rw [h0, h1]
  decide

/-- The closed form of the restored word at a position of slot `p`. -/
theorem restoredWord_at {cfg : Format} {dump : Nat → List DumpItem} {p : Nat}
    (hp : p < cfg.md.maxPeers.toNat) (k : Nat) (disk buf : Mem) :
    restoredWord cfg dump disk buf (p + k * cfg.md.maxPeers.toNat) =
      if p + k * cfg.md.maxPeers.toNat < restoredWords cfg dump then
        (intHalfWords (dump p))[k]?.getD (word32 buf (p + k * cfg.md.maxPeers.toNat))
      else if 4 * (p + k * cfg.md.maxPeers.toNat) <
          align (restoredWords cfg dump * 4) cfg.mdHardSectSize.val then 0
      else word32 (bitmapArea cfg disk) (p + k * cfg.md.maxPeers.toNat) := by
  rw [restoredWord, Nat.add_mul_mod_self_right, Nat.mod_eq_of_lt hp,
    Nat.add_mul_div_right _ _ (by omega), Nat.div_eq_of_lt hp, Nat.zero_add]

/-- A word is restored whatever was on the device and in the buffer before exactly if it is
    among the words of the first window or in their padding. -/
theorem restoredWord_eq_iff {cfg : Format} {dump : Nat → List DumpItem} {p : Nat}
    (hp : p < cfg.md.maxPeers.toNat) (k : Nat) (v : BitVec 32) :
    (∀ disk buf, restoredWord cfg dump disk buf (p + k * cfg.md.maxPeers.toNat) = v) ↔
      (p + k * cfg.md.maxPeers.toNat < restoredWords cfg dump ∧
        (intHalfWords (dump p))[k]? = some v) ∨
      (restoredWords cfg dump ≤ p + k * cfg.md.maxPeers.toNat ∧
        4 * (p + k * cfg.md.maxPeers.toNat) <
          align (restoredWords cfg dump * 4) cfg.mdHardSectSize.val ∧ v = 0) := by
  simp only [restoredWord_at hp]
  by_cases h1 : p + k * cfg.md.maxPeers.toNat < restoredWords cfg dump
  · simp only [if_pos h1]
    constructor
    · intro h
      refine .inl ⟨h1, ?_⟩
      cases hk : (intHalfWords (dump p))[k]? with
      | some x =>
        have := h (fun _ => 0) (fun _ => 0)
        rw [hk, Option.getD_some] at this
        rw [this]
      | none =>
        have hz := h (fun _ => 0) (fun _ => 0)
        have ho := h (fun _ => 0) (fun _ => BitVec.allOnes 8)
        rw [hk, Option.getD_none] at hz ho
        exact absurd (hz.trans ho.symm) (word32_const_ne _ _)
    · rintro (⟨_, hk⟩ | ⟨hge, _, _⟩) disk buf
      · rw [hk, Option.getD_some]
      · omega
  · simp only [if_neg h1]
    by_cases h2 : 4 * (p + k * cfg.md.maxPeers.toNat) <
        align (restoredWords cfg dump * 4) cfg.mdHardSectSize.val
    · simp only [if_pos h2]
      constructor
      · intro h
        exact .inr ⟨by omega, h2, (h (fun _ => 0) (fun _ => 0)).symm⟩
      · rintro (⟨hlt, _⟩ | ⟨_, _, hv⟩) disk buf
        · exact absurd hlt h1
        · exact hv.symm
    · simp only [if_neg h2]
      constructor
      · intro h
        have hz := h (fun _ => 0) (fun _ => 0)
        have ho := h (fun _ => BitVec.allOnes 8) (fun _ => 0)
        exact absurd (hz.trans ho.symm) (word32_const_ne _ _)
      · rintro (⟨hlt, _⟩ | ⟨_, hlt, _⟩) disk buf
        · exact absurd hlt h1
        · exact absurd hlt h2

/-- **The windowed restore.**  With a bitmap area to write to, `parse_bitmap()` returns; and
    whatever was on the device and in the buffer before, every word the dump gives inside the
    area is restored exactly if the first window holds them all. -/
theorem parseBitmap_restores_iff {o : Options} {cfg : Format} {fuel : Nat}
    (hc : PeersAdmitted cfg) (hd : o.dryRun = false)
    (harea : BitmapInside cfg (align cfg.bmBytes 4096)) (hfuel : 2 ≤ fuel)
    (dump : Nat → List DumpItem) (rest : List Token) :
    (0 < cfg.bmBytes → ∀ w, ∃ w',
      parseBitmap o cfg false (bitmapDump cfg dump ++ rest) fuel w = (.ok rest, w')) ∧
    ((∀ w, BitmapRestored cfg dump
        (parseBitmap o cfg false (bitmapDump cfg dump ++ rest) fuel w).2.disk) ↔
      FirstWindowSuffices cfg dump) := by
  refine ⟨fun hbm w => ?_, ?_⟩
  · obtain ⟨w', hrun, _⟩ := parseBitmap_word32 hc hd harea hbm hfuel dump rest w
    exact ⟨w', hrun⟩
  rcases Nat.eq_zero_or_pos cfg.bmBytes with h0 | hbm
  · -- no bitmap area: nothing to restore
    refine ⟨fun _ p _ k v _ hin => ?_, fun _ w p _ k v _ hin => ?_⟩ <;> omega
  have hAge := align_ge cfg.bmBytes (show 0 < 4096 by omega)
  constructor
  · intro h p hp k v hv hin
    rw [← restoredWord_eq_iff hp]
    intro disk buf
    obtain ⟨w', hrun, hword⟩ := parseBitmap_word32 hc hd harea hbm hfuel dump rest (.init disk buf)
    have hw := h (.init disk buf) p hp k v hv hin
    rw [hrun] at hw
    rw [← hw]
    exact (hword _ (by omega)).symm
  · intro h w p hp k v hv hin
    obtain ⟨w', hrun, hword⟩ := parseBitmap_word32 hc hd harea hbm hfuel dump rest w
    rw [hrun]
    show word32 (bitmapArea cfg w'.disk) _ = v
    rw [hword _ (by omega)]
    exact (restoredWord_eq_iff hp k v).2 (h p hp k v hv hin) w.disk w.buf

/-- `N times 0xFFFFFFFFFFFFFFFF;` for every peer: out of sync everywhere. -/
def outOfSyncDump (n : BitVec 64) : Nat → List DumpItem :=
  fun _ => [.repeated n (BitVec.allOnes 64)]

theorem outOfSync_length (n : BitVec 64) (p : Nat) :
    (halfWords (outOfSyncDump n p)).length = n.toNat * 2 := by
  simp only [halfWords, outOfSyncDump, List.flatMap_cons, List.flatMap_nil, DumpItem.halfWords,
    List.append_nil, flatten_replicate_halves_length]

theorem outOfSync_int {n : BitVec 64} (hn : n.toNat < 2 ^ 32) (p : Nat) :
    intHalfWords (outOfSyncDump n p) = halfWords (outOfSyncDump n p) := by
  simp only [intHalfWords, halfWords, outOfSyncDump, List.flatMap_cons, List.flatMap_nil,
    DumpItem.halfWords, Nat.mod_eq_of_lt hn]

theorem outOfSync_word {n : BitVec 64} {p k : Nat} (hk : k < n.toNat * 2) :
    (halfWords (outOfSyncDump n p))[k]? = some (BitVec.allOnes 32) := by
  have hones : halves (BitVec.allOnes 64) = [BitVec.allOnes 32, BitVec.allOnes 32] := by decide
  have hall : ∀ x ∈ halfWords (outOfSyncDump n p), x = BitVec.allOnes 32 := by
    intro x hx
    simp only [halfWords, outOfSyncDump, List.flatMap_cons, List.flatMap_nil, DumpItem.halfWords,
      List.append_nil, List.mem_flatten, List.mem_replicate] at hx
    obtain ⟨l, ⟨_, rfl⟩, hl⟩ := hx
    rw [hones] at hl
    simpa using hl
  have hlen := outOfSync_length n p
  rw [List.getElem?_eq_getElem (by omega)]
  exact congrArg some (hall _ (List.getElem_mem _))

theorem outOfSync_restoredWords {cfg : Format} {n : BitVec 64} (hm : cfg.md.maxPeers.toNat = 1)
    (hn : n.toNat < 2 ^ 32) :
    restoredWords cfg (outOfSyncDump n) = min (n.toNat * 2) windowWords := by
  rw [restoredWords, hm, outOfSync_int hn, outOfSync_length, Nat.div_one, Nat.mul_one]

/-- A 2 TiB device with one peer: its bitmap fills two windows. -/
abbrev format2T : Format := sampleFormat 4294967296 131072 1

theorem format2T_inside : BitmapInside format2T (align format2T.bmBytes 4096) where
  device := by decide +kernel
  start := by decide +kernel
  stop := by decide +kernel

/-- The dump of a 2 TiB device that is out of sync everywhere, over a zeroed bitmap: the second
    half of the bitmap stays zero. -/
theorem parseBitmap_loses_second_window :
    ¬ BitmapRestored format2T (outOfSyncDump 8388608)
      (parseBitmap {} format2T false (bitmapDump format2T (outOfSyncDump 8388608) ++ []) 2
        (.init (fun _ => 0) (fun _ => 0))).2.disk := by
  have hm : format2T.md.maxPeers.toNat = 1 := rfl
  have hbm : format2T.bmBytes = 67108864 := by decide
  have hwords := outOfSync_restoredWords (n := 8388608) hm (by decide)
  rw [show windowWords = 8388608 by decide +kernel, show (8388608 : BitVec 64).toNat = 8388608 by rfl,
    Nat.min_eq_right (by omega)] at hwords
  obtain ⟨w', hrun, hword⟩ := @parseBitmap_word32 {} format2T 2
    ⟨by decide, by decide, by decide⟩ rfl format2T_inside (by decide) (by decide)
    (outOfSyncDump 8388608) [] (.init (fun _ => 0) (fun _ => 0))
  rw [hrun]
  intro h
  have hgiven := h 0 (by decide) 8388608 _ (outOfSync_word (by decide)) (by rw [hm, hbm]; omega)
  have hkept := hword 8388608 (by decide)
  rw [restoredWord, hwords, if_neg (by omega), if_neg (by decide)] at hkept
  rw [hm, show 0 + 8388608 * 1 = 8388608 by omega, hkept] at hgiven
  have hzero : word32 (bitmapArea format2T (World.init (fun _ => 0) fun _ => 0).disk) 8388608 =
      0 := by simp [word32, bitmapArea]
  rw [hzero] at hgiven
  exact absurd hgiven (by decide)

theorem parseBitmap_restores_iff_128M :
    BitmapRestored format128M (outOfSyncDump 512)
      (parseBitmap {} format128M false (bitmapDump format128M (outOfSyncDump 512) ++ []) 2
        (.init (fun _ => 0) (fun _ => 0))).2.disk := by
  refine (parseBitmap_restores_iff (o := {}) ⟨by decide, by decide, by decide⟩ rfl
    format128M_inside (by decide) (outOfSyncDump 512) []).2.2 ?_ _
  intro p hp k v hv _
  have hm : format128M.md.maxPeers.toNat = 1 := rfl
  have hk : k < (halfWords (outOfSyncDump 512 p)).length := (List.getElem?_eq_some_iff.1 hv).1
  have hwords := outOfSync_restoredWords (n := 512) hm (by decide)
  rw [show windowWords = 8388608 by decide +kernel, show (512 : BitVec 64).toNat = 512 by rfl,
    Nat.min_eq_left (by omega)] at hwords
  rw [outOfSync_length] at hk
  have hk' : k < 1024 := hk
  refine .inl ⟨?_, by rw [outOfSync_int (by decide)]; exact hv⟩
  rw [hwords, hm]
  rw [hm] at hp
  omega

end DrbdUtils.Meta
