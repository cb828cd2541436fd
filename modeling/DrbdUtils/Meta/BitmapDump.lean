import DrbdUtils.Meta.Layout

/-!
# `dump-md`: the run-length coded bitmap

`fprintf_bm()` of `drbdmeta.c`: the words of one peer slot are read in chunks, equal words are
collected into runs that may continue into the next chunk, and everything else is printed as
64-bit values, low word first.

* `DumpInv` — what holds at the labels of the loop: where the buffer is in the bitmap, and that
  the items printed so far, the open run and a pending low word are the words consumed so far.
* `fprintfBmNext_inv`, `fprintfBmLoop_returns` — one visit of `next:`, and the whole loop: no
  `ASSERT` fails and the loop ends.
* `fprintfBm_words` — what the printed items stand for.
-/

set_option autoImplicit false

namespace DrbdUtils.Meta

open BlockDevice

/-! ## Items -/

/-- An item of a bitmap section: `U64;` or `N times U64;`. -/
inductive DumpItem where
  | single (value : BitVec 64)
  | repeated (n value : BitVec 64)

/-- A 64-bit value as two words, low half first. -/
def halves (value : BitVec 64) : List (BitVec 32) :=
  [value.setWidth 32, (value >>> 32).setWidth 32]

/-- The words an item stands for, with repeat counts read by `count`. -/
def DumpItem.halfWords (count : BitVec 64 → Nat) : DumpItem → List (BitVec 32)
  | .single value => halves value
  | .repeated n value => (List.replicate (count n) (halves value)).flatten

/-- The expanded sequence of a section. -/
def halfWords (items : List DumpItem) : List (BitVec 32) := items.flatMap (·.halfWords BitVec.toNat)

/-! ## Model -/

/-- Words per line. -/
def WPL : Nat := 8

/-- The local variables of `fprintf_bm`; `out` holds the items printed so far. -/
structure BmDump where
  bmOnDiskOff : Nat
  cw : BitVec 32
  lw : BitVec 32
  count : Nat
  bitsSet : Nat
  nBuffer : Nat
  /-- real offset -/
  r : Nat
  /-- in-buffer offset -/
  i : Nat
  out : List DumpItem

/-- Where control goes next: the head of the loop, `next:`, or behind the loop. -/
inductive BmLabel where
  | head
  | next
  | done
  deriving DecidableEq

/-- `for (j = i; j < n_buffer && cw.le == bm[j].le; j += max_peers)`. -/
def runEnd (bm : Mem) (cw : BitVec 32) (maxPeers nBuffer : Nat) : Nat → Nat → Nat
  | 0, j => j
  | fuel + 1, j =>
    if j < nBuffer ∧ cw = word32 bm j then runEnd bm cw maxPeers nBuffer fuel (j + maxPeers) else j

/-- Read the next chunk (label `start:`). -/
def fprintfBmStart (cfg : Format) (maxPeers n maxChunkSize : Nat) (s : BmDump) : MetaRun BmDump := do
  let chunk := align ((n - roundDown s.r maxPeers) * 4) cfg.mdHardSectSize.val
  let chunk := if maxChunkSize < chunk then maxChunkSize else chunk
  assert (chunk ≠ 0)
  preadOrDie cfg chunk s.bmOnDiskOff
  pure { s with bmOnDiskOff := s.bmOnDiskOff + chunk, nBuffer := chunk / 4 }

/-- Print one word: keep a low word, print with a high one. -/
def fprintfBmWord (bm : Mem) (maxPeers : Nat) (s : BmDump) : Except Stop (BmLabel × BmDump) :=
  if ¬ s.i < s.nBuffer then .error .abort
  else
    let w := word32 bm s.i
    let low := s.i / maxPeers % 2 = 0
    .ok (.head, { s with
      lw := if low then w else s.lw
      out := if low then s.out else s.out ++ [.single (w ++ s.lw)]
      bitsSet := (s.bitsSet + genericHweight32 w) % 2 ^ 32
      r := (s.r + maxPeers) % 2 ^ 32
      i := (s.i + maxPeers) % 2 ^ 32 })

/-- Print the open run. -/
def fprintfBmRun (s : BmDump) : BmDump :=
  { s with
    out := s.out ++ [.repeated (BitVec.ofNat 64 (s.count / 2)) (s.cw ++ s.cw)]
    bitsSet := (s.bitsSet + s.count * genericHweight32 s.cw) % 2 ^ 32
    count := 0 }

/-- Let the open run grow by `tmp` words. -/
def fprintfBmGrow (maxPeers tmp : Nat) (s : BmDump) : BmDump :=
  { s with
    count := (s.count + tmp) % 2 ^ 32
    r := (s.r + tmp * maxPeers) % 2 ^ 32
    i := (s.i + tmp * maxPeers) % 2 ^ 32 }

/-- The end of the visit of `next:` at the start of a line, once a long run was consumed. -/
def fprintfBmFlush (bm : Mem) (maxPeers n : Nat) (s : BmDump) : Except Stop (BmLabel × BmDump) :=
  if s.count ≠ 0 then
    if n ≤ s.r then .ok (.done, fprintfBmRun s) else .ok (.next, fprintfBmRun s)
  else fprintfBmWord bm maxPeers s

/-- One visit of `next:`. -/
def fprintfBmNext (bm : Mem) (maxPeers peerNr n : Nat) (s : BmDump) :
    Except Stop (BmLabel × BmDump) :=
  if ¬ s.i < s.nBuffer then .error .abort
  else
    let s := if s.count = 0 then { s with cw := word32 bm s.i } else s
    if s.i % (WPL * maxPeers) = peerNr then
      let j := runEnd bm s.cw maxPeers s.nBuffer (s.nBuffer - s.i) s.i
      let tmp := roundDown (j / maxPeers - s.i / maxPeers) WPL
      if WPL < tmp then
        let s := fprintfBmGrow maxPeers tmp s
        if s.nBuffer ≤ j ∧ s.r < n then .ok (.head, s) else fprintfBmFlush bm maxPeers n s
      else fprintfBmFlush bm maxPeers n s
    else fprintfBmWord bm maxPeers s

/-- The loop, from a label on. -/
def fprintfBmLoop (cfg : Format) (maxPeers peerNr n maxChunkSize : Nat) :
    Nat → BmLabel → BmDump → MetaRun BmDump
  | _, .done, s => pure s
  | 0, _, _ => Run.stop .outOfFuel
  | fuel + 1, .head, s =>
    if s.r < n then
      if maxChunkSize ≤ s.i * 4 then do
        let s ← fprintfBmStart cfg maxPeers n maxChunkSize { s with i := s.i - maxChunkSize / 4 }
        fprintfBmLoop cfg maxPeers peerNr n maxChunkSize fuel .next s
      else fprintfBmLoop cfg maxPeers peerNr n maxChunkSize fuel .next s
    else pure s
  | fuel + 1, .next, s => do
    let bm ← Run.getBuf
    let visit ← liftExcept (fprintfBmNext bm maxPeers peerNr n s)
    fprintfBmLoop cfg maxPeers peerNr n maxChunkSize fuel visit.1 visit.2

/-- `fprintf_bm`: the printed items and `bits_set`.  White space and the `# at ..kB` comments
    between the items are left out. -/
def fprintfBm (cfg : Format) (peerNr fuel : Nat) : MetaRun (List DumpItem × Nat) := do
  let maxPeers := cfg.md.maxPeers.toNat
  let n := cfg.bmBytes / 4 % 2 ^ 32
  let maxChunkSize := roundDown bufferSize (4096 * maxPeers)
  assert (DRBD_PEERS_MAX * 4096 ≤ bufferSize)
  assert (maxChunkSize ≠ 0)
  let s : BmDump := ⟨cfg.bmOffset, 0, 0, 0, 0, 0, peerNr, peerNr, []⟩
  if peerNr < n then do
    let s ← fprintfBmStart cfg maxPeers n maxChunkSize s
    let s ← fprintfBmLoop cfg maxPeers peerNr n maxChunkSize fuel .next s
    pure (s.out, s.bitsSet)
  else pure ([], 0)

/-! ## What the loop maintains -/

/-- The first `k` words of slot `p`. -/
def slotWords (W : Nat → BitVec 32) (p m k : Nat) : List (BitVec 32) :=
  (List.range k).map fun k => W (p + k * m)

theorem slotWords_succ (W : Nat → BitVec 32) (p m k : Nat) :
    slotWords W p m (k + 1) = slotWords W p m k ++ [W (p + k * m)] := by
  simp [slotWords, List.range_succ]

/-- A stretch of equal words. -/
theorem slotWords_add {W : Nat → BitVec 32} {p m k : Nat} {x : BitVec 32} : ∀ t : Nat,
    (∀ c < t, W (p + (k + c) * m) = x) →
    slotWords W p m (k + t) = slotWords W p m k ++ List.replicate t x
  | 0, _ => by simp
  | t + 1, h => by
    rw [← Nat.add_assoc, slotWords_succ, slotWords_add t fun c hc => h c (by omega),
      h t (by omega), List.append_assoc, List.replicate_succ']

/-- Slot, peer count, word count and chunk size (`cm` words of every slot) as `fprintf_bm` has
    them. -/
structure DumpGeometry (p m n cm : Nat) : Prop where
  slot : p < m
  peers : m ≤ 32
  words : n % 1024 = 0
  words_lt : n < 2 ^ 32
  chunk : 1024 ∣ cm
  chunk_pos : 0 < cm
  chunk_le : cm * m ≤ 2 ^ 23

/-- What holds at the labels of the loop.  The buffer starts at word `kb` of every slot, `ki` words of
    slot `p` have been consumed in it; `W` is the bitmap as a sequence of words. -/
structure DumpInv (p m n cm : Nat) (W : Nat → BitVec 32) (bmOffset : Nat) (s : BmDump) (bm : Mem)
    (kb ki : Nat) : Prop where
  r_eq : s.r = p + (kb + ki) * m
  i_eq : s.i = p + ki * m
  base : 1024 ∣ kb
  ki_le : ki ≤ cm
  nBuffer_eq : s.nBuffer = min (n - kb * m) (cm * m)
  off_eq : s.bmOnDiskOff = bmOffset + 4 * (kb * m + s.nBuffer)
  bm_eq : ∀ q < s.nBuffer, word32 bm q = W (kb * m + q)
  r_lt : s.r < n + m
  count8 : s.count % 8 = 0
  run8 : 0 < s.count → ki % 8 = 0
  words : halfWords s.out ++ List.replicate s.count s.cw ++ (if ki % 2 = 1 then [s.lw] else []) =
    slotWords W p m (kb + ki)

/-- What one visit of `next:` prints, from word `ki` to word `ki'` of the slot in this chunk. -/
inductive Visit (s s' : BmDump) (ki ki' : Nat) : Prop where
  | grow (line : ki % 8 = 0) (line' : ki' % 8 = 0) (count : 0 < s'.count) (out : s'.out = s.out)
  | run (n v : BitVec 64) (line : ki % 8 = 0) (line' : ki' % 8 = 0) (count : s'.count = 0)
      (out : s'.out = s.out ++ [.repeated n v])
  | low (even : ki % 2 = 0) (next : ki' = ki + 1) (count : s.count = 0) (count' : s'.count = 0)
      (out : s'.out = s.out)
  | high (v : BitVec 64) (odd : ki % 2 = 1) (next : ki' = ki + 1) (count : s.count = 0)
      (count' : s'.count = 0) (out : s'.out = s.out ++ [.single v])

theorem Visit.of_same {s s₁ s' : BmDump} {ki ki' : Nat} (h : Visit s₁ s' ki ki')
    (hcount : s₁.count = s.count) (hout : s₁.out = s.out) : Visit s s' ki ki' := by
  cases h with
  | grow line line' count out => exact .grow line line' count (out.trans hout)
  | run n v line line' count out => exact .run n v line line' count (hout ▸ out)
  | low even next count count' out =>
    exact .low even next (hcount.symm.trans count) count' (out.trans hout)
  | high v odd next count count' out =>
    exact .high v odd next (hcount.symm.trans count) count' (hout ▸ out)

theorem runEnd_spec (bm : Mem) (cw : BitVec 32) (m nBuffer : Nat) : ∀ fuel j : Nat,
    ∃ t, runEnd bm cw m nBuffer fuel j = j + t * m ∧
      ∀ c < t, j + c * m < nBuffer ∧ word32 bm (j + c * m) = cw
  | 0, j => ⟨0, by simp [runEnd], by omega⟩
  | fuel + 1, j => by
    rw [runEnd]
    by_cases h : j < nBuffer ∧ cw = word32 bm j
    · rw [if_pos h]
      obtain ⟨t, ht, hall⟩ := runEnd_spec bm cw m nBuffer fuel (j + m)
      refine ⟨t + 1, by rw [ht, Nat.add_mul]; omega, fun c hc => ?_⟩
      cases c with
      | zero => simpa using ⟨h.1, h.2.symm⟩
      | succ c =>
        have := hall c (by omega)
        rwa [show j + m + c * m = j + (c + 1) * m by rw [Nat.add_mul]; omega] at this
    · rw [if_neg h]
      exact ⟨0, by simp, by omega⟩

section Steps

variable {p m n cm : Nat} {W : Nat → BitVec 32} {bmOffset : Nat} {s : BmDump} {bm : Mem}
  {kb ki : Nat}

theorem lt_chunk_iff (g : DumpGeometry p m n cm) (k : Nat) : p + k * m < cm * m ↔ k < cm := by
  have hp := g.slot
  constructor
  · intro h
    by_contra hc
    have := Nat.mul_le_mul_right m (show cm ≤ k by omega)
    omega
  · intro h
    have := Nat.mul_le_mul_right m (show k + 1 ≤ cm by omega)
    rw [Nat.add_mul] at this
    omega

/-- Inside the chunk and inside the bitmap means inside the buffer. -/
theorem DumpInv.i_lt (h : DumpInv p m n cm W bmOffset s bm kb ki) (g : DumpGeometry p m n cm)
    (hr : s.r < n) (hk : ki < cm) : s.i < s.nBuffer := by
  have hr' := h.r_eq
  have hc := (lt_chunk_iff g ki).2 hk
  rw [Nat.add_mul] at hr'
  rw [h.nBuffer_eq, h.i_eq, Nat.lt_min]
  omega

theorem DumpInv.word_at (h : DumpInv p m n cm W bmOffset s bm kb ki) {k : Nat}
    (hk : p + k * m < s.nBuffer) : word32 bm (p + k * m) = W (p + (kb + k) * m) := by
  rw [h.bm_eq _ hk]
  congr 1
  rw [Nat.add_mul]
  omega

/-- A word consumed keeps the real offset within one slot stride of the end. -/
theorem DumpInv.next_r_lt (h : DumpInv p m n cm W bmOffset s bm kb ki) {k : Nat}
    (hk : p + k * m < s.nBuffer) : p + (kb + (k + 1)) * m < n + m := by
  have hb := h.nBuffer_eq
  rw [← Nat.add_assoc, Nat.add_mul, Nat.add_mul]
  omega

/-- A new run starts with the word at hand. -/
theorem DumpInv.setCw (h : DumpInv p m n cm W bmOffset s bm kb ki) (hc : s.count = 0)
    (x : BitVec 32) : DumpInv p m n cm W bmOffset { s with cw := x } bm kb ki :=
  { h with
    words := by
      have := h.words
      simp only [hc, List.replicate_zero] at this ⊢
      exact this }

theorem halves_append (hi lo : BitVec 32) : halves (hi ++ lo) = [lo, hi] := by
  have hbit : ∀ k, BitVec.getLsbD (w := 64) (hi ++ lo) k =
      if k < 32 then lo.getLsbD k else hi.getLsbD (k - 32) :=
    fun k => BitVec.getLsbD_append (x := hi) (y := lo)
  rw [halves]
  congr 1
  · apply BitVec.eq_of_getLsbD_eq
    intro k hk
    rw [BitVec.getLsbD_setWidth, hbit, if_pos hk, decide_eq_true hk, Bool.true_and]
  · congr 1
    apply BitVec.eq_of_getLsbD_eq
    intro k hk
    rw [BitVec.getLsbD_setWidth, BitVec.getLsbD_ushiftRight, hbit, if_neg (by omega),
      decide_eq_true hk, Bool.true_and]
    congr 1
    omega

theorem halfWords_append (a b : List DumpItem) :
    halfWords (a ++ b) = halfWords a ++ halfWords b := by
  simp [halfWords]

/-- One word: a low word is kept, a high word completes a value. -/
theorem fprintfBmWord_inv (h : DumpInv p m n cm W bmOffset s bm kb ki)
    (g : DumpGeometry p m n cm) (hc : s.count = 0) (hr : s.r < n) (hk : ki < cm) :
    ∃ s', fprintfBmWord bm m s = .ok (.head, s') ∧ s'.count = 0 ∧ s.r < s'.r ∧
      DumpInv p m n cm W bmOffset s' bm kb (ki + 1) ∧ Visit s s' ki (ki + 1) := by
  have hi := h.i_lt g hr hk
  have hp := g.slot
  have hm := g.peers
  have hn := g.words_lt
  have hn' := g.words
  have hC := g.chunk_le
  have hnext := h.next_r_lt (k := ki) (by rw [← h.i_eq]; exact hi)
  have hword : word32 bm s.i = W (p + (kb + ki) * m) := by
    rw [h.i_eq]; exact h.word_at (by rw [← h.i_eq]; exact hi)
  have hdiv : s.i / m = ki := by
    rw [h.i_eq, Nat.add_mul_div_right _ _ (by omega), Nat.div_eq_of_lt hp, Nat.zero_add]
  have hr' : (s.r + m) % 2 ^ 32 = p + (kb + (ki + 1)) * m := by
    have := h.r_eq
    rw [← Nat.add_assoc, Nat.add_mul _ 1] at hnext ⊢
    rw [Nat.mod_eq_of_lt (by omega)]
    omega
  have hi' : (s.i + m) % 2 ^ 32 = p + (ki + 1) * m := by
    have hik := h.i_eq
    have hCk := (lt_chunk_iff g ki).2 hk
    rw [Nat.mod_eq_of_lt (by omega), Nat.add_mul]
    omega
  have hwords := h.words
  rw [hc, List.replicate_zero, List.append_nil] at hwords
  have hgt : s.r < p + (kb + (ki + 1)) * m := by
    rw [h.r_eq, ← Nat.add_assoc, Nat.add_mul _ 1]; omega
  unfold fprintfBmWord
  rw [if_neg (by omega)]
  dsimp only
  rw [hdiv, hr', hi', hword]
  refine ⟨_, rfl, hc, hgt, { h with
    r_eq := rfl, i_eq := rfl, ki_le := hk, r_lt := hnext, run8 := ?_, words := ?_ }, ?_⟩
  · intro hpos
    exact absurd hpos (by dsimp only; omega)
  · dsimp only
    rw [hc, List.replicate_zero, List.append_nil, ← Nat.add_assoc, slotWords_succ, ← hwords]
    by_cases hpar : ki % 2 = 0
    · rw [if_pos hpar, if_pos hpar, if_pos (by omega), if_neg (by omega), List.append_nil]
    · rw [if_neg hpar, if_neg hpar, if_neg (by omega), if_pos (by omega), List.append_nil,
        halfWords_append]
      simp [halfWords, DumpItem.halfWords, halves_append]
  · by_cases hpar : ki % 2 = 0
    · exact .low hpar rfl hc hc (if_pos hpar)
    · exact .high _ (by omega) rfl hc hc (if_neg hpar)

/-- Printing the open run. -/
theorem fprintfBmRun_inv (h : DumpInv p m n cm W bmOffset s bm kb ki) (g : DumpGeometry p m n cm) :
    DumpInv p m n cm W bmOffset (fprintfBmRun s) bm kb ki := by
  have hlen := congrArg List.length h.words
  have hr := h.r_eq
  have hlt := h.r_lt
  have hp := g.slot
  have hn := g.words_lt
  have hm := g.peers
  have h8 := h.count8
  have hcount : s.count < 2 ^ 33 := by
    simp only [List.length_append, List.length_replicate, slotWords, List.length_map,
      List.length_range] at hlen
    have hle : (kb + ki) * 1 ≤ (kb + ki) * m := Nat.mul_le_mul_left _ (by omega)
    omega
  have hrun : ((List.replicate (s.count / 2) [s.cw, s.cw]).flatten : List (BitVec 32)) =
      List.replicate s.count s.cw := by
    have : ([s.cw, s.cw] : List (BitVec 32)) = List.replicate 2 s.cw := rfl
    rw [this, List.flatten_replicate_replicate]
    congr 1
    omega
  refine { h with count8 := rfl, run8 := ?_, words := ?_ }
  · intro hpos; exact absurd hpos (Nat.lt_irrefl 0)
  · rw [← h.words]
    show halfWords (s.out ++ [.repeated (BitVec.ofNat 64 (s.count / 2)) (s.cw ++ s.cw)]) ++ [] ++ _ = _
    rw [halfWords_append, List.append_nil]
    congr 2
    simp only [halfWords, List.flatMap_cons, List.flatMap_nil, List.append_nil, DumpItem.halfWords,
      halves_append, BitVec.toNat_ofNat]
    rw [Nat.mod_eq_of_lt (by omega), hrun]

/-- Consuming `tmp` more words of the open run. -/
theorem fprintfBmGrow_inv (h : DumpInv p m n cm W bmOffset s bm kb ki) (g : DumpGeometry p m n cm)
    {t : Nat} (ht : 0 < t) (h8 : t % 8 = 0) (hki : ki % 8 = 0)
    (hall : ∀ c < t, p + (ki + c) * m < s.nBuffer ∧ word32 bm (p + (ki + c) * m) = s.cw) :
    DumpInv p m n cm W bmOffset (fprintfBmGrow m t s) bm kb (ki + t) ∧
      (fprintfBmGrow m t s).r = s.r + t * m ∧ 0 < (fprintfBmGrow m t s).count := by
  have hp := g.slot
  have hm := g.peers
  have hn := g.words_lt
  have hn' := g.words
  have hC := g.chunk_le
  have hlast := (hall (t - 1) (by omega)).1
  have hsucc : ki + (t - 1) + 1 = ki + t := by omega
  have hnext := h.next_r_lt hlast
  rw [hsucc] at hnext
  have hbuf := h.nBuffer_eq
  have hcm : ki + t ≤ cm := by
    have := (lt_chunk_iff g (ki + (t - 1))).1 (by omega)
    omega
  have hr : (s.r + t * m) % 2 ^ 32 = p + (kb + (ki + t)) * m := by
    rw [h.r_eq, show p + (kb + ki) * m + t * m = p + (kb + (ki + t)) * m by ring]
    exact Nat.mod_eq_of_lt (by omega)
  have hi : (s.i + t * m) % 2 ^ 32 = p + (ki + t) * m := by
    have hle := Nat.mul_le_mul_right m hcm
    rw [h.i_eq, show p + ki * m + t * m = p + (ki + t) * m by ring]
    exact Nat.mod_eq_of_lt (by omega)
  have hwords := h.words
  rw [if_neg (by omega), List.append_nil] at hwords
  have hlen := congrArg List.length hwords
  have hcount : s.count ≤ kb + ki := by
    simp only [List.length_append, List.length_replicate, slotWords, List.length_map,
      List.length_range] at hlen
    omega
  have hcount' : (s.count + t) % 2 ^ 32 = s.count + t := by
    have hle : (kb + (ki + t)) * 1 ≤ (kb + (ki + t)) * m := Nat.mul_le_mul_left _ (by omega)
    exact Nat.mod_eq_of_lt (by omega)
  have hc8 := h.count8
  refine ⟨{ h with
    r_eq := hr, i_eq := hi, ki_le := hcm, r_lt := ?_, count8 := ?_, run8 := fun _ => by omega,
    words := ?_ }, ?_, ?_⟩
  · show (s.r + t * m) % 2 ^ 32 < n + m
    rw [hr]; exact hnext
  · show (s.count + t) % 2 ^ 32 % 8 = 0
    rw [hcount']; omega
  · show halfWords s.out ++ List.replicate ((s.count + t) % 2 ^ 32) s.cw ++ _ = _
    rw [hcount', if_neg (by omega), List.append_nil, List.replicate_add, ← List.append_assoc, hwords,
      ← Nat.add_assoc, slotWords_add t fun c hc => ?_]
    rw [Nat.add_assoc, ← h.word_at (hall c hc).1]
    exact (hall c hc).2
  · show (s.r + t * m) % 2 ^ 32 = s.r + t * m
    rw [hr, h.r_eq]; ring
  · show 0 < (s.count + t) % 2 ^ 32
    rw [hcount']; omega

/-- Bound on the labels still to visit. -/
def bmRank (n : Nat) (l : BmLabel) (s : BmDump) : Nat :=
  4 * (n - s.r) + (if s.count = 0 then 0 else 2) + (if l = .head then 2 else 1)

/-- What is known at each label besides `DumpInv`. -/
def AtLabel (n cm ki : Nat) (l : BmLabel) (s : BmDump) : Prop :=
  match l with
  | .head => s.count = 0 ∨ s.r < n
  | .next => s.r < n ∧ ki < cm
  | .done => n ≤ s.r ∧ s.count = 0

theorem fprintfBmFlush_inv (h : DumpInv p m n cm W bmOffset s bm kb ki)
    (g : DumpGeometry p m n cm) (hnext : s.r < n → ki < cm) (hopen : s.count = 0 → s.r < n) :
    ∃ l s' ki', fprintfBmFlush bm m n s = .ok (l, s') ∧ DumpInv p m n cm W bmOffset s' bm kb ki' ∧
      AtLabel n cm ki' l s' ∧ (l ≠ .done → bmRank n l s' < bmRank n .next s) ∧
      (s.count = 0 → Visit s s' ki ki') ∧ (s.count ≠ 0 → ki' = ki ∧ s' = fprintfBmRun s) := by
  unfold fprintfBmFlush
  by_cases hc : s.count = 0
  · obtain ⟨s', hrun, hc', hr', hinv, hvisit⟩ :=
      fprintfBmWord_inv h g hc (hopen hc) (hnext (hopen hc))
    refine ⟨.head, s', ki + 1, by rw [if_neg (not_not.2 hc)]; exact hrun, hinv, .inl hc', ?_,
      fun _ => hvisit, fun hne => absurd hc hne⟩
    intro _
    have := hopen hc
    simp only [bmRank, hc, hc', if_true]
    omega
  · rw [if_pos hc]
    have hinv := fprintfBmRun_inv h g
    have hr : (fprintfBmRun s).r = s.r := rfl
    have hc0 : (fprintfBmRun s).count = 0 := rfl
    by_cases hdone : n ≤ s.r
    · exact ⟨.done, _, ki, if_pos hdone, hinv, ⟨hdone, rfl⟩, fun hne => absurd rfl hne,
        fun h0 => absurd h0 hc, fun _ => ⟨rfl, rfl⟩⟩
    · refine ⟨.next, _, ki, if_neg hdone, hinv, ⟨by omega, hnext (by omega)⟩, fun _ => ?_,
        fun h0 => absurd h0 hc, fun _ => ⟨rfl, rfl⟩⟩
      simp only [bmRank, hr, hc0, hc, if_true, if_false]
      omega

/-- A line starts with every eighth word of the slot. -/
theorem DumpInv.line_iff (h : DumpInv p m n cm W bmOffset s bm kb ki) (g : DumpGeometry p m n cm) :
    s.i % (WPL * m) = p ↔ ki % 8 = 0 := by
  have hp := g.slot
  rw [h.i_eq, WPL, Nat.mul_comm 8 m, Nat.mod_mul, Nat.add_mul_mod_self_right,
    Nat.mod_eq_of_lt hp, Nat.add_mul_div_right _ _ (by omega), Nat.div_eq_of_lt hp, Nat.zero_add]
  constructor
  · intro hh
    have : m * (ki % 8) = 0 := by omega
    rcases Nat.mul_eq_zero.1 this with h0 | h0
    · omega
    · exact h0
  · intro hh; rw [hh]; omega

/-- **One visit of `next:`** keeps the invariant, fails no `ASSERT`, and comes closer to the end. -/
theorem fprintfBmNext_inv (h : DumpInv p m n cm W bmOffset s bm kb ki)
    (g : DumpGeometry p m n cm) (hr : s.r < n) (hk : ki < cm) :
    ∃ l s' ki', fprintfBmNext bm m p n s = .ok (l, s') ∧ DumpInv p m n cm W bmOffset s' bm kb ki' ∧
      AtLabel n cm ki' l s' ∧ (l ≠ .done → bmRank n l s' < bmRank n .next s) ∧
      Visit s s' ki ki' := by
  have hi := h.i_lt g hr hk
  have hp := g.slot
  unfold fprintfBmNext
  rw [if_neg (by omega)]
  -- the run starts here, or has been open since before
  generalize hs1 : (if s.count = 0 then { s with cw := word32 bm s.i } else s) = s1
  have h1 : DumpInv p m n cm W bmOffset s1 bm kb ki := by
    subst hs1
    split
    · rename_i hc; exact h.setCw hc _
    · exact h
  have hr1 : s1.r = s.r := by subst hs1; split <;> rfl
  have hc1 : s1.count = s.count := by subst hs1; split <;> rfl
  have ho1 : s1.out = s.out := by subst hs1; split <;> rfl
  have hrank : bmRank n .next s1 = bmRank n .next s := by simp only [bmRank, hr1, hc1]
  rw [← hrank]
  dsimp only
  have hline := h1.line_iff g
  by_cases hl : ki % 8 = 0
  · rw [if_pos (hline.2 hl)]
    obtain ⟨t, hj, hall⟩ := runEnd_spec bm s1.cw m s1.nBuffer (s1.nBuffer - s1.i) s1.i
    rw [hj]
    have htmp : (s1.i + t * m) / m - s1.i / m = t := by
      rw [Nat.add_mul_div_right _ _ (by omega)]; omega
    rw [htmp]
    have hpos : ∀ c, s1.i + c * m = p + (ki + c) * m := by
      intro c; rw [h1.i_eq]; ring
    have hle : roundDown t WPL ≤ t := roundDown_le _ _
    by_cases hlong : WPL < roundDown t WPL
    · rw [if_pos hlong]
      have h8 : roundDown t WPL % 8 = 0 := Nat.mul_mod_left _ _
      generalize roundDown t WPL = tmp at hle hlong h8
      have htpos : 0 < tmp := by unfold WPL at hlong; omega
      obtain ⟨h2, hr2, hc2⟩ := fprintfBmGrow_inv h1 g htpos h8 hl
        fun c hc => by rw [← hpos]; exact hall c (by omega)
      have hgt : s1.r + 9 ≤ (fprintfBmGrow m tmp s1).r := by
        have : tmp * 1 ≤ tmp * m := Nat.mul_le_mul_left _ (by omega)
        unfold WPL at hlong
        omega
      by_cases hcont : (fprintfBmGrow m tmp s1).nBuffer ≤ s1.i + t * m ∧
          (fprintfBmGrow m tmp s1).r < n
      · refine ⟨.head, _, ki + tmp, if_pos hcont, h2, .inr hcont.2, fun _ => ?_,
          .grow hl (by omega) hc2 ho1⟩
        simp only [bmRank, if_true, if_neg hc2.ne']
        omega
      · rw [if_neg hcont]
        have hnext : (fprintfBmGrow m tmp s1).r < n → ki + tmp < cm := by
          intro hlt
          have hin : s1.i + t * m < s1.nBuffer := by
            by_contra hc
            exact hcont ⟨show s1.nBuffer ≤ _ by omega, hlt⟩
          have hb := h1.nBuffer_eq
          rw [hpos] at hin
          have := (lt_chunk_iff g (ki + t)).1 (by omega)
          omega
        obtain ⟨l, s', ki', hrun, hinv, hat, hdec, -, hflush⟩ := fprintfBmFlush_inv h2 g hnext
          fun hc => absurd hc hc2.ne'
        obtain ⟨rfl, rfl⟩ := hflush hc2.ne'
        refine ⟨l, _, _, hrun, hinv, hat, fun hne => (hdec hne).trans ?_,
          .run _ _ hl (by omega) rfl (congrArg (· ++ _) ho1)⟩
        simp only [bmRank, if_neg hc2.ne']
        omega
    · rw [if_neg hlong]
      obtain ⟨l, s', ki', hrun, hinv, hat, hdec, hword, hflush⟩ :=
        fprintfBmFlush_inv h1 g (fun _ => hk) fun _ => by omega
      refine ⟨l, s', ki', hrun, hinv, hat, hdec, ?_⟩
      by_cases hc : s1.count = 0
      · exact (hword hc).of_same hc1 ho1
      · obtain ⟨rfl, rfl⟩ := hflush hc
        exact .run _ _ hl hl rfl (congrArg (· ++ _) ho1)
  · -- inside a line no run is open
    rw [if_neg (hline.not.2 hl)]
    have hc0 : s1.count = 0 := by
      by_contra hc
      exact hl (h1.run8 (Nat.pos_of_ne_zero hc))
    obtain ⟨s', hrun, hc', hr', hinv, hvisit⟩ := fprintfBmWord_inv h1 g hc0 (by omega) hk
    refine ⟨.head, s', ki + 1, hrun, hinv, .inl hc', fun _ => ?_, hvisit.of_same hc1 ho1⟩
    simp only [bmRank, hc0, hc', if_true]
    omega

end Steps

/-! ## The loop -/

section Loop

variable {cfg : Format} {p m n cm : Nat}

/-- The bitmap as a sequence of words. -/
def bitmapWord (cfg : Format) (disk : Mem) (q : Nat) : BitVec 32 := word32 (bitmapArea cfg disk) q

theorem word32_read {w : World} {len b q : Nat} (h : 4 * q + 4 ≤ len) :
    word32 (w.read len (cfg.bmOffset + 4 * b)).buf q = bitmapWord cfg w.disk (b + q) := by
  have hshift : bitmapWord cfg w.disk (b + q) =
      word32 (fun a => w.disk (cfg.bmOffset + 4 * b + a)) q := by
    simp only [bitmapWord, word32, bitmapArea]
    simp only [show cfg.bmOffset + 4 * (b + q) = cfg.bmOffset + 4 * b + 4 * q by omega,
      show ∀ c, cfg.bmOffset + (4 * (b + q) + c) = cfg.bmOffset + 4 * b + (4 * q + c) by omega]
  rw [hshift, World.read_buf]
  refine word32_congr fun a ha => ?_
  rw [blit_in (by omega) (by omega), Nat.sub_zero]

/-- Reading a chunk that starts at word `kb` of every slot. -/
theorem fprintfBmStart_inv {s : BmDump} {kb : Nat} (g : DumpGeometry p m n cm)
    (hdev : cfg.bmOffset + 4 * n ≤ cfg.bdSize) (hr : s.r = p + kb * m) (hi : s.i = p) (hlt : s.r < n)
    (hkb : 1024 ∣ kb) (hoff : s.bmOnDiskOff = cfg.bmOffset + 4 * (kb * m)) (w : World)
    (h8 : s.count % 8 = 0)
    (hwords : halfWords s.out ++ List.replicate s.count s.cw =
      slotWords (bitmapWord cfg w.disk) p m kb) :
    ∃ s' w', fprintfBmStart cfg m n (4 * (cm * m)) s w = (.ok s', w') ∧ w'.log = w.log ∧
      w'.base = w.base ∧ s'.count = s.count ∧ s'.r = s.r ∧
      DumpInv p m n cm (bitmapWord cfg w.disk) cfg.bmOffset s' w'.buf kb 0 := by
  have hp := g.slot
  have hcm := g.chunk_pos
  have hround : roundDown s.r m = kb * m := by
    rw [roundDown, hr, Nat.add_mul_div_right _ _ (by omega), Nat.div_eq_of_lt hp, Nat.zero_add]
  have hdvd : 4096 ∣ (n - kb * m) * 4 := by
    have h1 : 1024 ∣ kb * m := Dvd.dvd.mul_right hkb m
    have h2 := g.words
    omega
  have halign : align ((n - roundDown s.r m) * 4) cfg.mdHardSectSize.val = (n - kb * m) * 4 := by
    rw [hround]
    exact align_eq_of_dvd cfg.mdHardSectSize.pos (cfg.mdHardSectSize.dvd.trans hdvd)
  have hchunk : (if 4 * (cm * m) < (n - kb * m) * 4 then 4 * (cm * m) else (n - kb * m) * 4) =
      4 * min (n - kb * m) (cm * m) := by
    split <;> omega
  have hpos : 0 < cm * m := Nat.mul_pos hcm (by omega)
  unfold fprintfBmStart
  rw [halign, hchunk, Run.bind_ok (assert_pos (by omega) w),
    Run.bind_ok (preadOrDie_ok (by rw [hoff]; omega) w)]
  refine ⟨_, _, rfl, rfl, rfl, rfl, rfl, ?_⟩
  have hdiv : 4 * min (n - kb * m) (cm * m) / 4 = min (n - kb * m) (cm * m) := by omega
  exact {
    r_eq := by rw [Nat.add_zero]; exact hr
    i_eq := by simpa using hi
    base := hkb
    ki_le := Nat.zero_le _
    nBuffer_eq := hdiv
    off_eq := by
      show s.bmOnDiskOff + 4 * min (n - kb * m) (cm * m) =
        cfg.bmOffset + 4 * (kb * m + 4 * min (n - kb * m) (cm * m) / 4)
      rw [hdiv, hoff]
      omega
    bm_eq := by
      intro q hq
      have hq' : q < min (n - kb * m) (cm * m) := by rw [← hdiv]; exact hq
      rw [hoff]
      exact word32_read (by omega)
    r_lt := by show s.r < n + m; omega
    count8 := h8
    run8 := fun _ => rfl
    words := by
      rw [if_neg (by omega), List.append_nil, Nat.add_zero]
      exact hwords }

/-- What the loop leaves: all words of the slot are accounted for, the last one perhaps as a
    pending low word. -/
def Dumped (p m n : Nat) (W : Nat → BitVec 32) (s : BmDump) : Prop :=
  ∃ k, n ≤ p + k * m ∧ p + k * m < n + m ∧
    halfWords s.out ++ (if k % 2 = 1 then [s.lw] else []) = slotWords W p m k

theorem DumpInv.dumped {W : Nat → BitVec 32} {bmOffset : Nat} {s : BmDump} {bm : Mem} {kb ki : Nat}
    (h : DumpInv p m n cm W bmOffset s bm kb ki) (hr : n ≤ s.r) (hc : s.count = 0) :
    Dumped p m n W s := by
  have hb := h.base
  refine ⟨kb + ki, h.r_eq ▸ hr, h.r_eq ▸ h.r_lt, ?_⟩
  have hw := h.words
  rw [hc, List.replicate_zero, List.append_nil] at hw
  rw [← hw, show (kb + ki) % 2 = ki % 2 by omega]

/-- **The loop ends**: a property of the labels holds at each of them if it holds behind the loop, and
    passes from every label to the one before. -/
theorem fprintfBmLoop_rule (g : DumpGeometry p m n cm)
    (hdev : cfg.bmOffset + 4 * n ≤ cfg.bdSize) {disk : Mem}
    {motive : Nat → BmLabel → BmDump → World → Nat → Prop}
    (done : ∀ fuel s w kb ki, w.disk = disk →
      DumpInv p m n cm (bitmapWord cfg disk) cfg.bmOffset s w.buf kb ki → n ≤ s.r → s.count = 0 →
      motive fuel .done s w ki)
    (leave : ∀ fuel s w kb ki, w.disk = disk →
      DumpInv p m n cm (bitmapWord cfg disk) cfg.bmOffset s w.buf kb ki → n ≤ s.r → s.count = 0 →
      motive (fuel + 1) .head s w ki)
    (wrap : ∀ fuel s s' w w', s.r < n → 4 * (cm * m) ≤ s.i * 4 →
      fprintfBmStart cfg m n (4 * (cm * m)) { s with i := s.i - 4 * (cm * m) / 4 } w = (.ok s', w') →
      motive fuel .next s' w' 0 → motive (fuel + 1) .head s w cm)
    (stay : ∀ fuel s w ki, s.r < n → ¬4 * (cm * m) ≤ s.i * 4 → motive fuel .next s w ki →
      motive (fuel + 1) .head s w ki)
    (visit : ∀ fuel l s s' w kb ki ki',
      DumpInv p m n cm (bitmapWord cfg disk) cfg.bmOffset s w.buf kb ki →
      fprintfBmNext w.buf m p n s = .ok (l, s') → Visit s s' ki ki' → motive fuel l s' w ki' →
      motive (fuel + 1) .next s w ki) :
    ∀ (fuel : Nat) (l : BmLabel) (s : BmDump) (w : World) (kb ki : Nat), w.disk = disk →
      DumpInv p m n cm (bitmapWord cfg disk) cfg.bmOffset s w.buf kb ki → AtLabel n cm ki l s →
      (l ≠ .done → bmRank n l s ≤ fuel) → motive fuel l s w ki := by
  intro fuel
  induction fuel with
  | zero =>
    intro l s w kb ki hd h hat hf
    cases l with
    | done => exact done 0 s w kb ki hd h hat.1 hat.2
    | head =>
      have := hf (by decide)
      simp only [bmRank, if_true] at this
      omega
    | next =>
      have := hf (by decide)
      simp [bmRank] at this
  | succ fuel ih =>
    intro l s w kb ki hd h hat hf
    cases l with
    | done => exact done (fuel + 1) s w kb ki hd h hat.1 hat.2
    | head =>
      have hf' := hf (by decide)
      by_cases hr : s.r < n
      · have hp := g.slot
        by_cases hwrap : 4 * (cm * m) ≤ s.i * 4
        · -- the buffer is used up: the next chunk starts right behind it
          have hki : ki = cm := by
            have hle := h.ki_le
            have hi := h.i_eq
            have := (lt_chunk_iff g ki).not
            omega
          subst hki
          have hreq := h.r_eq
          have hieq := h.i_eq
          have hlt : kb * m + ki * m < n := by rw [Nat.add_mul] at hreq; omega
          have hbuf : s.nBuffer = ki * m := by rw [h.nBuffer_eq]; omega
          have hwords := h.words
          have hcm8 : ki % 2 = 0 := by have := g.chunk; omega
          rw [if_neg (by omega), List.append_nil, ← hd] at hwords
          obtain ⟨s', w', hrun, hlog, hbase, hc', hr', hinv⟩ := fprintfBmStart_inv
            (s := { s with i := s.i - 4 * (ki * m) / 4 }) g hdev hreq
            (by show s.i - 4 * (ki * m) / 4 = p; omega) hr
            (Nat.dvd_add h.base g.chunk)
            (by show s.bmOnDiskOff = _; rw [h.off_eq, hbuf, Nat.add_mul]) w h.count8 hwords
          have hd' : w'.disk = disk := by rw [← hd]; unfold World.disk; rw [hlog, hbase]
          rw [hd] at hinv
          refine wrap fuel s s' w w' hr hwrap hrun (ih .next s' w' (kb + ki) 0 hd' hinv
            ⟨by rw [hr']; exact hr, g.chunk_pos⟩ fun _ => ?_)
          simp only [bmRank, hr', hc'] at hf' ⊢
          simp at hf' ⊢
          omega
        · have hk : ki < cm := by
            have hi := h.i_eq
            rw [← lt_chunk_iff g]
            omega
          refine stay fuel s w ki hr hwrap (ih .next s w kb ki hd h ⟨hr, hk⟩ fun _ => ?_)
          simp only [bmRank] at hf' ⊢
          simp at hf' ⊢
          omega
      · have hc : s.count = 0 := hat.resolve_right hr
        exact leave fuel s w kb ki hd h (by omega) hc
    | next =>
      have hf' := hf (by decide)
      obtain ⟨l, s', ki', hrun, hinv, hat', hdec, hvisit⟩ := fprintfBmNext_inv h g hat.1 hat.2
      refine visit fuel l s s' w kb ki ki' h hrun hvisit (ih l s' w kb ki' hd hinv hat' fun hne => ?_)
      have := hdec hne
      omega

/-- The loop has dumped every word of the slot. -/
theorem fprintfBmLoop_returns (g : DumpGeometry p m n cm)
    (hdev : cfg.bmOffset + 4 * n ≤ cfg.bdSize) {disk : Mem} :
    ∀ (fuel : Nat) (l : BmLabel) (s : BmDump) (w : World) (kb ki : Nat), w.disk = disk →
      DumpInv p m n cm (bitmapWord cfg disk) cfg.bmOffset s w.buf kb ki → AtLabel n cm ki l s →
      (l ≠ .done → bmRank n l s ≤ fuel) →
      ∃ s' w', fprintfBmLoop cfg m p n (4 * (cm * m)) fuel l s w = (.ok s', w') ∧
        w'.disk = disk ∧ Dumped p m n (bitmapWord cfg disk) s' := by
  refine fprintfBmLoop_rule g hdev ?_ ?_ ?_ ?_ ?_
  · intro fuel s w kb ki hd h hr hc
    refine ⟨s, w, ?_, hd, h.dumped hr hc⟩
    cases fuel <;> rfl
  · intro fuel s w kb ki hd h hr hc
    rw [fprintfBmLoop, if_neg (by omega)]
    exact ⟨s, w, rfl, hd, h.dumped hr hc⟩
  · intro fuel s s' w w' hr hwrap hrun hrest
    rw [fprintfBmLoop, if_pos hr, if_pos hwrap, Run.bind_ok hrun]
    exact hrest
  · intro fuel s w ki hr hstay hrest
    rw [fprintfBmLoop, if_pos hr, if_neg hstay]
    exact hrest
  · intro fuel l s s' w kb ki ki' _ hrun _ hrest
    have hlift : liftExcept (fprintfBmNext w.buf m p n s) w = (.ok (l, s'), w) := by
      rw [hrun]
      rfl
    rw [fprintfBmLoop, Run.bind_ok (Run.getBuf_apply w), Run.bind_ok hlift]
    exact hrest

end Loop

/-! ## The whole dump -/

/-- How many of the words `p, p + m, p + 2 * m, ..` lie below `total`. -/
def slotWordCount (total m p : Nat) : Nat := (total + m - 1 - p) / m

theorem slotWordCount_unique {total m p k : Nat} (hp : p < m) (h1 : total ≤ p + k * m)
    (h2 : p + k * m < total + m) : slotWordCount total m p = k := by
  rw [slotWordCount, Nat.div_eq_iff (by omega)]
  omega

theorem le_slotWordCount_mul {total m p : Nat} (hp : p < m) :
    total ≤ p + slotWordCount total m p * m := by
  have h := Nat.div_add_mod (total + m - 1 - p) m
  have hlt := Nat.mod_lt (total + m - 1 - p) (show 0 < m by omega)
  rw [Nat.mul_comm] at h
  unfold slotWordCount
  omega

/-- `max_chunk_size`, in words of every slot. -/
theorem dumpGeometry {p m n : Nat} (hp : p < m) (hm : m ≤ DRBD_PEERS_MAX) (hn : n % 1024 = 0)
    (hlt : n < 2 ^ 32) :
    DumpGeometry p m n (bufferSize / (4096 * m) * 1024) ∧
      roundDown bufferSize (4096 * m) = 4 * (bufferSize / (4096 * m) * 1024 * m) := by
  have hm32 : m ≤ 32 := hm
  have hround : roundDown bufferSize (4096 * m) = 4 * (bufferSize / (4096 * m) * 1024 * m) := by
    rw [roundDown]; ring
  have hle : roundDown bufferSize (4096 * m) ≤ 2 ^ 25 :=
    (roundDown_le _ _).trans (by decide +kernel)
  have hpos : 0 < bufferSize / (4096 * m) :=
    Nat.div_pos (by unfold bufferSize; omega) (by omega)
  refine ⟨?_, hround⟩
  exact {
    slot := hp
    peers := hm32
    words := hn
    words_lt := hlt
    chunk := Dvd.intro_left _ rfl
    chunk_pos := by omega
    chunk_le := by omega }

/-- **What `fprintf_bm()` prints**: it returns, and the items stand for all words below the
    32-bit word count, but for a last low word without a high one. -/
theorem fprintfBm_words {cfg : Format} {p fuel : Nat} (hbm : 4096 ∣ cfg.bmBytes)
    (hp : p < cfg.md.maxPeers.toNat) (hm : cfg.md.maxPeers.toNat ≤ DRBD_PEERS_MAX)
    (hdev : cfg.bmOffset + cfg.bmBytes ≤ cfg.bdSize) (hfuel : cfg.bmBytes + 3 ≤ fuel) (w : World) :
    ∃ s bits w', fprintfBm cfg p fuel w = (.ok (s.out, bits), w') ∧ w'.disk = w.disk ∧
      Dumped p cfg.md.maxPeers.toNat (cfg.bmBytes / 4 % 2 ^ 32) (bitmapWord cfg w.disk) s := by
  have hn1024 : cfg.bmBytes / 4 % 2 ^ 32 % 1024 = 0 := by omega
  have hnlt : cfg.bmBytes / 4 % 2 ^ 32 < 2 ^ 32 := Nat.mod_lt _ (by omega)
  have hnle : 4 * (cfg.bmBytes / 4 % 2 ^ 32) ≤ cfg.bmBytes := by omega
  generalize hn : cfg.bmBytes / 4 % 2 ^ 32 = n at *
  obtain ⟨g, hchunk⟩ := dumpGeometry hp hm hn1024 hnlt
  generalize bufferSize / (4096 * cfg.md.maxPeers.toNat) * 1024 = cm at g hchunk
  have hcpos : 4 * (cm * cfg.md.maxPeers.toNat) ≠ 0 := by
    have := Nat.mul_pos g.chunk_pos (show 0 < cfg.md.maxPeers.toNat by omega)
    omega
  unfold fprintfBm
  rw [hn, hchunk, Run.bind_ok (assert_pos (by decide +kernel) w), Run.bind_ok (assert_pos hcpos w)]
  by_cases hpn : p < n
  · rw [if_pos hpn]
    obtain ⟨s, w1, hrun, hlog, hbase, hc, hr, hinv⟩ := @fprintfBmStart_inv cfg p _ n _
      ⟨cfg.bmOffset, 0, 0, 0, 0, 0, p, p, []⟩ 0 g (by omega) (by simp) rfl hpn
      (Nat.dvd_zero _) (by simp) w rfl rfl
    have hd : w1.disk = w.disk := by unfold World.disk; rw [hlog, hbase]
    have hat : AtLabel n cm 0 .next s := ⟨by rw [hr]; exact hpn, g.chunk_pos⟩
    have hrank : bmRank n .next s ≤ fuel := by
      simp only [bmRank, hr, hc, if_true]
      simp
      omega
    obtain ⟨s', w2, hloop, hd2, hdump⟩ := fprintfBmLoop_returns g (by omega) fuel .next s w1 0 0 hd
      hinv hat fun _ => hrank
    exact ⟨s', s'.bitsSet, w2, by rw [Run.bind_ok hrun, Run.bind_ok hloop]; rfl, hd2, hdump⟩
  · rw [if_neg hpn]
    refine ⟨⟨0, 0, 0, 0, 0, 0, 0, 0, []⟩, 0, w, rfl, rfl, 0, by omega, by omega, ?_⟩
    simp [halfWords, slotWords]

/-- Every word of the slot, below the real number of words, is accounted for by complete items
    exactly if the word count fits 32 bits and is even. -/
theorem Dumped.complete_iff {p m total : Nat} {W : Nat → BitVec 32} {s : BmDump}
    (h : Dumped p m (total % 2 ^ 32) W s) (hp : p < m) (hm : m ≤ DRBD_PEERS_MAX) :
    halfWords s.out = slotWords W p m (slotWordCount total m p) ↔
      total < 2 ^ 32 ∧ slotWordCount total m p % 2 = 0 := by
  obtain ⟨k, h1, h2, hw⟩ := h
  have hm32 : m ≤ 32 := hm
  have hlen : (halfWords s.out).length + (if k % 2 = 1 then 1 else 0) = k := by
    have := congrArg List.length hw
    rw [List.length_append, slotWords, List.length_map, List.length_range] at this
    split at this <;> simpa [*] using this
  have hslot : ∀ k', (slotWords W p m k').length = k' := by
    intro k'; rw [slotWords, List.length_map, List.length_range]
  by_cases htot : total < 2 ^ 32
  · rw [Nat.mod_eq_of_lt htot] at h1 h2
    rw [slotWordCount_unique hp h1 h2]
    refine ⟨fun heq => ⟨htot, ?_⟩, fun heven => ?_⟩
    · have := congrArg List.length heq
      rw [hslot] at this
      split at hlen <;> omega
    · rw [if_neg (by omega), List.append_nil] at hw
      exact hw
  · refine ⟨fun heq => ?_, fun hc => absurd hc.1 htot⟩
    have hl := congrArg List.length heq
    rw [hslot] at hl
    have hge := @le_slotWordCount_mul total _ _ hp
    have hk : slotWordCount total m p ≤ k := by
      split at hlen <;> omega
    have := Nat.mul_le_mul_right m hk
    omega

/-- **The bitmap dump.**  For every content, slot and bitmap size `fprintf_bm()` returns without
    a failed `ASSERT`, and what it prints expands to the words of the slot exactly if the
    number of bitmap words fits `unsigned int` and the slot has an even number of them. -/
theorem fprintfBm_lossless_iff {cfg : Format} {p fuel : Nat} (hbm : 4096 ∣ cfg.bmBytes)
    (hp : p < cfg.md.maxPeers.toNat) (hm : cfg.md.maxPeers.toNat ≤ DRBD_PEERS_MAX)
    (hdev : cfg.bmOffset + cfg.bmBytes ≤ cfg.bdSize) (hfuel : cfg.bmBytes + 3 ≤ fuel) (w : World) :
    ∃ items bits w', fprintfBm cfg p fuel w = (.ok (items, bits), w') ∧
      (halfWords items = slotWords (bitmapWord cfg w.disk) p cfg.md.maxPeers.toNat
          (slotWordCount (cfg.bmBytes / 4) cfg.md.maxPeers.toNat p) ↔
        cfg.bmBytes < 2 ^ 34 ∧ slotWordCount (cfg.bmBytes / 4) cfg.md.maxPeers.toNat p % 2 = 0) := by
  obtain ⟨s, bits, w', hrun, _, hdump⟩ := fprintfBm_words hbm hp hm hdev hfuel w
  refine ⟨s.out, bits, w', hrun, (hdump.complete_iff hp hm).trans (and_congr_left fun _ => ?_)⟩
  omega

/-- A 512 TiB device with one peer: its bitmap has `2 ^ 32` words. -/
abbrev format512T : Format := sampleFormat 0x10000000000 0x2000000 1

/-- The word count of a 16 GiB bitmap is zero in 32 bits: nothing is printed. -/
theorem fprintfBm_drops_16G :
    ∃ bits w', fprintfBm format512T 0 (format512T.bmBytes + 3) (.init (fun _ => 0) (fun _ => 0)) =
        (.ok ([], bits), w') ∧
      halfWords [] ≠ slotWords (bitmapWord format512T fun _ => 0) 0 1
        (slotWordCount (format512T.bmBytes / 4) 1 0) := by
  have hbm : format512T.bmBytes = 17179869184 := by decide
  refine ⟨0, .init (fun _ => 0) (fun _ => 0), ?_, fun h => ?_⟩
  · unfold fprintfBm
    rw [Run.bind_ok (assert_pos (by decide +kernel) _),
      Run.bind_ok (assert_pos (by decide +kernel) _), if_neg (by rw [hbm]; decide)]
    rfl
  · have hlen := congrArg List.length h
    rw [slotWords, List.length_map, List.length_range, hbm] at hlen
    exact absurd hlen (by decide)

theorem fprintfBm_lossless_iff_128M :
    ∃ items bits w', fprintfBm format128M 0 4099 (.init (fun _ => 0) (fun _ => 0)) =
        (.ok (items, bits), w') ∧
      halfWords items = slotWords (bitmapWord format128M fun _ => 0) 0 1 1024 := by
  obtain ⟨items, bits, w', hrun, hiff⟩ := @fprintfBm_lossless_iff format128M 0 4099
    (by decide) (by decide) (by decide) (by decide) (by decide)
    (.init (fun _ => 0) (fun _ => 0))
  exact ⟨items, bits, w', hrun, hiff.2 ⟨by decide, by decide⟩⟩

end DrbdUtils.Meta
