import DrbdUtils.Meta.ApplyAl
import DrbdUtils.Meta.LayoutLimits

/-!
# The batches of `apply_al`

`apply_al()` covers as many hot extents as it can with one read and one write.  This file
states what the batching amounts to: a program without `ASSERT`s over an explicit list of
chunks, and the same bitmap as one read-modify-write for each extent.

* `applyAlLoop_eq_runChunks` — on a sorted array the loop is that program.
* `applyAl_batching_exact` — the chunks lie inside the bitmap and the buffer, nothing but the
  bits of accepted extents changes, and batching makes no difference.
-/

set_option autoImplicit false

namespace DrbdUtils.Meta

open BlockDevice

/-! ## Chunks -/

/-- What one round of the loop reads, changes and writes back. -/
structure BitmapChunk where
  pos : Nat
  len : Nat
  extents : List Nat

/-- The chunk of the batch `enr :: batch`. -/
def batchChunk (bpe m enr : Nat) (batch : List Nat) : BitmapChunk :=
  let pos := (enrToBitRange enr bpe m).aligned4kXMaxPeersOnDiskPos
  let last := (enr :: batch).getLast (List.cons_ne_nil _ _)
  { pos := pos
    len := align (enrToBitRange last bpe m).onDiskWord32PosE 4096 - pos
    extents := enr :: batch }

/-- The chunks of an array. -/
def applyAlChunks (bmBytes bpe m : Nat) : List Nat → List BitmapChunk
  | [] => []
  | enr :: rest =>
    if enr = noExtent then []
    else if bmBytes ≤ (enrToBitRange enr bpe m).onDiskWord32PosE then
      applyAlChunks bmBytes bpe m rest
    else
      let fits := fitsChunk bmBytes bpe m (enrToBitRange enr bpe m)
      batchChunk bpe m enr (rest.takeWhile fits) :: applyAlChunks bmBytes bpe m (rest.dropWhile fits)
termination_by hot => hot.length
decreasing_by
  · simp
  · exact Nat.lt_succ_of_le (List.dropWhile_suffix _).length_le

/-- "change the bits", with no `ASSERT` in it. -/
def markExtents (bpe m pos : Nat) : List Nat → Nat → MetaRun Nat
  | [], additionalBitsSet => pure additionalBitsSet
  | enr :: rest, additionalBitsSet => do
    let ex := enrToBitRange enr bpe m
    if 32 ≤ bpe then do
      let numBytes := ex.onDiskWord32PosE - ex.onDiskWord32PosS
      Run.modifyBuf fun buf => fill buf (ex.onDiskWord32PosS - pos) numBytes (BitVec.allOnes 8)
      markExtents bpe m pos rest additionalBitsSet
    else do
      let buf ← Run.getBuf
      let r := orSlots (extentMask ex.bitS ex.bitE) m ((ex.onDiskWord32PosS - pos) / 4) buf
        additionalBitsSet
      Run.modifyBuf fun _ => r.1
      markExtents bpe m pos rest r.2

/-- Read, change and write back chunk after chunk. -/
def runChunks (o : Options) (cfg : Format) (bpe m : Nat) : List BitmapChunk → Nat → MetaRun Nat
  | [], additionalBitsSet => pure additionalBitsSet
  | c :: cs, additionalBitsSet => do
    preadOrDie cfg c.len (cfg.bmOffset + c.pos)
    let additionalBitsSet ← markExtents bpe m c.pos c.extents additionalBitsSet
    pwriteOrDie o cfg c.len (cfg.bmOffset + c.pos)
    runChunks o cfg bpe m cs additionalBitsSet

/-- A chunk that stays in the buffer and in the bitmap, and holds its extents. -/
structure ChunkOk (limit bpe m : Nat) (c : BitmapChunk) : Prop where
  pos_dvd : 4096 ∣ c.pos
  len_le : c.len ≤ bufferSize
  end_le : c.pos + c.len ≤ limit
  extents : ∀ e ∈ c.extents, c.pos ≤ (enrToBitRange e bpe m).onDiskWord32PosS ∧
    (enrToBitRange e bpe m).onDiskWord32PosS - c.pos < c.len ∧
    (enrToBitRange e bpe m).onDiskWord32PosE - c.pos ≤ c.len

/-- `bm_bytes`, rounded up to whole 4k blocks, is where the chunks have to end. -/
structure ChunkLimit (bmBytes limit : Nat) : Prop where
  dvd : 4096 ∣ limit
  le : bmBytes ≤ limit

theorem batchChunk_ok {bmBytes limit bpe m enr : Nat} {batch : List Nat}
    (hb0 : 0 < bpe) (hb : bpe ≤ 1024) (hm : 0 < m) (hm32 : m ≤ DRBD_PEERS_MAX)
    (hlim : ChunkLimit bmBytes limit) (hs : (enr :: batch).Pairwise (· ≤ ·))
    (henr : (enrToBitRange enr bpe m).onDiskWord32PosE < bmBytes)
    (hbatch : ∀ e ∈ batch, fitsChunk bmBytes bpe m (enrToBitRange enr bpe m) e = true) :
    ChunkOk limit bpe m (batchChunk bpe m enr batch) := by
  have hpos := aligned_dvd enr bpe m
  have hposS : (enrToBitRange enr bpe m).aligned4kXMaxPeersOnDiskPos ≤
      (enrToBitRange enr bpe m).onDiskWord32PosS := roundDown_le _ _
  unfold batchChunk
  generalize hlast : (enr :: batch).getLast (List.cons_ne_nil _ _) = last
  have hmem : ∀ e ∈ enr :: batch, enr ≤ e ∧ e ≤ last := by
    intro e he
    refine ⟨?_, hlast ▸ List.Pairwise.rel_getLast hs he⟩
    rcases List.mem_cons.1 he with rfl | h'
    · exact Nat.le_refl _
    · exact (List.pairwise_cons.1 hs).1 e h'
  have hfit : ∀ e ∈ enr :: batch, (enrToBitRange e bpe m).onDiskWord32PosE < bmBytes ∧
      (enrToBitRange e bpe m).onDiskWord32PosE ≤
        (enrToBitRange enr bpe m).aligned4kXMaxPeersOnDiskPos + bufferSize := by
    intro e he
    rcases List.mem_cons.1 he with rfl | h'
    · exact ⟨henr, single_extent_chunk hb hm hm32⟩
    · have := hbatch e h'
      simp only [fitsChunk, Bool.and_eq_true, decide_eq_true_eq] at this
      omega
  have hlastmem : last ∈ enr :: batch := hlast ▸ List.getLast_mem _
  obtain ⟨hlastBm, hlastBuf⟩ := hfit last hlastmem
  have hle := hlim.le
  have hend : align (enrToBitRange last bpe m).onDiskWord32PosE 4096 ≤ limit :=
    align_le_of_dvd (by omega) (by omega) hlim.dvd
  have hendBuf : align (enrToBitRange last bpe m).onDiskWord32PosE 4096 ≤
      (enrToBitRange enr bpe m).aligned4kXMaxPeersOnDiskPos + bufferSize :=
    align_le_of_dvd (by omega) hlastBuf (Nat.dvd_add hpos (by unfold bufferSize; decide))
  have hge := align_ge (enrToBitRange last bpe m).onDiskWord32PosE (show 0 < 4096 by omega)
  have hfirstLast := @word32PosS_mono _ _ bpe m (hmem last hlastmem).1
  have hlastS := word32PosS_lt (e := last) hb0 hm
  refine ⟨hpos, by simp only; omega, by simp only; omega, fun e he => ?_⟩
  have hS := @word32PosS_mono _ _ bpe m (hmem e he).1
  have hE := @word32PosE_mono _ _ bpe m (hmem e he).2
  have hlt := word32PosS_lt (e := e) hb0 hm
  simp only
  omega

/-- **Every chunk of a sorted array is in order.** -/
theorem applyAlChunks_ok {bmBytes limit bpe m : Nat} (hb0 : 0 < bpe) (hb : bpe ≤ 1024) (hm : 0 < m)
    (hm32 : m ≤ DRBD_PEERS_MAX) (hlim : ChunkLimit bmBytes limit) :
    ∀ hot : List Nat, hot.Pairwise (· ≤ ·) →
      ∀ c ∈ applyAlChunks bmBytes bpe m hot, ChunkOk limit bpe m c
  | [], _, c, hc => by
    rw [applyAlChunks] at hc
    cases hc
  | enr :: rest, hs, c, hc => by
    rw [applyAlChunks] at hc
    have hs' := (List.pairwise_cons.1 hs).2
    split at hc
    · cases hc
    split at hc
    · exact applyAlChunks_ok hb0 hb hm hm32 hlim rest hs' c hc
    rename_i hlt
    rcases List.mem_cons.1 hc with rfl | hc
    · exact batchChunk_ok hb0 hb hm hm32 hlim
        (hs.sublist ((List.takeWhile_sublist _).cons_cons _)) (by omega)
        fun e he => List.all_eq_true.1 List.all_takeWhile e he
    · exact applyAlChunks_ok hb0 hb hm hm32 hlim _
        (hs'.sublist (List.dropWhile_suffix _).sublist) c hc
termination_by hot => hot.length
decreasing_by
  · exact Nat.lt_succ_of_le (List.dropWhile_suffix _).length_le
  · simp

/-- The chunks hold the accepted extents, in their order. -/
theorem applyAlChunks_extents {bmBytes bpe m : Nat} : ∀ hot : List Nat,
    (applyAlChunks bmBytes bpe m hot).flatMap BitmapChunk.extents = acceptedExtents bmBytes bpe m hot
  | [] => by
    rw [applyAlChunks]
    rfl
  | enr :: rest => by
    rw [applyAlChunks]
    split
    · rename_i hne
      simp [acceptedExtents, hne]
    rename_i hne
    split
    · rename_i hlt
      rw [applyAlChunks_extents rest]
      simp [acceptedExtents, hne, hlt]
    · rename_i hlt
      rw [List.flatMap_cons, applyAlChunks_extents, acceptedExtents_batch _ hne (by omega)]
      rfl
termination_by hot => hot.length
decreasing_by
  · exact Nat.lt_succ_of_le (List.dropWhile_suffix _).length_le
  · simp

/-! ## The loop without `ASSERT`s -/

theorem changeBits_eq_markExtents {bpe m pos chunk : Nat} : ∀ (es : List Nat) (acc : Nat),
    (∀ e ∈ es, pos ≤ (enrToBitRange e bpe m).onDiskWord32PosS ∧
      (enrToBitRange e bpe m).onDiskWord32PosS - pos < chunk ∧
      (enrToBitRange e bpe m).onDiskWord32PosE - pos ≤ chunk) →
    changeBits bpe m pos chunk es acc = markExtents bpe m pos es acc
  | [], _, _ => rfl
  | e :: es, acc, h => by
    obtain ⟨h1, h2, h3⟩ := h e (List.mem_cons_self ..)
    have hrest := fun acc' => changeBits_eq_markExtents es acc' fun x hx =>
      h x (List.mem_cons_of_mem _ hx)
    have hle := word32Pos_le e bpe m
    funext w
    rw [changeBits, markExtents, Run.bind_ok (assert_pos ⟨h1, h2⟩ w),
      Run.bind_ok (assert_pos ⟨by omega, h3⟩ w)]
    simp only [hrest]

/-- One round of the loop, in terms of its chunk. -/
theorem applyAlLoop_batch {o : Options} {cfg : Format} {bmBytes bpe m enr : Nat} {rest : List Nat}
    {c : BitmapChunk} (hne : enr ≠ noExtent)
    (hlt : ¬bmBytes ≤ (enrToBitRange enr bpe m).onDiskWord32PosE)
    (hc : c = batchChunk bpe m enr
      (rest.takeWhile (fitsChunk bmBytes bpe m (enrToBitRange enr bpe m)))) (acc : Nat) :
    applyAlLoop o cfg bmBytes bpe m (enr :: rest) acc = (do
      assert (c.len ≤ bufferSize)
      preadOrDie cfg c.len (cfg.bmOffset + c.pos)
      let acc' ← changeBits bpe m c.pos c.len c.extents acc
      pwriteOrDie o cfg c.len (cfg.bmOffset + c.pos)
      applyAlLoop o cfg bmBytes bpe m
        (rest.dropWhile (fitsChunk bmBytes bpe m (enrToBitRange enr bpe m))) acc') := by
  subst hc
  rw [applyAlLoop, if_neg hne, if_neg hlt]
  rfl

/-- **No `ASSERT` fails**: on a sorted array the loop is the program over its chunks. -/
theorem applyAlLoop_eq_runChunks {o : Options} {cfg : Format} {bmBytes limit bpe m : Nat}
    (hb0 : 0 < bpe) (hb : bpe ≤ 1024) (hm : 0 < m) (hm32 : m ≤ DRBD_PEERS_MAX)
    (hlim : ChunkLimit bmBytes limit) : ∀ (hot : List Nat) (acc : Nat), hot.Pairwise (· ≤ ·) →
      applyAlLoop o cfg bmBytes bpe m hot acc =
        runChunks o cfg bpe m (applyAlChunks bmBytes bpe m hot) acc
  | [], acc, _ => by
    rw [applyAlLoop, applyAlChunks]
    rfl
  | enr :: rest, acc, hs => by
    have hs' := (List.pairwise_cons.1 hs).2
    have hok := applyAlChunks_ok hb0 hb hm hm32 hlim (enr :: rest) hs
    rw [applyAlChunks] at hok ⊢
    by_cases hne : enr = noExtent
    · rw [applyAlLoop, if_pos hne, if_pos hne]
      rfl
    by_cases hlt : bmBytes ≤ (enrToBitRange enr bpe m).onDiskWord32PosE
    · rw [applyAlLoop, if_neg hne, if_neg hne, if_pos hlt, if_pos hlt]
      exact applyAlLoop_eq_runChunks hb0 hb hm hm32 hlim rest acc hs'
    rw [if_neg hne, if_neg hlt] at hok ⊢
    have hc := hok _ (List.mem_cons_self ..)
    have hloop := fun acc' => @applyAlLoop_eq_runChunks o cfg _ _ _ _ hb0 hb hm hm32 hlim
      (rest.dropWhile (fitsChunk bmBytes bpe m (enrToBitRange enr bpe m))) acc'
      (hs'.sublist (List.dropWhile_suffix _).sublist)
    funext w
    rw [applyAlLoop_batch hne hlt rfl, Run.bind_ok (assert_pos hc.len_le w), runChunks]
    simp only [hloop, changeBits_eq_markExtents _ _ hc.extents]
termination_by hot => hot.length
decreasing_by
  · simp
  · exact Nat.lt_succ_of_le (List.dropWhile_suffix _).length_le

/-! ## What the chunks do -/

theorem markExtents_bits {bpe m : Nat} (hp : BitmapParams bpe m) {limit : Nat} {c : BitmapChunk}
    (hc : ChunkOk limit bpe m c) (acc : Nat) (w : World) :
    ∃ r w', markExtents bpe m c.pos c.extents acc w = (.ok r, w') ∧
      changeBits bpe m c.pos c.len c.extents acc w = (.ok r, w') ∧
      w'.log = w.log ∧ w'.base = w.base := by
  obtain ⟨r, w', h⟩ := changeBits_returns c.extents acc w hc.extents
  obtain ⟨hlog, hbase, -⟩ := changeBits_bits hp (Dvd.dvd.trans (by decide) hc.pos_dvd) _ _ _ _ _ h
  exact ⟨r, w', changeBits_eq_markExtents c.extents acc hc.extents ▸ h, h, hlog, hbase⟩

/-- **Chunks only add bits of their extents**, and when the run returns, all of them. -/
theorem runChunks_adds {o : Options} {cfg : Format} {limit bpe m : Nat} (hd : o.dryRun = false)
    (hp : BitmapParams bpe m) : ∀ (cs : List BitmapChunk) (acc : Nat) (w : World),
      (∀ c ∈ cs, ChunkOk limit bpe m c) →
      ∃ done, AddsExtents cfg limit bpe m done w (runChunks o cfg bpe m cs acc w).2 ∧
        (∀ e ∈ done, e ∈ cs.flatMap BitmapChunk.extents) ∧
        ∀ r, (runChunks o cfg bpe m cs acc w).1 = .ok r → done = cs.flatMap BitmapChunk.extents
  | [], acc, w, _ => ⟨[], .nothing (.refl w), fun _ h => h, fun _ _ => rfl⟩
  | c :: cs, acc, w, hok => by
    have hc := hok c (List.mem_cons_self ..)
    by_cases hread : cfg.bmOffset + c.pos + c.len ≤ cfg.bdSize
    swap
    · refine ⟨[], ?_, (by simp), fun r h => ?_⟩ <;>
        rw [runChunks, Run.bind_error (s := .exit 10) (by rw [preadOrDie, if_neg hread]; rfl)] at *
      · exact .nothing (.refl w)
      · cases h
    obtain ⟨r, w', hmark, hchange, hlog, hbase⟩ := markExtents_bits hp hc acc
      (w.read c.len (cfg.bmOffset + c.pos))
    by_cases hval : validateOffsets o cfg c.len (cfg.bmOffset + c.pos) = true
    swap
    · have hstop : pwriteOrDie o cfg c.len (cfg.bmOffset + c.pos) w' = (.error (.exit 10), w') := by
        simp [pwriteOrDie, hval, Run.stop_apply]
      refine ⟨[], ?_, (by simp), fun r h => ?_⟩ <;>
        rw [runChunks, Run.bind_ok (preadOrDie_ok hread w), Run.bind_ok hmark,
          Run.bind_error hstop] at *
      · exact .nothing ⟨by rw [hlog, List.append_nil]; rfl, hbase⟩
      · cases h
    obtain ⟨done, hadds, hsub, hall⟩ := @runChunks_adds _ cfg _ _ _ hd hp cs r
      (w'.write c.len (cfg.bmOffset + c.pos)) fun x hx => hok x (List.mem_cons_of_mem _ hx)
    rw [runChunks, Run.bind_ok (preadOrDie_ok hread w), Run.bind_ok hmark,
      Run.bind_ok (pwriteOrDie_ok hval hd hread w')]
    refine ⟨c.extents ++ done, ?_, fun e he => ?_, fun r' h => ?_⟩
    · exact (addsExtents_chunk hp (Dvd.dvd.trans (by decide) hc.pos_dvd) hc.end_le hchange).trans
        hadds
    · rw [List.flatMap_cons, List.mem_append]
      exact (List.mem_append.1 he).imp id (hsub e)
    · rw [List.flatMap_cons, hall r' h]

theorem runChunks_returns {o : Options} {cfg : Format} {limit bpe m : Nat} (hd : o.dryRun = false)
    (hp : BitmapParams bpe m) (harea : BitmapInside cfg limit) :
    ∀ (cs : List BitmapChunk) (acc : Nat) (w : World), (∀ c ∈ cs, ChunkOk limit bpe m c) →
      ∃ r w', runChunks o cfg bpe m cs acc w = (.ok r, w')
  | [], acc, w, _ => ⟨acc, w, rfl⟩
  | c :: cs, acc, w, hok => by
    have hc := hok c (List.mem_cons_self ..)
    have hend := hc.end_le
    have hdev := harea.device
    have hread : cfg.bmOffset + c.pos + c.len ≤ cfg.bdSize := by omega
    obtain ⟨r, w', hmark, -⟩ := markExtents_bits hp hc acc (w.read c.len (cfg.bmOffset + c.pos))
    rw [runChunks, Run.bind_ok (preadOrDie_ok hread w), Run.bind_ok hmark,
      Run.bind_ok (pwriteOrDie_ok (harea.validate o (by omega) (by omega)) hd hread w')]
    exact runChunks_returns hd hp harea cs _ _ fun x hx => hok x (List.mem_cons_of_mem _ hx)

/-! ## One extent at a time -/

/-- Every extent in a read-modify-write of its own. -/
def applyAlSingly (o : Options) (cfg : Format) (bmBytes bpe m : Nat) : List Nat → MetaRun Unit
  | [] => pure ()
  | e :: es => do
    let _ ← applyAlLoop o cfg bmBytes bpe m [e] 0
    applyAlSingly o cfg bmBytes bpe m es

section Batching

variable {o : Options} {cfg : Format} {bmBytes limit bpe m : Nat} {w w' w'' : World}
  {done done' : List Nat}

/-- The device an `AddsExtents` run leaves is decided by the set of extents. -/
theorem AddsExtents.disk_eq (h : AddsExtents cfg limit bpe m done w w')
    (h' : AddsExtents cfg limit bpe m done' w w'') (hsame : ∀ e, e ∈ done ↔ e ∈ done') :
    w'.disk = w''.disk := by
  obtain ⟨l, he, hg, hb⟩ := h
  obtain ⟨l', he', hg', hb'⟩ := h'
  funext a
  by_cases ha : a < cfg.bmOffset
  · rw [he.disk, he'.disk, (Grows.disk hg).1 a (.inl ha), (Grows.disk hg').1 a (.inl ha)]
  · apply BitVec.eq_of_getLsbD_eq
    intro i hi
    have hbit : ∀ d : Mem, (d a).getLsbD i = bit (bitmapArea cfg d) (8 * (a - cfg.bmOffset) + i) := by
      intro d
      rw [bit, bitmapArea, show cfg.bmOffset + (8 * (a - cfg.bmOffset) + i) / 8 = a by omega,
        show (8 * (a - cfg.bmOffset) + i) % 8 = i by omega]
    rw [hbit, hbit, hb, hb']
    simp only [hsame]

theorem applyAlSingly_adds (hd : o.dryRun = false) (hp : BitmapParams bpe m) (hb0 : 0 < bpe)
    (hb : bpe ≤ 1024) (hm32 : m ≤ DRBD_PEERS_MAX) (hlim : ChunkLimit bmBytes limit) :
    ∀ (es : List Nat) (w : World),
      (∀ e ∈ es, e ≠ noExtent ∧ (enrToBitRange e bpe m).onDiskWord32PosE < bmBytes) →
      (∀ u, (applyAlSingly o cfg bmBytes bpe m es w).1 = .ok u →
        AddsExtents cfg limit bpe m es w (applyAlSingly o cfg bmBytes bpe m es w).2) ∧
      (BitmapInside cfg limit → ∃ w', applyAlSingly o cfg bmBytes bpe m es w = (.ok (), w'))
  | [], w, _ => ⟨fun _ _ => .nothing (.refl w), fun _ => ⟨w, rfl⟩⟩
  | e :: es, w, hes => by
    obtain ⟨hne, hlt⟩ := hes e (List.mem_cons_self ..)
    have hok := applyAlChunks_ok hb0 hb hp.peers hm32 hlim [e] (List.pairwise_singleton _ e)
    have hloop := @applyAlLoop_eq_runChunks o cfg _ _ _ _ hb0 hb hp.peers hm32 hlim [e] 0
      (List.pairwise_singleton _ e)
    have hext : (applyAlChunks bmBytes bpe m [e]).flatMap BitmapChunk.extents = [e] := by
      rw [applyAlChunks_extents]
      simp [acceptedExtents, hne, hlt]
    obtain ⟨done, hadds, -, hall⟩ := @runChunks_adds _ cfg _ _ _ hd hp _ 0 w hok
    generalize hres : runChunks o cfg bpe m (applyAlChunks bmBytes bpe m [e]) 0 w = res at hadds hall
    obtain ⟨res, w₁⟩ := res
    rw [applyAlSingly, hloop]
    cases res with
    | error s =>
      rw [Run.bind_error hres]
      refine ⟨fun u hu => (by cases hu), fun harea => ?_⟩
      obtain ⟨r, w', hret⟩ := runChunks_returns hd hp harea _ 0 w hok
      rw [hres] at hret
      cases hret
    | ok r =>
      rw [Run.bind_ok hres]
      obtain ⟨h1, h2⟩ := applyAlSingly_adds hd hp hb0 hb hm32 hlim es w₁
        fun x hx => hes x (List.mem_cons_of_mem _ hx)
      have hdone : done = [e] := (hall r rfl).trans hext
      subst hdone
      exact ⟨fun u hu => hadds.trans (h1 u hu), h2⟩

end Batching

/-! ## The command -/

/-- The extents `apply_al` accepts. -/
def acceptedHot (cfg : Format) (hot : HotExtents) : List Nat :=
  acceptedExtents (align cfg.bmBytes cfg.mdHardSectSize.val) (bitsPerExtent cfg.md)
    cfg.md.maxPeers.toNat hot.extents

/-- The chunks `apply_al` reads and writes. -/
def hotChunks (cfg : Format) (hot : HotExtents) : List BitmapChunk :=
  applyAlChunks (align cfg.bmBytes cfg.mdHardSectSize.val) (bitsPerExtent cfg.md)
    cfg.md.maxPeers.toNat hot.extents

/-- From `d` to `d'` no bit was cleared, and only bits of the accepted extents changed. -/
structure OnlyAdds (cfg : Format) (accepted : List Nat) (d d' : Mem) : Prop where
  bitsLe : BitsLe d d'
  accepted : ∀ n, bit d' n ≠ bit d n → 8 * cfg.bmOffset ≤ n ∧
    slotBit cfg.md.maxPeers.toNat (n - 8 * cfg.bmOffset) / bitsPerExtent cfg.md ∈ accepted

theorem AddsExtents.onlyAdds {cfg : Format} {limit : Nat} {done accepted : List Nat} {w w' : World}
    (h : AddsExtents cfg limit (bitsPerExtent cfg.md) cfg.md.maxPeers.toNat done w w')
    (hsub : ∀ e ∈ done, e ∈ accepted) : OnlyAdds cfg accepted w.disk w'.disk := by
  obtain ⟨l, he, hg, hb⟩ := h
  obtain ⟨hout, hle⟩ := Grows.disk hg
  rw [← he.disk] at hout hle
  refine ⟨hle, fun n hn => ?_⟩
  have hge : 8 * cfg.bmOffset ≤ n := by
    by_contra hlt
    exact hn (by rw [bit, bit, hout _ (.inl (by omega))])
  refine ⟨hge, hsub _ ?_⟩
  have hbit := hb (n - 8 * cfg.bmOffset)
  rw [bit_bitmapArea, bit_bitmapArea, Nat.add_sub_cancel' hge] at hbit
  by_contra hnot
  rw [decide_eq_false hnot, Bool.or_false] at hbit
  exact hn hbit

/-- What batching must not make a difference to. -/
structure BatchingExact (o : Options) (cfg : Format) (hot : HotExtents) : Prop where
  /-- The run is the one over the chunks, which has no `ASSERT` in it. -/
  run_eq : applyAl o cfg hot = (do
    let n ← runChunks o cfg (bitsPerExtent cfg.md) cfg.md.maxPeers.toNat (hotChunks cfg hot) 0
    pure (if hot.listed = [] then none else some n))
  inside : ∀ c ∈ hotChunks cfg hot,
    c.pos + c.len ≤ align cfg.bmBytes 4096 ∧ c.len ≤ bufferSize
  onlyAdds : ∀ w, OnlyAdds cfg (acceptedHot cfg hot) w.disk (applyAl o cfg hot w).2.disk
  same : ∀ w r w' w'', applyAl o cfg hot w = (.ok r, w') →
    applyAlSingly o cfg (align cfg.bmBytes cfg.mdHardSectSize.val) (bitsPerExtent cfg.md)
      cfg.md.maxPeers.toNat (acceptedHot cfg hot) w = (.ok (), w'') → w'.disk = w''.disk
  returns : BitmapInside cfg (align cfg.bmBytes 4096) → ∀ w,
    (∃ r w', applyAl o cfg hot w = (.ok r, w')) ∧
      ∃ w'', applyAlSingly o cfg (align cfg.bmBytes cfg.mdHardSectSize.val) (bitsPerExtent cfg.md)
        cfg.md.maxPeers.toNat (acceptedHot cfg hot) w = (.ok (), w'')

theorem chunkLimit_align (bm : Nat) (hs : HardSectSize) :
    ChunkLimit (align bm hs.val) (align bm 4096) :=
  ⟨dvd_align _ _, align_le_of_dvd hs.pos (align_ge bm (by decide)) (hs.dvd.trans (dvd_align _ _))⟩

/-- The last step of a run only makes up its result. -/
theorem applyAl_world {o : Options} {cfg : Format} {hot : HotExtents} {bpe m : Nat}
    {chunks : List BitmapChunk}
    (hrun : applyAl o cfg hot = (do
      let n ← runChunks o cfg bpe m chunks 0
      pure (if hot.listed = [] then none else some n))) (w : World) :
    (applyAl o cfg hot w).2 = (runChunks o cfg bpe m chunks 0 w).2 ∧
      ∀ r, (applyAl o cfg hot w).1 = .ok r → ∃ n, (runChunks o cfg bpe m chunks 0 w).1 = .ok n := by
  rw [hrun]
  generalize hres : runChunks o cfg bpe m chunks 0 w = res
  obtain ⟨res, w₁⟩ := res
  cases res with
  | ok n =>
    rw [Run.bind_ok hres]
    exact ⟨rfl, fun _ _ => ⟨n, rfl⟩⟩
  | error e =>
    rw [Run.bind_error hres]
    exact ⟨rfl, fun _ h => by cases h⟩

theorem acceptedHot_listed {cfg : Format} {hot : HotExtents} {e : Nat}
    (he : e ∈ acceptedHot cfg hot) : e ≠ noExtent ∧
      (enrToBitRange e (bitsPerExtent cfg.md) cfg.md.maxPeers.toNat).onDiskWord32PosE <
        align cfg.bmBytes cfg.mdHardSectSize.val := by
  rw [acceptedHot, acceptedExtents, List.mem_filter, decide_eq_true_eq] at he
  have := List.all_eq_true.1 List.all_takeWhile e he.1
  exact ⟨by simpa using this, he.2⟩

/-- **Batching is exact**: for every sorted array, granularity, number of peers, bitmap and device,
    no `ASSERT` of `apply_al` fails, its chunks lie in the bitmap and the buffer, nothing but the
    bits of accepted extents is ever set, and the bitmap is the one that single
    read-modify-writes give. -/
theorem applyAl_batching_exact {o : Options} {cfg : Format} {hot : HotExtents}
    (hd : o.dryRun = false) (hg : GranularityAdmitted cfg.md)
    (hm : 1 ≤ cfg.md.maxPeers.toNat ∧ cfg.md.maxPeers.toNat ≤ DRBD_PEERS_MAX)
    (hsorted : hot.extents.Pairwise (· ≤ ·)) : BatchingExact o cfg hot := by
  obtain ⟨k, hk, hgran, -, -⟩ := hg.sectors
  have hadm := bitsPerExtent_admitted hk hgran
  obtain ⟨h4, h1024, hpow⟩ := hadm
  have hp : BitmapParams (bitsPerExtent cfg.md) cfg.md.maxPeers.toNat :=
    ⟨granularity_cases h4 h1024 hpow, hm.1⟩
  have hlim := chunkLimit_align cfg.bmBytes cfg.mdHardSectSize
  have hok : ∀ c ∈ hotChunks cfg hot, ChunkOk (align cfg.bmBytes 4096) _ _ c :=
    applyAlChunks_ok (by omega) h1024 hm.1 hm.2 hlim hot.extents hsorted
  have hrun : applyAl o cfg hot = (do
      let n ← runChunks o cfg (bitsPerExtent cfg.md) cfg.md.maxPeers.toNat (hotChunks cfg hot) 0
      pure (if hot.listed = [] then none else some n)) := by
    funext w
    rw [applyAl, Run.bind_ok (assert_pos ⟨h4, h1024, hpow⟩ w), Run.bind_ok (assert_pos hm w),
      applyAlLoop_eq_runChunks (by omega) h1024 hm.1 hm.2 hlim hot.extents 0 hsorted]
    rfl
  have hext : (hotChunks cfg hot).flatMap BitmapChunk.extents = acceptedHot cfg hot :=
    applyAlChunks_extents hot.extents
  have hworld := applyAl_world hrun
  have hlisted : ∀ e ∈ acceptedHot cfg hot, e ≠ noExtent ∧
      (enrToBitRange e (bitsPerExtent cfg.md) cfg.md.maxPeers.toNat).onDiskWord32PosE <
        align cfg.bmBytes cfg.mdHardSectSize.val := fun e he => acceptedHot_listed he
  refine ⟨hrun, fun c hc => ⟨(hok c hc).end_le, (hok c hc).len_le⟩, fun w => ?_,
    fun w r w' w'' h h' => ?_, fun harea w => ?_⟩
  · obtain ⟨done, hadds, hsub, -⟩ := @runChunks_adds _ cfg _ _ _ hd hp _ 0 w hok
    rw [(hworld w).1]
    exact hadds.onlyAdds (hext ▸ hsub)
  · obtain ⟨done, hadds, -, hall⟩ := @runChunks_adds _ cfg _ _ _ hd hp _ 0 w hok
    obtain ⟨n, hn⟩ := (hworld w).2 r (by rw [h])
    rw [← (hworld w).1, h, hall n hn, hext] at hadds
    have hsingly := (applyAlSingly_adds hd hp (by omega) h1024 hm.2 hlim
      (acceptedHot cfg hot) w hlisted).1 () (by rw [h'])
    rw [h'] at hsingly
    exact hadds.disk_eq hsingly fun _ => Iff.rfl
  · obtain ⟨n, w', hret⟩ := runChunks_returns hd hp harea _ 0 w hok
    refine ⟨⟨_, w', by rw [hrun, Run.bind_ok hret]; rfl⟩, ?_⟩
    exact (applyAlSingly_adds hd hp (by omega) h1024 hm.2 hlim
      (acceptedHot cfg hot) w hlisted).2 harea

/-- Extents 3 and 4 of a 128 MiB device, in one chunk. -/
def twoExtents : HotExtents where
  extents := 3 :: 4 :: List.replicate 65532 noExtent
  length_eq := by rw [List.length_cons, List.length_cons, List.length_replicate]; rfl
  lt := by
    intro x hx
    rcases List.mem_cons.1 hx with rfl | hx
    · decide
    rcases List.mem_cons.1 hx with rfl | hx
    · decide
    · rw [List.eq_of_mem_replicate hx]; decide

theorem twoExtents_sorted : twoExtents.extents.Pairwise (· ≤ ·) := by
  refine List.pairwise_cons.2 ⟨fun x hx => ?_, List.pairwise_cons.2 ⟨fun x hx => ?_,
    List.pairwise_replicate.2 (.inr (Nat.le_refl _))⟩⟩
  · rcases List.mem_cons.1 hx with rfl | hx
    · omega
    · rw [List.eq_of_mem_replicate hx, noExtent]; omega
  · rw [List.eq_of_mem_replicate hx, noExtent]; omega

theorem applyAl_batching_exact_two : BatchingExact {} format128M twoExtents :=
  applyAl_batching_exact rfl ⟨by decide, by decide, by decide⟩ (by decide) twoExtents_sorted

end DrbdUtils.Meta
