import DrbdUtils.Lib.BlockDevice

/-!
# Moving a range in chunks peeled off from its end

A range of a device is moved through a buffer of `B` bytes: the chunks at the end of the range
go first, what remains at its start goes last.  Source and destination may overlap.

* `peelMove_up` — towards higher addresses the move is exact.
* `peelMove_down` — towards lower addresses, by `s` bytes, the last `s` bytes before every chunk
  boundary are overwritten before they are read; `peelMove_down_exact_iff` says when that does
  no harm.
-/

set_option autoImplicit false

namespace BlockDevice

/-- Read `n` bytes at `src` and write them at `dst`. -/
def copyWithin (m : Mem) (src dst n : Nat) : Mem := blit m src m dst n

/-- Copying through the I/O buffer. -/
theorem World.read_write_disk (w : World) (n src dst : Nat) :
    ((w.read n src).write n dst).disk = copyWithin w.disk src dst n := by
  funext a
  rw [World.write_disk, World.read_disk, World.read_buf, copyWithin]
  by_cases ha : dst ≤ a ∧ a < dst + n
  · rw [blit_in ha.1 ha.2, blit_in ha.1 ha.2, blit_in (by omega) (by omega)]
    congr 1
    omega
  · rw [blit_out (by omega), blit_out (by omega)]

/-- Move `rest + n * B` bytes from `src` to `dst`: `n` chunks of `B` bytes from the end, then the
    first `rest` bytes. -/
def peelMove (B src dst rest : Nat) : Nat → Mem → Mem
  | 0, m => copyWithin m src dst rest
  | n + 1, m =>
    peelMove B src dst rest n (copyWithin m (src + (rest + n * B)) (dst + (rest + n * B)) B)

/-- Nothing outside the destination changes. -/
theorem peelMove_out {B src dst rest a : Nat} : ∀ (n : Nat) (m : Mem),
    a < dst ∨ dst + (rest + n * B) ≤ a → peelMove B src dst rest n m a = m a
  | 0, m, h => blit_out (by omega)
  | n + 1, m, h => by
    rw [Nat.add_mul] at h
    rw [peelMove, peelMove_out n _ (by omega), copyWithin, blit_out (by omega)]

/-- **Moving up is exact.** -/
theorem peelMove_up {B src dst rest : Nat} (hup : src ≤ dst) : ∀ (n : Nat) (m : Mem) (k : Nat),
    k < rest + n * B → peelMove B src dst rest n m (dst + k) = m (src + k)
  | 0, m, k, hk => by
    rw [peelMove, copyWithin, blit_in (by omega) (by omega)]
    congr 1
    omega
  | n + 1, m, k, hk => by
    rw [Nat.add_mul] at hk
    rw [peelMove]
    by_cases hlt : k < rest + n * B
    · rw [peelMove_up hup n _ k hlt, copyWithin, blit_out (by omega)]
    · rw [peelMove_out n _ (by omega), copyWithin, blit_in (by omega) (by omega)]
      congr 1
      omega

/-- Offset `k` lies in the last `s` bytes before one of the boundaries `rest + j * B`, `j < n`. -/
def BeforeBoundary (B rest s n k : Nat) : Prop :=
  ∃ j < n, k < rest + j * B ∧ rest + j * B ≤ k + s

theorem beforeBoundary_succ {B rest s n k : Nat} :
    BeforeBoundary B rest s (n + 1) k ↔
      BeforeBoundary B rest s n k ∨ (k < rest + n * B ∧ rest + n * B ≤ k + s) := by
  constructor
  · rintro ⟨j, hj, h⟩
    rcases Nat.lt_succ_iff_lt_or_eq.1 hj with hlt | rfl
    · exact .inl ⟨j, hlt, h⟩
    · exact .inr h
  · rintro (⟨j, hj, h⟩ | h)
    · exact ⟨j, by omega, h⟩
    · exact ⟨n, by omega, h⟩

theorem BeforeBoundary.add_lt {B rest s n k : Nat} (h : BeforeBoundary B rest s n k) :
    k + B < rest + n * B := by
  obtain ⟨j, hj, hk, _⟩ := h
  have := Nat.mul_le_mul_right B (show j + 1 ≤ n by omega)
  rw [Nat.add_mul] at this
  omega

/-- **Moving down by `s`**: before a boundary, a byte takes the value of the byte `s` further on;
    everywhere else the move is exact. -/
theorem peelMove_down {B src dst rest s : Nat} (hs : dst + s = src) (hB : 2 * s ≤ B) :
    ∀ (n : Nat) (m : Mem) (k : Nat), k < rest + n * B →
      (BeforeBoundary B rest s n k → peelMove B src dst rest n m (dst + k) = m (src + k + s)) ∧
      (¬ BeforeBoundary B rest s n k → peelMove B src dst rest n m (dst + k) = m (src + k))
  | 0, m, k, hk => by
    refine ⟨fun h => ?_, fun _ => ?_⟩
    · obtain ⟨j, hj, _⟩ := h
      omega
    · rw [peelMove, copyWithin, blit_in (by omega) (by omega)]
      congr 1
      omega
  | n + 1, m, k, hk => by
    rw [Nat.add_mul] at hk
    rw [peelMove, beforeBoundary_succ]
    by_cases hlt : k < rest + n * B
    · obtain ⟨hin, hout⟩ := peelMove_down hs hB n
        (copyWithin m (src + (rest + n * B)) (dst + (rest + n * B)) B) k hlt
      by_cases hb : BeforeBoundary B rest s n k
      · -- an earlier boundary: the byte it takes is not near the topmost one
        have hadd := hb.add_lt
        refine ⟨fun _ => ?_, fun h => absurd (.inl hb) h⟩
        rw [hin hb, copyWithin, blit_out (by omega)]
      · rw [hout hb]
        refine ⟨fun h => ?_, fun h => ?_⟩
        · rcases h with h | ⟨_, h⟩
          · exact absurd h hb
          · rw [copyWithin, blit_in (by omega) (by omega)]
            congr 1
            omega
        · have : ¬ (rest + n * B ≤ k + s) := fun hc => h (.inr ⟨hlt, hc⟩)
          rw [copyWithin, blit_out (by omega)]
    · -- the topmost chunk, read before anything was written
      refine ⟨fun h => ?_, fun _ => ?_⟩
      · rcases h with h | ⟨h, _⟩
        · have := h.add_lt; omega
        · omega
      · rw [peelMove_out n _ (by omega), copyWithin, blit_in (by omega) (by omega)]
        congr 1
        omega

/-- Moving down is exact precisely if the `s` bytes on either side of every boundary agree. -/
theorem peelMove_down_exact_iff {B src dst rest s n : Nat} (hs : dst + s = src) (hB : 2 * s ≤ B)
    (hrest : s ≤ rest) (m : Mem) :
    (∀ k < rest + n * B, peelMove B src dst rest n m (dst + k) = m (src + k)) ↔
      ∀ j < n, ∀ t < s, m (src + (rest + j * B) + t) = m (src + (rest + j * B) - s + t) := by
  constructor
  · intro h j hj t ht
    have hle := Nat.mul_le_mul_right B (show j + 1 ≤ n by omega)
    rw [Nat.add_mul] at hle
    have hb : BeforeBoundary B rest s n (rest + j * B - s + t) := ⟨j, hj, by omega, by omega⟩
    have h1 := h (rest + j * B - s + t) (by omega)
    rw [(peelMove_down hs hB n m _ (by omega)).1 hb] at h1
    rw [show src + (rest + j * B) + t = src + (rest + j * B - s + t) + s by omega, h1]
    congr 1
    omega
  · intro h k hk
    by_cases hb : BeforeBoundary B rest s n k
    · rw [(peelMove_down hs hB n m k hk).1 hb]
      obtain ⟨j, hj, h1, h2⟩ := hb
      have := h j hj (k + s - (rest + j * B)) (by omega)
      rw [show src + (rest + j * B) + (k + s - (rest + j * B)) = src + k + s by omega] at this
      rw [this]
      congr 1
      omega
    · exact (peelMove_down hs hB n m k hk).2 hb

end BlockDevice
