import Mathlib.Tactic

/-!
# Byte memories, block-device runs and torn writes

A small library for programs that do positioned reads and writes on a block device through
one I/O buffer.

* `Mem` — a byte-addressed memory, with `blit` (copy a range), `fill` (memset), the bit view
  `bit` and the little-endian 32-bit view `word32`.
* `World` — the device as found, the writes issued so far (oldest first) and the I/O buffer.
  The device content is *computed* from the log, so the log of a run always explains the
  device it leaves behind.
* `Run` — a computation that may stop early (exit, abort) but keeps the writes done so far.
* `CrashDisk` — what may be on the device when a run is cut: a prefix of its writes, the last
  one having reached the device for an arbitrary set of blocks.

Principal results: `word32_getLsbD` / `bit_orWord32` relate the word and bit views;
`Grows.crash` — if every write of a log stays in a range and clears no bit, so does every cut of
it; `Avoids.crash` — a range the log stays out of survives every cut.
-/

set_option autoImplicit false

namespace BlockDevice

/-! ## Byte memories -/

abbrev Byte := BitVec 8

/-- Byte-addressed memory: a device, or the I/O buffer. -/
abbrev Mem := Nat → Byte

/-- Copy `n` bytes of `src` from `s` on over `dst` at `t`. -/
def blit (src : Mem) (s : Nat) (dst : Mem) (t n : Nat) : Mem :=
  fun a => if t ≤ a ∧ a < t + n then src (s + (a - t)) else dst a

/-- `memset`. -/
def fill (m : Mem) (t n : Nat) (b : Byte) : Mem :=
  fun a => if t ≤ a ∧ a < t + n then b else m a

theorem blit_in {src dst : Mem} {s t n a : Nat} (h1 : t ≤ a) (h2 : a < t + n) :
    blit src s dst t n a = src (s + (a - t)) := if_pos ⟨h1, h2⟩

theorem blit_out {src dst : Mem} {s t n a : Nat} (h : a < t ∨ t + n ≤ a) :
    blit src s dst t n a = dst a := if_neg (by omega)

theorem fill_in {m : Mem} {t n a : Nat} {b : Byte} (h1 : t ≤ a) (h2 : a < t + n) :
    fill m t n b a = b := if_pos ⟨h1, h2⟩

theorem fill_out {m : Mem} {t n a : Nat} {b : Byte} (h : a < t ∨ t + n ≤ a) :
    fill m t n b a = m a := if_neg (by omega)

@[simp] theorem blit_zero (src dst : Mem) (s t : Nat) : blit src s dst t 0 = dst := by
  funext a; exact blit_out (by omega)

/-- Bit `n` of a memory, least significant bit of byte 0 first. -/
def bit (m : Mem) (n : Nat) : Bool := (m (n / 8)).getLsbD (n % 8)

/-- The little-endian 32-bit word at word index `i`. -/
def word32 (m : Mem) (i : Nat) : BitVec 32 :=
  (m (4 * i)).setWidth 32 ||| (m (4 * i + 1)).setWidth 32 <<< 8 |||
    (m (4 * i + 2)).setWidth 32 <<< 16 ||| (m (4 * i + 3)).setWidth 32 <<< 24

/-- Byte `j` of a 32-bit word, least significant first. -/
def byteOf (w : BitVec 32) (j : Nat) : Byte := (w >>> (8 * j)).setWidth 8

/-- Store a little-endian 32-bit word at word index `i`. -/
def setWord32 (m : Mem) (i : Nat) (w : BitVec 32) : Mem :=
  fun a => if a / 4 = i then byteOf w (a % 4) else m a

theorem word32_getLsbD (m : Mem) (i b : Nat) (hb : b < 32) :
    (word32 m i).getLsbD b = bit m (32 * i + b) := by
  have hdiv : (32 * i + b) / 8 = 4 * i + b / 8 := by omega
  have hmod : (32 * i + b) % 8 = b % 8 := by omega
  rw [bit, hdiv, hmod]
  have hq : b / 8 = 0 ∨ b / 8 = 1 ∨ b / 8 = 2 ∨ b / 8 = 3 := by omega
  have hover : ∀ (x : Byte) (k : Nat), 8 ≤ k → x.getLsbD k = false :=
    fun x k hk => BitVec.getLsbD_of_ge x k hk
  simp only [word32, BitVec.getLsbD_or, BitVec.getLsbD_shiftLeft, BitVec.getLsbD_setWidth, hb,
    decide_true, Bool.true_and]
  rcases hq with h | h | h | h
  · have hk : b % 8 = b := by omega
    rw [h, hk]
    simp [show b < 8 by omega, show b < 16 by omega, show b < 24 by omega]
  · have hk : b % 8 = b - 8 := by omega
    rw [h, hk, hover _ b (by omega)]
    simp [show ¬ b < 8 by omega, show b < 16 by omega, show b < 24 by omega]
    omega
  · have hk : b % 8 = b - 16 := by omega
    rw [h, hk, hover _ b (by omega), hover _ (b - 8) (by omega)]
    simp [show ¬ b < 8 by omega, show ¬ b < 16 by omega, show b < 24 by omega]
    omega
  · have hk : b % 8 = b - 24 := by omega
    rw [h, hk, hover _ b (by omega), hover _ (b - 8) (by omega), hover _ (b - 16) (by omega)]
    simp [show ¬ b < 8 by omega, show ¬ b < 16 by omega, show ¬ b < 24 by omega]
    omega

theorem byteOf_getLsbD (w : BitVec 32) (j k : Nat) (hk : k < 8) :
    (byteOf w j).getLsbD k = w.getLsbD (8 * j + k) := by
  simp [byteOf, hk]

theorem word32_congr {m m' : Mem} {i : Nat} (h : ∀ a, a / 4 = i → m a = m' a) :
    word32 m i = word32 m' i := by
  unfold word32
  rw [h (4 * i) (by omega), h (4 * i + 1) (by omega), h (4 * i + 2) (by omega),
    h (4 * i + 3) (by omega)]

@[simp] theorem word32_setWord32_same (m : Mem) (i : Nat) (w : BitVec 32) :
    word32 (setWord32 m i w) i = w := by
  apply BitVec.eq_of_getLsbD_eq
  intro b hb
  rw [word32_getLsbD _ _ _ hb, bit, setWord32, if_pos (by omega),
    byteOf_getLsbD _ _ _ (Nat.mod_lt _ (by omega))]
  congr 1
  omega

theorem word32_setWord32_ne (m : Mem) {i j : Nat} (w : BitVec 32) (h : j ≠ i) :
    word32 (setWord32 m i w) j = word32 m j :=
  word32_congr fun a ha => if_neg (by omega)

theorem word32_fill_zero {m : Mem} {t n q : Nat} (h1 : t ≤ 4 * q) (h2 : 4 * q + 4 ≤ t + n) :
    word32 (fill m t n 0) q = 0 := by
  have hz : word32 (fun _ => 0) q = 0 := by simp [word32]
  rw [← hz]
  exact word32_congr fun a ha => fill_in (by omega) (by omega)

theorem word32_fill_below {m : Mem} {t n q : Nat} {b : Byte} (h : 4 * q + 4 ≤ t) :
    word32 (fill m t n b) q = word32 m q :=
  word32_congr fun a ha => fill_out (by omega)

/-- A word of the area at `t` that a copy to `t` has covered. -/
theorem word32_blit_in {src dst : Mem} {t n q : Nat} (h : 4 * q + 4 ≤ n) :
    word32 (fun a => blit src 0 dst t n (t + a)) q = word32 src q :=
  word32_congr fun a ha => by
    rw [blit_in (by omega) (by omega)]
    congr 1
    omega

/-- A word of the area at `t` behind a copy to `t`. -/
theorem word32_blit_behind {src dst : Mem} {t n q : Nat} (h : n ≤ 4 * q) :
    word32 (fun a => blit src 0 dst t n (t + a)) q = word32 (fun a => dst (t + a)) q :=
  word32_congr fun a ha => blit_out (by omega)

/-- Or-ing a word into a memory is or-ing its bits. -/
theorem bit_orWord32 (m : Mem) (i : Nat) (w : BitVec 32) (n : Nat) :
    bit (setWord32 m i (word32 m i ||| w)) n =
      (bit m n || (decide (n / 32 = i) && w.getLsbD (n % 32))) := by
  rw [bit, setWord32]
  by_cases h : n / 8 / 4 = i
  · have hi : n / 32 = i := by omega
    have hn : 32 * i + n % 32 = n := by omega
    rw [if_pos h, byteOf_getLsbD _ _ _ (Nat.mod_lt _ (by omega)),
      show 8 * (n / 8 % 4) + n % 8 = n % 32 by omega, BitVec.getLsbD_or,
      word32_getLsbD _ _ _ (Nat.mod_lt _ (by omega)), hn]
    simp [hi]
  · have hi : ¬ n / 32 = i := by omega
    rw [if_neg h]
    simp [hi, bit]

theorem bit_fill_ones (m : Mem) (t k n : Nat) :
    bit (fill m t k (BitVec.allOnes 8)) n = (bit m n || decide (t ≤ n / 8 ∧ n / 8 < t + k)) := by
  rw [bit]
  by_cases h : t ≤ n / 8 ∧ n / 8 < t + k
  · rw [fill_in h.1 h.2, BitVec.getLsbD_allOnes]
    simp [h, Nat.mod_lt]
  · rw [fill_out (by omega)]
    simp only [h, decide_false, Bool.or_false]
    rfl

/-! ## Big-endian fields -/

/-- The big-endian number in `n` bytes at `off`. -/
def be (m : Mem) (off : Nat) : Nat → Nat
  | 0 => 0
  | n + 1 => be m off n * 256 + (m (off + n)).toNat

/-- Store a number big-endian in `n` bytes at `off`. -/
def setBe (m : Mem) (off n v : Nat) : Mem :=
  fun a => if off ≤ a ∧ a < off + n then BitVec.ofNat 8 (v / 256 ^ (off + n - 1 - a)) else m a

theorem be_congr {m m' : Mem} {off : Nat} : ∀ n : Nat,
    (∀ a, off ≤ a → a < off + n → m a = m' a) → be m off n = be m' off n
  | 0, _ => rfl
  | n + 1, h => by
    rw [be, be, be_congr n fun a h1 h2 => h a h1 (by omega), h (off + n) (by omega) (by omega)]

theorem be_setBe_ne {m : Mem} {off n off' n' v : Nat} (h : off + n ≤ off' ∨ off' + n' ≤ off) :
    be (setBe m off' n' v) off n = be m off n :=
  be_congr n fun _ _ _ => if_neg (by omega)

theorem be_setBe_same (m : Mem) (off n v : Nat) : be (setBe m off n v) off n = v % 256 ^ n := by
  have hpart : ∀ k ≤ n, be (setBe m off n v) off k = v / 256 ^ (n - k) % 256 ^ k := by
    intro k
    induction k with
    | zero => intro _; rw [be, Nat.pow_zero, Nat.mod_one]
    | succ k ih =>
      intro hk
      rw [be, ih (by omega), setBe, if_pos (by omega), BitVec.toNat_ofNat,
        show off + n - 1 - (off + k) = n - (k + 1) by omega,
        show n - k = n - (k + 1) + 1 by omega, Nat.pow_succ 256 (n - (k + 1)),
        ← Nat.div_div_eq_div_mul]
      generalize v / 256 ^ (n - (k + 1)) = x
      rw [Nat.pow_succ 256 k, Nat.mul_comm (256 ^ k) 256, Nat.mod_mul]
      omega
  rw [hpart n (Nat.le_refl n), Nat.sub_self, Nat.pow_zero, Nat.div_one]

/-! ## Writes and the device they leave -/

/-- One positioned write: `len` bytes of `data` at byte offset `off`. -/
structure Write where
  off : Nat
  len : Nat
  data : Mem

def Write.apply (x : Write) (m : Mem) : Mem := blit x.data 0 m x.off x.len

/-- A write that reached the device only for the blocks (of size `blk`) selected by `keep`. -/
def Write.applyTorn (x : Write) (blk : Nat) (keep : Nat → Bool) (m : Mem) : Mem :=
  fun a => if keep (a / blk) then x.apply m a else m a

def applyAll (l : List Write) (m : Mem) : Mem := l.foldl (fun m x => x.apply m) m

@[simp] theorem applyAll_nil (m : Mem) : applyAll [] m = m := rfl

@[simp] theorem applyAll_cons (x : Write) (l : List Write) (m : Mem) :
    applyAll (x :: l) m = applyAll l (x.apply m) := rfl

theorem applyAll_append (l l' : List Write) (m : Mem) :
    applyAll (l ++ l') m = applyAll l' (applyAll l m) := List.foldl_append

/-- The device as found, the writes issued since, and the I/O buffer. -/
structure World where
  base : Mem
  log : List Write
  buf : Mem

/-- The device content. -/
def World.disk (w : World) : Mem := applyAll w.log w.base

def World.init (disk buf : Mem) : World := ⟨disk, [], buf⟩

@[simp] theorem World.init_disk (disk buf : Mem) : (World.init disk buf).disk = disk := rfl
@[simp] theorem World.init_buf (disk buf : Mem) : (World.init disk buf).buf = buf := rfl

/-- Positioned read of `n` bytes into the start of the buffer. -/
def World.read (w : World) (n off : Nat) : World := { w with buf := blit w.disk off w.buf 0 n }

/-- Positioned write of the first `n` bytes of the buffer. -/
def World.write (w : World) (n off : Nat) : World := { w with log := w.log ++ [⟨off, n, w.buf⟩] }

/-- Change the buffer only. -/
def World.mapBuf (w : World) (f : Mem → Mem) : World := { w with buf := f w.buf }

@[simp] theorem World.read_disk (w : World) (n off : Nat) : (w.read n off).disk = w.disk := rfl
@[simp] theorem World.read_log (w : World) (n off : Nat) : (w.read n off).log = w.log := rfl
@[simp] theorem World.read_base (w : World) (n off : Nat) : (w.read n off).base = w.base := rfl
@[simp] theorem World.read_buf (w : World) (n off : Nat) :
    (w.read n off).buf = blit w.disk off w.buf 0 n := rfl
@[simp] theorem World.write_buf (w : World) (n off : Nat) : (w.write n off).buf = w.buf := rfl
@[simp] theorem World.write_base (w : World) (n off : Nat) : (w.write n off).base = w.base := rfl
@[simp] theorem World.write_log (w : World) (n off : Nat) :
    (w.write n off).log = w.log ++ [⟨off, n, w.buf⟩] := rfl
@[simp] theorem World.mapBuf_disk (w : World) (f : Mem → Mem) : (w.mapBuf f).disk = w.disk := rfl
@[simp] theorem World.mapBuf_log (w : World) (f : Mem → Mem) : (w.mapBuf f).log = w.log := rfl
@[simp] theorem World.mapBuf_base (w : World) (f : Mem → Mem) : (w.mapBuf f).base = w.base := rfl
@[simp] theorem World.mapBuf_buf (w : World) (f : Mem → Mem) : (w.mapBuf f).buf = f w.buf := rfl

@[simp] theorem World.write_disk (w : World) (n off : Nat) :
    (w.write n off).disk = blit w.buf 0 w.disk off n := by
  simp [World.disk, World.write, applyAll_append, Write.apply]

/-! ## Runs -/

/-- A computation on a `World` that either returns or stops early with an `S`; the writes
    done before the stop stay done. -/
def Run (S α : Type) := World → Except S α × World

namespace Run

variable {S α β : Type}

def ret (a : α) : Run S α := fun w => (.ok a, w)

def stop (s : S) : Run S α := fun w => (.error s, w)

def andThen (m : Run S α) (f : α → Run S β) : Run S β := fun w =>
  match m w with
  | (.ok a, w') => f a w'
  | (.error s, w') => (.error s, w')

instance : Monad (Run S) where
  pure := ret
  bind := andThen

/-- Look at the I/O buffer. -/
def getBuf : Run S Mem := fun w => (.ok w.buf, w)

/-- Change the I/O buffer. -/
def modifyBuf (f : Mem → Mem) : Run S Unit := fun w => (.ok (), w.mapBuf f)

/-- Read `n` bytes at `off` into the buffer. -/
def read (n off : Nat) : Run S Unit := fun w => (.ok (), w.read n off)

/-- Write the first `n` bytes of the buffer at `off`. -/
def write (n off : Nat) : Run S Unit := fun w => (.ok (), w.write n off)

theorem pure_apply (a : α) (w : World) : (pure a : Run S α) w = (.ok a, w) := rfl

theorem stop_apply (s : S) (w : World) : (stop s : Run S α) w = (.error s, w) := rfl

theorem modifyBuf_apply (f : Mem → Mem) (w : World) :
    (modifyBuf f : Run S Unit) w = (.ok (), w.mapBuf f) := rfl

theorem read_apply (n off : Nat) (w : World) :
    (read n off : Run S Unit) w = (.ok (), w.read n off) := rfl

theorem write_apply (n off : Nat) (w : World) :
    (write n off : Run S Unit) w = (.ok (), w.write n off) := rfl

theorem getBuf_apply (w : World) : (getBuf : Run S Mem) w = (.ok w.buf, w) := rfl

theorem bind_ok {m : Run S α} {f : α → Run S β} {w w' : World} {a : α}
    (h : m w = (.ok a, w')) : (m >>= f) w = f a w' := by
  show andThen m f w = _
  rw [andThen, h]

theorem bind_error {m : Run S α} {f : α → Run S β} {w w' : World} {s : S}
    (h : m w = (.error s, w')) : (m >>= f) w = (.error s, w') := by
  show andThen m f w = _
  rw [andThen, h]

/-- Peel a bind that returned. -/
theorem of_bind_ok {m : Run S α} {f : α → Run S β} {w w'' : World} {b : β}
    (h : (m >>= f) w = (.ok b, w'')) : ∃ a w', m w = (.ok a, w') ∧ f a w' = (.ok b, w'') := by
  change andThen m f w = _ at h
  unfold andThen at h
  split at h
  · rename_i a w' hm; exact ⟨a, w', hm, h⟩
  · cases h

/-- Peel a bind that stopped: before the continuation, or in it. -/
theorem of_bind_error {m : Run S α} {f : α → Run S β} {w w'' : World} {s : S}
    (h : (m >>= f) w = (.error s, w'')) :
    m w = (.error s, w'') ∨ ∃ a w', m w = (.ok a, w') ∧ f a w' = (.error s, w'') := by
  rcases hm : m w with ⟨r, w'⟩
  cases r with
  | ok a =>
    rw [bind_ok hm] at h
    exact Or.inr ⟨a, w', rfl, h⟩
  | error s' =>
    rw [bind_error hm] at h
    cases h
    exact Or.inl rfl

/-- Continuations that leave the same world, whatever they return. -/
theorem bind_world {γ : Type} {m : Run S α} {f : α → Run S β} {g : α → Run S γ}
    (h : ∀ a w, (f a w).2 = (g a w).2) (w : World) : ((m >>= f) w).2 = ((m >>= g) w).2 := by
  rcases hres : m w with ⟨r, w'⟩
  cases r with
  | ok a => rw [bind_ok hres, bind_ok hres, h a w']
  | error s => rw [bind_error hres, bind_error hres]

theorem bind_pure_world (m : Run S α) (f : α → β) (w : World) :
    ((m >>= fun a => (pure (f a) : Run S β)) w).2 = (m w).2 := by
  rcases hres : m w with ⟨r, w'⟩
  cases r with
  | ok a => exact congrArg Prod.snd (bind_ok hres)
  | error s => exact congrArg Prod.snd (bind_error hres)

end Run

/-! ## Crashes -/

/-- What may be on the device when a run with write log `log` is cut: the writes before some
    point, and that point's write for an arbitrary set of blocks of size `blk`. -/
def CrashDisk (blk : Nat) (base : Mem) (log : List Write) (d : Mem) : Prop :=
  d = applyAll log base ∨
    ∃ pre x post keep, log = pre ++ x :: post ∧ d = x.applyTorn blk keep (applyAll pre base)

theorem crashDisk_nil {blk : Nat} {m d : Mem} (h : CrashDisk blk m [] d) : d = m := by
  rcases h with h | ⟨pre, x, post, keep, hl, _⟩
  · exact h
  · simp at hl

/-- A cut happens in the first write, or later. -/
theorem crashDisk_cons {blk : Nat} {m d : Mem} {x : Write} {l : List Write}
    (h : CrashDisk blk m (x :: l) d) :
    (∃ keep, d = x.applyTorn blk keep m) ∨ CrashDisk blk (x.apply m) l d := by
  rcases h with h | ⟨pre, y, post, keep, hl, h⟩
  · exact .inr (.inl h)
  · cases pre with
    | nil =>
      obtain ⟨rfl, rfl⟩ := List.cons.inj hl
      exact .inl ⟨keep, h⟩
    | cons z pre =>
      obtain ⟨rfl, rfl⟩ := List.cons.inj hl
      exact .inr (.inr ⟨pre, y, post, keep, rfl, h⟩)

/-- A cut happens in the first part of a log, or in the second. -/
theorem crashDisk_append {blk : Nat} {d : Mem} : ∀ {l l' : List Write} {m : Mem},
    CrashDisk blk m (l ++ l') d → CrashDisk blk m l d ∨ CrashDisk blk (applyAll l m) l' d
  | [], _, _, h => .inr h
  | x :: l, l', m, h => by
    rcases crashDisk_cons h with ⟨keep, rfl⟩ | h
    · exact .inl (.inr ⟨[], x, l, keep, rfl, rfl⟩)
    · rcases crashDisk_append h with hl | hl'
      · rcases hl with rfl | ⟨pre, y, post, keep, rfl, rfl⟩
        · exact .inl (.inl rfl)
        · exact .inl (.inr ⟨x :: pre, y, post, keep, rfl, rfl⟩)
      · exact .inr hl'

/-- A byte of a torn write is the old or the new one. -/
theorem applyTorn_cases (x : Write) (blk : Nat) (keep : Nat → Bool) (m : Mem) (a : Nat) :
    x.applyTorn blk keep m a = m a ∨ x.applyTorn blk keep m a = x.apply m a := by
  unfold Write.applyTorn
  split
  · exact .inr rfl
  · exact .inl rfl

theorem Write.apply_out {x : Write} {m : Mem} {a : Nat} (h : a < x.off ∨ x.off + x.len ≤ a) :
    x.apply m a = m a := blit_out h

/-- `m'` has all bits of `m`. -/
def BitsLe (m m' : Mem) : Prop := ∀ n, bit m n = true → bit m' n = true

theorem BitsLe.refl (m : Mem) : BitsLe m m := fun _ h => h

theorem BitsLe.trans {m m' m'' : Mem} (h : BitsLe m m') (h' : BitsLe m' m'') : BitsLe m m'' :=
  fun n hn => h' n (h n hn)

/-- A log whose writes lie in `[lo, hi)` and never clear a bit. -/
def Grows (lo hi : Nat) : Mem → List Write → Prop
  | _, [] => True
  | m, x :: l => (lo ≤ x.off ∧ x.off + x.len ≤ hi ∧ BitsLe m (x.apply m)) ∧ Grows lo hi (x.apply m) l

theorem Grows.append {lo hi : Nat} : ∀ {l l' : List Write} {m : Mem},
    Grows lo hi m l → Grows lo hi (applyAll l m) l' → Grows lo hi m (l ++ l')
  | [], _, _, _, h' => h'
  | _ :: _, _, _, h, h' => ⟨h.1, Grows.append h.2 h'⟩

/-- A growing log applied as a whole. -/
theorem Grows.disk {lo hi : Nat} : ∀ {l : List Write} {m : Mem}, Grows lo hi m l →
    (∀ a, a < lo ∨ hi ≤ a → applyAll l m a = m a) ∧ BitsLe m (applyAll l m)
  | [], m, _ => ⟨fun _ _ => rfl, .refl m⟩
  | x :: l, m, h => by
    obtain ⟨⟨hlo, hhi, hle⟩, hg⟩ := h
    obtain ⟨hout, hbits⟩ := Grows.disk hg
    refine ⟨fun a ha => ?_, hle.trans hbits⟩
    rw [applyAll_cons, hout a ha, x.apply_out (by omega)]

/-- **Cutting a growing log**: nothing outside `[lo, hi)` changed, and no bit was cleared. -/
theorem Grows.crash {lo hi blk : Nat} {d : Mem} : ∀ {l : List Write} {m : Mem},
    Grows lo hi m l → CrashDisk blk m l d →
      (∀ a, a < lo ∨ hi ≤ a → d a = m a) ∧ BitsLe m d
  | [], m, _, h => by
    rw [crashDisk_nil h]
    exact ⟨fun _ _ => rfl, .refl m⟩
  | x :: l, m, hg, h => by
    obtain ⟨⟨hlo, hhi, hle⟩, hg'⟩ := hg
    have hout : ∀ a, a < lo ∨ hi ≤ a → x.apply m a = m a := fun a ha => x.apply_out (by omega)
    rcases crashDisk_cons h with ⟨keep, rfl⟩ | h
    · refine ⟨fun a ha => ?_, fun n hn => ?_⟩
      · rcases applyTorn_cases x blk keep m a with he | he
        · exact he
        · rw [he, hout a ha]
      · have := hle n hn
        unfold bit at hn this ⊢
        rcases applyTorn_cases x blk keep m (n / 8) with he | he
        · rwa [he]
        · rwa [he]
    · obtain ⟨h1, h2⟩ := Grows.crash hg' h
      exact ⟨fun a ha => by rw [h1 a ha, hout a ha], hle.trans h2⟩

/-- A log whose writes stay out of `[lo, hi)`. -/
def Avoids (lo hi : Nat) (l : List Write) : Prop := ∀ x ∈ l, x.off + x.len ≤ lo ∨ hi ≤ x.off

theorem Avoids.crash {lo hi blk : Nat} {d : Mem} : ∀ {l : List Write} {m : Mem},
    Avoids lo hi l → CrashDisk blk m l d → ∀ a, lo ≤ a → a < hi → d a = m a
  | [], m, _, h, a, _, _ => by rw [crashDisk_nil h]
  | x :: l, m, hv, h, a, h1, h2 => by
    have hx := hv x (List.mem_cons_self ..)
    have hout : x.apply m a = m a := x.apply_out (by omega)
    rcases crashDisk_cons h with ⟨keep, rfl⟩ | h
    · rcases applyTorn_cases x blk keep m a with he | he
      · exact he
      · rw [he, hout]
    · rw [Avoids.crash (fun y hy => hv y (List.mem_cons_of_mem _ hy)) h a h1 h2, hout]

/-- A run only ever appends to the log. -/
structure World.Extends (w w' : World) (l : List Write) : Prop where
  log : w'.log = w.log ++ l
  base : w'.base = w.base

theorem World.Extends.disk {w w' : World} {l : List Write} (h : w.Extends w' l) :
    w'.disk = applyAll l w.disk := by
  rw [World.disk, h.log, h.base, applyAll_append]
  rfl

theorem World.Extends.refl (w : World) : w.Extends w [] := ⟨(List.append_nil _).symm, rfl⟩

theorem World.Extends.trans {w w' w'' : World} {l l' : List Write} (h : w.Extends w' l)
    (h' : w'.Extends w'' l') : w.Extends w'' (l ++ l') :=
  ⟨by rw [h'.log, h.log, List.append_assoc], h'.base.trans h.base⟩

/-- A computation that writes nothing, however it ends. -/
def Run.Silent {S α : Type} (m : Run S α) : Prop := ∀ w : World, w.Extends (m w).2 []

theorem Run.Silent.disk_eq {S α : Type} {m : Run S α} (h : m.Silent) {w w' : World}
    {r : Except S α} (hrun : m w = (r, w')) : w'.disk = w.disk := by
  have hext := h w
  rw [hrun] at hext
  exact hext.disk

theorem Run.silent_pure {S α : Type} (a : α) : (pure a : Run S α).Silent := fun w => .refl w

theorem Run.silent_stop {S α : Type} (s : S) : (stop s : Run S α).Silent := fun w => .refl w

theorem Run.silent_read {S : Type} (n off : Nat) : (read n off : Run S Unit).Silent :=
  fun _ => ⟨(List.append_nil _).symm, rfl⟩

theorem Run.silent_getBuf {S : Type} : (getBuf : Run S Mem).Silent := fun w => .refl w

theorem Run.Silent.bind {S α β : Type} {m : Run S α} {f : α → Run S β} (hm : m.Silent)
    (hf : ∀ a, (f a).Silent) : (m >>= f).Silent := by
  intro w
  have h := hm w
  generalize hres : m w = res at h
  obtain ⟨res, w'⟩ := res
  cases res with
  | ok a =>
    rw [bind_ok hres]
    exact h.trans (hf a w')
  | error s =>
    rw [bind_error hres]
    exact h

theorem Run.Silent.ite {S α : Type} {p : Prop} [Decidable p] {m m' : Run S α} (h : m.Silent)
    (h' : m'.Silent) : (if p then m else m').Silent := by
  split
  · exact h
  · exact h'

theorem Run.silent_modifyBuf {S : Type} (f : Mem → Mem) : (modifyBuf f : Run S Unit).Silent :=
  fun _ => ⟨(List.append_nil _).symm, rfl⟩

/-! ## Runs that leave the device as it was -/

section Keeps

variable {S α β : Type}

/-- A run that leaves the device as it was, whatever it wrote. -/
def Run.Keeps (m : Run S α) (w : World) : Prop := (m w).2.disk = w.disk

theorem Run.Silent.keeps {m : Run S α} (h : m.Silent) (w : World) : m.Keeps w := (h w).disk

theorem Run.keeps_bind {m : Run S α} {f : α → Run S β} {w : World} (hm : m.Silent) :
    (m >>= f).Keeps w ↔ ∀ a w', m w = (.ok a, w') → (f a).Keeps w' := by
  have hkeep := hm.keeps w
  rcases hres : m w with ⟨r, w'⟩
  unfold Run.Keeps at hkeep ⊢
  rw [hres] at hkeep
  cases r with
  | ok a =>
    rw [bind_ok hres]
    refine ⟨fun h b w'' hb => ?_, fun h => (h a w' rfl).trans hkeep⟩
    cases hb
    exact h.trans hkeep.symm
  | error s =>
    rw [bind_error hres]
    exact iff_of_true hkeep fun a w'' h => by cases h

theorem Run.keeps_bind_left {m : Run S α} {f : α → Run S β} {w : World}
    (hf : ∀ a, (f a).Silent) : (m >>= f).Keeps w ↔ m.Keeps w := by
  rcases hres : m w with ⟨r, w'⟩
  unfold Run.Keeps
  rw [hres]
  cases r with
  | ok a => rw [bind_ok hres, show (f a w').2.disk = w'.disk from (hf a).keeps w']
  | error s => rw [bind_error hres]

/-- `P` holds wherever a run that is cut at some point gets there. -/
def Run.Reaches (m : Run S (Option α)) (w : World) (P : α → World → Prop) : Prop :=
  ∀ a w', m w = (.ok (some a), w') → P a w'

theorem Run.reaches_bind {m : Run S β} {f : β → Run S (Option α)} {w : World}
    {P : α → World → Prop} :
    (m >>= f).Reaches w P ↔ ∀ b w', m w = (.ok b, w') → (f b).Reaches w' P := by
  constructor
  · intro h b w' hm a w'' hf
    exact h a w'' ((bind_ok hm).trans hf)
  · intro h a w'' hbind
    obtain ⟨b, w', hm, hf⟩ := of_bind_ok hbind
    exact h b w' hm a w'' hf

theorem Run.reaches_some {a : α} {w : World} {P : α → World → Prop} :
    (pure (some a) : Run S (Option α)).Reaches w P ↔ P a w :=
  ⟨fun h => h a w rfl, fun h b w' hb => by cases hb; exact h⟩

theorem Run.reaches_none {w : World} {P : α → World → Prop} :
    (pure none : Run S (Option α)).Reaches w P := fun a w' h => by cases h

theorem Run.reaches_stop {s : S} {w : World} {P : α → World → Prop} :
    (stop s : Run S (Option α)).Reaches w P := fun a w' h => by cases h

end Keeps

end BlockDevice
