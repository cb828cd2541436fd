import DrbdUtils.Meta.Commands

/-!
# The last known device, written and read

`lk_bdev_save()` writes the size, a tab, the name of the device and a newline, and the uuid in a
second line if it has one.  `lk_bdev_load()` reads the name with `%ms`, which ends at white space.

* `lkBdev_roundTrip_iff` — what is read again as it was.
-/

set_option autoImplicit false

namespace DrbdUtils.Meta

open Numerals

/-- **What is saved is what is loaded.** -/
def LkRoundTrip (bdSize bdUuid : BitVec 64) (bdName : List Char) : Prop :=
  lkBdevLoad (some (lkBdevSave bdSize.toNat bdUuid bdName)) =
    some { bdSize := bdSize.toNat, bdUuid, bdName := some bdName }

section RoundTrip

variable {bdSize : Nat} {bdUuid : BitVec 64} {bdName rest : List Char}

/-- A name is read up to the first white space. -/
theorem scanName_eq (hname : ∀ c ∈ bdName, isSpace c = false) (hne : bdName ≠ [])
    (hrest : ∀ c ∈ rest.head?, isSpace c = true) :
    ((('\t' :: (bdName ++ rest)).dropWhile isSpace) = bdName ++ rest) ∧
      scanName ('\t' :: (bdName ++ rest)) = bdName := by
  have hdrop : ('\t' :: (bdName ++ rest)).dropWhile isSpace = bdName ++ rest := by
    obtain ⟨c, name, rfl⟩ := List.exists_cons_of_ne_nil hne
    rw [List.dropWhile_cons_of_pos (by decide), List.cons_append,
      List.dropWhile_cons_of_neg (by simp [hname c List.mem_cons_self])]
  refine ⟨hdrop, ?_⟩
  rw [scanName, hdrop, takeWhile_append_of_head fun c hc => by simp [hrest c hc]]
  exact List.takeWhile_eq_self_iff.2 fun c hc => by simp [hname c hc]

/-- The size is read, and what is behind it is left. -/
theorem strtoul_size (h : bdSize < 2 ^ 64) (rest : List Char) :
    strtoul 10 (decText bdSize ++ '\t' :: rest) = (bdSize, '\t' :: rest, false) := by
  rw [strtoul_plain_append (plain_decText _) (by decide) (by simp; decide)
    (by rwa [ofDigits_decText]), ofDigits_decText]

theorem scanUuid_hex (rest : List Char) :
    scanUuid ('\n' :: 'u' :: 'u' :: 'i' :: 'd' :: ':' :: rest) =
      if (strtoul 16 (rest.dropWhile isSpace)).2.1 = rest.dropWhile isSpace then none
      else some (BitVec.ofNat 64 (strtoul 16 (rest.dropWhile isSpace)).1) := rfl

/-- The second line is read. -/
theorem scanUuid_line (bdUuid : BitVec 64) :
    scanUuid ('\n' :: ("uuid:\t".toList ++ uuidText bdUuid ++ ['\n'])) = some bdUuid := by
  have hplain := plain_hexText (by decide : (16 : Nat) ≠ 0) bdUuid.toNat
  have hvalue : ofDigits 16 (hexText 16 bdUuid.toNat) = bdUuid.toNat := by
    rw [ofDigits_hexText]
    exact Nat.mod_eq_of_lt bdUuid.isLt
  have hread : strtoul 16 (uuidText bdUuid ++ ['\n']) = (bdUuid.toNat, ['\n'], false) := by
    rw [uuidText, strtoul_plain_append hplain (by decide) (by simp; decide)
      (by rw [hvalue]; exact bdUuid.isLt), hvalue]
  have hspace : ('\t' :: (uuidText bdUuid ++ ['\n'])).dropWhile isSpace = uuidText bdUuid ++ ['\n'] := by
    rw [List.dropWhile_cons_of_pos (by decide), uuidText, hplain.dropWhile_isSpace_append]
  have hne : ['\n'] ≠ uuidText bdUuid ++ ['\n'] := fun h =>
    hplain.ne_nil (List.self_eq_append_left.1 h)
  have hword : "uuid:\t".toList = ['u', 'u', 'i', 'd', ':', '\t'] := rfl
  rw [hword]
  simp only [List.cons_append, List.nil_append]
  rw [scanUuid_hex, hspace, hread, if_neg hne, BitVec.ofNat_toNat, BitVec.setWidth_eq]

/-- A name without white space is read with all that belongs to it. -/
theorem lkRoundTrip_of_noSpace (bdSize bdUuid : BitVec 64) (hne : bdName ≠ [])
    (hname : ∀ c ∈ bdName, isSpace c = false) : LkRoundTrip bdSize bdUuid bdName := by
  unfold LkRoundTrip lkBdevSave lkBdevLoad
  generalize hline : (if bdUuid ≠ 0 then "uuid:\t".toList ++ uuidText bdUuid ++ ['\n'] else []) = line
  obtain ⟨hdrop, hscan⟩ := @scanName_eq bdName ('\n' :: line) hname hne (by simp; decide)
  dsimp only
  have htext : decText bdSize.toNat ++ '\t' :: bdName ++ '\n' :: line =
      decText bdSize.toNat ++ '\t' :: (bdName ++ '\n' :: line) := by simp
  rw [htext, strtoul_size bdSize.isLt]
  have hrest : '\t' :: (bdName ++ '\n' :: line) ≠ decText bdSize.toNat ++ '\t' :: (bdName ++ '\n' :: line) :=
    fun h => (plain_decText _).ne_nil (List.self_eq_append_left.1 h)
  have huuid : (scanUuid ('\n' :: line)).getD 0 = bdUuid := by
    rw [← hline]
    split
    · rw [scanUuid_line]
      rfl
    · next hzero =>
      rw [not_not.1 hzero]
      rfl
  rw [if_neg hrest, hscan, hdrop, if_neg hne, if_neg hne, List.drop_left, huuid]

/-- The name that is read has no white space. -/
theorem scanName_noSpace (text : List Char) : ∀ c ∈ scanName text, isSpace c = false := by
  intro c hc
  simpa using List.mem_takeWhile_imp hc

/-- **What is saved is what is loaded** exactly if the name has no white space. -/
theorem lkBdev_roundTrip_iff (bdSize bdUuid : BitVec 64) (hne : bdName ≠ []) :
    LkRoundTrip bdSize bdUuid bdName ↔ ∀ c ∈ bdName, isSpace c = false := by
  refine ⟨fun h => ?_, lkRoundTrip_of_noSpace bdSize bdUuid hne⟩
  unfold LkRoundTrip lkBdevLoad at h
  dsimp only at h
  split at h
  · cases h
  · rw [Option.some.injEq, BdevInfo.mk.injEq] at h
    obtain ⟨-, -, hread⟩ := h
    split at hread
    · cases hread
    · rw [← Option.some.inj hread]
      exact scanName_noSpace _

/-- A plain name. -/
theorem lkBdev_roundTrip_sda : LkRoundTrip 0x100000#64 0x1122334455667788#64 "/dev/sda".toList :=
  (lkBdev_roundTrip_iff _ _ (by decide)).2 fun c hc => by
    simpa using List.all_eq_true.1 (by decide : ("/dev/sda".toList.all fun c => !isSpace c) = true) c hc

/-- A name with a blank loses what is behind it, and the uuid. -/
theorem lkBdev_blank_lost :
    lkBdevLoad (some (lkBdevSave 4096 1#64 "/dev/a b".toList)) =
        some { bdSize := 4096, bdUuid := 0, bdName := some "/dev/a".toList } ∧
      ¬LkRoundTrip 4096#64 1#64 "/dev/a b".toList := by
  have hload : lkBdevLoad (some (lkBdevSave 4096 1#64 "/dev/a b".toList)) =
      some { bdSize := 4096, bdUuid := 0, bdName := some "/dev/a".toList } := by rfl
  refine ⟨hload, fun h => ?_⟩
  have hname := congrArg (fun info => info.map BdevInfo.bdName) (hload.symm.trans h)
  exact absurd hname (by decide)

end RoundTrip

end DrbdUtils.Meta
