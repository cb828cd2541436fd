import DrbdUtils.Lib.Strtoul

/-!
# Texts of the C library

`strcmp()` as a total order, of which only the sign is used, and `inet_pton()`.

* `strcmp_swap`, `strcmp_trans`, `strcmp_eq_zero` — the order.
* `inetPton4_inj` — an IPv4 address is written in one way only.
-/

set_option autoImplicit false

namespace CString

open Numerals

/-! ## strcmp -/

/-- The sign of `strcmp`. -/
def strcmp : List Char → List Char → Int
  | [], [] => 0
  | [], _ :: _ => -1
  | _ :: _, [] => 1
  | a :: s, b :: t => if a.toNat < b.toNat then -1 else if b.toNat < a.toNat then 1 else strcmp s t

theorem strcmp_self (s : List Char) : strcmp s s = 0 := by
  induction s with
  | nil => rfl
  | cons a s ih => rw [strcmp, if_neg (Nat.lt_irrefl _), if_neg (Nat.lt_irrefl _), ih]

theorem strcmp_swap (s t : List Char) : strcmp t s = -strcmp s t := by
  induction s generalizing t with
  | nil => cases t <;> rfl
  | cons a s ih =>
    cases t with
    | nil => rfl
    | cons b t =>
      rw [strcmp, strcmp]
      by_cases hab : a.toNat < b.toNat
      · rw [if_pos hab, if_neg (Nat.lt_asymm hab), if_pos hab]
        rfl
      · by_cases hba : b.toNat < a.toNat
        · rw [if_pos hba, if_neg hab, if_pos hba]
        · rw [if_neg hab, if_neg hba, if_neg hba, if_neg hab, ih]

theorem strcmp_eq_zero {s t : List Char} : strcmp s t = 0 ↔ s = t := by
  constructor
  · intro h
    induction s generalizing t with
    | nil =>
      cases t with
      | nil => rfl
      | cons b t => cases h
    | cons a s ih =>
      cases t with
      | nil => cases h
      | cons b t =>
        rw [strcmp] at h
        split at h
        · cases h
        · split at h
          · cases h
          · next hab hba =>
            have hnat : a.toNat = b.toNat := by omega
            rw [ih h, Char.toNat_inj.1 hnat]
  · rintro rfl
    exact strcmp_self s

theorem strcmp_trans {s t u : List Char} (hst : strcmp s t ≤ 0) (htu : strcmp t u ≤ 0) :
    strcmp s u ≤ 0 := by
  induction s generalizing t u with
  | nil => cases u <;> simp [strcmp]
  | cons a s ih =>
    cases t with
    | nil => simp [strcmp] at hst
    | cons b t =>
      cases u with
      | nil => simp [strcmp] at htu
      | cons c u =>
        rw [strcmp] at hst htu ⊢
        by_cases hac : a.toNat < c.toNat
        · rw [if_pos hac]
          decide
        · have hba : ¬b.toNat < a.toNat := by
            intro hba
            rw [if_neg (Nat.lt_asymm hba), if_pos hba] at hst
            exact absurd hst (by decide)
          have hcb : ¬c.toNat < b.toNat := by
            intro hcb
            rw [if_neg (Nat.lt_asymm hcb), if_pos hcb] at htu
            exact absurd htu (by decide)
          rw [if_neg (by omega), if_neg hba] at hst
          rw [if_neg (by omega), if_neg hcb] at htu
          rw [if_neg hac, if_neg (by omega)]
          exact ih hst htu

theorem strcmp_trans_lt {s t u : List Char} (hst : strcmp s t < 0) (htu : strcmp t u ≤ 0) :
    strcmp s u < 0 := by
  have hle := strcmp_trans (Int.le_of_lt hst) htu
  by_contra hcon
  have heq : s = u := strcmp_eq_zero.1 (by omega)
  have hswap := strcmp_swap s t
  rw [heq] at hst hswap
  omega

/-! ## inet_pton -/

/-- A number below 256, without superfluous zeros. -/
def octet (s : List Char) : Option Nat :=
  (List.range 256).find? (decText · = s)

/-- `inet_pton(AF_INET, ..)`. -/
def inetPton4 (src : List Char) : Option (List Nat) :=
  match (src.splitOn '.').map octet with
  | [some a, some b, some c, some d] => some [a, b, c, d]
  | _ => none

/-- Up to four hexadecimal digits. -/
def hexGroup (s : List Char) : Option Nat :=
  if s ≠ [] ∧ s.length ≤ 4 ∧ s.all (digitVal · < 16) then some (ofDigits 16 s) else none

/-- Groups of 16 bits between colons; the last one may be an IPv4 address. -/
def groups : List (List Char) → Option (List Nat)
  | [] => some []
  | [s] =>
    match hexGroup s, inetPton4 s with
    | some w, _ => some [w]
    | none, some [a, b, c, d] => some [a * 256 + b, c * 256 + d]
    | none, _ => none
  | s :: rest =>
    match hexGroup s, groups rest with
    | some w, some ws => some (w :: ws)
    | _, _ => none

def groupsOf (s : List Char) : Option (List Nat) := if s = [] then some [] else groups (s.splitOn ':')

/-- The texts in front of and behind the first "::". -/
def splitDouble : List Char → Option (List Char × List Char)
  | ':' :: ':' :: s => some ([], s)
  | c :: s => (splitDouble s).map fun p => (c :: p.1, p.2)
  | [] => none

/-- `inet_pton(AF_INET6, ..)`: eight groups, of which "::" stands for at least one. -/
def inetPton6 (src : List Char) : Option (List Nat) :=
  match splitDouble src with
  | none =>
    match groupsOf src with
    | some ws => if ws.length = 8 then some ws else none
    | none => none
  | some (front, back) =>
    match (if front = [] then some [] else (front.splitOn ':').mapM hexGroup), groupsOf back with
    | some ws, some ws' =>
      if ws.length + ws'.length < 8 then
        some (ws ++ List.replicate (8 - ws.length - ws'.length) 0 ++ ws')
      else none
    | _, _ => none

theorem decText_of_octet {s : List Char} {n : Nat} (h : octet s = some n) : decText n = s := by
  simpa using List.find?_some h

theorem inetPton4_parts {src : List Char} {v : List Nat} (h : inetPton4 src = some v) :
    src.splitOn '.' = v.map decText := by
  unfold inetPton4 at h
  split at h
  · next a b c d hparts =>
    cases h
    simp only [List.map_eq_cons_iff, List.map_eq_nil_iff] at hparts
    obtain ⟨p, _, hsrc, hp, q, _, rfl, hq, r, _, rfl, hr, t, _, rfl, ht, rfl⟩ := hparts
    simp only [hsrc, List.map_cons, List.map_nil, decText_of_octet hp, decText_of_octet hq,
      decText_of_octet hr, decText_of_octet ht]
  · cases h

/-- An IPv4 address is written in one way only. -/
theorem inetPton4_inj {s t : List Char} {v : List Nat} (hs : inetPton4 s = some v)
    (ht : inetPton4 t = some v) : s = t := by
  calc
    s = ['.'].intercalate (s.splitOn '.') := (List.intercalate_splitOn '.').symm
    _ = ['.'].intercalate (t.splitOn '.') := by rw [inetPton4_parts hs, inetPton4_parts ht]
    _ = t := List.intercalate_splitOn '.'

example : inetPton6 "2001:0db8::1".toList = inetPton6 "2001:db8:0:0:0:0:0:1".toList := by decide

end CString
