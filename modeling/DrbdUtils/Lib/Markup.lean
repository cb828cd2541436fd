import DrbdUtils.Lib.Flex
import DrbdUtils.Lib.Printer

/-!
# Markup that is printed piece by piece

Tags that are opened and closed by separate calls are followed on a stack.

* `Piece.Clean` — attribute values and texts hold no bare markup.
* `step` — the stack of open elements.
* `Nests` — every element that is opened is closed.
-/

set_option autoImplicit false

namespace Markup

open Flex Flex.Pattern Printer

/-- What one call prints. -/
inductive Piece where
  | start (name : String) (attrs : List (String × List Char))
  | stop (name : String)
  | empty (name : String) (attrs : List (String × List Char))
  | text (s : List Char)

/-! ## References -/

def isDigit (c : Char) : Bool := 48 ≤ c.toNat && c.toNat ≤ 57

def isHex (c : Char) : Bool :=
  isDigit c || (65 ≤ c.toNat && c.toNat ≤ 70) || (97 ≤ c.toNat && c.toNat ≤ 102)

/-- A reference to a predefined entity, without the `&` and the `;`. -/
def entity : Pattern Char :=
  alt (Pattern.text "apos".toList) (alt (Pattern.text "quot".toList)
    (alt (Pattern.text "lt".toList) (alt (Pattern.text "gt".toList) (Pattern.text "amp".toList))))

def charRef : Pattern Char :=
  seq (chr '#') (alt (rep (cls isDigit) 1 none) (seq (chr 'x') (rep (cls isHex) 1 none)))

def reference : Pattern Char := seq (chr '&') (seq (alt entity charRef) (chr ';'))

/-- What may stand between the quotes of an attribute. -/
def attValue : Pattern Char := rep (alt (cls (· ∉ ['<', '&', '"'])) reference) 0 none

/-- What may stand between tags; `]]>` may not. -/
def charData : Pattern Char := rep (alt (cls (· ∉ ['<', '&'])) reference) 0 none

def AttrClean (s : List Char) : Prop := s ∈ attValue.lang

def TextClean (s : List Char) : Prop := s ∈ charData.lang ∧ ¬[']', ']', '>'] <:+: s

instance (s : List Char) : Decidable (AttrClean s) :=
  decidable_of_iff (attValue.longest s = some s.length) longest_whole

theorem attrClean_of_plain {s : List Char} (h : ∀ c ∈ s, c ∉ ['<', '&', '"']) : AttrClean s := by
  refine mem_rep.2 ⟨s.map fun c => [c], Nat.zero_le _, fun h hh => (by cases hh), ?_, ?_⟩
  · intro u hu
    obtain ⟨c, hc, rfl⟩ := List.mem_map.1 hu
    exact mem_alt.2 (Or.inl ⟨c, decide_eq_true (h c hc), rfl⟩)
  · rw [← List.flatMap_def, List.flatMap_singleton']

theorem attrClean_append {s t : List Char} (hs : AttrClean s) (ht : AttrClean t) :
    AttrClean (s ++ t) := by
  obtain ⟨us, -, -, hus, rfl⟩ := mem_rep.1 hs
  obtain ⟨vs, -, -, hvs, rfl⟩ := mem_rep.1 ht
  refine mem_rep.2 ⟨us ++ vs, Nat.zero_le _, fun h hh => (by cases hh), ?_, List.flatten_append.symm⟩
  exact fun u hu => (List.mem_append.1 hu).elim (hus u) (hvs u)

def Piece.Clean : Piece → Prop
  | .start _ attrs => ∀ a ∈ attrs, AttrClean a.2
  | .stop _ => True
  | .empty _ attrs => ∀ a ∈ attrs, AttrClean a.2
  | .text s => TextClean s

/-! ## Nesting -/

/-- The open elements, the innermost first. -/
def step : List String → Piece → Option (List String)
  | st, .start name _ => some (name :: st)
  | [], .stop _ => none
  | top :: st, .stop name => if top = name then some st else none
  | st, .empty _ _ => some st
  | st, .text _ => some st

structure WellFormed (ps : List Piece) : Prop where
  nested : run step [] ps = some []
  clean : ∀ p ∈ ps, p.Clean

/-- Every element that is opened is closed. -/
def Nests (d : Doc Piece) : Prop := ∀ st, Moves step d st st

theorem moves_start (name : String) (attrs : List (String × List Char)) (st : List String) :
    Moves step (put (.start name attrs)) st (name :: st) := Moves.put rfl

theorem moves_stop (name : String) (st : List String) :
    Moves step (put (.stop name)) (name :: st) st := Moves.put (if_pos rfl)

theorem stuck_stop {top name : String} (h : top ≠ name) (st : List String) :
    Stuck step (put (.stop name)) (top :: st) := Stuck.put (if_neg h)

theorem Nests.empty (name : String) (attrs : List (String × List Char)) :
    Nests (put (.empty name attrs)) := fun _ => Moves.put (by cases ‹List String› <;> rfl)

theorem Nests.text (s : List Char) : Nests (put (.text s)) :=
  fun _ => Moves.put (by cases ‹List String› <;> rfl)

theorem Nests.nil : Nests (some []) := Moves.nil

theorem Nests.cat {ds : List (Doc Piece)} (h : ∀ d ∈ ds, Nests d) : Nests (cat ds) := by
  intro st
  induction ds with
  | nil => exact Moves.nil st
  | cons d ds ih =>
    exact (h d List.mem_cons_self st).cons (ih fun e he => h e (List.mem_cons_of_mem d he))

theorem Nests.map {α : Type} {f : α → Doc Piece} {l : List α} (h : ∀ x ∈ l, Nests (f x)) :
    Nests (Printer.cat (l.map f)) :=
  Nests.cat (List.forall_mem_map.2 h)

end Markup
