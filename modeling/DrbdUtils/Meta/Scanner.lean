import Mathlib.Tactic

/-!
# The scanner of metadata dumps

`drbdmeta_scanner.fl`.  Flex takes the longest match and, among equally long ones, the first
rule.  `INVALID_TOKEN` matches every run of up to 100 word characters, so a word token is that
run and `classifyWord` picks the first rule that matches all of it.

* `scan` — the token stream of a text; the end of the stream is token `0`.
-/

set_option autoImplicit false

namespace DrbdUtils.Meta

/-! ## Tokens -/

inductive Keyword where
  | gc | bm | uuid | version | members | laSizeSect | bmBytePerBit | deviceUuid | times | flags
  | alStripes | alStripeSize4k | laPeerMaxBioSize | nodeId | currentUuid | bitmap | bitmapUuid
  | bitmapDagtag | historyUuids | peer | hash | maxPeers | bitmapIndex
  deriving DecidableEq, Repr

def Keyword.text : Keyword → List Char
  | .gc => "gc".toList
  | .bm => "bm".toList
  | .uuid => "uuid".toList
  | .version => "version".toList
  | .members => "members".toList
  | .laSizeSect => "la-size-sect".toList
  | .bmBytePerBit => "bm-byte-per-bit".toList
  | .deviceUuid => "device-uuid".toList
  | .times => "times".toList
  | .flags => "flags".toList
  | .alStripes => "al-stripes".toList
  | .alStripeSize4k => "al-stripe-size-4k".toList
  | .laPeerMaxBioSize => "la-peer-max-bio-size".toList
  | .nodeId => "node-id".toList
  | .currentUuid => "current-uuid".toList
  | .bitmap => "bitmap".toList
  | .bitmapUuid => "bitmap-uuid".toList
  | .bitmapDagtag => "bitmap-dagtag".toList
  | .historyUuids => "history-uuids".toList
  | .peer => "peer".toList
  | .hash => "hash".toList
  | .maxPeers => "max-peers".toList
  | .bitmapIndex => "bitmap-index".toList

def keywords : List Keyword :=
  [.gc, .bm, .uuid, .version, .members, .laSizeSect, .bmBytePerBit, .deviceUuid, .times, .flags,
    .alStripes, .alStripeSize4k, .laPeerMaxBioSize, .nodeId, .currentUuid, .bitmap, .bitmapUuid,
    .bitmapDagtag, .historyUuids, .peer, .hash, .maxPeers, .bitmapIndex]

/-- The single-character tokens. -/
inductive Op where
  | braceOpen | braceClose | semicolon | bracketOpen | bracketClose
  deriving DecidableEq, Repr

/-- What `yylex` returns, with the `yylval` it leaves behind. -/
inductive Token where
  | op (o : Op)
  | str (txt : List Char)
  | u64 (v : BitVec 64)
  | u32 (v : BitVec 64)
  | num (v : BitVec 64)
  | kw (k : Keyword)
  | invalid
  | invalidChar (c : Char)
  deriving DecidableEq

/-! ## Character classes -/

def isWs (c : Char) : Bool := c = ' ' || c = '\r' || c = '\t' || c = '\n'

def Op.char : Op → Char
  | .braceOpen => '\x7b'
  | .braceClose => '\x7d'
  | .semicolon => ';'
  | .bracketOpen => '['
  | .bracketClose => ']'

def opOf (c : Char) : Option Op :=
  [Op.braceOpen, .braceClose, .semicolon, .bracketOpen, .bracketClose].find? (·.char = c)

def isDigit (c : Char) : Bool := 48 ≤ c.toNat && c.toNat ≤ 57

def isHexDigit (c : Char) : Bool :=
  isDigit c || (65 ≤ c.toNat && c.toNat ≤ 70) || (97 ≤ c.toNat && c.toNat ≤ 102)

def isWordChar (c : Char) : Bool :=
  isDigit c || (65 ≤ c.toNat && c.toNat ≤ 90) || (97 ≤ c.toNat && c.toNat ≤ 122) || c = '-' ||
    c = '_'

def digitVal (c : Char) : Nat :=
  if isDigit c then c.toNat - 48
  else if 97 ≤ c.toNat then c.toNat - 87
  else c.toNat - 55

/-- Value of a digit string. -/
def digitsVal (base : Nat) (ds : List Char) : Nat :=
  ds.foldl (fun a c => a * base + digitVal c) 0

/-! ## Scanning -/

/-- The first rule that matches a whole run of word characters. -/
def classifyWord (w : List Char) : Token :=
  match w with
  | '0' :: 'x' :: ds =>
    if ds.all isHexDigit && ds.length = 16 then .u64 (BitVec.ofNat 64 (digitsVal 16 ds))
    else if ds.all isHexDigit && ds.length = 8 then .u32 (BitVec.ofNat 64 (digitsVal 16 ds))
    else .invalid
  | '-' :: ds =>
    if ds.all isDigit && 1 ≤ ds.length && ds.length ≤ 19 then
      .num (-BitVec.ofNat 64 (digitsVal 10 ds))
    else .invalid
  | w =>
    if w.all isDigit && 1 ≤ w.length && w.length ≤ 19 then .num (BitVec.ofNat 64 (digitsVal 10 w))
    else match keywords.find? (·.text = w) with
      | some k => .kw k
      | none => .invalid

/-- `unescape`: drop quotes, and keep the character behind a backslash. -/
def unescape : List Char → List Char
  | [] => []
  | '"' :: cs => unescape cs
  | '\\' :: c :: cs => c :: unescape cs
  | '\\' :: [] => []
  | c :: cs => c :: unescape cs

/-- Up to 20 characters that a string may hold. -/
def stringBody (cs : List Char) : List Char :=
  (cs.take 20).takeWhile fun c => c ≠ '"' && c ≠ '\r' && c ≠ '\n'

/-- The rules that start with a double quote; `cs` is what follows it. -/
def scanString (cs : List Char) : Token × List Char :=
  let rest := cs.drop (stringBody cs).length
  if rest.head? = some '"' then
    (if stringBody cs = [] then .invalid else .str (unescape ('"' :: stringBody cs ++ ['"'])),
      rest.tail)
  else (.invalid, rest)

theorem scanString_length (cs : List Char) : (scanString cs).2.length ≤ cs.length := by
  have hlen : (cs.drop (stringBody cs).length).length ≤ cs.length := by
    rw [List.length_drop]; omega
  unfold scanString
  by_cases h : (cs.drop (stringBody cs).length).head? = some '"'
  · rw [if_pos h, List.length_tail]; omega
  · rw [if_neg h]; exact hlen

/-- The longest run of word characters the scanner takes at once. -/
def wordOf (cs : List Char) : List Char := (cs.take 100).takeWhile isWordChar

/-- The token stream of a text. -/
def scan : List Char → List Token
  | [] => []
  | c :: cs =>
    if isWs c then scan cs
    else if c = '#' then scan (cs.dropWhile (· ≠ '\n'))
    else if c = '"' then (scanString cs).1 :: scan (scanString cs).2
    else if isWordChar c then classifyWord (wordOf (c :: cs)) ::
      scan (cs.drop ((wordOf (c :: cs)).length - 1))
    else match opOf c with
      | some o => .op o :: scan cs
      | none => .invalidChar c :: scan cs
termination_by cs => cs.length
decreasing_by
  · simp
  · exact Nat.lt_succ_of_le (List.dropWhile_suffix _).length_le
  · exact Nat.lt_succ_of_le (scanString_length cs)
  · simp only [List.length_drop, List.length_cons]; omega
  · simp
  · simp

end DrbdUtils.Meta
