import DrbdUtils.Lib.Flex
import Mathlib.Data.List.TakeWhile

/-!
# The scanner of drbd.conf and the quoting of strings

The rules of `drbdadm_scanner.fl`, in their order, with `unescape()` and `esc()` of `shared_tool.c`
and `double_quote_string()` of `config_flags.c`.  A letter is a byte.

* `Delivered` — a text that the scanner gives with a `TK_STRING`.
* `readsBack_iff` — when such a text is read back from what is printed for it.
-/

set_option autoImplicit false

namespace DrbdUtils.Adm.Scanner

open Flex Flex.Pattern

/-! ## Tokens -/

/-- The tokens of the rules for a fixed word. -/
inductive Keyword where
  | on | stacked | floating | no | net | yes | ask | via | skip
  | moduleEq | moduleNe | moduleGt | moduleGe | moduleLt | moduleLe
  | disk | host | hosts | port | proxy | minor | inside | volume
  | cmdTimeoutShort | cmdTimeoutMedium | cmdTimeoutLong
  | syncer | device | globalSection | common | options | outside | address | startup | includeFile
  | handler | connection | outsideAddress | connectionMesh | minorCount | disableIpVerification
  | udevAlwaysUseVnr | dialogRefresh | resource | metaDisk | flexMetaDisk | nodeId | usageCount
  | thisHost | remoteHost | peerNodeId | cstate | unknown | templateFile | path | tiebreaker
  | sci | ssocks | sdp | ipv4 | ipv6
  deriving DecidableEq

def Keyword.text : Keyword → List Char
  | .on => "on".toList
  | .stacked => "stacked-on-top-of".toList
  | .floating => "floating".toList
  | .no => "no".toList
  | .net => "net".toList
  | .yes => "yes".toList
  | .ask => "ask".toList
  | .via => "via".toList
  | .skip => "skip".toList
  | .moduleEq => "require-drbd-module-version-eq".toList
  | .moduleNe => "require-drbd-module-version-ne".toList
  | .moduleGt => "require-drbd-module-version-gt".toList
  | .moduleGe => "require-drbd-module-version-ge".toList
  | .moduleLt => "require-drbd-module-version-lt".toList
  | .moduleLe => "require-drbd-module-version-le".toList
  | .disk => "disk".toList
  | .host => "host".toList
  | .hosts => "hosts".toList
  | .port => "port".toList
  | .proxy => "proxy".toList
  | .minor => "minor".toList
  | .inside => "inside".toList
  | .volume => "volume".toList
  | .cmdTimeoutShort => "cmd-timeout-short".toList
  | .cmdTimeoutMedium => "cmd-timeout-medium".toList
  | .cmdTimeoutLong => "cmd-timeout-long".toList
  | .syncer => "syncer".toList
  | .device => "device".toList
  | .globalSection => "global".toList
  | .common => "common".toList
  | .options => "options".toList
  | .outside => "outside".toList
  | .address => "address".toList
  | .startup => "startup".toList
  | .includeFile => "include".toList
  | .handler => "handlers".toList
  | .connection => "connection".toList
  | .outsideAddress => "outside-address".toList
  | .connectionMesh => "connection-mesh".toList
  | .minorCount => "minor-count".toList
  | .disableIpVerification => "disable-ip-verification".toList
  | .udevAlwaysUseVnr => "udev-always-use-vnr".toList
  | .dialogRefresh => "dialog-refresh".toList
  | .resource => "resource".toList
  | .metaDisk => "meta-disk".toList
  | .flexMetaDisk => "flexible-meta-disk".toList
  | .nodeId => "node-id".toList
  | .usageCount => "usage-count".toList
  | .thisHost => "_this_host".toList
  | .remoteHost => "_remote_host".toList
  | .peerNodeId => "_peer_node_id".toList
  | .cstate => "_cstate".toList
  | .unknown => "_unknown".toList
  | .templateFile => "template-file".toList
  | .path => "path".toList
  | .tiebreaker => "tiebreaker".toList
  | .sci => "sci".toList
  | .ssocks => "ssocks".toList
  | .sdp => "sdp".toList
  | .ipv4 => "ipv4".toList
  | .ipv6 => "ipv6".toList

/-- The keywords above the rule for `TK_KMODVERS`, and those below it. -/
def keywordsAbove : List Keyword :=
  [.on, .stacked, .floating, .no, .net, .yes, .ask, .via, .skip, .moduleEq, .moduleNe, .moduleGt,
    .moduleGe, .moduleLt, .moduleLe]

def keywordsBelow : List Keyword :=
  [.disk, .host, .hosts, .port, .proxy, .minor, .inside, .volume, .cmdTimeoutShort, .cmdTimeoutMedium,
    .cmdTimeoutLong, .syncer, .device, .globalSection, .common, .options, .outside, .address, .startup,
    .includeFile, .handler, .connection, .outsideAddress, .connectionMesh, .minorCount,
    .disableIpVerification, .udevAlwaysUseVnr, .dialogRefresh, .resource, .metaDisk, .flexMetaDisk,
    .nodeId, .usageCount, .thisHost, .remoteHost, .peerNodeId, .cstate, .unknown, .templateFile, .path,
    .tiebreaker, .sci, .ssocks, .sdp, .ipv4, .ipv6]

/-- What `yylex` returns, with the text it leaves in `yylval`. -/
inductive Token where
  | op (c : List Char)
  | keyword (k : Keyword)
  | kmodvers (txt : List Char)
  | ipaddr (txt : List Char)
  | ipaddr6 (txt : List Char)
  | integer (txt : List Char)
  | string (txt : List Char)
  | errStringTooLong
  | errDqstringTooLong
  | errDqstring
  | other
  deriving DecidableEq

/-! ## Patterns -/

def isDigit (c : Char) : Bool := 48 ≤ c.toNat && c.toNat ≤ 57

def isHex (c : Char) : Bool :=
  isDigit c || (65 ≤ c.toNat && c.toNat ≤ 70) || (97 ≤ c.toNat && c.toNat ≤ 102)

/-- `[a-zA-Z0-9/._-]`. -/
def isStringChar (c : Char) : Bool :=
  isDigit c || (65 ≤ c.toNat && c.toNat ≤ 90) || (97 ≤ c.toNat && c.toNat ≤ 122) ||
    c ∈ ['/', '.', '_', '-']

def num : Pattern Char :=
  seq (rep (cls isDigit) 1 (some 8)) (opt (cls (· ∈ ['M', 'K', 'G', 's'])))

def snumb : Pattern Char := rep (cls isDigit) 1 (some 3)

def kmodvers : Pattern Char :=
  seq (rep (cls isDigit) 1 none)
    (seq (chr '.') (seq (rep (cls isDigit) 1 none) (seq (chr '.') (rep (cls isDigit) 1 none))))

def ipv4addr : Pattern Char := seq (rep (seq snumb (chr '.')) 3 (some 3)) snumb

def hex4 : Pattern Char := rep (cls isHex) 1 (some 4)

def string : Pattern Char := rep (cls isStringChar) 1 (some 128)

def ipv6addr : Pattern Char :=
  alt
    (seq (opt (seq (rep (seq hex4 (chr ':')) 0 (some 5)) hex4))
      (seq (chr ':') (seq (opt hex4) (seq (chr ':')
        (seq (opt (seq hex4 (rep (seq (chr ':') hex4) 0 (some 5)))) (opt (seq (chr '%') string)))))))
    (seq (chr ':') (seq (chr ':') (seq (rep (cls (· ∈ ['f', 'F'])) 4 (some 4)) (seq (chr ':') ipv4addr))))

/-- `[^\"\\\n]|\\[^\n]`. -/
def dqElem : Pattern Char :=
  alt (cls (· ∉ ['"', '\\', '\n'])) (seq (chr '\\') (cls (· ≠ '\n')))

def dqstring : Pattern Char := seq (chr '"') (seq (rep dqElem 0 (some 255)) (chr '"'))

def longDqstring : Pattern Char :=
  seq (chr '"') (seq (rep dqElem 255 (some 255)) (cls (· ≠ '\n')))

def errDqstring : Pattern Char :=
  seq (chr '"') (seq (rep dqElem 0 (some 255)) (cls (· ∈ ['\\', '\n'])))

def longString : Pattern Char := rep (cls isStringChar) 129 (some 129)

/-! ## Rules -/

/-- What a C string is of a text. -/
def cText (w : List Char) : List Char := w.takeWhile (· ≠ '\x00')

/-- `unescape`. -/
def unescape : List Char → List Char
  | [] => []
  | '"' :: ue => unescape ue
  | '\\' :: c :: ue => c :: unescape ue
  | '\\' :: [] => []
  | c :: ue => c :: unescape ue

def keywordRule (k : Keyword) : Rule Char Token := ⟨text k.text, fun _ => some (.keyword k)⟩

/-- The rules above the one for quoted strings. -/
def rulesAbove : List (Rule Char Token) :=
  [⟨chr '\n', fun _ => none⟩,
    ⟨seq (chr '#') (rep (cls (· ≠ '\n')) 0 none), fun _ => none⟩,
    ⟨cls (· ∈ [' ', '\t', '\r']), fun _ => none⟩,
    ⟨cls (· ∈ ['\x7b', '\x7d', ';', '[', ']', ':']), fun w => some (.op w)⟩] ++
  keywordsAbove.map keywordRule ++
  [⟨kmodvers, fun w => some (.kmodvers w)⟩] ++
  keywordsBelow.map keywordRule ++
  [⟨ipv4addr, fun w => some (.ipaddr w)⟩,
    ⟨ipv6addr, fun w => some (.ipaddr6 w)⟩,
    ⟨num, fun w => some (.integer w)⟩]

def dqstringRule : Rule Char Token := ⟨dqstring, fun w => some (.string (unescape (cText w)))⟩

def stringRule : Rule Char Token := ⟨string, fun w => some (.string w)⟩

def rulesBelow : List (Rule Char Token) :=
  [⟨longString, fun _ => some .errStringTooLong⟩,
    ⟨longDqstring, fun _ => some .errDqstringTooLong⟩,
    ⟨errDqstring, fun _ => some .errDqstring⟩,
    ⟨cls (· ≠ '\n'), fun _ => some .other⟩]

def scannerRules : List (Rule Char Token) := rulesAbove ++ dqstringRule :: stringRule :: rulesBelow

/-! ## Printing -/

/-- The condition under which `esc` quotes. -/
def needsQuotes (str : List Char) : Bool := str.any (!isStringChar ·) || 80 < str.length

/-- The loop of `esc`; `e` is in the buffer, and `none` is `exit(E_SYNTAX)`. -/
def escLoop : List Char → List Char → Option (List Char)
  | [], e => some (e ++ ['"'])
  | c :: ue, e =>
    let e := if c = '"' || c = '\\' then e ++ ['\\'] else e
    if 1022 ≤ e.length then none
    else if 1022 ≤ (e ++ [c]).length then none
    else escLoop ue (e ++ [c])

/-- `esc`. -/
def esc (str : List Char) : Option (List Char) :=
  if str = [] then some ['"', '"']
  else if needsQuotes str then escLoop str ['"']
  else some str

/-- A letter in quotes. -/
def escapeChar (c : Char) : List Char := if c = '\\' || c = '"' then ['\\', c] else [c]

/-- `double_quote_string`. -/
def doubleQuoteString (str : List Char) : List Char := '"' :: str.flatMap escapeChar ++ ['"']

/-! ## Texts of strings -/

/-- The scanner gives this text with a `TK_STRING`. -/
def Delivered (s : List Char) : Prop := ∃ input, Token.string s ∈ tokens scannerRules input

/-- Another token has this text. -/
def OtherToken (s : List Char) : Prop :=
  (∃ k : Keyword, k.text = s) ∨ s ∈ kmodvers.lang ∨ s ∈ ipv4addr.lang ∨ s ∈ num.lang

variable {s w : List Char} {c : Char}

theorem mem_dqElem : w ∈ dqElem.lang ↔
    (∃ c, c ∉ ['"', '\\', '\n'] ∧ w = [c]) ∨ ∃ c, c ≠ '\n' ∧ w = ['\\', c] := by
  unfold dqElem
  rw [mem_alt, mem_chr_seq, mem_cls]
  refine or_congr (exists_congr fun c => and_congr_left fun _ => decide_eq_true_iff) ?_
  constructor
  · rintro ⟨v, ⟨c, hc, rfl⟩, rfl⟩
    exact ⟨c, of_decide_eq_true hc, rfl⟩
  · rintro ⟨c, hc, rfl⟩
    exact ⟨[c], ⟨c, decide_eq_true hc, rfl⟩, rfl⟩

theorem mem_dqstring : w ∈ dqstring.lang ↔ ∃ es : List (List Char),
    es.length ≤ 255 ∧ (∀ e ∈ es, e ∈ dqElem.lang) ∧ w = '"' :: es.flatten ++ ['"'] := by
  unfold dqstring
  rw [mem_chr_seq]
  constructor
  · rintro ⟨v, hv, rfl⟩
    obtain ⟨u, hu, q, hq, rfl⟩ := mem_seq.1 hv
    obtain ⟨es, -, hlen, hes, rfl⟩ := mem_rep.1 hu
    rw [mem_chr.1 hq]
    exact ⟨es, hlen 255 rfl, hes, rfl⟩
  · rintro ⟨es, hlen, hes, rfl⟩
    refine ⟨es.flatten ++ ['"'], mem_seq.2 ⟨es.flatten, ?_, ['"'], mem_chr.2 rfl, rfl⟩, rfl⟩
    exact mem_rep.2 ⟨es, Nat.zero_le _, fun h hh => by cases hh; exact hlen, hes, rfl⟩

theorem mem_string : w ∈ string.lang ↔
    1 ≤ w.length ∧ w.length ≤ 128 ∧ ∀ c ∈ w, isStringChar c = true := by
  unfold string
  rw [mem_rep_cls]
  refine and_congr_right fun _ => and_congr_left fun _ => ?_
  exact ⟨fun h => h 128 rfl, fun h n hn => by cases hn; exact h⟩

/-! ## Unescaping -/

theorem cText_cons (hc : c ≠ '\x00') (w : List Char) : cText (c :: w) = c :: cText w :=
  List.takeWhile_cons_of_pos (decide_eq_true hc)

theorem unescape_cons (hq : c ≠ '"') (hb : c ≠ '\\') (w : List Char) :
    unescape (c :: w) = c :: unescape w := by
  rw [unescape]
  · exact hq
  · exact fun _ _ h => absurd h hb
  · exact fun h => absurd h hb

/-- Every element of a quoted string gives a letter at most. -/
theorem unescape_elems {es : List (List Char)} (hes : ∀ e ∈ es, e ∈ dqElem.lang) :
    (unescape (cText (es.flatten ++ ['"']))).length ≤ es.length ∧
      ∀ c ∈ unescape (cText (es.flatten ++ ['"'])), c ≠ '\n' ∧ c ≠ '\x00' := by
  induction es with
  | nil => exact ⟨Nat.le_refl 0, fun c hc => by cases hc⟩
  | cons e es ih =>
    obtain ⟨hlen, hchars⟩ := ih fun e' he' => hes e' (List.mem_cons_of_mem e he')
    rw [List.flatten_cons, List.append_assoc]
    generalize es.flatten ++ ['"'] = rest at hlen hchars ⊢
    -- the text ends at a NUL
    have hone : ∀ c, c ≠ '\n' → c ≠ '\x00' →
        (c :: unescape (cText rest)).length ≤ (e :: es).length ∧
          ∀ d ∈ c :: unescape (cText rest), d ≠ '\n' ∧ d ≠ '\x00' := by
      intro c hn hz
      refine ⟨Nat.succ_le_succ hlen, fun d hd => ?_⟩
      rcases List.mem_cons.1 hd with rfl | hd
      · exact ⟨hn, hz⟩
      · exact hchars d hd
    have hnil : ([] : List Char).length ≤ (e :: es).length ∧
        ∀ d ∈ ([] : List Char), d ≠ '\n' ∧ d ≠ '\x00' :=
      ⟨Nat.zero_le _, fun d hd => by cases hd⟩
    rcases mem_dqElem.1 (hes e List.mem_cons_self) with ⟨c, hc, rfl⟩ | ⟨c, hc, rfl⟩
    · by_cases hz : c = '\x00'
      · subst hz
        exact hnil
      · simp only [List.mem_cons, List.not_mem_nil, or_false, not_or] at hc
        rw [List.singleton_append, cText_cons hz, unescape_cons hc.1 hc.2.1]
        exact hone c hc.2.2 hz
    · have hback : cText (['\\', c] ++ rest) = '\\' :: cText (c :: rest) := cText_cons (by decide) _
      rw [hback]
      by_cases hz : c = '\x00'
      · subst hz
        exact hnil
      · rw [cText_cons hz]
        exact hone c hc hz

theorem unescape_escape (s : List Char) : unescape (s.flatMap escapeChar ++ ['"']) = s := by
  induction s with
  | nil => rfl
  | cons c s ih =>
    rw [List.flatMap_cons, List.append_assoc]
    by_cases hc : (c = '\\' || c = '"') = true
    · rw [escapeChar, if_pos hc]
      exact congrArg (c :: ·) ih
    · rw [escapeChar, if_neg hc]
      rw [Bool.or_eq_true, not_or, decide_eq_true_eq, decide_eq_true_eq] at hc
      rw [List.singleton_append, unescape_cons hc.2 hc.1, ih]

/-! ## Reading back -/

theorem rulesAbove_not_dq {r : Rule Char Token} (hr : r ∈ rulesAbove) : '"' :: w ∉ r.pattern.lang := by
  have hvoid : rulesAbove.all (fun r => (r.pattern.deriv '"').isVoid) = true := by decide
  exact fun h => isVoid_sound (List.all_eq_true.1 hvoid r hr) (mem_deriv.2 h)

theorem keyword_rules (k : Keyword) : keywordRule k ∈ rulesAbove := by
  have hk : k ∈ keywordsAbove ∨ k ∈ keywordsBelow := by cases k <;> decide
  unfold rulesAbove
  rcases hk with hk | hk
  · have := List.mem_map_of_mem (f := keywordRule) hk
    simp [this]
  · have := List.mem_map_of_mem (f := keywordRule) hk
    simp [this]

theorem dqstring_bounds (h : w ∈ dqstring.lang) : (unescape (cText w)).length ≤ 255 ∧
    ∀ c ∈ unescape (cText w), c ≠ '\n' ∧ c ≠ '\x00' := by
  obtain ⟨es, hlen, hes, rfl⟩ := mem_dqstring.1 h
  obtain ⟨hle, hchars⟩ := unescape_elems hes
  rw [List.cons_append, cText_cons (by decide)]
  exact ⟨hle.trans hlen, hchars⟩

theorem isStringChar_ne (h : isStringChar c = true) : c ≠ '\n' ∧ c ≠ '\x00' := by
  constructor <;> rintro rfl <;> exact absurd h (by decide)

/-- The rules above those for strings do not give a `TK_STRING`. -/
theorem rulesAbove_action {r : Rule Char Token} (hr : r ∈ rulesAbove) (w txt : List Char) :
    r.action w ≠ some (.string txt) := by
  unfold rulesAbove at hr
  simp only [List.mem_append, List.mem_cons, List.mem_map, List.not_mem_nil, or_false] at hr
  rcases hr with ((((rfl | rfl | rfl | rfl) | ⟨k, -, rfl⟩) | rfl) | ⟨k, -, rfl⟩) | rfl | rfl | rfl <;>
    exact fun h => by cases h

/-- A text has at most 255 letters, and no newline or NUL among them. -/
theorem Delivered.bounds (h : Delivered s) : s.length ≤ 255 ∧ ∀ c ∈ s, c ≠ '\n' ∧ c ≠ '\x00' := by
  obtain ⟨input, hin⟩ := h
  obtain ⟨r, hr, w, hw, hact⟩ := mem_tokens hin
  have hstring : r = dqstringRule ∨ r = stringRule := by
    rcases List.mem_append.1 hr with habove | hr
    · exact absurd hact (rulesAbove_action habove w s)
    · unfold rulesBelow at hr
      simp only [List.mem_cons, List.not_mem_nil, or_false] at hr
      rcases hr with rfl | rfl | rfl | rfl | rfl | rfl
      · exact Or.inl rfl
      · exact Or.inr rfl
      all_goals cases hact
  rcases hstring with rfl | rfl
  · cases hact
    exact dqstring_bounds hw
  · cases hact
    obtain ⟨-, hlen, hchars⟩ := mem_string.1 hw
    exact ⟨hlen.trans (by decide), fun c hc => isStringChar_ne (hchars c hc)⟩

theorem escapeChar_mem (hc : c ≠ '\n') : escapeChar c ∈ dqElem.lang := by
  rw [mem_dqElem]
  unfold escapeChar
  split
  · exact Or.inr ⟨c, hc, rfl⟩
  · rename_i h
    rw [Bool.or_eq_true, not_or, decide_eq_true_eq, decide_eq_true_eq] at h
    refine Or.inl ⟨c, ?_, rfl⟩
    simp only [List.mem_cons, List.not_mem_nil, or_false, not_or]
    exact ⟨h.2, h.1, hc⟩

theorem cText_doubleQuoteString (hz : ∀ c ∈ s, c ≠ '\x00') :
    cText (doubleQuoteString s) = doubleQuoteString s := by
  unfold cText
  rw [List.takeWhile_eq_self_iff]
  intro c hc
  unfold doubleQuoteString at hc
  simp only [List.cons_append, List.mem_cons, List.mem_append, List.mem_flatMap, List.not_mem_nil,
    or_false] at hc
  rw [decide_eq_true_eq]
  rcases hc with rfl | ⟨d, hd, hcd⟩ | rfl
  · decide
  · unfold escapeChar at hcd
    split at hcd
    · simp only [List.mem_cons, List.not_mem_nil, or_false] at hcd
      rcases hcd with rfl | rfl
      · decide
      · exact hz c hd
    · rw [List.mem_singleton.1 hcd]
      exact hz d hd
  · decide

/-- **A quoted string reads back.** -/
theorem tokens_doubleQuoteString (hlen : s.length ≤ 255) (hs : ∀ c ∈ s, c ≠ '\n' ∧ c ≠ '\x00') :
    tokens scannerRules (doubleQuoteString s) = [.string s] := by
  have hmem : doubleQuoteString s ∈ dqstring.lang := by
    refine mem_dqstring.2 ⟨s.map escapeChar, ?_, ?_, ?_⟩
    · rwa [List.length_map]
    · intro e he
      obtain ⟨c, hc, rfl⟩ := List.mem_map.1 he
      exact escapeChar_mem (hs c hc).1
    · rw [← List.flatMap_def]
      rfl
  have hpick : pick scannerRules (doubleQuoteString s) =
      some ((doubleQuoteString s).length, dqstringRule.action) :=
    pick_whole hmem fun r hr => rulesAbove_not_dq hr
  have hne : doubleQuoteString s ≠ [] := List.cons_ne_nil _ _
  rw [tokens_whole hne hpick]
  unfold dqstringRule
  dsimp only
  rw [cText_doubleQuoteString fun c hc => (hs c hc).2]
  exact congrArg (fun txt => [Token.string txt]) (unescape_escape s)

theorem colon_mem_ipv6addr (h : w ∈ ipv6addr.lang) : ':' ∈ w := by
  unfold ipv6addr at h
  rcases mem_alt.1 h with h | h
  · obtain ⟨u, -, v, hv, rfl⟩ := mem_seq.1 h
    obtain ⟨v, -, rfl⟩ := mem_chr_seq.1 hv
    exact List.mem_append_right u List.mem_cons_self
  · obtain ⟨v, -, rfl⟩ := mem_chr_seq.1 h
    exact List.mem_cons_self

/-- Which rules match a bare string. -/
theorem rulesAbove_match_iff (hs : ∀ c ∈ s, isStringChar c = true) :
    (∃ r ∈ rulesAbove, s ∈ r.pattern.lang) ↔ OtherToken s := by
  have hnot : ∀ c, isStringChar c = false → c ∉ s := fun c hc hin => by
    rw [hs c hin] at hc
    cases hc
  constructor
  · rintro ⟨r, hr, hmem⟩
    unfold rulesAbove at hr
    simp only [List.mem_append, List.mem_cons, List.mem_map, List.not_mem_nil, or_false] at hr
    rcases hr with ((((rfl | rfl | rfl | rfl) | ⟨k, -, rfl⟩) | rfl) | ⟨k, -, rfl⟩) | rfl | rfl | rfl
    · rw [mem_chr.1 hmem] at hnot
      exact absurd List.mem_cons_self (hnot '\n' (by decide))
    · obtain ⟨v, -, rfl⟩ := mem_chr_seq.1 hmem
      exact absurd List.mem_cons_self (hnot '#' (by decide))
    · obtain ⟨c, hc, rfl⟩ := mem_cls.1 hmem
      have hws : [' ', '\t', '\r'].all (!isStringChar ·) = true := by decide
      have hstr := List.all_eq_true.1 hws c (by simpa using hc)
      exact absurd List.mem_cons_self (hnot c ((Bool.not_eq_true' _).mp hstr))
    · obtain ⟨c, hc, rfl⟩ := mem_cls.1 hmem
      have hop : ['\x7b', '\x7d', ';', '[', ']', ':'].all (!isStringChar ·) = true := by decide
      have hstr := List.all_eq_true.1 hop c (by simpa using hc)
      exact absurd List.mem_cons_self (hnot c ((Bool.not_eq_true' _).mp hstr))
    · exact Or.inl ⟨k, (mem_text.1 hmem).symm⟩
    · exact Or.inr (Or.inl hmem)
    · exact Or.inl ⟨k, (mem_text.1 hmem).symm⟩
    · exact Or.inr (Or.inr (Or.inl hmem))
    · exact absurd (colon_mem_ipv6addr hmem) (hnot ':' (by decide))
    · exact Or.inr (Or.inr (Or.inr hmem))
  · rintro (⟨k, rfl⟩ | h | h | h)
    · exact ⟨keywordRule k, keyword_rules k, mem_text.2 rfl⟩
    · exact ⟨⟨kmodvers, fun w => some (.kmodvers w)⟩, by simp [rulesAbove], h⟩
    · exact ⟨⟨ipv4addr, fun w => some (.ipaddr w)⟩, by simp [rulesAbove], h⟩
    · exact ⟨⟨num, fun w => some (.integer w)⟩, by simp [rulesAbove], h⟩

/-- **A bare string reads back unless it is another token.** -/
theorem tokens_bare_iff (hne : s ≠ []) (hq : needsQuotes s = false) :
    tokens scannerRules s = [.string s] ↔ ¬OtherToken s := by
  unfold needsQuotes at hq
  rw [Bool.or_eq_false_iff, List.any_eq_false, decide_eq_false_iff_not, Nat.not_lt] at hq
  obtain ⟨hchars, hlen⟩ := hq
  have hchars : ∀ c ∈ s, isStringChar c = true := fun c hc => by simpa using hchars c hc
  rw [← rulesAbove_match_iff hchars]
  constructor
  · rintro htok hmatch
    obtain ⟨r, hr, -, hpick⟩ := pick_whole_mem (dqstringRule :: stringRule :: rulesBelow) hmatch
    rw [scannerRules, tokens_whole hne hpick] at htok
    cases ha : r.action s with
    | none =>
      rw [ha] at htok
      cases htok
    | some t =>
      rw [ha] at htok
      injection htok with ht
      exact rulesAbove_action hr s s (ha.trans (congrArg some ht))
  · intro hnone
    have hmem : s ∈ string.lang :=
      mem_string.2 ⟨List.length_pos_iff.2 hne, hlen.trans (by decide), hchars⟩
    have hpick : pick ((rulesAbove ++ [dqstringRule]) ++ stringRule :: rulesBelow) s =
        some (s.length, stringRule.action) := by
      refine pick_whole hmem fun r hr hin => ?_
      rcases List.mem_append.1 hr with hr | hr
      · exact hnone ⟨r, hr, hin⟩
      · rw [List.mem_singleton.1 hr] at hin
        obtain ⟨es, -, -, rfl⟩ := mem_dqstring.1 hin
        exact absurd (hchars '"' List.mem_cons_self) (by decide)
    rw [List.append_assoc] at hpick
    exact tokens_whole hne hpick

/-- The buffer of `esc` is large enough. -/
theorem escLoop_eq {e : List Char} (h : e.length + 2 * s.length < 1022) :
    escLoop s e = some (e ++ s.flatMap escapeChar ++ ['"']) := by
  induction s generalizing e with
  | nil => rw [List.flatMap_nil, List.append_nil, escLoop]
  | cons c s ih =>
    rw [List.length_cons] at h
    rw [escLoop, List.flatMap_cons, escapeChar, Bool.or_comm]
    by_cases hc : (decide (c = '\\') || decide (c = '"')) = true
    · have h1 : ¬1022 ≤ (e ++ ['\\']).length := by
        rw [List.length_append, List.length_singleton]
        omega
      have h2 : (e ++ ['\\'] ++ [c]).length = e.length + 2 := by simp
      rw [if_pos hc, if_pos hc, if_neg h1, if_neg (by omega), ih (by omega)]
      simp
    · have h1 : (e ++ [c]).length = e.length + 1 := by simp
      rw [if_neg hc, if_neg hc, if_neg (by omega), if_neg (by omega), ih (by omega)]
      simp

/-- What is printed for a text is read back as one string with this text. -/
def ReadsBack (s : List Char) : Prop :=
  (∃ out, esc s = some out ∧ tokens scannerRules out = [.string s]) ∧
    tokens scannerRules (doubleQuoteString s) = [.string s]

/-- Every quoted string of up to 255 letters is delivered. -/
theorem delivered_of_bounds (hlen : s.length ≤ 255) (hs : ∀ c ∈ s, c ≠ '\n' ∧ c ≠ '\x00') :
    Delivered s :=
  ⟨doubleQuoteString s, by rw [tokens_doubleQuoteString hlen hs]; exact List.mem_singleton_self _⟩

/-- **What is delivered reads back unless `esc` leaves another token bare.** -/
theorem readsBack_iff (h : Delivered s) :
    ReadsBack s ↔ s = [] ∨ needsQuotes s = true ∨ ¬OtherToken s := by
  obtain ⟨hlen, hs⟩ := h.bounds
  have hquoted := tokens_doubleQuoteString hlen hs
  unfold ReadsBack
  rw [and_iff_left hquoted]
  unfold esc
  by_cases hne : s = []
  · subst hne
    exact iff_of_true ⟨_, if_pos rfl, hquoted⟩ (Or.inl rfl)
  · rw [if_neg hne, or_iff_right hne]
    cases hq : needsQuotes s with
    | true =>
      have hloop : escLoop s ['"'] = some (doubleQuoteString s) :=
        escLoop_eq (by rw [List.length_singleton]; omega)
      exact iff_of_true ⟨_, hloop, hquoted⟩ (Or.inl rfl)
    | false =>
      rw [← tokens_bare_iff hne hq, or_iff_right Bool.false_ne_true]
      constructor
      · rintro ⟨out, hout, htok⟩
        cases hout
        exact htok
      · exact fun htok => ⟨s, rfl, htok⟩

/-- A text with a blank is quoted. -/
theorem readsBack_blank : ReadsBack ['a', ' ', 'b'] :=
  (readsBack_iff (delivered_of_bounds (by decide) (by simp))).2 (Or.inr (Or.inl rfl))

/-- The text `on` of a quoted string is printed bare, and then it is a keyword. -/
theorem keyword_not_readsBack : Delivered ['o', 'n'] ∧ ¬ReadsBack ['o', 'n'] := by
  refine ⟨delivered_of_bounds (by decide) (by simp), ?_⟩
  rintro ⟨⟨out, hout, htok⟩, -⟩
  cases hout
  exact (tokens_bare_iff (by decide) rfl).1 htok (Or.inl ⟨.on, rfl⟩)

end DrbdUtils.Adm.Scanner
