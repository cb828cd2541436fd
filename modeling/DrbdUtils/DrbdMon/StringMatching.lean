import DrbdUtils.Lib.Wildcard

/-!
# drbdmon's selection patterns

`string_matching.cpp`: a pattern is split at its stars, and the fragments are looked for from left to
right, the last one from the right.

* `processPattern_eq` — which fragments are kept, and when there are too many of them.
* `matchText_iff` — what a text is matched by.
* `pattern_means_iff` — a match means what the pattern says unless the last fragment overlaps with the
  others.
-/

set_option autoImplicit false

namespace DrbdUtils.DrbdMon.StringMatching

open Wildcard

abbrev Text := List Char

/-! ## Model -/

/-- `PATTERN_LIMIT`. -/
def patternLimit : Nat := 20

inductive PatternLimitException where
  | thrown
  deriving DecidableEq, Repr

/-- The loop of `process_pattern` over the fragments between the stars, each with its offset. -/
def processFragments (patternLength offset patternCount : Nat) :
    List Text → Except PatternLimitException (List Text)
  | [] => .ok []
  | fragment :: rest =>
    if fragment.length ≠ 0 ∨ offset = 0 ∨ offset = patternLength then
      if patternLimit < patternCount + 1 then .error .thrown
      else
        (fragment :: ·) <$>
          processFragments patternLength (offset + fragment.length + 1) (patternCount + 1) rest
    else processFragments patternLength (offset + fragment.length + 1) patternCount rest

/-- `process_pattern`. -/
def processPattern (pattern : Text) : Except PatternLimitException (List Text) :=
  processFragments pattern.length 0 0 (pattern.splitOn '*')

/-- The loop of `match_text`. -/
def matchItems (text : Text) (offset : Nat) (anchorStart : Bool) : List Text → Bool
  | [] => true
  | item :: next =>
    let anchorEnd := next.isEmpty
    match if anchorEnd then rfind text item else find text item offset with
    | some idx =>
      if (!anchorStart || idx == 0) && (!anchorEnd || idx == text.length - item.length) then
        matchItems text (idx + item.length) false next
      else false
    | none => false

/-- `match_text`. -/
def matchText (text : Text) (patternList : List Text) : Bool := matchItems text 0 true patternList

/-! ## The fragments that are kept -/

/-- Behind the first fragment the empty ones are dropped, apart from the last. -/
def kept : List Text → List Text
  | [] => []
  | [last] => [last]
  | fragment :: rest => if fragment = [] then kept rest else fragment :: kept rest

theorem kept_concat (items : List Text) (last : Text) :
    kept (items ++ [last]) = items.filter (· ≠ []) ++ [last] := by
  induction items with
  | nil => rfl
  | cons item items ih =>
    obtain ⟨next, rest, hrest⟩ : ∃ next rest, items ++ [last] = next :: rest :=
      List.exists_cons_of_ne_nil (by simp)
    rw [List.cons_append, hrest, kept, ← hrest, ih]
    · by_cases hitem : item = []
      · subst hitem
        rw [if_pos rfl, List.filter_cons_of_neg (by simp)]
      · rw [if_neg hitem, List.filter_cons_of_pos (by simpa using hitem)]
        rfl
    · exact nofun

/-- The length of a pattern with these fragments. -/
def joinedLength : List Text → Nat
  | [] => 0
  | [last] => last.length
  | fragment :: rest => fragment.length + 1 + joinedLength rest

theorem joinedLength_pieces (pattern : Text) : joinedLength (pieces '*' pattern) = pattern.length := by
  induction pattern with
  | nil => rfl
  | cons c pattern ih =>
    obtain ⟨item, items, hitems⟩ := List.exists_cons_of_ne_nil (pieces_ne_nil '*' pattern)
    by_cases hc : c = '*'
    · subst hc
      rw [pieces_cons_star, hitems]
      rw [hitems] at ih
      rw [joinedLength, ih, List.length_cons, List.length_nil]
      · omega
      · exact nofun
    · rw [pieces_cons hc, hitems, List.modifyHead_cons]
      rw [hitems] at ih
      cases items with
      | nil =>
        rw [joinedLength] at ih ⊢
        rw [List.length_cons, List.length_cons, ih]
      | cons next rest =>
        rw [joinedLength] at ih ⊢
        · rw [List.length_cons, List.length_cons]
          omega
        · exact nofun
        · exact nofun

theorem processFragments_eq {patternLength offset patternCount : Nat} {items : List Text}
    (hitems : items ≠ []) (hoffset : 0 < offset) (hlength : offset + joinedLength items = patternLength) :
    processFragments patternLength offset patternCount items =
      if patternLimit < patternCount + (kept items).length then .error .thrown else .ok (kept items) := by
  induction items generalizing offset patternCount with
  | nil => exact absurd rfl hitems
  | cons fragment rest ih =>
    cases rest with
    | nil =>
      rw [processFragments, if_pos]
      · rfl
      · rw [joinedLength] at hlength
        omega
    | cons next rest =>
      rw [joinedLength] at hlength
      · have hih := fun count => @ih (offset + fragment.length + 1) count (List.cons_ne_nil _ _)
          (Nat.succ_pos _) (by omega)
        rw [processFragments, kept]
        · by_cases hfragment : fragment = []
          · subst hfragment
            rw [if_neg, if_pos rfl, hih]
            rw [List.length_nil]
            omega
          · have hpos : fragment.length ≠ 0 := fun h => hfragment (List.eq_nil_of_length_eq_zero h)
            rw [if_pos (Or.inl hpos), if_neg hfragment, hih, List.length_cons]
            split
            · next hlimit => rw [if_pos (by omega)]
            · next hlimit =>
              split
              · next hrest => rw [if_pos (by omega)]; rfl
              · next hrest => rw [if_neg (by omega)]; rfl
        · exact nofun
      · exact nofun

/-- The items of a pattern. -/
def fragments (pattern : Text) : List Text :=
  match pieces '*' pattern with
  | [] => []
  | first :: rest => first :: kept rest

theorem kept_length_le (items : List Text) : (kept items).length ≤ items.length := by
  rcases List.eq_nil_or_concat items with rfl | ⟨front, last, rfl⟩
  · exact Nat.le_refl 0
  · rw [List.concat_eq_append, kept_concat, List.length_append, List.length_append]
    exact Nat.add_le_add_right (List.length_filter_le _ _) _

theorem fragments_length_le (pattern : Text) : (fragments pattern).length ≤ (pattern.splitOn '*').length := by
  obtain ⟨first, rest, hrest⟩ := List.exists_cons_of_ne_nil (pieces_ne_nil '*' pattern)
  rw [show pattern.splitOn '*' = first :: rest from hrest, fragments, hrest]
  exact Nat.succ_le_succ (kept_length_le rest)

theorem processPattern_eq (pattern : Text) :
    processPattern pattern =
      if patternLimit < (fragments pattern).length then .error .thrown else .ok (fragments pattern) := by
  have hlength := joinedLength_pieces pattern
  obtain ⟨first, rest, hrest⟩ := List.exists_cons_of_ne_nil (pieces_ne_nil '*' pattern)
  rw [processPattern, show pattern.splitOn '*' = first :: rest from hrest, fragments, hrest,
    processFragments, if_pos (Or.inr (Or.inl rfl)), if_neg (by decide)]
  rw [hrest] at hlength
  cases rest with
  | nil => rfl
  | cons next rest =>
    rw [joinedLength] at hlength
    · rw [processFragments_eq (List.cons_ne_nil _ _) (by omega) (by omega), List.length_cons,
        Nat.add_comm 0 1, Nat.add_comm 1]
      split <;> rfl
    · exact nofun

/-! ## The match -/

/-- The loop behind the first item. -/
theorem matchItems_iff {text : Text} {offset : Nat} (hoffset : offset ≤ text.length) (items : List Text)
    (last : Text) :
    matchItems text offset false (items ++ [last]) = true ↔
      Follows (items ++ [[]]) (text.drop offset) ∧ last <:+ text := by
  induction items generalizing offset with
  | nil =>
    rw [List.nil_append, matchItems, ← rfind_end]
    have hgap : Follows [[]] (text.drop offset) := ⟨text.drop offset, [], by simp, rfl⟩
    simp only [List.isEmpty_nil, if_true, List.nil_append, hgap, true_and, Bool.not_false, Bool.true_or,
      Bool.not_true, Bool.false_or, Bool.true_and, beq_iff_eq]
    cases rfind text last with
    | none => simp
    | some idx => simp [matchItems]
  | cons item items ih =>
    have hnext : (items ++ [last]).isEmpty = false := by simp
    rw [List.cons_append, matchItems, hnext]
    simp only [Bool.false_eq_true, if_false, Bool.not_false, Bool.true_or, Bool.and_self, if_true]
    cases hfind : find text item offset with
    | none =>
      have hnot : ¬Follows (item :: (items ++ [[]])) (text.drop offset) :=
        not_follows_of_find hoffset hfind
      simpa using fun h => absurd h hnot
    | some idx =>
      obtain ⟨-, hlen, hpre, -⟩ := find_eq_some hfind
      have hle : idx + item.length ≤ text.length := by
        have := hpre.length_le
        rw [List.length_drop] at this
        omega
      rw [List.cons_append, follows_find (by simp) hfind]
      exact ih hle

/-- A text without a star has to be the pattern; otherwise the front of the pattern has to fit the front of
    the text, and the last item its end. -/
theorem matchText_iff (text first : Text) (items : List Text) (last : Text) :
    matchText text (first :: (items ++ [last])) = true ↔
      Pieces (first :: (items ++ [[]])) text ∧ last <:+ text := by
  have hnext : (items ++ [last]).isEmpty = false := by simp
  rw [matchText, matchItems, hnext]
  simp only [Bool.false_eq_true, if_false, Bool.not_true, Bool.false_or, Bool.not_false, Bool.true_or,
    Bool.and_true, beq_iff_eq]
  cases hfind : find text first 0 with
  | none =>
    have hnot : ¬first <+: text := find_eq_none hfind (Nat.le_refl 0) (Nat.zero_le _)
    refine iff_of_false Bool.false_ne_true ?_
    rintro ⟨⟨rest, rfl, -⟩, -⟩
    exact hnot (List.prefix_append first rest)
  | some idx =>
    obtain ⟨-, -, hpre, hfirst⟩ := find_eq_some hfind
    by_cases hidx : idx = 0
    · subst hidx
      obtain ⟨rest, rfl⟩ := hpre
      dsimp only
      rw [if_pos rfl, matchItems_iff (by simp)]
      simp [Pieces]
    · dsimp only
      rw [if_neg hidx]
      refine iff_of_false Bool.false_ne_true ?_
      rintro ⟨⟨rest, rfl, -⟩, -⟩
      exact hfirst 0 (Nat.le_refl 0) (Nat.pos_of_ne_zero hidx) (List.prefix_append first rest)

theorem matchText_single (text pattern : Text) : matchText text [pattern] = true ↔ text = pattern := by
  rw [matchText, matchItems]
  simp only [List.isEmpty_nil, if_true, Bool.not_true, Bool.false_or]
  constructor
  · intro h
    cases hrfind : rfind text pattern with
    | none => rw [hrfind] at h; cases h
    | some idx =>
      rw [hrfind] at h
      simp only [Bool.and_eq_true, beq_iff_eq] at h
      split at h
      · next hidx =>
        have hsuffix : pattern <:+ text := rfind_end.1 ⟨idx, hrfind, hidx.2⟩
        apply (hsuffix.eq_of_length_le _).symm
        omega
      · cases h
  · rintro rfl
    obtain ⟨idx, hrfind, hidx⟩ := rfind_end.2 (List.suffix_refl text)
    rw [hrfind, hidx]
    simp [matchItems]

/-! ## What a pattern means -/

/-- Where the text has the last fragment at its end and fits the front of the pattern, it fits it with the
    two apart. -/
def LastApart (pattern text : Text) : Prop :=
  ∀ front last, pattern = front ++ '*' :: last → '*' ∉ last →
    Instance '*' (front ++ ['*']) text → last <:+ text →
    ∃ rest, text = rest ++ last ∧ Instance '*' (front ++ ['*']) rest

/-- The part behind the last star. -/
theorem exists_last {pattern : Text} (h : '*' ∈ pattern) :
    ∃ front last, pattern = front ++ '*' :: last ∧ '*' ∉ last := by
  induction pattern with
  | nil => cases h
  | cons c pattern ih =>
    by_cases hrest : '*' ∈ pattern
    · obtain ⟨front, last, rfl, hlast⟩ := ih hrest
      exact ⟨c :: front, last, rfl, hlast⟩
    · obtain rfl : '*' = c := (List.mem_cons.1 h).resolve_right hrest
      exact ⟨[], pattern, rfl, hrest⟩

theorem last_unique {front front' last last' : Text} (h : front ++ '*' :: last = front' ++ '*' :: last')
    (hlast : '*' ∉ last) (hlast' : '*' ∉ last') : front = front' ∧ last = last' := by
  have hpieces := congrArg (pieces '*') h
  rw [pieces_append, pieces_append, pieces_plain hlast, pieces_plain hlast'] at hpieces
  have heq : last = last' := by simpa using congrArg List.getLast? hpieces
  subst heq
  exact ⟨List.append_cancel_right h, rfl⟩

/-- The kept fragments fit where all do. -/
theorem pieces_filter (first : Text) (items : List Text) (last text : Text) :
    Pieces (first :: (items.filter (· ≠ []) ++ [last])) text ↔ Pieces (first :: (items ++ [last])) text := by
  simp only [Pieces, follows_filter]

theorem pieces_star (front : Text) : pieces '*' (front ++ ['*']) = pieces '*' front ++ [[]] := by
  rw [pieces_append, pieces_plain List.not_mem_nil]

/-- A pattern with a star is matched when its front and its last fragment fit the text. -/
theorem matchText_star (front : Text) {last : Text} (hlast : '*' ∉ last) (text : Text) :
    matchText text (fragments (front ++ '*' :: last)) = true ↔
      Instance '*' (front ++ ['*']) text ∧ last <:+ text := by
  obtain ⟨first, items, hitems⟩ := List.exists_cons_of_ne_nil (pieces_ne_nil '*' front)
  rw [instance_iff_pieces, pieces_star, fragments, pieces_append, pieces_plain hlast, hitems]
  simp only [List.cons_append, kept_concat]
  rw [matchText_iff, pieces_filter]

/-- An instance of a pattern with a star has its last fragment behind an instance of its front. -/
theorem instance_star (front : Text) {last : Text} (hlast : '*' ∉ last) (text : Text) :
    Instance '*' (front ++ '*' :: last) text ↔
      ∃ rest, text = rest ++ last ∧ Instance '*' (front ++ ['*']) rest := by
  obtain ⟨first, items, hitems⟩ := List.exists_cons_of_ne_nil (pieces_ne_nil '*' front)
  simp only [instance_iff_pieces, pieces_star]
  rw [pieces_append, pieces_plain hlast, hitems]
  simp only [List.cons_append, Pieces]
  constructor
  · rintro ⟨rest, rfl, hrest⟩
    obtain ⟨gap, rfl, hgap⟩ := (follows_concat items last rest).1 hrest
    exact ⟨first ++ gap, (List.append_assoc _ _ _).symm, gap, rfl, hgap⟩
  · rintro ⟨_, rfl, gap, rfl, hgap⟩
    exact ⟨gap ++ last, List.append_assoc _ _ _, (follows_concat items last _).2 ⟨gap, rfl, hgap⟩⟩

/-- What fits the front of a pattern fits it with more behind. -/
theorem instance_append {front rest : Text} (h : Instance '*' (front ++ ['*']) rest) (last : Text) :
    Instance '*' (front ++ ['*']) (rest ++ last) := by
  obtain ⟨first, items, hitems⟩ := List.exists_cons_of_ne_nil (pieces_ne_nil '*' front)
  rw [instance_iff_pieces, pieces_star, hitems] at h ⊢
  obtain ⟨gap, rfl, hgap⟩ := h
  exact ⟨gap ++ last, List.append_assoc _ _ _, hgap.append last⟩

/-- A pattern without a star is kept as it is. -/
theorem fragments_plain {pattern : Text} (h : '*' ∉ pattern) : fragments pattern = [pattern] := by
  rw [fragments, pieces_plain h]
  rfl

theorem instance_plain {pattern : Text} (h : '*' ∉ pattern) (text : Text) :
    Instance '*' pattern text ↔ text = pattern := by
  rw [instance_iff_pieces, pieces_plain h]
  constructor
  · rintro ⟨rest, rfl, rfl⟩
    exact List.append_nil _
  · rintro rfl
    exact ⟨[], (List.append_nil _).symm, rfl⟩

/-- A pattern that is not refused matches the texts it stands for, apart from those in which the last
    fragment is found only where it overlaps with the others; and only one with more stars than the limit
    has fragments is refused. -/
theorem pattern_means_iff (pattern : Text) :
    (∀ list, processPattern pattern = .ok list → ∀ text,
      ((matchText text list = true ↔ Instance '*' pattern text) ↔ LastApart pattern text)) ∧
      (processPattern pattern = .error .thrown → patternLimit < (pattern.splitOn '*').length) := by
  constructor
  · intro list hlist text
    rw [processPattern_eq] at hlist
    split at hlist
    · cases hlist
    · cases hlist
      by_cases hstar : '*' ∈ pattern
      · obtain ⟨front, last, rfl, hlast⟩ := exists_last hstar
        rw [matchText_star front hlast, instance_star front hlast]
        constructor
        · intro hmatch front' last' heq hlast' hinstance hsuffix
          obtain ⟨rfl, rfl⟩ := last_unique heq hlast hlast'
          exact hmatch.1 ⟨hinstance, hsuffix⟩
        · intro hapart
          constructor
          · rintro ⟨hinstance, hsuffix⟩
            exact hapart front last rfl hlast hinstance hsuffix
          · rintro ⟨rest, rfl, hrest⟩
            exact ⟨instance_append hrest last, List.suffix_append rest last⟩
      · rw [fragments_plain hstar, matchText_single, instance_plain hstar]
        refine iff_of_true Iff.rfl ?_
        rintro front last rfl -
        exact absurd (by simp) hstar
  · intro herror
    rw [processPattern_eq] at herror
    split at herror
    · next hlimit =>
      exact Nat.lt_of_lt_of_le hlimit (fragments_length_le pattern)
    · cases herror

theorem pattern_means_iff_two :
    (matchText "ab".toList ["a".toList, "b".toList] = true ↔ Instance '*' "a*b".toList "ab".toList) ↔
      LastApart "a*b".toList "ab".toList :=
  (pattern_means_iff "a*b".toList).1 _ (by decide) _

/-- The pattern "a*a" matches "a". -/
theorem overlap_matched :
    processPattern "a*a".toList = .ok ["a".toList, "a".toList] ∧
      matchText "a".toList ["a".toList, "a".toList] = true ∧ ¬Instance '*' "a*a".toList "a".toList := by
  refine ⟨by decide, by decide, ?_⟩
  rw [show "a*a".toList = "a".toList ++ '*' :: "a".toList from rfl, instance_star _ (by decide)]
  rintro ⟨rest, hrest, hinstance⟩
  have hnil : rest = [] := by
    have := congrArg List.length hrest
    rw [List.length_append] at this
    exact List.eq_nil_of_length_eq_zero (by simpa using this)
  subst hnil
  rw [instance_iff_pieces] at hinstance
  obtain ⟨gap, hgap, -⟩ := hinstance
  exact absurd (congrArg List.length hgap) (by simp)

end DrbdUtils.DrbdMon.StringMatching
